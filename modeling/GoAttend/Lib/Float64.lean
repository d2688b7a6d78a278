import GoAttend.Lib.Rounding
import GoAttend.Lib.GoScan
import Mathlib.Data.Int.Log

/-! IEEE 754 binary64, Go's `float64`, over an ordered field with a floor: an operation gives its
exact result rounded to 53 significant bits, to nearest with ties to even, with subnormal numbers
down to `2^-1074`. Overflow to infinity is left out: the values it is used on here stay far below
`2^1024`. Converting a float to `int64` truncates toward zero, and gives `math.MinInt64` for a
value out of range, as amd64's conversion instruction does. -/

namespace GoAttend.Lib.Float64

open Rounding GoScan

variable {K : Type*} [Field K] [LinearOrder K] [IsStrictOrderedRing K] [FloorRing K]

/-- The exponent of the last place of the binary64 numbers about `x`. -/
def ulpExp (x : K) : ℤ := max (Int.log 2 |x| - 52) (-1074)

/-- `x` rounded to binary64. -/
def fl (x : K) : K := roundHalfEven (x / ((2 : ℕ) : K) ^ ulpExp x) * ((2 : ℕ) : K) ^ ulpExp x

/-- `int64(x)`. -/
def toInt64 (x : K) : ℤ :=
  let n := if 0 ≤ x then ⌊x⌋ else ⌈x⌉
  if Fits64 n then n else -2 ^ 63

/-! ## Rounding -/

theorem two_zpow_pos (e : ℤ) : (0 : K) < ((2 : ℕ) : K) ^ e := zpow_pos (by norm_num) e

theorem roundHalfEven_intCast (n : ℤ) : roundHalfEven (n : K) = n :=
  roundHalfEven_eq_of_abs_lt (by rw [sub_self, abs_zero]; norm_num)

@[simp] theorem fl_zero : fl (0 : K) = 0 := by
  have h := roundHalfEven_intCast (K := K) 0
  rw [Int.cast_zero] at h
  simp [fl, h]

/-- Half a last place about a nonzero `x` is at most `2^-53` of `x`, or, among subnormals, far
below `2^-200`. -/
theorem half_ulp_le {x : K} (hx : x ≠ 0) :
    ((2 : ℕ) : K) ^ ulpExp x / 2 ≤ |x| / 2 ^ 53 + 1 / 2 ^ 200 := by
  have h2 : ((2 : ℕ) : K) = 2 := by norm_num
  have hx0 : 0 ≤ |x| / 2 ^ 53 := by positivity
  rcases le_total (Int.log 2 |x| - 52) (-1074) with hsub | hnorm
  · -- subnormal: the last place is `2^-1074`
    rw [ulpExp, max_eq_right hsub]
    have hle : ((2 : ℕ) : K) ^ (-1074 : ℤ) ≤ ((2 : ℕ) : K) ^ (-199 : ℤ) :=
      zpow_le_zpow_right₀ (by norm_num) (by norm_num)
    have he : ((2 : ℕ) : K) ^ (-199 : ℤ) / 2 = 1 / 2 ^ 200 := by
      rw [zpow_neg, h2, zpow_ofNat]
      ring
    have : ((2 : ℕ) : K) ^ (-1074 : ℤ) / 2 ≤ ((2 : ℕ) : K) ^ (-199 : ℤ) / 2 :=
      div_le_div_of_nonneg_right hle (by norm_num)
    linarith
  · rw [ulpExp, max_eq_left hnorm]
    have hpos : 0 < |x| := abs_pos.mpr hx
    have hlog : ((2 : ℕ) : K) ^ Int.log 2 |x| ≤ |x| := Int.zpow_log_le_self (by norm_num) hpos
    have he : ((2 : ℕ) : K) ^ (Int.log 2 |x| - 52) / 2 = ((2 : ℕ) : K) ^ Int.log 2 |x| / 2 ^ 53 := by
      rw [zpow_sub₀ (by norm_num), zpow_ofNat, h2]
      ring
    rw [he]
    have : ((2 : ℕ) : K) ^ Int.log 2 |x| / 2 ^ 53 ≤ |x| / 2 ^ 53 :=
      div_le_div_of_nonneg_right hlog (by positivity)
    have : (0 : K) ≤ 1 / 2 ^ 200 := by positivity
    linarith

/-- Rounding moves a value by at most `2^-53` of it, or, among subnormals, far below `2^-200`. -/
theorem abs_fl_sub_le (x : K) : |fl x - x| ≤ |x| / 2 ^ 53 + 1 / 2 ^ 200 := by
  by_cases hx : x = 0
  · subst hx
    simp only [fl_zero, sub_zero, abs_zero]
    positivity
  have hq := two_zpow_pos (K := K) (ulpExp x)
  have he : fl x - x = -((x / ((2 : ℕ) : K) ^ ulpExp x - roundHalfEven (x / ((2 : ℕ) : K) ^ ulpExp x))
      * ((2 : ℕ) : K) ^ ulpExp x) := by
    rw [fl, sub_mul, div_mul_cancel₀ _ hq.ne']
    ring
  calc |fl x - x|
      = |x / ((2 : ℕ) : K) ^ ulpExp x - roundHalfEven (x / ((2 : ℕ) : K) ^ ulpExp x)| *
          ((2 : ℕ) : K) ^ ulpExp x := by
        rw [he, abs_neg, abs_mul, abs_of_pos hq]
    _ ≤ 1 / 2 * ((2 : ℕ) : K) ^ ulpExp x :=
        mul_le_mul_of_nonneg_right (abs_sub_roundHalfEven_le _) hq.le
    _ = ((2 : ℕ) : K) ^ ulpExp x / 2 := by ring
    _ ≤ |x| / 2 ^ 53 + 1 / 2 ^ 200 := half_ulp_le hx

theorem fl_le {x : K} (hx : 0 ≤ x) : fl x ≤ x + x / 2 ^ 53 + 1 / 2 ^ 200 := by
  have h := abs_fl_sub_le x
  rw [abs_of_nonneg hx, abs_le] at h
  linarith [h.2]

theorem le_fl {x : K} (hx : 0 ≤ x) : x - x / 2 ^ 53 - 1 / 2 ^ 200 ≤ fl x := by
  have h := abs_fl_sub_le x
  rw [abs_of_nonneg hx, abs_le] at h
  linarith [h.1]

theorem fl_nonneg {x : K} (hx : 0 ≤ x) : 0 ≤ fl x := by
  have hq := two_zpow_pos (K := K) (ulpExp x)
  have hr : roundHalfEven (0 : K) ≤ roundHalfEven (x / ((2 : ℕ) : K) ^ ulpExp x) :=
    roundHalfEven_mono (div_nonneg hx hq.le)
  rw [← Int.cast_zero, roundHalfEven_intCast] at hr
  exact mul_nonneg (by exact_mod_cast hr) hq.le

theorem fl_nonpos {x : K} (hx : x ≤ 0) : fl x ≤ 0 := by
  have hq := two_zpow_pos (K := K) (ulpExp x)
  have hr : roundHalfEven (x / ((2 : ℕ) : K) ^ ulpExp x) ≤ roundHalfEven (0 : K) :=
    roundHalfEven_mono (div_nonpos_of_nonpos_of_nonneg hx hq.le)
  rw [← Int.cast_zero, roundHalfEven_intCast] at hr
  exact mul_nonpos_of_nonpos_of_nonneg (by exact_mod_cast hr) hq.le

/-- A number of 53 significant bits whose last place is not below `2^-1074` is its own rounding. -/
theorem fl_eq_self {m k : ℤ} (hm : |m| < 2 ^ 53) (hk : -1074 ≤ k) :
    fl ((m : K) * ((2 : ℕ) : K) ^ k) = m * ((2 : ℕ) : K) ^ k := by
  by_cases hm0 : m = 0
  · simp [hm0]
  have hpk := two_zpow_pos (K := K) k
  have hx : 0 < |(m : K) * ((2 : ℕ) : K) ^ k| := by
    rw [abs_mul, abs_of_pos hpk]
    exact mul_pos (by exact_mod_cast abs_pos.mpr hm0) hpk
  -- the value is below `2^(53 + k)`, so its last place is at most `2^k`
  have hlt : |(m : K) * ((2 : ℕ) : K) ^ k| < ((2 : ℕ) : K) ^ (53 + k) := by
    rw [abs_mul, abs_of_pos hpk, zpow_add₀ (by norm_num)]
    refine mul_lt_mul_of_pos_right ?_ hpk
    calc |(m : K)| = ((|m| : ℤ) : K) := Int.cast_abs.symm
      _ < ((2 ^ 53 : ℤ) : K) := Int.cast_lt.mpr hm
      _ = ((2 : ℕ) : K) ^ (53 : ℤ) := by norm_num
  have hlog := (Int.lt_zpow_iff_log_lt (by norm_num) hx).mp hlt
  have he : ulpExp ((m : K) * ((2 : ℕ) : K) ^ k) ≤ k := by
    rw [ulpExp]
    omega
  obtain ⟨j, hj⟩ : ∃ j : ℕ, k = ulpExp ((m : K) * ((2 : ℕ) : K) ^ k) + j :=
    ⟨(k - ulpExp ((m : K) * ((2 : ℕ) : K) ^ k)).toNat, by omega⟩
  have hpe := two_zpow_pos (K := K) (ulpExp ((m : K) * ((2 : ℕ) : K) ^ k))
  -- scaled to its last place, the value is the integer `m * 2^j`
  have hscaled : (m : K) * ((2 : ℕ) : K) ^ k / ((2 : ℕ) : K) ^ ulpExp ((m : K) * ((2 : ℕ) : K) ^ k) =
      ((m * 2 ^ j : ℤ) : K) := by
    rw [div_eq_iff hpe.ne']
    nth_rewrite 1 [hj]
    rw [zpow_add₀ (by norm_num), zpow_natCast]
    push_cast
    ring
  rw [fl, hscaled, roundHalfEven_intCast, ← hscaled, div_mul_cancel₀ _ hpe.ne']

theorem fl_intCast {m : ℤ} (hm : |m| < 2 ^ 53) : fl (m : K) = m := by
  simpa using fl_eq_self (K := K) hm (k := 0) (by norm_num)

/-! ## Conversion to `int64` -/

omit [IsStrictOrderedRing K] in
theorem toInt64_of_nonneg {x : K} (h0 : 0 ≤ x) (h : x < 2 ^ 63) : toInt64 x = ⌊x⌋ := by
  have hf : Fits64 ⌊x⌋ := by
    constructor
    · have := Int.floor_nonneg.mpr h0
      omega
    · exact Int.floor_lt.mpr (by exact_mod_cast h)
  simp only [toInt64, if_pos h0, if_pos hf]

theorem toInt64_nonpos {x : K} (h : x ≤ 0) : toInt64 x ≤ 0 := by
  unfold toInt64
  dsimp only
  have hc : ⌈x⌉ ≤ 0 := Int.ceil_le.mpr (by simpa using h)
  split_ifs with h0 hf
  · have : ⌊x⌋ ≤ 0 := Int.floor_le_iff.mpr (by push_cast; linarith)
    exact this
  · norm_num
  · exact hc
  · norm_num

end GoAttend.Lib.Float64
