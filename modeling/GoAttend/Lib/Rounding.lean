import Mathlib.Algebra.Order.Floor.Ring
import Mathlib.Algebra.Order.Field.Basic
import Mathlib.Algebra.Group.Int.Even
import Mathlib.Tactic.Ring
import Mathlib.Data.Int.ConditionallyCompleteOrder

/-! Rounding to a number of decimal places with ties to even, on an ordered field with a floor:
the rounding of exact values that Python's `round(x, d)` performs. -/

namespace GoAttend.Lib.Rounding

variable {K : Type*} [Field K] [LinearOrder K] [IsStrictOrderedRing K] [FloorRing K]

/-- The integer nearest to `x`; of two equally near, the even one. -/
def roundHalfEven (x : K) : ℤ :=
  if x - ⌊x⌋ < 1 / 2 then ⌊x⌋
  else if 1 / 2 < x - ⌊x⌋ then ⌊x⌋ + 1
  else if Even ⌊x⌋ then ⌊x⌋ else ⌊x⌋ + 1

/-- `x` rounded to `d` decimal places, ties to even. -/
def roundTo (d : ℕ) (x : K) : K := roundHalfEven (x * 10 ^ d) / 10 ^ d

omit [IsStrictOrderedRing K] in
/-- Rounding moves down to the floor or up to the next integer, and it moves up past a half. -/
theorem roundHalfEven_cases (x : K) :
    (roundHalfEven x = ⌊x⌋ ∧ x - ⌊x⌋ ≤ 1 / 2) ∨ (roundHalfEven x = ⌊x⌋ + 1 ∧ 1 / 2 ≤ x - ⌊x⌋) := by
  unfold roundHalfEven
  split_ifs with h1 h2 h3
  · exact Or.inl ⟨rfl, h1.le⟩
  · exact Or.inr ⟨rfl, h2.le⟩
  · exact Or.inl ⟨rfl, not_lt.mp h2⟩
  · exact Or.inr ⟨rfl, not_lt.mp h1⟩

theorem abs_sub_roundHalfEven_le (x : K) : |x - roundHalfEven x| ≤ 1 / 2 := by
  have hf := Int.floor_le x
  have hf' := Int.lt_floor_add_one x
  rw [abs_le]
  rcases roundHalfEven_cases x with ⟨h, hx⟩ | ⟨h, hx⟩
  · rw [h]
    constructor <;> linarith
  · rw [h, Int.cast_add, Int.cast_one]
    constructor <;> linarith

/-- A value less than a half from an integer rounds to it. -/
theorem roundHalfEven_eq_of_abs_lt {x : K} {n : ℤ} (h : |x - n| < 1 / 2) : roundHalfEven x = n := by
  have hr := abs_sub_roundHalfEven_le x
  have hlt : |((roundHalfEven x - n : ℤ) : K)| < 1 := by
    calc |((roundHalfEven x - n : ℤ) : K)| = |(x - n) - (x - roundHalfEven x)| := by
          push_cast
          congr 1
          ring
      _ ≤ |x - n| + |x - roundHalfEven x| := abs_sub _ _
      _ < 1 := by linarith
  have hz : |roundHalfEven x - n| < 1 := by exact_mod_cast hlt
  rw [abs_lt] at hz
  omega

/-- Ties to even never make rounding decrease: of two values with one floor, the larger is not
rounded down when the smaller is rounded up. -/
theorem roundHalfEven_mono : Monotone (roundHalfEven : K → ℤ) := by
  intro x y hxy
  have hfl : ⌊x⌋ ≤ ⌊y⌋ := Int.floor_mono hxy
  rcases lt_or_eq_of_le hfl with hlt | heq
  · -- a smaller floor: rounding `x` reaches at most `⌊x⌋ + 1 ≤ ⌊y⌋`
    rcases roundHalfEven_cases x with ⟨hx, -⟩ | ⟨hx, -⟩ <;>
      rcases roundHalfEven_cases y with ⟨hy, -⟩ | ⟨hy, -⟩ <;> omega
  · -- one floor: only a tie of `x` rounded up against `y` rounded down needs a look
    unfold roundHalfEven
    rw [heq]
    have hr : x - ⌊y⌋ ≤ y - ⌊y⌋ := by linarith
    split_ifs <;> first | omega | (exfalso; linarith)

/-- A value whose scaled form is less than a half from `n` rounds to `n / 10 ^ d`. -/
theorem roundTo_eq_of_abs_lt {d : ℕ} {x : K} {n : ℤ} (h : |x * 10 ^ d - n| < 1 / 2) :
    roundTo d x = n / 10 ^ d := by
  unfold roundTo
  rw [roundHalfEven_eq_of_abs_lt h]

/-- A value with at most `d` decimal places rounds to itself. -/
theorem roundTo_eq_self {d : ℕ} {x : K} {n : ℤ} (h : x * 10 ^ d = n) : roundTo d x = x := by
  have hpos : (10 : K) ^ d ≠ 0 := by positivity
  rw [roundTo_eq_of_abs_lt (n := n) (by rw [h, sub_self, abs_zero]; norm_num), ← h,
    mul_div_cancel_right₀ _ hpos]

end GoAttend.Lib.Rounding
