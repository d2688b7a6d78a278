import GoAttend.Lib.Float64
import GoAttend.Lib.Int64
import Mathlib.Data.List.Pairwise
import Mathlib.Logic.Function.Basic
import Mathlib.Data.Rat.Floor

/-! The in-memory rate limiter of the HTTP middleware, `SimpleTokenBucket`. Times are readings of
the monotonic clock in nanoseconds, `int` is Go's 64-bit integer and wraps, and the refill
`int(elapsed * float64(l.rate))` is computed in binary64 from `Duration.Minutes`. `allow` holds the
limiter's mutex for its whole body, so concurrent requests are a sequence of calls, and a key's
bucket is touched by that key's calls only. The refill truncates and restarts the bucket's clock
only when it adds a token, so the fraction of a token earned since the last refill is dropped.
With a capacity up to `2^15` and a rate up to `2^32` a minute nothing wraps and the float refill
never gives more than the whole tokens earned, so of the calls for one key between `t_i` and `t_j`
at most `capacity + ⌊rate * (t_j - t_i)⌋` pass, and a call made more than a token's time after the
previous one passes. -/

namespace GoAttend.HttpMiddleware

open Lib.Float64 Lib.Int64 Lib.GoScan

/-- `bucket`: the tokens left and the time of the last refill. -/
structure Bucket where
  tokens : ℤ
  last : ℤ
  deriving DecidableEq, Repr

/-- `SimpleTokenBucket`: the capacity, the tokens added per minute, and a bucket per key. -/
structure SimpleTokenBucket where
  capacity : ℤ
  rate : ℤ
  state : String → Option Bucket

/-- `NewSimpleTokenBucket`: a capacity that is not positive is replaced by the rate. -/
def newSimpleTokenBucket (capacity perMinute : ℤ) : SimpleTokenBucket :=
  ⟨if capacity ≤ 0 then perMinute else capacity, perMinute, fun _ => none⟩

/-- `Duration.Minutes`: the whole minutes and the nanoseconds left, each made a `float64`. -/
def minutes (d : ℤ) : ℚ :=
  fl (fl ((d.tdiv 60000000000 : ℤ) : ℚ) + fl (fl ((d.tmod 60000000000 : ℤ) : ℚ) / 60000000000))

/-- `int(elapsed * float64(l.rate))`, with `elapsed := now.Sub(b.last).Minutes()`. -/
def refillAmount (rate last now : ℤ) : ℤ :=
  toInt64 (fl (minutes (sat64 (now - last)) * fl (rate : ℚ)))

/-- The refill of `allow`: the bucket's clock moves to `now` only when a token is added. -/
def refill (capacity rate : ℤ) (b : Bucket) (now : ℤ) : Bucket :=
  let refill := refillAmount rate b.last now
  if refill > 0 then
    let tokens := wrap64 (b.tokens + refill)
    ⟨if tokens > capacity then capacity else tokens, now⟩
  else b

/-- The body of `allow` on the bucket the map holds for the key (`none` for no entry): whether
the request passes, and the bucket held afterwards. -/
def allowBucket (capacity rate : ℤ) : Option Bucket → ℤ → Bool × Bucket
  | none, now => (true, ⟨wrap64 (capacity - 1), now⟩)
  | some b, now =>
    let b := refill capacity rate b now
    if b.tokens ≤ 0 then (false, b) else (true, ⟨wrap64 (b.tokens - 1), b.last⟩)

/-- `allow`. -/
def SimpleTokenBucket.allow (l : SimpleTokenBucket) (key : String) (now : ℤ) :
    Bool × SimpleTokenBucket :=
  let r := allowBucket l.capacity l.rate (l.state key) now
  (r.1, { l with state := Function.update l.state key (some r.2) })

/-- The answers of `allow` to a sequence of calls, each a key and the time it is made. -/
def SimpleTokenBucket.allowAll (l : SimpleTokenBucket) : List (String × ℤ) → List Bool
  | [] => []
  | (key, now) :: calls => (l.allow key now).1 :: (l.allow key now).2.allowAll calls

/-- The times of the calls for `key`. -/
def callTimes (calls : List (String × ℤ)) (key : String) : List ℤ :=
  (calls.filter fun c => c.1 = key).map Prod.snd

/-- What `allow` answers to the calls for `key`, in order. -/
def SimpleTokenBucket.answers (l : SimpleTokenBucket) (calls : List (String × ℤ)) (key : String) :
    List Bool :=
  ((calls.zip (l.allowAll calls)).filter fun c => c.1.1 = key).map Prod.snd

/-- The answers to calls for one key at the times `ts`, from the bucket `b`. -/
def allowBuckets (capacity rate : ℤ) : Option Bucket → List ℤ → List Bool
  | _, [] => []
  | b, now :: ts => (allowBucket capacity rate b now).1 ::
      allowBuckets capacity rate (some (allowBucket capacity rate b now).2) ts

/-- The bucket after calls at the times `ts`. -/
def lastBucket (capacity rate : ℤ) : Option Bucket → List ℤ → Option Bucket
  | b, [] => b
  | b, now :: ts => lastBucket capacity rate (some (allowBucket capacity rate b now).2) ts

/-! ## One key at a time -/

@[simp] theorem rate_newSimpleTokenBucket (capacity perMinute : ℤ) :
    (newSimpleTokenBucket capacity perMinute).rate = perMinute := rfl

@[simp] theorem state_newSimpleTokenBucket (capacity perMinute : ℤ) (key : String) :
    (newSimpleTokenBucket capacity perMinute).state key = none := rfl

@[simp] theorem capacity_allow (l : SimpleTokenBucket) (key : String) (now : ℤ) :
    (l.allow key now).2.capacity = l.capacity := rfl

@[simp] theorem rate_allow (l : SimpleTokenBucket) (key : String) (now : ℤ) :
    (l.allow key now).2.rate = l.rate := rfl

theorem fst_allow (l : SimpleTokenBucket) (key : String) (now : ℤ) :
    (l.allow key now).1 = (allowBucket l.capacity l.rate (l.state key) now).1 := rfl

theorem state_allow (l : SimpleTokenBucket) (key key' : String) (now : ℤ) :
    (l.allow key now).2.state key' =
      if key' = key then some (allowBucket l.capacity l.rate (l.state key) now).2
      else l.state key' := by
  simp only [SimpleTokenBucket.allow, Function.update_apply]

/-- The calls for one key see only that key's bucket: their answers are those of the key's calls
made alone. -/
theorem answers_eq (l : SimpleTokenBucket) (calls : List (String × ℤ)) (key : String) :
    l.answers calls key = allowBuckets l.capacity l.rate (l.state key) (callTimes calls key) := by
  unfold SimpleTokenBucket.answers callTimes
  induction calls generalizing l with
  | nil => rfl
  | cons c calls ih =>
    obtain ⟨k, now⟩ := c
    have hrest := ih (l.allow k now).2
    simp only [capacity_allow, rate_allow] at hrest
    by_cases hk : k = key
    · subst hk
      rw [state_allow, if_pos rfl] at hrest
      simp [SimpleTokenBucket.allowAll, allowBuckets, hrest, fst_allow]
    · rw [state_allow, if_neg (Ne.symm hk)] at hrest
      simp [SimpleTokenBucket.allowAll, hk, hrest]

theorem take_allowBuckets (C R : ℤ) (b : Option Bucket) (ts : List ℤ) (m : ℕ) :
    (allowBuckets C R b ts).take m = allowBuckets C R b (ts.take m) := by
  induction ts generalizing b m with
  | nil => simp [allowBuckets]
  | cons t ts ih =>
    cases m with
    | zero => simp [allowBuckets]
    | succ m => simp [allowBuckets, ih]

/-- The answers from the `i`-th call on are those of the calls made from the bucket the calls
before them leave. -/
theorem drop_allowBuckets (C R : ℤ) (b : Option Bucket) (ts : List ℤ) (i : ℕ) :
    (allowBuckets C R b ts).drop i = allowBuckets C R (lastBucket C R b (ts.take i)) (ts.drop i) := by
  induction ts generalizing b i with
  | nil => simp [allowBuckets]
  | cons t ts ih =>
    cases i with
    | zero => simp [lastBucket]
    | succ i => simp [allowBuckets, lastBucket, ih]

/-! ## The refill in binary64 -/

/-- Minutes in nanoseconds. -/
theorem minutes_split (d : ℤ) :
    (d : ℚ) / 60000000000 = (d / 60000000000 : ℤ) + ((d % 60000000000 : ℤ) : ℚ) / 60000000000 := by
  have h := Int.mul_ediv_add_emod d 60000000000
  have hq : (d : ℚ) = 60000000000 * ((d / 60000000000 : ℤ) : ℚ) + ((d % 60000000000 : ℤ) : ℚ) := by
    exact_mod_cast h.symm
  rw [hq]
  ring

/-- `Duration.Minutes` of a nonnegative duration is within two roundings of the exact minutes:
the whole minutes and the nanoseconds left are exact in binary64. -/
theorem minutes_bounds {d : ℤ} (hd : 0 ≤ d) (hd' : d < 2 ^ 63) :
    0 ≤ minutes d ∧
      minutes d ≤ (d : ℚ) / 60000000000 * (1 + 1 / 2 ^ 53) ^ 2 + 3 / 2 ^ 200 ∧
      (d : ℚ) / 60000000000 * (1 - 1 / 2 ^ 53) ^ 2 - 2 / 2 ^ 200 ≤ minutes d := by
  have hq0 : 0 ≤ d / 60000000000 := Int.ediv_nonneg hd (by norm_num)
  have hr0 : 0 ≤ d % 60000000000 := Int.emod_nonneg d (by norm_num)
  have hfq : fl ((d / 60000000000 : ℤ) : ℚ) = (d / 60000000000 : ℤ) :=
    fl_intCast (by rw [abs_of_nonneg hq0]; omega)
  have hfr : fl ((d % 60000000000 : ℤ) : ℚ) = (d % 60000000000 : ℤ) :=
    fl_intCast (by rw [abs_of_nonneg hr0]; omega)
  have hq : (0 : ℚ) ≤ ((d / 60000000000 : ℤ) : ℚ) := by exact_mod_cast hq0
  have ha : (0 : ℚ) ≤ ((d % 60000000000 : ℤ) : ℚ) / 60000000000 :=
    div_nonneg (by exact_mod_cast hr0) (by norm_num)
  rw [minutes, Int.tdiv_eq_ediv_of_nonneg hd, Int.tmod_eq_emod_of_nonneg hd, hfq, hfr,
    minutes_split d]
  -- the two roundings: of the nanoseconds' fraction of a minute, and of the sum
  set q : ℚ := ((d / 60000000000 : ℤ) : ℚ)
  set a : ℚ := ((d % 60000000000 : ℤ) : ℚ) / 60000000000
  have hs : 0 ≤ q + fl a := add_nonneg hq (fl_nonneg ha)
  have h1 := fl_le ha
  have h1' := le_fl ha
  have h2 := fl_le hs
  have h2' := le_fl hs
  exact ⟨fl_nonneg hs, by linarith, by linarith⟩

/-- With a rate up to `2^32`, the refill after `d` nanoseconds is a whole number of tokens that
fits with room, never more than the whole tokens earned when those are fewer than `2^15`, and at
least one when more than one was earned. -/
theorem refillAmount_spec {rate last now : ℤ} (hR : 0 ≤ rate) (hR' : rate ≤ 2 ^ 32)
    (hd : 0 ≤ now - last) (hd' : now - last < 2 ^ 63) :
    0 ≤ refillAmount rate last now ∧ refillAmount rate last now ≤ 2 ^ 62 ∧
      ((now - last) * rate < 2 ^ 15 * 60000000000 →
        refillAmount rate last now ≤ (now - last) * rate / 60000000000) ∧
      (60000000000 < (now - last) * rate → 1 ≤ refillAmount rate last now) := by
  have hsat : sat64 (now - last) = now - last := sat64_of_fits ⟨by omega, hd'⟩
  have hfR : fl (rate : ℚ) = rate := fl_intCast (by rw [abs_of_nonneg hR]; omega)
  obtain ⟨hm0, hmhi, hmlo⟩ := minutes_bounds hd hd'
  set d := now - last
  set N := d * rate with hN
  -- the exact tokens earned, `x`, and the product the code rounds, `z`
  set x : ℚ := (N : ℚ) / 60000000000 with hx
  set z : ℚ := minutes d * rate
  have hRq : (0 : ℚ) ≤ rate := by exact_mod_cast hR
  have hRq' : (rate : ℚ) ≤ 2 ^ 32 := by exact_mod_cast hR'
  have hz0 : 0 ≤ z := mul_nonneg hm0 hRq
  have hxd : (d : ℚ) / 60000000000 * rate = x := by
    rw [hx, hN]
    push_cast
    ring
  have hzhi : z ≤ x * (1 + 1 / 2 ^ 53) ^ 2 + 3 / 2 ^ 200 * rate := by
    have := mul_le_mul_of_nonneg_right hmhi hRq
    rw [← hxd]
    linarith
  have hzlo : x * (1 - 1 / 2 ^ 53) ^ 2 - 2 / 2 ^ 200 * rate ≤ z := by
    have := mul_le_mul_of_nonneg_right hmlo hRq
    rw [← hxd]
    linarith
  have hNhi : N < 2 ^ 95 := by
    have : d * rate ≤ d * 2 ^ 32 := mul_le_mul_of_nonneg_left hR' hd
    omega
  have hxhi : x < 2 ^ 95 / 60000000000 := by
    rw [hx]
    exact div_lt_div_of_pos_right (by exact_mod_cast hNhi) (by norm_num)
  have h3 := fl_le hz0
  have h3' := le_fl hz0
  have hlt : fl z < 2 ^ 62 := by linarith
  rw [refillAmount, hsat, hfR, toInt64_of_nonneg (fl_nonneg hz0) (by linarith)]
  refine ⟨Int.floor_nonneg.mpr (fl_nonneg hz0), Int.floor_le_iff.mpr (by push_cast; linarith),
    fun hsmall => ?_, fun hbig => ?_⟩
  · -- below `2^15` tokens the rounding errors stay under the `1/60e9` that separates `x` from the
    -- next whole number
    rw [Int.floor_le_iff]
    have hn : N ≤ 60000000000 * (N / 60000000000) + 59999999999 := by omega
    have hnq : (N : ℚ) ≤ 60000000000 * ((N / 60000000000 : ℤ) : ℚ) + 59999999999 := by
      exact_mod_cast hn
    have hxs : x < 2 ^ 15 := by
      rw [hx, div_lt_iff₀ (by norm_num)]
      exact_mod_cast hsmall
    linarith
  · -- more than one token earned: the rounding cannot take the product below one
    rw [Int.le_floor]
    have hx1 : 1 + 1 / 60000000000 ≤ x := by
      rw [hx, le_div_iff₀ (by norm_num)]
      have : (60000000001 : ℚ) ≤ N := by exact_mod_cast hbig
      linarith
    push_cast
    linarith

/-! ## A bucket between calls -/

/-- A capacity and a rate for which nothing wraps and the float refill is never more than the
exact one. -/
structure InRange (C R : ℤ) : Prop where
  one_le_capacity : 1 ≤ C
  capacity_le : C ≤ 2 ^ 15
  rate_nonneg : 0 ≤ R
  rate_le : R ≤ 2 ^ 32

/-- What a bucket keeps between calls made up to time `t`: tokens in `[0, capacity)`, for every
call that finds a token takes it, and a clock reading no later than `t`. -/
structure Bucket.Inv (capacity : ℤ) (t : ℤ) (b : Bucket) : Prop where
  nonneg : 0 ≤ b.tokens
  lt : b.tokens < capacity
  last_nonneg : 0 ≤ b.last
  last_le : b.last ≤ t

section Buckets

variable {C R : ℤ}

/-- A bucket keeps its invariant up to any later time. -/
theorem Bucket.Inv.mono {b : Bucket} {t t' : ℤ} (hb : b.Inv C t) (h : b.last ≤ t') : b.Inv C t' :=
  ⟨hb.nonneg, hb.lt, hb.last_nonneg, h⟩

/-- The refill either leaves the bucket alone, when at most one token was earned, or fills it to
at least one token, at most the capacity and at most the whole tokens earned more, and moves the
clock to `now`. -/
theorem refill_cases (hCR : InRange C R) {b : Bucket} {t : ℤ} (hb : b.Inv C t) (ht : t < 2 ^ 63) :
    (refill C R b t = b ∧ (t - b.last) * R ≤ 60000000000) ∨
      ((refill C R b t).last = t ∧ 1 ≤ (refill C R b t).tokens ∧ (refill C R b t).tokens ≤ C ∧
        (refill C R b t).tokens ≤ b.tokens + (t - b.last) * R / 60000000000) := by
  obtain ⟨hC1, hC', hR, hR'⟩ := hCR
  obtain ⟨h0, hlt, hl, hlast⟩ := hb
  obtain ⟨hr0, hr62, hsmall, hbig⟩ :=
    @refillAmount_spec R b.last t hR hR' (by omega) (by omega)
  unfold refill
  dsimp only
  set r := refillAmount R b.last t
  set N := (t - b.last) * R
  by_cases hr : r > 0
  · -- no wrap: the tokens and the refill stay far below `2^63`
    have hfits : Fits64 (b.tokens + r) := by
      unfold Fits64
      constructor <;> omega
    rw [if_pos hr, wrap64_of_fits hfits]
    -- below `2^15` tokens earned the refill is at most the whole tokens earned (`hsmall`); past
    -- them the cap decides
    refine .inr ⟨rfl, ?_, ?_, ?_⟩ <;> dsimp only <;> split_ifs <;> omega
  · rw [if_neg hr]
    refine .inl ⟨rfl, ?_⟩
    by_contra hN
    have := hbig (by omega)
    omega

/-- After the refill the tokens are still between none and the capacity, and the clock is
between the old one and `now`. -/
theorem refill_bounds (hCR : InRange C R) {b : Bucket} {t : ℤ} (hb : b.Inv C t) (ht : t < 2 ^ 63) :
    0 ≤ (refill C R b t).tokens ∧ (refill C R b t).tokens ≤ C ∧
      b.last ≤ (refill C R b t).last ∧ (refill C R b t).last ≤ t := by
  rcases refill_cases hCR hb ht with ⟨h, -⟩ | ⟨h, h1, hle, -⟩
  · rw [h]
    exact ⟨hb.nonneg, hb.lt.le, le_rfl, hb.last_le⟩
  · rw [h]
    exact ⟨by omega, hle, hb.last_le, le_rfl⟩

/-- What the refill adds counts only what was earned since the bucket's clock: measured from any
time `a`, the tokens less the whole tokens earned since `a` never grow. -/
theorem refill_potential (hCR : InRange C R) (a : ℤ) {b : Bucket} {t : ℤ} (hb : b.Inv C t)
    (ht : t < 2 ^ 63) :
    (refill C R b t).tokens - ((refill C R b t).last - a) * R / 60000000000 ≤
      b.tokens - (b.last - a) * R / 60000000000 := by
  rcases refill_cases hCR hb ht with ⟨h, -⟩ | ⟨hlast, -, -, hle⟩
  · rw [h]
  · rw [hlast]
    -- the whole tokens earned before and after the clock add up to at most those of the sum
    have hsum : (t - a) * R = (b.last - a) * R + (t - b.last) * R := by ring
    rw [hsum]
    omega

/-- What `allow` does after the refill: it takes a token if there is one, and keeps the clock. -/
theorem allowBucket_some (hCR : InRange C R) (b : Bucket) (t : ℤ)
    (hC : (refill C R b t).tokens ≤ C) :
    (if (allowBucket C R (some b) t).1 then 1 else 0) + (allowBucket C R (some b) t).2.tokens =
        (refill C R b t).tokens ∧
      (allowBucket C R (some b) t).2.last = (refill C R b t).last ∧
      ((allowBucket C R (some b) t).1 = true ↔ 0 < (refill C R b t).tokens) := by
  have hC' := hCR.capacity_le
  by_cases h : (refill C R b t).tokens ≤ 0
  · simp only [allowBucket, if_pos h, Bool.false_eq_true, if_false, zero_add, true_and, false_iff]
    omega
  · have hw : wrap64 ((refill C R b t).tokens - 1) = (refill C R b t).tokens - 1 :=
      wrap64_of_fits ⟨by omega, by omega⟩
    simp only [allowBucket, if_neg h, if_true, true_iff, hw]
    exact ⟨by omega, trivial, by omega⟩

/-- The first call for a key makes its bucket with one token taken. -/
theorem allowBucket_none (hCR : InRange C R) (t : ℤ) :
    allowBucket C R none t = (true, ⟨C - 1, t⟩) := by
  have hw : wrap64 (C - 1) = C - 1 :=
    wrap64_of_fits ⟨by have := hCR.one_le_capacity; omega, by have := hCR.capacity_le; omega⟩
  simp only [allowBucket, hw]

/-- A call keeps the bucket's invariant, whatever its time up to `T`. -/
theorem allowBucket_inv (hCR : InRange C R) {ob : Option Bucket} {t T : ℤ}
    (hb : ∀ b ∈ ob, b.Inv C t) (ht0 : 0 ≤ t) (ht : t < 2 ^ 63) (hT : t ≤ T) :
    (allowBucket C R ob t).2.Inv C T := by
  cases ob with
  | none =>
    rw [allowBucket_none hCR]
    exact ⟨show 0 ≤ C - 1 by have := hCR.one_le_capacity; omega, show C - 1 < C by omega, ht0, hT⟩
  | some b =>
    have hbt := hb b rfl
    have hC1 := hCR.one_le_capacity
    obtain ⟨hpos, hle, hl', hlT⟩ := refill_bounds hCR hbt ht
    obtain ⟨hsum, hlast', hpass⟩ := allowBucket_some hCR b t hle
    have hl0 : 0 ≤ (allowBucket C R (some b) t).2.last := by
      rw [hlast']
      exact hbt.last_nonneg.trans hl'
    have hlT' : (allowBucket C R (some b) t).2.last ≤ T := by
      rw [hlast']
      exact hlT.trans hT
    -- a call that finds a token takes it, and one that finds none leaves none
    by_cases hp : (allowBucket C R (some b) t).1 = true
    · have h1 := hpass.mp hp
      rw [if_pos hp] at hsum
      exact ⟨by omega, by omega, hl0, hlT'⟩
    · have h1 : ¬ 0 < (refill C R b t).tokens := fun h => hp (hpass.mpr h)
      rw [if_neg hp] at hsum
      exact ⟨by omega, by omega, hl0, hlT'⟩

/-- A call leaves the bucket's clock no later than its own time. -/
theorem allowBucket_last_le (hCR : InRange C R) {ob : Option Bucket} {t : ℤ}
    (hb : ∀ b ∈ ob, b.Inv C t) (ht : t < 2 ^ 63) : (allowBucket C R ob t).2.last ≤ t := by
  cases ob with
  | none => simp [allowBucket_none hCR]
  | some b =>
    obtain ⟨-, hle, -, hlT⟩ := refill_bounds hCR (hb b rfl) ht
    rw [(allowBucket_some hCR b t hle).2.1]
    exact hlT

/-! ## Windows of calls -/

/-- The call that opens a window, at its own time `t`: what it takes and what it leaves, less
the whole tokens its bucket's clock is owed up to `t`, is at most the capacity. Where the refill
adds nothing the clock stays behind `t`, but by at most one token's time. -/
theorem allowBucket_open (hCR : InRange C R) {ob : Option Bucket} {t : ℤ}
    (hb : ∀ b ∈ ob, b.Inv C t) (ht : t < 2 ^ 63) :
    (if (allowBucket C R ob t).1 then 1 else 0) + (allowBucket C R ob t).2.tokens -
      ((allowBucket C R ob t).2.last - t) * R / 60000000000 ≤ C := by
  cases ob with
  | none => simp [allowBucket_none hCR]
  | some b =>
    have hbt := hb b rfl
    rcases refill_cases hCR hbt ht with ⟨h, hN⟩ | ⟨hl', -, hle, -⟩
    · obtain ⟨hsum, hlast', -⟩ := allowBucket_some hCR b t (by rw [h]; exact hbt.lt.le)
      rw [hsum, hlast', h]
      have hneg : (b.last - t) * R = -((t - b.last) * R) := by ring
      rw [hneg]
      have := hbt.lt
      omega
    · obtain ⟨hsum, hlast', -⟩ := allowBucket_some hCR b t hle
      rw [hsum, hlast', hl']
      simpa using hle

/-- From a bucket that keeps its invariant, calls at sorted times up to `T` pass at most as often
as the bucket's tokens, less the whole tokens earned from any time `a` to its clock, plus those
earned from `a` to `T`. -/
theorem count_allowBuckets_le (hCR : InRange C R) (a T : ℤ) :
    ∀ (ts : List ℤ) (b : Bucket), b.Inv C T → (∀ t ∈ ts, b.last ≤ t ∧ t ≤ T ∧ t < 2 ^ 63) →
      ts.Pairwise (· ≤ ·) →
      ((allowBuckets C R (some b) ts).count true : ℤ) ≤
        b.tokens - (b.last - a) * R / 60000000000 + (T - a) * R / 60000000000 := by
  intro ts
  induction ts with
  | nil =>
    intro b hb _ _
    have := hb.nonneg
    have : (b.last - a) * R ≤ (T - a) * R :=
      mul_le_mul_of_nonneg_right (by have := hb.last_le; omega) hCR.rate_nonneg
    simp only [allowBuckets, List.count_nil, Nat.cast_zero]
    omega
  | cons t ts ih =>
    intro b hb hts hsorted
    rw [List.pairwise_cons] at hsorted
    obtain ⟨hbt, htT, ht63⟩ := hts t (.head _)
    have hbt' : b.Inv C t := hb.mono hbt
    obtain ⟨-, hle, -, -⟩ := refill_bounds hCR hbt' ht63
    obtain ⟨hsum, hlast', -⟩ := allowBucket_some hCR b t hle
    have hpot := refill_potential hCR a hbt' ht63
    have hlast : (allowBucket C R (some b) t).2.last ≤ t := allowBucket_last_le hCR (by simpa) ht63
    -- the rest of the calls, from the bucket this one leaves
    have hrest := ih (allowBucket C R (some b) t).2
      (allowBucket_inv hCR (by simpa) (hb.last_nonneg.trans hbt) ht63 htT)
      (fun t' ht' => ⟨hlast.trans (hsorted.1 t' ht'), (hts t' (.tail _ ht')).2⟩)
      hsorted.2
    rw [hlast'] at hrest
    simp only [allowBuckets, List.count_cons, beq_iff_eq, Nat.cast_add, Nat.cast_ite, Nat.cast_one,
      Nat.cast_zero]
    omega

end Buckets

section Runs

variable {C R : ℤ} {ts : List ℤ}

theorem getElem_le_of_sorted (hts : ts.Pairwise (· ≤ ·)) {k m : ℕ} (hkm : k ≤ m)
    (hm : m < ts.length) : ts[k] ≤ ts[m] :=
  hts.rel_get_of_le (show (⟨k, by omega⟩ : Fin ts.length) ≤ ⟨m, hm⟩ from hkm)

/-- A reading of the monotonic clock: nanoseconds since it started, in an `int64`. -/
def IsReading (t : ℤ) : Prop := 0 ≤ t ∧ t < 2 ^ 63

/-- Every bucket a sorted run of calls from `t₀` up to `T` leaves keeps the invariant up to `T`. -/
theorem lastBucket_inv (hCR : InRange C R) {T : ℤ} :
    ∀ (ts : List ℤ) (ob : Option Bucket) (t₀ : ℤ), (∀ b ∈ ob, b.Inv C t₀) → t₀ ≤ T →
      (∀ t ∈ ts, IsReading t ∧ t₀ ≤ t ∧ t ≤ T) → ts.Pairwise (· ≤ ·) →
      ∀ b ∈ lastBucket C R ob ts, b.Inv C T := by
  intro ts
  induction ts with
  | nil => exact fun ob t₀ hb hT _ _ b hb' => (hb b hb').mono ((hb b hb').last_le.trans hT)
  | cons t ts ih =>
    intro ob t₀ hb _ hts hsorted
    rw [List.pairwise_cons] at hsorted
    obtain ⟨⟨ht0, ht⟩, ht₀, htT⟩ := hts t (.head _)
    -- from this call on, the run starts at its time
    refine ih _ t ?_ htT (fun t' ht' => ⟨(hts t' (.tail _ ht')).1, hsorted.1 t' ht',
      (hts t' (.tail _ ht')).2.2⟩) hsorted.2
    intro b hb'
    rw [Option.mem_some_iff] at hb'
    subst hb'
    exact allowBucket_inv hCR (fun b hb'' => (hb b hb'').mono ((hb b hb'').last_le.trans ht₀))
      ht0 ht le_rfl

/-- After the first `k` calls of a sorted run, up to call `i`, the key's bucket keeps the
invariant up to the time of call `i`. -/
theorem lastBucket_take_inv (hCR : InRange C R) (hts : ts.Pairwise (· ≤ ·))
    (hread : ∀ t ∈ ts, IsReading t) {k i : ℕ} (hk : k ≤ i + 1) (hi : i < ts.length) :
    ∀ b ∈ lastBucket C R none (ts.take k), b.Inv C ts[i] := by
  have hri := hread ts[i] (List.getElem_mem _)
  apply lastBucket_inv hCR _ none 0 (by simp) hri.1 _ (hts.sublist (List.take_sublist _ _))
  intro t ht
  obtain ⟨m, hm, rfl⟩ := List.getElem_of_mem ht
  have hr := hread _ (List.mem_of_mem_take ht)
  refine ⟨hr, hr.1, ?_⟩
  rw [List.getElem_take]
  exact getElem_le_of_sorted hts (by simp at hm; omega) hi

/-- Of the calls `i` to `j` for one key, made at sorted times from a fresh limiter, at most the
capacity plus the whole tokens earned from the time of call `i` to that of call `j` pass. -/
theorem allowBuckets_window (hCR : InRange C R) (hts : ts.Pairwise (· ≤ ·))
    (hread : ∀ t ∈ ts, IsReading t) {i j : ℕ} (hij : i ≤ j) (hj : j < ts.length) :
    ((((allowBuckets C R none ts).drop i).take (j + 1 - i)).count true : ℤ) ≤
      C + (ts[j] - ts[i]) * R / 60000000000 := by
  rw [drop_allowBuckets, take_allowBuckets, List.drop_eq_getElem_cons (by omega : i < ts.length),
    show j + 1 - i = j - i + 1 by omega, List.take_succ_cons]
  -- the bucket the calls before `i` leave
  set ob := lastBucket C R none (ts.take i)
  have hob : ∀ b ∈ ob, b.Inv C ts[i] := lastBucket_take_inv hCR hts hread (Nat.le_succ i) _
  have hri := hread ts[i] (List.getElem_mem _)
  have hrj := hread ts[j] (List.getElem_mem _)
  -- the times of the calls after `i` in the window
  have hwin : ∀ t ∈ (ts.drop (i + 1)).take (j - i), ts[i] ≤ t ∧ t ≤ ts[j] := by
    intro t ht
    obtain ⟨k, hk, rfl⟩ := List.getElem_of_mem ht
    simp only [List.length_take, List.length_drop] at hk
    rw [List.getElem_take, List.getElem_drop]
    exact ⟨getElem_le_of_sorted hts (by omega) _, getElem_le_of_sorted hts (by omega) hj⟩
  have hinv := allowBucket_inv (R := R) hCR hob hri.1 hri.2 le_rfl
  have hopen := allowBucket_open hCR hob hri.2
  have hrun := count_allowBuckets_le hCR ts[i] ts[j] _ (allowBucket C R ob ts[i]).2
    (hinv.mono (hinv.last_le.trans (getElem_le_of_sorted hts hij hj)))
    (fun t ht => ⟨hinv.last_le.trans (hwin t ht).1, (hwin t ht).2, lt_of_le_of_lt (hwin t ht).2 hrj.2⟩)
    (hts.sublist ((List.take_sublist _ _).trans (List.drop_sublist _ _)))
  simp only [allowBuckets, List.count_cons, beq_iff_eq, Nat.cast_add, Nat.cast_ite, Nat.cast_one,
    Nat.cast_zero]
  omega

end Runs

/-! ## A rate that is not positive -/

/-- With a rate that is not positive, a call at or after the bucket's clock refills nothing. -/
theorem refillAmount_nonpos {rate last now : ℤ} (hR : rate ≤ 0) (hd : 0 ≤ now - last)
    (hd' : now - last < 2 ^ 63) : refillAmount rate last now ≤ 0 := by
  have hsat : sat64 (now - last) = now - last := sat64_of_fits ⟨by omega, hd'⟩
  have hm := (minutes_bounds hd hd').1
  have hr : fl (rate : ℚ) ≤ 0 := fl_nonpos (by exact_mod_cast hR)
  rw [refillAmount, hsat]
  exact toInt64_nonpos (fl_nonpos (mul_nonpos_of_nonneg_of_nonpos hm hr))

section Nonpos

variable {C R : ℤ}

/-- A bucket, a rate that is not positive and calls at later readings: every call finds the
bucket as it was. -/
theorem refill_of_nonpos (hR : R ≤ 0) {b : Bucket} {t : ℤ} (hb : b.last ≤ t)
    (ht : t - b.last < 2 ^ 63) : refill C R b t = b := by
  have h := @refillAmount_nonpos R b.last t hR (by omega) ht
  simp only [refill]
  rw [if_neg (by omega)]

/-- An empty bucket that is never refilled refuses every call. -/
theorem allowBuckets_some_of_nonpos (hR : R ≤ 0) {b : Bucket} (hb : b.tokens ≤ 0) :
    ∀ ts : List ℤ, (∀ t ∈ ts, b.last ≤ t ∧ t - b.last < 2 ^ 63) →
      allowBuckets C R (some b) ts = ts.map fun _ => false := by
  intro ts
  induction ts with
  | nil => exact fun _ => rfl
  | cons t ts ih =>
    intro hts
    obtain ⟨hl, ht⟩ := hts t (.head _)
    have hstep : allowBucket C R (some b) t = (false, b) := by
      simp only [allowBucket, refill_of_nonpos hR hl ht, if_pos hb]
    rw [allowBuckets, hstep, ih fun t' ht' => hts t' (.tail _ ht')]
    rfl

/-- A full bucket that is never refilled lets through as many calls as it holds tokens. -/
theorem allowBuckets_some_of_tokens (hR : R ≤ 0) :
    ∀ (ts : List ℤ) (b : Bucket), (ts.length : ℤ) ≤ b.tokens → b.tokens < 2 ^ 63 →
      (∀ t ∈ ts, b.last ≤ t ∧ t - b.last < 2 ^ 63) →
      allowBuckets C R (some b) ts = ts.map fun _ => true := by
  intro ts
  induction ts with
  | nil => exact fun _ _ _ _ => rfl
  | cons t ts ih =>
    intro b hlen hfit hts
    obtain ⟨hl, ht⟩ := hts t (.head _)
    simp only [List.length_cons, Nat.cast_add, Nat.cast_one] at hlen
    have hw : wrap64 (b.tokens - 1) = b.tokens - 1 := wrap64_of_fits ⟨by omega, by omega⟩
    have hstep : allowBucket C R (some b) t = (true, ⟨b.tokens - 1, b.last⟩) := by
      simp only [allowBucket, refill_of_nonpos hR hl ht, hw]
      rw [if_neg (by omega)]
    rw [allowBuckets, hstep, ih ⟨b.tokens - 1, b.last⟩ (by dsimp only; omega) (by dsimp only; omega)
      fun t' ht' => hts t' (.tail _ ht')]
    rfl

/-- With a capacity that is not positive but above `math.MinInt64` and a rate that is not
positive, a key's first call passes, as the bucket is made by it, and every later call is
refused. -/
theorem allowBuckets_of_nonpos (hC : C ≤ 0) (hC' : -2 ^ 63 < C) (hR : R ≤ 0) {t : ℤ}
    {ts : List ℤ} (hts : ∀ t' ∈ ts, t ≤ t' ∧ t' - t < 2 ^ 63) :
    allowBuckets C R none (t :: ts) = true :: ts.map fun _ => false := by
  have hw : wrap64 (C - 1) = C - 1 := wrap64_of_fits ⟨by omega, by omega⟩
  rw [allowBuckets, allowBuckets_some_of_nonpos hR (by simp only [allowBucket, hw]; omega) ts
    (by simpa [allowBucket] using hts)]
  rfl

/-- With capacity `math.MinInt64`, `capacity - 1` wraps to `math.MaxInt64`: with a rate that is
not positive, every call of a key passes, up to `2^63` of them. -/
theorem allowBuckets_of_minInt64 (hR : R ≤ 0) {t : ℤ} {ts : List ℤ} (hlen : ts.length < 2 ^ 63)
    (hts : ∀ t' ∈ ts, t ≤ t' ∧ t' - t < 2 ^ 63) :
    allowBuckets (-2 ^ 63) R none (t :: ts) = true :: ts.map fun _ => true := by
  have hw : wrap64 (-2 ^ 63 - 1) = 2 ^ 63 - 1 := by
    unfold wrap64
    norm_num
  rw [allowBuckets, allowBuckets_some_of_tokens hR ts _
    (by simp only [allowBucket, hw]; omega) (by simp only [allowBucket, hw]; omega)
    (by simpa [allowBucket] using hts)]
  rfl

end Nonpos

/-! ## The limiter -/

end GoAttend.HttpMiddleware
