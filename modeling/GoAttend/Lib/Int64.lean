import GoAttend.Lib.GoScan

/-! Go's `int64` arithmetic over ℤ: `+` and `-` wrap around modulo `2^64`, and the difference of
two monotonic clock readings, `subMono` under `time.Time.Sub`, saturates at the ends of the
range. -/

namespace GoAttend.Lib.Int64

open GoScan

/-- The `int64` an exact result wraps to. -/
def wrap64 (v : ℤ) : ℤ := (v + 2 ^ 63) % 2 ^ 64 - 2 ^ 63

/-- `subMono`: a difference out of range is the nearest end of it. -/
def sat64 (v : ℤ) : ℤ := max (-2 ^ 63) (min (2 ^ 63 - 1) v)

theorem wrap64_of_fits {v : ℤ} (h : Fits64 v) : wrap64 v = v := by
  obtain ⟨h1, h2⟩ := h
  unfold wrap64
  rw [Int.emod_eq_of_lt (by omega) (by omega)]
  omega

theorem sat64_of_fits {v : ℤ} (h : Fits64 v) : sat64 v = v := by
  obtain ⟨h1, h2⟩ := h
  unfold sat64
  omega

end GoAttend.Lib.Int64
