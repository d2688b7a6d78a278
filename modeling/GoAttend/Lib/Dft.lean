import GoAttend.Lib.Numpy
import Mathlib.RingTheory.RootsOfUnity.Complex

/-! The two-dimensional discrete Fourier transform as `numpy.fft.fft2` computes it, taken exactly,
and `numpy.fft.fftshift`. The twiddle factors of an axis of length `n` are the powers of one
primitive `n`-th root of unity, so their sum over a whole axis vanishes except at the zero
frequency; the transform of a constant array therefore has all its weight there. -/

noncomputable section

namespace GoAttend.Lib.Dft

open Complex Finset Numpy

variable {α : Type*}

/-- `exp(-2πi/n)`: the twiddle factor of frequency `u` at index `x` is `root n ^ (u * x)`. -/
def root (n : ℕ) : ℂ := exp (-((2 : ℕ) * Real.pi * I / n))

/-- `numpy.fft.fft2`: `A[u, v] = Σ a[r, c] · exp(-2πi (u r / h + v c / w))`. -/
def fft2 (g : Grid ℝ) : Grid ℂ :=
  ⟨g.rows, g.cols, fun u v => ∑ r ∈ range g.rows, ∑ c ∈ range g.cols,
    (g.get r c : ℂ) * root g.rows ^ (u * r) * root g.cols ^ (v * c)⟩

/-- `numpy.fft.fftshift`: each axis rolled by half its length, so that the zero frequency sits at
index `n / 2`. -/
def fftshift (g : Grid α) : Grid α :=
  ⟨g.rows, g.cols, fun i j =>
    g.get ((i + g.rows - g.rows / 2) % g.rows) ((j + g.cols - g.cols / 2) % g.cols)⟩

@[simp] theorem rows_fft2 (g : Grid ℝ) : (fft2 g).rows = g.rows := rfl
@[simp] theorem cols_fft2 (g : Grid ℝ) : (fft2 g).cols = g.cols := rfl
@[simp] theorem rows_fftshift (g : Grid α) : (fftshift g).rows = g.rows := rfl
@[simp] theorem cols_fftshift (g : Grid α) : (fftshift g).cols = g.cols := rfl

theorem get_fftshift (g : Grid α) (i j : ℕ) : (fftshift g).get i j =
    g.get ((i + g.rows - g.rows / 2) % g.rows) ((j + g.cols - g.cols / 2) % g.cols) := rfl

theorem isPrimitiveRoot_root {n : ℕ} (hn : n ≠ 0) : IsPrimitiveRoot (root n) n := by
  have h := (Complex.isPrimitiveRoot_exp n hn).inv
  rw [← Complex.exp_neg] at h
  exact h

/-- The twiddle factors of one frequency, summed over a whole axis. -/
theorem sum_root_pow {n : ℕ} (hn : n ≠ 0) (k : ℕ) :
    ∑ x ∈ range n, root n ^ (k * x) = if n ∣ k then (n : ℂ) else 0 := by
  have hr := isPrimitiveRoot_root hn
  simp only [pow_mul]
  split_ifs with hk
  · -- every factor is one
    have h1 : root n ^ k = 1 := (hr.pow_eq_one_iff_dvd k).mpr hk
    simp [h1]
  · -- a geometric sum of a root of unity other than one
    have h1 : root n ^ k ≠ 1 := fun h => hk ((hr.pow_eq_one_iff_dvd k).mp h)
    have hn1 : (root n ^ k) ^ n = 1 := by rw [← pow_mul, mul_comm, pow_mul, hr.pow_eq_one, one_pow]
    rw [geom_sum_eq h1, hn1, sub_self, zero_div]

/-- The transform of a constant array: `rows * cols` times the constant at the zero frequency,
nothing elsewhere. -/
theorem fft2_const (rows cols : ℕ) (hr : rows ≠ 0) (hc : cols ≠ 0) (a : ℝ) (u v : ℕ) :
    (fft2 ⟨rows, cols, fun _ _ => a⟩).get u v =
      if rows ∣ u ∧ cols ∣ v then (rows * cols * a : ℂ) else 0 := by
  have hsep : (fft2 ⟨rows, cols, fun _ _ => a⟩).get u v =
      (a : ℂ) * ((∑ r ∈ range rows, root rows ^ (u * r)) * ∑ c ∈ range cols, root cols ^ (v * c)) := by
    simp only [fft2]
    rw [sum_mul_sum, mul_sum]
    refine sum_congr rfl fun r _ => ?_
    rw [mul_sum]
    refine sum_congr rfl fun c _ => ?_
    ring
  rw [hsep, sum_root_pow hr, sum_root_pow hc]
  by_cases hu : rows ∣ u <;> by_cases hv : cols ∣ v <;> simp [hu, hv]
  ring

/-- After `fftshift`, index `i` of an axis of length `n` holds frequency zero exactly when
`i = n / 2`. -/
theorem shift_dvd_iff {n i : ℕ} (hi : i < n) : n ∣ (i + n - n / 2) % n ↔ i = n / 2 := by
  rw [Nat.dvd_mod_iff (dvd_refl n)]
  constructor
  · intro h
    -- `i + n - n / 2` lies in `[1, 2 n)`, where the only multiple of `n` is `n`
    have hx := Nat.eq_of_dvd_of_lt_two_mul (by omega) h (by omega)
    omega
  · intro h
    rw [show i + n - n / 2 = n by omega]

/-- The magnitudes of the shifted transform of a constant array: all the weight at the centre. -/
theorem norm_fftshift_fft2_const {rows cols : ℕ} (hr : rows ≠ 0) (hc : cols ≠ 0) (a : ℝ) {i j : ℕ}
    (hi : i < rows) (hj : j < cols) :
    ‖(fftshift (fft2 ⟨rows, cols, fun _ _ => a⟩)).get i j‖ =
      if i = rows / 2 ∧ j = cols / 2 then rows * cols * |a| else 0 := by
  simp only [get_fftshift, rows_fft2, cols_fft2, fft2_const rows cols hr hc]
  simp only [shift_dvd_iff hi, shift_dvd_iff hj]
  split_ifs
  · simp
  · simp

end GoAttend.Lib.Dft

end
