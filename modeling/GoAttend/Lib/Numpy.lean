import Mathlib.Algebra.Order.BigOperators.Group.Finset
import Mathlib.Algebra.Order.Floor.Ring
import Mathlib.Analysis.SpecialFunctions.Sqrt

/-! NumPy and SciPy on two-dimensional arrays, computed exactly over the reals: slicing with
Python's negative indices, `mean`, `var` and `std` (`none` for the NaN they give on an empty
array), `diff`, `gradient`, and `ndimage.laplace` with its default mirrored edges. An integer
constant that meets a float is written as a natural number cast to the reals, the conversion
Python makes. -/

noncomputable section

namespace GoAttend.Lib.Numpy

open Finset

/-- A two-dimensional array: `rows × cols` entries `get i j`. -/
structure Grid (α : Type*) where
  rows : ℕ
  cols : ℕ
  get : ℕ → ℕ → α

variable {α β : Type*}

/-- Where index `i` of a slice falls on an axis of length `n`: a negative index counts from the
end, and the result is clamped to `0 … n`. -/
def sliceIndex (n : ℕ) (i : ℤ) : ℕ := if i < 0 then (i + n).toNat else min i.toNat n

/-- `int(x)` and `astype(int)` on a float: truncation toward zero. -/
def truncate (x : ℝ) : ℤ := if 0 ≤ x then ⌊x⌋ else ⌈x⌉

/-- `numpy.gradient` along one axis of length `n`: the central difference inside, the one-sided
difference at either edge. -/
def gradient1 (n : ℕ) (f : ℕ → ℝ) (i : ℕ) : ℝ :=
  if i = 0 then f 1 - f 0 else if i + 1 = n then f i - f (i - 1) else (f (i + 1) - f (i - 1)) / (2 : ℕ)

/-- The correlation with `[1, -2, 1]` along one axis of length `n`, mirrored at the edges as
SciPy's `mode='reflect'` extends an array (`b a | a b c | c b`). -/
def secondDiff (n : ℕ) (f : ℕ → ℝ) (i : ℕ) : ℝ :=
  f (if i = 0 then 0 else i - 1) - (2 : ℕ) * f i + f (if i + 1 = n then i else i + 1)

@[simp] theorem sliceIndex_natCast (n k : ℕ) : sliceIndex n k = min k n := by
  rw [sliceIndex, if_neg (by omega), Int.toNat_natCast]

@[simp] theorem sliceIndex_zero (n : ℕ) : sliceIndex n 0 = 0 := by
  simpa using sliceIndex_natCast n 0

theorem truncate_eq_zero {x : ℝ} (h0 : 0 ≤ x) (h1 : x < 1) : truncate x = 0 := by
  rw [truncate, if_pos h0, Int.floor_eq_zero_iff]
  exact ⟨h0, h1⟩

@[simp] theorem truncate_natCast (n : ℕ) : truncate n = n := by
  rw [truncate, if_pos (Nat.cast_nonneg n)]
  exact Int.floor_natCast n

@[simp] theorem truncate_zero : truncate 0 = 0 := by exact_mod_cast truncate_natCast 0

@[simp] theorem truncate_one : truncate 1 = 1 := by exact_mod_cast truncate_natCast 1

@[simp] theorem truncate_ofNat (n : ℕ) [n.AtLeastTwo] :
    truncate (no_index (OfNat.ofNat n)) = OfNat.ofNat n := by
  exact_mod_cast truncate_natCast n

namespace Grid

def map (f : α → β) (g : Grid α) : Grid β := ⟨g.rows, g.cols, fun i j => f (g.get i j)⟩

/-- `a.size`. -/
def size (g : Grid α) : ℕ := g.rows * g.cols

def sum (g : Grid ℝ) : ℝ := ∑ i ∈ range g.rows, ∑ j ∈ range g.cols, g.get i j

/-- `numpy.mean`; `none` is the NaN it gives on an empty array. -/
def mean (g : Grid ℝ) : Option ℝ := if g.size = 0 then none else some (g.sum / g.size)

/-- `numpy.var`, the mean squared distance from the mean. -/
def var (g : Grid ℝ) : Option ℝ := g.mean.bind fun m => (g.map fun x => (x - m) ^ 2).mean

/-- `numpy.std`. -/
def std (g : Grid ℝ) : Option ℝ := g.var.map Real.sqrt

/-- `a[r0:r1, c0:c1]`. -/
def slice (g : Grid α) (r0 r1 c0 c1 : ℤ) : Grid α :=
  ⟨sliceIndex g.rows r1 - sliceIndex g.rows r0, sliceIndex g.cols c1 - sliceIndex g.cols c0,
    fun i j => g.get (sliceIndex g.rows r0 + i) (sliceIndex g.cols c0 + j)⟩

/-- `numpy.diff(a, axis=0)`. -/
def diffRows (g : Grid ℝ) : Grid ℝ :=
  ⟨g.rows - 1, g.cols, fun i j => g.get (i + 1) j - g.get i j⟩

/-- `numpy.diff(a, axis=1)`. -/
def diffCols (g : Grid ℝ) : Grid ℝ :=
  ⟨g.rows, g.cols - 1, fun i j => g.get i (j + 1) - g.get i j⟩

/-- `numpy.gradient(a)`: the gradients along the rows and along the columns. It raises on an
axis of fewer than two entries. -/
def gradient (g : Grid ℝ) : Option (Grid ℝ × Grid ℝ) :=
  if g.rows < 2 ∨ g.cols < 2 then none
  else some (⟨g.rows, g.cols, fun i j => gradient1 g.rows (fun k => g.get k j) i⟩,
    ⟨g.rows, g.cols, fun i j => gradient1 g.cols (g.get i) j⟩)

/-- `scipy.ndimage.laplace(a)`. -/
def laplace (g : Grid ℝ) : Grid ℝ :=
  ⟨g.rows, g.cols, fun i j => secondDiff g.rows (fun k => g.get k j) i + secondDiff g.cols (g.get i) j⟩

/-! ## Means -/

@[simp] theorem rows_map (f : α → β) (g : Grid α) : (g.map f).rows = g.rows := rfl
@[simp] theorem cols_map (f : α → β) (g : Grid α) : (g.map f).cols = g.cols := rfl
@[simp] theorem get_map (f : α → β) (g : Grid α) (i j : ℕ) : (g.map f).get i j = f (g.get i j) :=
  rfl
@[simp] theorem size_map (f : α → β) (g : Grid α) : (g.map f).size = g.size := rfl

@[simp] theorem rows_slice (g : Grid α) (r0 r1 c0 c1 : ℤ) :
    (g.slice r0 r1 c0 c1).rows = sliceIndex g.rows r1 - sliceIndex g.rows r0 := rfl
@[simp] theorem cols_slice (g : Grid α) (r0 r1 c0 c1 : ℤ) :
    (g.slice r0 r1 c0 c1).cols = sliceIndex g.cols c1 - sliceIndex g.cols c0 := rfl
theorem get_slice (g : Grid α) (r0 r1 c0 c1 : ℤ) (i j : ℕ) :
    (g.slice r0 r1 c0 c1).get i j = g.get (sliceIndex g.rows r0 + i) (sliceIndex g.cols c0 + j) :=
  rfl

theorem mean_eq_some {g : Grid ℝ} (hg : g.size ≠ 0) : g.mean = some (g.sum / g.size) :=
  if_neg hg

theorem mean_eq_none {g : Grid ℝ} (hg : g.size = 0) : g.mean = none := if_pos hg

/-- An array that is zero but at one index sums to its entry there, if that index lies inside. -/
theorem sum_eq_of_spike {g : Grid ℝ} {a b : ℕ} {v : ℝ}
    (h : ∀ i < g.rows, ∀ j < g.cols, g.get i j = if i = a ∧ j = b then v else 0) :
    g.sum = if a < g.rows ∧ b < g.cols then v else 0 := by
  unfold sum
  rw [sum_congr rfl fun i hi => sum_congr rfl fun j hj => h i (mem_range.mp hi) j (mem_range.mp hj)]
  -- the row of index `a` holds the entry, every other row is zero
  have hrow : ∀ i, ∑ j ∈ range g.cols, (if i = a ∧ j = b then v else 0) =
      if i = a then (if b < g.cols then v else 0) else 0 := by
    intro i
    by_cases hi : i = a
    · simp [hi, Finset.sum_ite_eq']
    · simp [hi]
  rw [sum_congr rfl fun i _ => hrow i, Finset.sum_ite_eq']
  simp only [mem_range, ite_and]

end Grid

end GoAttend.Lib.Numpy

end
