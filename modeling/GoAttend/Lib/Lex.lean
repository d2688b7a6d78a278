import Mathlib.Data.List.Sort
import Mathlib.Data.String.Basic

/-! Lexicographic order and sorting. Strings compare as the lists of their characters, and
`sort.Strings` leaves one result whatever the order of its input. Entries written as
`key ++ sep ++ value`, with keys made of elements above the separator, compare as their keys:
a key that extends another meets a larger element where the shorter one has the separator. So
sorting the written entries sorts them by key. -/

namespace GoAttend.Lib.Lex

section Order

variable {α : Type*} [LinearOrder α]

/-- Keys above the separator compare, once written with it, as they do alone. -/
theorem append_cons_lt_iff {sep : α} {l₁ l₂ : List α} (h₁ : ∀ c ∈ l₁, sep < c)
    (h₂ : ∀ c ∈ l₂, sep < c) (hne : l₁ ≠ l₂) (s₁ s₂ : List α) :
    l₁ ++ sep :: s₁ < l₂ ++ sep :: s₂ ↔ l₁ < l₂ := by
  induction l₁ generalizing l₂ with
  | nil =>
    cases l₂ with
    | nil => exact absurd rfl hne
    | cons b l₂ =>
      -- the separator meets the first element of the longer key
      have hb : sep < b := h₂ b List.mem_cons_self
      simp [List.cons_lt_cons_iff, hb]
  | cons a l₁ ih =>
    have ha : sep < a := h₁ a List.mem_cons_self
    cases l₂ with
    | nil => simp [List.cons_lt_cons_iff, not_lt_of_gt ha, ne_of_gt ha]
    | cons b l₂ =>
      by_cases hab : a = b
      · subst hab
        have hne' : l₁ ≠ l₂ := fun h => hne (h ▸ rfl)
        simp only [List.cons_append, List.cons_lt_cons_iff, lt_irrefl, false_or, true_and]
        exact ih (fun c hc => h₁ c (List.mem_cons_of_mem a hc))
          (fun c hc => h₂ c (List.mem_cons_of_mem a hc)) hne'
      · simp [List.cons_lt_cons_iff, hab]

/-- A list sorted by a key and written by a map that is strictly monotone on it is the sorted
list of what is written. -/
theorem mergeSort_map_eq {β : Type*} {l ks : List β} (f : β → α) (hks : ks.Perm l)
    (hsorted : (ks.map f).Pairwise (· ≤ ·)) :
    (l.map f).mergeSort (fun a b => decide (a ≤ b)) = ks.map f := by
  have hperm : ((l.map f).mergeSort fun a b => decide (a ≤ b)).Perm (ks.map f) :=
    (List.mergeSort_perm _ _).trans (hks.map f).symm
  exact hperm.eq_of_pairwise' (List.pairwise_mergeSort' (· ≤ ·) _) hsorted

/-- Sorting forgets the order of its input. -/
theorem mergeSort_eq_of_perm {l l' : List α} (h : l.Perm l') :
    l.mergeSort (fun a b => decide (a ≤ b)) = l'.mergeSort fun a b => decide (a ≤ b) := by
  have hperm : (l.mergeSort fun a b => decide (a ≤ b)).Perm (l'.mergeSort fun a b => decide (a ≤ b)) :=
    ((List.mergeSort_perm _ _).trans h).trans (List.mergeSort_perm _ _).symm
  exact hperm.eq_of_pairwise' (List.pairwise_mergeSort' (· ≤ ·) _) (List.pairwise_mergeSort' (· ≤ ·) _)

end Order

end GoAttend.Lib.Lex
