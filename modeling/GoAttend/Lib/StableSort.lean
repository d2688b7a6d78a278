import Mathlib.Order.Basic
import Mathlib.Data.List.Sort
import Mathlib.Data.List.Induction

/-! Sorting by a key, largest first, and stably: among elements of equal key the input order is
kept, as Python's `list.sort(key=..., reverse=True)` does. Built on the merge sort of the core
library, whose stability is its statement that a sorted sublist of the input stays a sublist. -/

namespace GoAttend.Lib.StableSort

variable {α γ β : Type*} [LinearOrder β] (key : α → β)

/-- The list sorted by decreasing `key`, equal keys in input order. -/
def sortDesc (l : List α) : List α :=
  l.mergeSort fun a b => decide (key b ≤ key a)

/-- `d` is the first element of `l` whose key is largest: all before it are smaller, none after
it is larger. -/
def IsFirstMax (l : List α) (d : α) : Prop :=
  ∃ pre post, l = pre ++ d :: post ∧ (∀ a ∈ pre, key a < key d) ∧ ∀ a ∈ post, key a ≤ key d

variable {key}

theorem IsFirstMax.mem {l : List α} {d : α} (h : IsFirstMax key l d) : d ∈ l := by
  obtain ⟨pre, post, rfl, -, -⟩ := h
  simp

theorem sortDesc_perm (l : List α) : (sortDesc key l).Perm l :=
  List.mergeSort_perm l _

@[simp]
theorem mem_sortDesc {l : List α} {a : α} : a ∈ sortDesc key l ↔ a ∈ l :=
  List.mem_mergeSort

@[simp]
theorem length_sortDesc (l : List α) : (sortDesc key l).length = l.length :=
  List.length_mergeSort l

theorem sortDesc_nil : sortDesc key ([] : List α) = [] :=
  List.mergeSort_nil

variable (key) in
/-- The comparison of `sortDesc` is a total preorder, as the core lemmas ask. -/
theorem decide_le_trans (a b c : α) (hab : decide (key b ≤ key a) = true)
    (hbc : decide (key c ≤ key b) = true) : decide (key c ≤ key a) = true := by
  simp only [decide_eq_true_eq] at *
  exact le_trans hbc hab

variable (key) in
theorem decide_le_total (a b : α) : (decide (key b ≤ key a) || decide (key a ≤ key b)) = true := by
  simp only [Bool.or_eq_true, decide_eq_true_eq]
  exact le_total _ _

theorem pairwise_sortDesc (l : List α) : (sortDesc key l).Pairwise fun a b => key b ≤ key a := by
  have h := List.pairwise_mergeSort (decide_le_trans key) (decide_le_total key) l
  simpa only [sortDesc, decide_eq_true_eq] using h

/-- Stability: a sublist of the input already in order stays a sublist of the output. -/
theorem sublist_sortDesc {c l : List α} (hc : c.Pairwise fun a b => key b ≤ key a) (h : c.Sublist l) :
    c.Sublist (sortDesc key l) := by
  apply List.sublist_mergeSort (decide_le_trans key) (decide_le_total key) _ h
  simpa only [decide_eq_true_eq] using hc

/-- Stability, with the classes of equal keys: each comes out in its input order. -/
theorem filter_sortDesc (l : List α) (k : β) :
    (sortDesc key l).filter (fun a => key a = k) = l.filter (fun a => key a = k) := by
  have hpw : (l.filter fun a => key a = k).Pairwise fun a b => key b ≤ key a := by
    apply List.pairwise_of_forall_mem_list
    intro a ha b hb
    simp only [List.mem_filter, decide_eq_true_eq] at ha hb
    rw [ha.2, hb.2]
  have hsub : (l.filter fun a => key a = k).Sublist ((sortDesc key l).filter fun a => key a = k) := by
    have h := (sublist_sortDesc hpw List.filter_sublist).filter fun a => decide (key a = k)
    rwa [List.filter_filter, List.filter_congr (fun a _ => Bool.and_self _)] at h
  have hlen : ((sortDesc key l).filter fun a => key a = k).length =
      (l.filter fun a => key a = k).length :=
    ((sortDesc_perm l).filter _).length_eq
  exact (hsub.eq_of_length hlen.symm).symm

/-- The head of the sorted list has the largest key. -/
theorem le_of_head?_sortDesc {l : List α} {h : α} (hh : (sortDesc key l).head? = some h) :
    ∀ a ∈ l, key a ≤ key h := by
  intro a ha
  obtain ⟨rest, hr⟩ := List.head?_eq_some_iff.mp hh
  have hp : (sortDesc key l).Pairwise fun a b => key b ≤ key a := pairwise_sortDesc l
  rw [hr, List.pairwise_cons] at hp
  have ha' : a ∈ h :: rest := by rw [← hr, mem_sortDesc]; exact ha
  rcases List.mem_cons.mp ha' with rfl | ha'
  · exact le_rfl
  · exact hp.1 a ha'

/-- `IsFirstMax` read through the classes of equal keys: the largest key, and the first of its
class. -/
theorem isFirstMax_iff {l : List α} {d : α} :
    IsFirstMax key l d ↔
      (∀ a ∈ l, key a ≤ key d) ∧ (l.filter fun a => key a = key d).head? = some d := by
  constructor
  · rintro ⟨pre, post, rfl, hpre, hpost⟩
    refine ⟨?_, ?_⟩
    · intro a ha
      rcases List.mem_append.mp ha with ha | ha
      · exact (hpre a ha).le
      · rcases List.mem_cons.mp ha with rfl | ha
        · exact le_rfl
        · exact hpost a ha
    · have hf : (pre ++ d :: post).filter (fun a => key a = key d) =
          d :: post.filter (fun a => key a = key d) := by
        rw [List.filter_eq_cons_iff]
        exact ⟨pre, post, rfl, fun a ha => by simpa using (hpre a ha).ne, by simp, rfl⟩
      rw [hf, List.head?_cons]
  · rintro ⟨hmax, hhead⟩
    obtain ⟨rest, hr⟩ := List.head?_eq_some_iff.mp hhead
    obtain ⟨pre, post, rfl, hpre, -, -⟩ := List.filter_eq_cons_iff.mp hr
    refine ⟨pre, post, rfl, ?_, fun a ha => hmax a (by simp [ha])⟩
    intro a ha
    have hne : key a ≠ key d := by simpa using hpre a ha
    exact lt_of_le_of_ne (hmax a (by simp [ha])) hne

/-- The head of the sorted list is the first element of the input with the largest key. -/
theorem head?_sortDesc_eq_some_iff {l : List α} {d : α} :
    (sortDesc key l).head? = some d ↔ IsFirstMax key l d := by
  rw [isFirstMax_iff]
  constructor
  · intro hd
    refine ⟨le_of_head?_sortDesc hd, ?_⟩
    obtain ⟨rest, hr⟩ := List.head?_eq_some_iff.mp hd
    rw [← filter_sortDesc, hr, List.filter_cons_of_pos (by simp), List.head?_cons]
  · rintro ⟨hmax, hhead⟩
    have hd : d ∈ l := List.mem_of_mem_filter (List.mem_of_mem_head? hhead)
    -- the sorted list starts with some `h`; its key is largest, so it is `key d`
    cases hs : sortDesc key l with
    | nil =>
      have hd' : d ∈ sortDesc key l := mem_sortDesc.mpr hd
      rw [hs] at hd'
      exact absurd hd' List.not_mem_nil
    | cons h rest =>
      have hh : (sortDesc key l).head? = some h := by rw [hs, List.head?_cons]
      have hk : key h = key d :=
        le_antisymm (hmax h (mem_sortDesc.mp (List.mem_of_mem_head? hh)))
          (le_of_head?_sortDesc hh d hd)
      rw [← filter_sortDesc, hs, List.filter_cons_of_pos (by simp [hk]), List.head?_cons] at hhead
      rw [List.head?_cons, hhead]

/-! ## The running maximum

A scan that keeps the first element seen and replaces it only by one of strictly larger key, the
loop `if key(a) > key(best): best = a`. It finds the first maximum, as the head of the stable sort
does. -/

variable (key) in
/-- One step of the scan. -/
def scanMax (best : Option α) (a : α) : Option α :=
  match best with
  | none => some a
  | some b => if key b < key a then some a else some b

theorem foldl_scanMax_isSome (l : List α) (best : Option α) (hb : best.isSome) :
    (l.foldl (scanMax key) best).isSome := by
  induction l generalizing best with
  | nil => exact hb
  | cons a l ih =>
    apply ih
    cases best with
    | none => rfl
    | some b =>
      show (if key b < key a then some a else some b).isSome
      split_ifs <;> rfl

theorem foldl_scanMax_isSome_of_ne_nil {l : List α} (hl : l ≠ []) :
    (l.foldl (scanMax key) none).isSome := by
  cases l with
  | nil => exact absurd rfl hl
  | cons a l => exact foldl_scanMax_isSome l (some a) rfl

/-- The scan over `l ++ [a]` from the first maximum of `l`. -/
theorem isFirstMax_append_singleton {l : List α} {b a : α} (hb : IsFirstMax key l b) :
    IsFirstMax key (l ++ [a]) (if key b < key a then a else b) := by
  obtain ⟨pre, post, rfl, hpre, hpost⟩ := hb
  have hmax : ∀ x ∈ pre ++ b :: post, key x ≤ key b := by
    intro x hx
    rcases List.mem_append.mp hx with hx | hx
    · exact (hpre x hx).le
    · rcases List.mem_cons.mp hx with rfl | hx
      · exact le_rfl
      · exact hpost x hx
  split_ifs with hlt
  · -- `a` is larger than everything before it
    exact ⟨pre ++ b :: post, [], by simp, fun x hx => lt_of_le_of_lt (hmax x hx) hlt, by simp⟩
  · refine ⟨pre, post ++ [a], by simp, hpre, ?_⟩
    intro x hx
    rcases List.mem_append.mp hx with hx | hx
    · exact hpost x hx
    · rw [List.mem_singleton.mp hx]
      exact not_lt.mp hlt

theorem foldl_scanMax_isFirstMax {l : List α} {d : α} (h : l.foldl (scanMax key) none = some d) :
    IsFirstMax key l d := by
  induction l using List.reverseRecOn generalizing d with
  | nil => cases h
  | append_singleton l a ih =>
    rw [List.foldl_append, List.foldl_cons, List.foldl_nil] at h
    cases hl : l.foldl (scanMax key) none with
    | none =>
      -- only an empty list scans to nothing
      have hnil : l = [] := by
        by_contra hne
        have hs : (l.foldl (scanMax key) none).isSome := foldl_scanMax_isSome_of_ne_nil hne
        rw [hl] at hs
        cases hs
      subst hnil
      rw [hl] at h
      cases h
      exact ⟨[], [], rfl, by simp, by simp⟩
    | some b =>
      rw [hl] at h
      have hd : (if key b < key a then a else b) = d := by
        have h' : (if key b < key a then some a else some b) = some d := h
        split_ifs at h' ⊢ <;> exact Option.some.inj h'
      rw [← hd]
      exact isFirstMax_append_singleton (ih hl)

/-- The first maximum is unique. -/
theorem IsFirstMax.unique {l : List α} {d d' : α} (h : IsFirstMax key l d) (h' : IsFirstMax key l d') :
    d = d' := by
  rw [isFirstMax_iff] at h h'
  have hk : key d = key d' := le_antisymm (h'.1 d (List.mem_of_mem_filter
    (List.mem_of_mem_head? h.2))) (h.1 d' (List.mem_of_mem_filter (List.mem_of_mem_head? h'.2)))
  rw [hk] at h
  exact Option.some.inj (h.2.symm.trans h'.2)

/-- The scan finds exactly the first maximum. -/
theorem foldl_scanMax_eq_some_iff {l : List α} {d : α} :
    l.foldl (scanMax key) none = some d ↔ IsFirstMax key l d := by
  constructor
  · exact foldl_scanMax_isFirstMax
  · intro h
    have hne : l ≠ [] := by
      obtain ⟨pre, post, hl, -, -⟩ := h
      simp [hl]
    cases hs : l.foldl (scanMax key) none with
    | none =>
      have hsome : (l.foldl (scanMax key) none).isSome := foldl_scanMax_isSome_of_ne_nil hne
      rw [hs] at hsome
      cases hsome
    | some d' => rw [(foldl_scanMax_isFirstMax hs).unique h]

end GoAttend.Lib.StableSort
