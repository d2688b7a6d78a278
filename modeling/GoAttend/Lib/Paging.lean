import Mathlib.Data.List.Sort

/-! Paging through a query ordered by a key, `ORDER BY key DESC LIMIT l OFFSET o`, when SQL leaves
rows with equal keys in an unspecified order that may change from one execution to the next. Each
page is its own execution and may be cut from a different ordering. All orderings have the same
keys position by position, so the pages always list the keys in order. They list every row exactly
once, whatever orderings the executions pick, exactly when no two rows with equal keys sit on either
side of a page boundary. -/

namespace GoAttend.Lib.Paging

open List

variable {α β : Type*} [LinearOrder β] (key : α → β)

/-- An order an execution may return `rows` in: all of them, keys non-increasing. -/
def IsOrdering (rows o : List α) : Prop :=
  o ~ rows ∧ o.Pairwise fun a b => key b ≤ key a

/-- Position `a` of an ordering of `rows` lies between two keys, or at an end: the rows before
it are those with key above some `t`, whichever ordering the execution picks. -/
def Splits (rows : List α) (a : ℕ) : Prop :=
  a = 0 ∨ rows.length ≤ a ∨ ∃ t, (rows.filter fun x => t < key x).length = a

variable {key} {rows : List α}

theorem exists_isOrdering (rows : List α) : ∃ o, IsOrdering key rows o := by
  refine ⟨rows.mergeSort fun a b => decide (key b ≤ key a), mergeSort_perm _ _, ?_⟩
  have h : (rows.mergeSort fun a b => decide (key b ≤ key a)).Pairwise
      fun a b => decide (key b ≤ key a) := pairwise_mergeSort
    (fun a b c hab hbc => by simp only [decide_eq_true_eq] at *; exact le_trans hbc hab)
    (fun a b => by simpa using le_total (key b) (key a)) rows
  simpa using h

theorem IsOrdering.length_eq {o : List α} (h : IsOrdering key rows o) : o.length = rows.length :=
  h.1.length_eq

/-- All orderings of `rows` have the same keys, position by position. -/
theorem IsOrdering.map_key_eq {o o' : List α} (h : IsOrdering key rows o)
    (h' : IsOrdering key rows o') : o.map key = o'.map key := by
  have hp : o.map key ~ o'.map key := (h.1.trans h'.1.symm).map key
  have hs : (o.map key).Pairwise (· ≥ ·) := pairwise_map.mpr h.2
  have hs' : (o'.map key).Pairwise (· ≥ ·) := pairwise_map.mpr h'.2
  exact hp.eq_of_pairwise (fun a b _ _ hab hba => le_antisymm hba hab) hs hs'

/-- In an ordering, the rows with key above `t` come first. -/
theorem filter_eq_take {o : List α} (ho : o.Pairwise fun a b => key b ≤ key a) (t : β) :
    o.filter (fun x => t < key x) = o.take (o.filter fun x => t < key x).length := by
  induction o with
  | nil => rfl
  | cons x o ih =>
    rw [pairwise_cons] at ho
    by_cases hx : t < key x
    · rw [filter_cons_of_pos (by simpa using hx), length_cons, take_succ_cons, ← ih ho.2]
    · -- every later row has a key at most `key x`, so none passes
      have hnone : o.filter (fun y => t < key y) = [] := by
        rw [filter_eq_nil_iff]
        intro y hy
        simpa using (ho.1 y hy).trans (not_lt.mp hx)
      simp [hx, hnone]

/-- Where a position splits, every ordering has the same rows before it. -/
theorem IsOrdering.take_perm {o o' : List α} (h : IsOrdering key rows o)
    (h' : IsOrdering key rows o') {a : ℕ} (ha : Splits key rows a) : o.take a ~ o'.take a := by
  rcases ha with rfl | ha | ⟨t, ht⟩
  · simp
  · rw [take_of_length_le (h.length_eq ▸ ha), take_of_length_le (h'.length_eq ▸ ha)]
    exact h.1.trans h'.1.symm
  · -- the first `a` rows of either ordering are those with key above `t`
    have htake : ∀ {o}, IsOrdering key rows o → o.take a = o.filter fun x => t < key x := by
      intro o ho
      rw [filter_eq_take ho.2 t, (ho.1.filter _).length_eq, ht]
    rw [htake h, htake h']
    exact (h.1.trans h'.1.symm).filter _

/-- A strict drop of the key between two neighbours splits the ordering there. -/
theorem IsOrdering.splits_of_lt {l₁ l₂ : List α} {x y : α}
    (h : IsOrdering key rows (l₁ ++ x :: y :: l₂)) (hxy : key y < key x) :
    Splits key rows (l₁.length + 1) := by
  refine .inr (.inr ⟨key y, ?_⟩)
  have hs := h.2
  simp only [pairwise_append, pairwise_cons, mem_cons] at hs
  have h₁ : l₁.filter (fun z => key y < key z) = l₁ := by
    rw [filter_eq_self]
    intro z hz
    simpa using hxy.trans_le (hs.2.2 z hz x (.inl rfl))
  have h₂ : l₂.filter (fun z => key y < key z) = [] := by
    rw [filter_eq_nil_iff]
    intro z hz
    simpa using hs.2.1.2.1 z hz
  rw [← (h.1.filter _).length_eq, filter_append, h₁, filter_cons_of_pos (by simpa using hxy),
    filter_cons_of_neg (by simp), h₂]
  simp

/-- Two neighbours with one key may change places. -/
theorem IsOrdering.swap {l₁ l₂ : List α} {x y : α} (h : IsOrdering key rows (l₁ ++ x :: y :: l₂))
    (hxy : key x = key y) : IsOrdering key rows (l₁ ++ y :: x :: l₂) := by
  refine ⟨((List.Perm.swap x y l₂).append_left l₁).trans h.1, ?_⟩
  have hs := h.2
  simp only [pairwise_append, pairwise_cons, mem_cons] at hs ⊢
  grind

theorem eq_take_append_cons_cons (o : List α) {i : ℕ} (h : i + 1 < o.length) :
    o = o.take i ++ o[i] :: o[i + 1] :: o.drop (i + 1 + 1) := by
  rw [← drop_eq_getElem_cons, ← drop_eq_getElem_cons, take_append_drop]

/-! ## Pages -/

/-- Pages cut from one list glue back into its first rows. -/
theorem flatMap_pages (l : List α) (limit n : ℕ) :
    (range n).flatMap (fun k => (l.drop (k * limit)).take limit) = l.take (n * limit) := by
  induction n with
  | zero => simp
  | succ n ih =>
    rw [range_succ, flatMap_append, ih, flatMap_singleton, Nat.succ_mul, take_add]

variable {limit : ℕ} {res : ℕ → List α}

section Pages

-- `res k` is the page at offset `k * limit`, cut from an ordering of its own execution
variable (hres : ∀ k, ∃ o, IsOrdering key rows o ∧ res k = (o.drop (k * limit)).take limit)
include hres

/-- The pages list the keys of any one ordering, in order. -/
theorem map_key_pages {o : List α} (ho : IsOrdering key rows o) (n : ℕ) :
    ((range n).flatMap res).map key = (o.take (n * limit)).map key := by
  have hpage : ∀ k, (res k).map key = ((o.drop (k * limit)).take limit).map key := by
    intro k
    obtain ⟨o', ho', hk⟩ := hres k
    rw [hk, map_take, map_drop, ho'.map_key_eq ho, ← map_drop, ← map_take]
  calc ((range n).flatMap res).map key
      = (range n).flatMap fun k => ((o.drop (k * limit)).take limit).map key := by
        rw [map_flatMap]
        exact flatMap_congr fun k _ => hpage k
    _ = (o.take (n * limit)).map key := by rw [← map_flatMap, flatMap_pages]

/-- A page past the last row is empty. -/
theorem page_eq_nil {k : ℕ} (hk : rows.length ≤ k * limit) : res k = [] := by
  obtain ⟨o, ho, hk'⟩ := hres k
  rw [hk', drop_eq_nil_of_le (ho.length_eq ▸ hk), take_nil]

/-- Where every page boundary splits, the pages glue into the first rows of any one ordering. -/
theorem pages_perm {o : List α} (ho : IsOrdering key rows o) (n : ℕ)
    (hsplit : ∀ k ≤ n, Splits key rows (k * limit)) :
    (range n).flatMap res ~ o.take (n * limit) := by
  induction n with
  | zero => simp
  | succ n ih =>
    obtain ⟨o', ho', hn⟩ := hres n
    have ih' := ih fun k hk => hsplit k (by omega)
    rw [range_succ, flatMap_append, flatMap_singleton, hn]
    calc (range n).flatMap res ++ (o'.drop (n * limit)).take limit
        ~ o'.take (n * limit) ++ (o'.drop (n * limit)).take limit :=
          (ih'.trans (ho.take_perm ho' (hsplit n (by omega)))).append_right _
      _ = o'.take ((n + 1) * limit) := by rw [Nat.succ_mul, take_add]
      _ ~ o.take ((n + 1) * limit) := ho'.take_perm ho (hsplit (n + 1) le_rfl)

/-- Where every boundary splits, pages that cover the rows list each of them once. -/
theorem pages_perm_rows {n : ℕ} (hn : rows.length ≤ n * limit)
    (hsplit : ∀ k, Splits key rows (k * limit)) : (range n).flatMap res ~ rows := by
  obtain ⟨o, ho⟩ : ∃ o, IsOrdering key rows o := exists_isOrdering rows
  have h := pages_perm hres ho n fun k _ => hsplit k
  rw [take_of_length_le (by rw [ho.length_eq]; exact hn)] at h
  exact h.trans ho.1

end Pages

/-- Where the boundary after two neighbours does not split, they have one key. -/
theorem IsOrdering.key_eq_of_not_splits {l₁ l₂ : List α} {x y : α}
    (h : IsOrdering key rows (l₁ ++ x :: y :: l₂)) (hs : ¬ Splits key rows (l₁.length + 1)) :
    key x = key y := by
  have hyx : key y ≤ key x := by
    have hp := h.2
    simp only [pairwise_append, pairwise_cons, mem_cons] at hp
    exact hp.2.1.1 y (.inl rfl)
  exact le_antisymm (not_lt.mp fun hlt => hs (h.splits_of_lt hlt)) hyx

/-- A boundary that does not split lies strictly inside the rows. -/
theorem lt_length_of_not_splits {a : ℕ} (hs : ¬ Splits key rows a) : 0 < a ∧ a < rows.length := by
  simp only [Splits, not_or, not_le] at hs
  exact ⟨Nat.pos_of_ne_zero hs.1, hs.2.1⟩

/-- Where the boundary at `a` does not split, every ordering has two rows of one key on either
side of it. -/
theorem IsOrdering.exists_tie {o : List α} (ho : IsOrdering key rows o) {a : ℕ}
    (hs : ¬ Splits key rows a) :
    ∃ l₁ x y l₂, o = l₁ ++ x :: y :: l₂ ∧ l₁.length + 1 = a ∧ key x = key y := by
  obtain ⟨ha0, hlt⟩ := lt_length_of_not_splits hs
  have hi : a - 1 + 1 < o.length := by
    rw [ho.length_eq]
    omega
  have hdec := eq_take_append_cons_cons o hi
  have hlen : (o.take (a - 1)).length + 1 = a := by
    rw [length_take]
    omega
  refine ⟨_, _, _, _, hdec, hlen, ?_⟩
  rw [hdec] at ho
  exact ho.key_eq_of_not_splits (by rwa [hlen])

/-- Where a tie straddles the boundary at `(k + 1) * limit`, one execution may put one of the tied
rows last on page `k` and another put the same row first on page `k + 1`. -/
theorem exists_pages_not_nodup (hL : 0 < limit) {k n : ℕ} (hk : k + 1 < n)
    (hs : ¬ Splits key rows ((k + 1) * limit)) :
    ∃ res : ℕ → List α, (∀ j, ∃ o, IsOrdering key rows o ∧ res j = (o.drop (j * limit)).take limit) ∧
      ¬ ((range n).flatMap res).Nodup := by
  obtain ⟨o, ho⟩ : ∃ o, IsOrdering key rows o := exists_isOrdering rows
  -- the two rows on either side of the boundary
  obtain ⟨l₁, x, y, l₂, rfl, hb, hxy⟩ := ho.exists_tie hs
  have hl₁ : l₁.length = k * limit + limit - 1 := by
    rw [Nat.succ_mul] at hb
    omega
  have ho' := ho.swap hxy
  refine ⟨fun j => if j = k + 1 then ((l₁ ++ y :: x :: l₂).drop (j * limit)).take limit
    else ((l₁ ++ x :: y :: l₂).drop (j * limit)).take limit, ?_, ?_⟩
  · intro j
    by_cases hj : j = k + 1
    · exact ⟨_, ho', if_pos hj⟩
    · exact ⟨_, ho, if_neg hj⟩
  · -- `x` is last on page `k` and first on page `k + 1`
    have hx : x ∈ ((l₁ ++ x :: y :: l₂).drop (k * limit)).take limit := by
      have hm : (l₁.drop (k * limit)).length = limit - 1 := by
        rw [length_drop, hl₁]
        omega
      rw [drop_append_of_le_length (by omega), take_append, hm]
      have h1 : limit - (limit - 1) = 1 := by omega
      simp [h1]
    have hx' : x ∈ ((l₁ ++ y :: x :: l₂).drop ((k + 1) * limit)).take limit := by
      rw [← hb, drop_append, drop_of_length_le (by omega)]
      obtain ⟨m, rfl⟩ : ∃ m, limit = m + 1 := ⟨limit - 1, by omega⟩
      simp
    intro hnd
    have hdisj := (nodup_flatMap.mp hnd).2
    rw [pairwise_iff_getElem] at hdisj
    have hkk := hdisj k (k + 1) (by simp; omega) (by simp; omega) (by omega)
    simp only [getElem_range, Function.onFun] at hkk
    rw [if_neg (show ¬ k = k + 1 by omega), if_pos trivial] at hkk
    exact hkk hx hx'

/-- Rows with distinct keys split everywhere. -/
theorem splits_of_nodup (hk : (rows.map key).Nodup) (a : ℕ) : Splits key rows a := by
  by_contra hs
  obtain ⟨o, ho⟩ : ∃ o, IsOrdering key rows o := exists_isOrdering rows
  obtain ⟨l₁, x, y, l₂, rfl, -, hxy⟩ := ho.exists_tie hs
  -- two rows of one key contradict distinct keys
  have hnd : ((l₁ ++ x :: y :: l₂).map key).Nodup := (ho.1.map key).nodup_iff.mpr hk
  simp only [map_append, map_cons, nodup_append, nodup_cons, mem_cons] at hnd
  exact hnd.2.1.1 (.inl hxy)

/-- Whatever orderings the executions pick, the pages list every row exactly once if and only if
every page boundary splits. -/
theorem pages_perm_iff (hnd : rows.Nodup) (hL : 0 < limit) {n : ℕ}
    (hn : rows.length ≤ n * limit) :
    (∀ res : ℕ → List α, (∀ k, ∃ o, IsOrdering key rows o ∧ res k = (o.drop (k * limit)).take limit) →
      (range n).flatMap res ~ rows) ↔ ∀ k, Splits key rows (k * limit) := by
  constructor
  · intro hall k
    by_contra hs
    obtain ⟨h0, hlt⟩ := lt_length_of_not_splits hs
    -- the boundary at offset `0` always splits, so the tie sits after some page `k'`
    have hk0 : k ≠ 0 := by
      rintro rfl
      simp at h0
    obtain ⟨k', rfl⟩ : ∃ k', k = k' + 1 := ⟨k - 1, by omega⟩
    have hk : k' + 1 < n := Nat.lt_of_mul_lt_mul_right (hlt.trans_le hn)
    obtain ⟨res, hres, hdup⟩ := exists_pages_not_nodup hL hk hs
    exact hdup (((hall res hres).nodup_iff).mpr hnd)
  · intro hsplit res hres
    exact pages_perm_rows hres hn hsplit

end GoAttend.Lib.Paging
