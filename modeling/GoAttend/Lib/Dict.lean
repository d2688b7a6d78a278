import Mathlib.Data.List.Nodup

/-! An insertion-ordered map kept as an association list, as Python's `dict` and a Redis hash
behave: setting a key that is present replaces its value in place, a new key goes last, and
deleting a key drops its entry. Two maps are the same map when `get` agrees on every key. A map
whose entries are rewritten by a key function injective on its keys is the same map read through
that function, which is how a store of encoded entries is compared with the store it encodes. -/

namespace GoAttend.Lib.Dict

variable {κ κ' ν ν' : Type*}

/-- The keys, in order. -/
def keys (d : List (κ × ν)) : List κ := d.map Prod.fst

@[simp]
theorem keys_nil : keys ([] : List (κ × ν)) = [] := rfl

@[simp]
theorem keys_cons (e : κ × ν) (d : List (κ × ν)) : keys (e :: d) = e.1 :: keys d := rfl

/-- Every entry of `d` rewritten: the key by `f`, the value by `g`. -/
def encode (f : κ → κ') (g : ν → ν') (d : List (κ × ν)) : List (κ' × ν') :=
  d.map fun e => (f e.1, g e.2)

@[simp]
theorem keys_encode (f : κ → κ') (g : ν → ν') (d : List (κ × ν)) :
    keys (encode f g d) = (keys d).map f := by
  simp [encode, keys]

variable [DecidableEq κ] [DecidableEq κ']

/-- `d.get(k)`. -/
def get (d : List (κ × ν)) (k : κ) : Option ν := (d.find? fun e => e.1 = k).map Prod.snd

/-- `d[k] = v`. -/
def setItem : List (κ × ν) → κ → ν → List (κ × ν)
  | [], k, v => [(k, v)]
  | e :: d, k, v => if e.1 = k then (k, v) :: d else e :: setItem d k v

/-- `del d[k]`, on a key that may be absent. -/
def erase (d : List (κ × ν)) (k : κ) : List (κ × ν) := d.filter fun e => e.1 ≠ k

/-- `dict(pairs)`: each pair set in turn, so a repeated key keeps its first place and its last
value. -/
def ofPairs (l : List (κ × ν)) : List (κ × ν) := l.foldl (fun d e => setItem d e.1 e.2) []

@[simp]
theorem get_nil (k : κ) : get ([] : List (κ × ν)) k = none := rfl

theorem get_cons (e : κ × ν) (d : List (κ × ν)) (k : κ) :
    get (e :: d) k = if e.1 = k then some e.2 else get d k := by
  by_cases h : e.1 = k <;> simp [get, h]

theorem get_eq_none_iff {d : List (κ × ν)} {k : κ} : get d k = none ↔ k ∉ keys d := by
  simp only [get, keys, Option.map_eq_none_iff, List.find?_eq_none, decide_eq_true_eq,
    List.mem_map, not_exists, not_and]

theorem get_setItem (d : List (κ × ν)) (k : κ) (v : ν) (k' : κ) :
    get (setItem d k v) k' = if k = k' then some v else get d k' := by
  induction d with
  | nil => simp [setItem, get_cons]
  | cons e d ih =>
    by_cases he : e.1 = k
    · subst he
      by_cases hk : e.1 = k' <;> simp [setItem, get_cons, hk]
    · simp only [setItem, if_neg he, get_cons, ih]
      by_cases hk : k = k' <;> by_cases hk' : e.1 = k' <;> simp_all

theorem mem_keys_setItem {d : List (κ × ν)} {k : κ} {v : ν} {k' : κ} :
    k' ∈ keys (setItem d k v) ↔ k' = k ∨ k' ∈ keys d := by
  induction d with
  | nil => simp [setItem]
  | cons e d ih =>
    by_cases he : e.1 = k
    · subst he
      simp [setItem]
    · simp only [setItem, if_neg he, keys_cons, List.mem_cons, ih]
      tauto

theorem nodup_keys_setItem {d : List (κ × ν)} (hd : (keys d).Nodup) (k : κ) (v : ν) :
    (keys (setItem d k v)).Nodup := by
  induction d with
  | nil => simp [setItem]
  | cons e d ih =>
    rw [keys_cons, List.nodup_cons] at hd
    by_cases he : e.1 = k
    · subst he
      simpa [setItem] using hd
    · simp only [setItem, if_neg he, keys_cons, List.nodup_cons, mem_keys_setItem]
      exact ⟨fun h => h.elim he hd.1, ih hd.2⟩

/-- Setting a new key appends it. -/
theorem setItem_of_not_mem {d : List (κ × ν)} {k : κ} (hk : k ∉ keys d) (v : ν) :
    setItem d k v = d ++ [(k, v)] := by
  induction d with
  | nil => rfl
  | cons e d ih =>
    simp only [keys_cons, List.mem_cons, not_or] at hk
    simp [setItem, Ne.symm hk.1, ih hk.2]

theorem get_erase (d : List (κ × ν)) (k k' : κ) :
    get (erase d k) k' = if k = k' then none else get d k' := by
  induction d with
  | nil => simp [erase]
  | cons e d ih =>
    have ih' : get (d.filter fun e => e.1 ≠ k) k' = if k = k' then none else get d k' := ih
    by_cases he : e.1 = k
    · subst he
      by_cases hk : e.1 = k' <;> simp_all [erase, get_cons]
    · by_cases hk : k = k' <;> by_cases hk' : e.1 = k' <;> simp_all [erase, get_cons]

theorem nodup_keys_erase {d : List (κ × ν)} (hd : (keys d).Nodup) (k : κ) :
    (keys (erase d k)).Nodup :=
  hd.sublist (List.filter_sublist.map Prod.fst)

theorem mem_of_get_eq_some {d : List (κ × ν)} {k : κ} {v : ν} (h : get d k = some v) :
    (k, v) ∈ d := by
  obtain ⟨e, he, rfl⟩ := Option.map_eq_some_iff.mp h
  have hk : e.1 = k := by simpa using List.find?_some he
  rw [← hk]
  exact List.mem_of_find?_eq_some he

theorem mem_setItem {d : List (κ × ν)} {k : κ} {v : ν} {e : κ × ν} (he : e ∈ setItem d k v) :
    e = (k, v) ∨ e ∈ d := by
  induction d with
  | nil => simpa [setItem] using he
  | cons e' d ih =>
    by_cases h : e'.1 = k
    · simp only [setItem, if_pos h, List.mem_cons] at he
      rcases he with he | he
      · exact Or.inl he
      · exact Or.inr (List.mem_cons_of_mem e' he)
    · simp only [setItem, if_neg h, List.mem_cons] at he
      rcases he with he | he
      · exact Or.inr (he ▸ List.mem_cons_self)
      · exact (ih he).imp_right (List.mem_cons_of_mem e')

/-- Deleting an absent key changes nothing. -/
theorem erase_of_not_mem {d : List (κ × ν)} {k : κ} (hk : k ∉ keys d) : erase d k = d := by
  rw [erase, List.filter_eq_self]
  intro e he
  have : e.1 ≠ k := fun h => hk (h ▸ List.mem_map_of_mem he)
  simpa using this

theorem mem_keys_iff_get_isSome {d : List (κ × ν)} {k : κ} : k ∈ keys d ↔ (get d k).isSome := by
  rw [← not_iff_not, ← get_eq_none_iff, Option.not_isSome_iff_eq_none]

theorem mem_keys_erase {d : List (κ × ν)} {k k' : κ} : k' ∈ keys (erase d k) ↔ k' ≠ k ∧ k' ∈ keys d := by
  rw [mem_keys_iff_get_isSome, mem_keys_iff_get_isSome, get_erase]
  by_cases h : k = k'
  · subst h
    simp
  · simp [h, Ne.symm h]

/-- Pairs with distinct keys make the map that lists them. -/
theorem ofPairs_of_nodup {l : List (κ × ν)} (hl : (keys l).Nodup) : ofPairs l = l := by
  -- the fold from any map that holds none of the remaining keys appends them in order
  have hfold : ∀ (l acc : List (κ × ν)), (keys l).Nodup → (∀ k ∈ keys l, k ∉ keys acc) →
      l.foldl (fun d e => setItem d e.1 e.2) acc = acc ++ l := by
    intro l
    induction l with
    | nil => simp
    | cons e l ih =>
      intro acc hl hacc
      rw [keys_cons, List.nodup_cons] at hl
      have hnew : e.1 ∉ keys acc := hacc e.1 (by simp)
      rw [List.foldl_cons, setItem_of_not_mem hnew, ih _ hl.2]
      · simp
      · intro k hk
        simp only [keys, List.map_append, List.mem_append, List.map_cons, List.map_nil,
          List.mem_singleton, not_or]
        exact ⟨hacc k (by simp [hk]), fun h => hl.1 (h ▸ hk)⟩
  unfold ofPairs
  simpa using hfold l [] hl (by simp)

/-- A list of fallible conversions none of which fails gives the list of their results, as a dict
comprehension over it does before it builds the dict. -/
theorem mapM_eq_some {α β : Type*} {f : α → Option β} {l : List α} (h : ∀ a ∈ l, (f a).isSome) :
    l.mapM f = some (l.filterMap f) := by
  induction l with
  | nil => rfl
  | cons a l ih =>
    obtain ⟨b, hb⟩ := Option.isSome_iff_exists.mp (h a List.mem_cons_self)
    rw [List.mapM_cons, hb, ih fun x hx => h x (List.mem_cons_of_mem a hx), List.filterMap_cons, hb]
    rfl

/-- What `mapM` gives comes from the list, element by element. -/
theorem exists_of_mem_mapM {α β : Type*} {f : α → Option β} {l : List α} {l' : List β}
    (h : l.mapM f = some l') {b : β} (hb : b ∈ l') : ∃ a ∈ l, f a = some b := by
  induction l generalizing l' with
  | nil =>
    cases h
    exact absurd hb List.not_mem_nil
  | cons a l ih =>
    obtain ⟨c, hc, cs, hcs, rfl⟩ : ∃ c, f a = some c ∧ ∃ cs, l.mapM f = some cs ∧ l' = c :: cs := by
      cases hfa : f a with
      | none => simp [List.mapM_cons, hfa] at h
      | some c =>
        cases hl : l.mapM f with
        | none => simp [List.mapM_cons, hfa, hl] at h
        | some cs =>
          simp [List.mapM_cons, hfa, hl] at h
          exact ⟨c, rfl, cs, rfl, h.symm⟩
    rcases List.mem_cons.mp hb with rfl | hb
    · exact ⟨a, List.mem_cons_self, hc⟩
    · obtain ⟨a', ha', hfa⟩ := ih hcs hb
      exact ⟨a', List.mem_cons_of_mem a ha', hfa⟩

/-- One element the function fails on fails the whole list. -/
theorem mapM_eq_none {α β : Type*} {f : α → Option β} {l : List α} {a : α} (ha : a ∈ l)
    (hf : f a = none) : l.mapM f = none := by
  induction l with
  | nil => exact absurd ha List.not_mem_nil
  | cons b l ih =>
    rcases List.mem_cons.mp ha with rfl | ha
    · simp [List.mapM_cons, hf]
    · cases hb : f b with
      | none => simp [List.mapM_cons, hb]
      | some c => simp [List.mapM_cons, hb, ih ha]

/-- Reordering the list reorders what `mapM` gives, and keeps its failing. -/
theorem mapM_perm {α β : Type*} {f : α → Option β} {l l' : List α} (h : l.Perm l') :
    Option.Rel List.Perm (l.mapM f) (l'.mapM f) := by
  by_cases hs : ∀ a ∈ l, (f a).isSome
  · have hs' : ∀ a ∈ l', (f a).isSome := fun a ha => hs a (h.mem_iff.mpr ha)
    rw [mapM_eq_some hs, mapM_eq_some hs']
    exact .some (h.filterMap f)
  · obtain ⟨a, ha, hf⟩ : ∃ a ∈ l, f a = none := by simpa using hs
    rw [mapM_eq_none ha hf, mapM_eq_none (h.mem_iff.mp ha) hf]
    exact .none

/-! ## Maps read through an encoding of their entries -/

/-- In rows whose keys are distinct, the rows with the key of `x` are `x` alone. -/
theorem filter_key_eq_singleton {α : Type*} {key : α → κ} {l : List α} (hl : (l.map key).Nodup)
    {x : α} (hx : x ∈ l) : l.filter (fun y => key y == key x) = [x] := by
  induction l with
  | nil => cases hx
  | cons y l ih =>
    rw [List.map_cons, List.nodup_cons] at hl
    rcases List.mem_cons.mp hx with rfl | hx
    · -- no later row has the key of the first
      rw [List.filter_cons_of_pos (by simp), List.filter_eq_nil_iff.mpr]
      intro z hz hk
      exact hl.1 (by simpa using ⟨z, hz, ((beq_iff_eq).mp hk)⟩)
    · have hy : ¬ key y = key x := fun h => hl.1 (h ▸ List.mem_map_of_mem hx)
      rw [List.filter_cons_of_neg (by simpa using hy), ih hl.2 hx]

theorem get_append (l l' : List (κ × ν)) (k : κ) : get (l ++ l') k = (get l k).or (get l' k) := by
  induction l with
  | nil => simp
  | cons e l ih => by_cases h : e.1 = k <;> simp [get_cons, h, ih]

/-- Setting the entries of `kvs` in turn: a key set there reads as its last value. -/
theorem get_foldl_setItem (kvs d : List (κ × ν)) (k : κ) :
    get (kvs.foldl (fun d e => setItem d e.1 e.2) d) k = (get kvs.reverse k).or (get d k) := by
  induction kvs generalizing d with
  | nil => simp
  | cons e kvs ih =>
    rw [List.foldl_cons, ih, get_setItem, List.reverse_cons, get_append, Option.or_assoc]
    by_cases h : e.1 = k <;> simp [get_cons, h]

theorem get_reverse {l : List (κ × ν)} (hl : (keys l).Nodup) (k : κ) :
    get l.reverse k = get l k := by
  induction l with
  | nil => rfl
  | cons e l ih =>
    rw [keys_cons, List.nodup_cons] at hl
    rw [List.reverse_cons, get_append, ih hl.2, get_cons]
    by_cases h : e.1 = k
    · subst h
      have : get l e.1 = none := get_eq_none_iff.mpr hl.1
      simp [this, get_cons]
    · simp [h, get_cons]

section Encode

variable {f : κ → κ'} {g : ν → ν'}

theorem get_encode {d : List (κ × ν)} {k : κ} (hf : ∀ k' ∈ keys d, f k' = f k → k' = k) :
    get (encode f g d) (f k) = (get d k).map g := by
  induction d with
  | nil => rfl
  | cons e d ih =>
    have ih' := ih fun k' hk' => hf k' (by simp [hk'])
    simp only [encode, List.map_cons] at ih' ⊢
    rw [get_cons, get_cons]
    by_cases he : e.1 = k
    · simp [he]
    · have hne : f e.1 ≠ f k := fun h => he (hf e.1 (by simp) h)
      simp [he, hne, ih']

theorem encode_setItem {d : List (κ × ν)} {k : κ} (v : ν)
    (hf : ∀ k' ∈ keys d, f k' = f k → k' = k) :
    encode f g (setItem d k v) = setItem (encode f g d) (f k) (g v) := by
  induction d with
  | nil => rfl
  | cons e d ih =>
    have ih' := ih fun k' hk' => hf k' (by simp [hk'])
    by_cases he : e.1 = k
    · simp [encode, setItem, he]
    · have hne : f e.1 ≠ f k := fun h => he (hf e.1 (by simp) h)
      simp only [encode, List.map_cons] at ih' ⊢
      simp [setItem, he, hne, ih']

theorem encode_erase {d : List (κ × ν)} {k : κ} (hf : ∀ k' ∈ keys d, f k' = f k → k' = k) :
    encode f g (erase d k) = erase (encode f g d) (f k) := by
  simp only [encode, erase, List.filter_map]
  congr 1
  apply List.filter_congr
  intro e he
  have hinj : f e.1 = f k ↔ e.1 = k := ⟨hf e.1 (List.mem_map_of_mem he), fun h => h ▸ rfl⟩
  simp [hinj]

omit [DecidableEq κ] [DecidableEq κ'] in
theorem mem_keys_encode_iff {d : List (κ × ν)} {k : κ} (hf : ∀ k' ∈ keys d, f k' = f k → k' = k) :
    f k ∈ keys (encode f g d) ↔ k ∈ keys d := by
  rw [keys_encode, List.mem_map]
  constructor
  · rintro ⟨k', hk', he⟩
    exact hf k' hk' he ▸ hk'
  · exact fun hk => ⟨k, hk, rfl⟩

end Encode

end GoAttend.Lib.Dict
