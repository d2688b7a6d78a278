import GoAttend.Lib.PyJson.Strings
import GoAttend.Lib.PyJson.Numbers

/-! The round trip of `json`: whatever `dumps` writes, `loads` reads back as the value with the
surrogate pairs of its strings joined and each dict rebuilt key by key; on the values whose
strings hold no such pair and whose dicts have distinct keys, that is the value itself. -/

namespace GoAttend.Lib.PyJson

open Dict

theorem lit_null : lit "null" = [0x6E, 0x75, 0x6C, 0x6C] := rfl
theorem lit_true : lit "true" = [0x74, 0x72, 0x75, 0x65] := rfl
theorem lit_false : lit "false" = [0x66, 0x61, 0x6C, 0x73, 0x65] := rfl
theorem lit_comma : lit ", " = [0x2C, 0x20] := rfl
theorem lit_colon : lit ": " = [0x3A, 0x20] := rfl

theorem skipWs_cons {c : ℕ} (hc : isWs c = false) (t : List ℕ) : skipWs (c :: t) = c :: t := by
  simp [skipWs, hc]

theorem skipWs_space (t : List ℕ) : skipWs (0x20 :: t) = skipWs t := by
  simp [skipWs, isWs]

theorem IntPart.head {i : List ℕ} (hi : IntPart i) :
    ∃ c i', i = c :: i' ∧ (c = 0x2D ∨ isDigit c = true) := by
  obtain ⟨sign, ds, rfl, hsign, hds⟩ := hi
  rcases hsign with rfl | rfl
  · rcases hds with rfl | ⟨d, t, rfl, -, hd, -⟩
    · exact ⟨_, _, rfl, Or.inr rfl⟩
    · exact ⟨_, _, rfl, Or.inr hd⟩
  · exact ⟨_, _, rfl, Or.inl rfl⟩

section Values

variable {F : Type} (fmt : FloatFormat F)

/-- Induction on values, with a hypothesis for every item of a list and every value of a dict. -/
@[induction_eliminator]
theorem Value.induction {motive : Value F → Prop} (null : motive .null)
    (bool : ∀ b, motive (.bool b)) (int : ∀ i, motive (.int i)) (float : ∀ x, motive (.float x))
    (str : ∀ s, motive (.str s)) (list : ∀ vs, (∀ v ∈ vs, motive v) → motive (.list vs))
    (dict : ∀ kvs, (∀ kv ∈ kvs, motive kv.2) → motive (.dict kvs)) (v : Value F) : motive v :=
  @Value.rec F motive (fun vs => ∀ v ∈ vs, motive v) (fun kvs => ∀ kv ∈ kvs, motive kv.2)
    (fun kv => motive kv.2) null bool int float str list dict
    (fun _ h => absurd h List.not_mem_nil)
    (fun _ _ hv hvs _ hw => (List.mem_cons.mp hw).elim (fun h => h ▸ hv) (hvs _))
    (fun _ h => absurd h List.not_mem_nil)
    (fun _ _ hkv hkvs _ hw => (List.mem_cons.mp hw).elim (fun h => h ▸ hkv) (hkvs _))
    (fun _ _ h => h) v

mutual

/-- A value that `json.loads(json.dumps(v))` gives back: its strings round-trip, its integers have
at most `intMaxStrDigits` digits, and no dict repeats a key, as no Python dict does. -/
def Value.roundTrips : Value F → Bool
  | .null => true
  | .bool _ => true
  | .int i => decide ((decimal i.natAbs).length ≤ intMaxStrDigits)
  | .float _ => true
  | .str s => strRoundTrips s
  | .list vs => itemsRoundTrip vs
  | .dict kvs => decide (keys kvs).Nodup && membersRoundTrip kvs

def itemsRoundTrip : List (Value F) → Bool
  | [] => true
  | v :: vs => v.roundTrips && itemsRoundTrip vs

def membersRoundTrip : List (List ℕ × Value F) → Bool
  | [] => true
  | (k, v) :: kvs => strRoundTrips k && v.roundTrips && membersRoundTrip kvs

end

theorem itemsRoundTrip_iff {vs : List (Value F)} :
    itemsRoundTrip vs = true ↔ ∀ v ∈ vs, v.roundTrips = true := by
  induction vs with
  | nil => simp [itemsRoundTrip]
  | cons v vs ih => simp [itemsRoundTrip, ih]

theorem membersRoundTrip_iff {kvs : List (List ℕ × Value F)} :
    membersRoundTrip kvs = true ↔
      ∀ kv ∈ kvs, strRoundTrips kv.1 = true ∧ kv.2.roundTrips = true := by
  induction kvs with
  | nil => simp [membersRoundTrip]
  | cons kv kvs ih =>
    obtain ⟨k, v⟩ := kv
    simp [membersRoundTrip, ih, and_assoc]

mutual

/-- A value whose strings and keys are Python strings: every code point below U+110000. -/
def Value.wellFormed : Value F → Bool
  | .str s => s.all (· < 0x110000)
  | .list vs => itemsWellFormed vs
  | .dict kvs => membersWellFormed kvs
  | _ => true

def itemsWellFormed : List (Value F) → Bool
  | [] => true
  | v :: vs => v.wellFormed && itemsWellFormed vs

def membersWellFormed : List (List ℕ × Value F) → Bool
  | [] => true
  | (k, v) :: kvs => k.all (· < 0x110000) && v.wellFormed && membersWellFormed kvs

end

mutual

/-- What `json.loads(json.dumps(v))` gives for `v`: its strings and keys with their surrogate
pairs joined, and each dict rebuilt item by item, so that keys made equal keep one item. -/
def Value.loaded : Value F → Value F
  | .str s => .str (joinPairs s)
  | .list vs => .list (loadedItems vs)
  | .dict kvs => .dict (ofPairs (loadedMembers kvs))
  | v => v

def loadedItems : List (Value F) → List (Value F)
  | [] => []
  | v :: vs => v.loaded :: loadedItems vs

def loadedMembers : List (List ℕ × Value F) → List (List ℕ × Value F)
  | [] => []
  | (k, v) :: kvs => (joinPairs k, v.loaded) :: loadedMembers kvs

end

theorem itemsWellFormed_iff {vs : List (Value F)} :
    itemsWellFormed vs = true ↔ ∀ v ∈ vs, v.wellFormed = true := by
  induction vs with
  | nil => simp [itemsWellFormed]
  | cons v vs ih => simp [itemsWellFormed, ih]

theorem membersWellFormed_iff {kvs : List (List ℕ × Value F)} :
    membersWellFormed kvs = true ↔
      ∀ kv ∈ kvs, (∀ c ∈ kv.1, c < 0x110000) ∧ kv.2.wellFormed = true := by
  induction kvs with
  | nil => simp [membersWellFormed]
  | cons kv kvs ih =>
    obtain ⟨k, v⟩ := kv
    simp [membersWellFormed, ih, and_assoc]

theorem loadedItems_eq_map (vs : List (Value F)) : loadedItems vs = vs.map Value.loaded := by
  induction vs with
  | nil => rfl
  | cons v vs ih => simp [loadedItems, ih]

theorem loadedMembers_eq_map (kvs : List (List ℕ × Value F)) :
    loadedMembers kvs = kvs.map fun kv => (joinPairs kv.1, kv.2.loaded) := by
  induction kvs with
  | nil => rfl
  | cons kv kvs ih =>
    obtain ⟨k, v⟩ := kv
    simp [loadedMembers, ih]

/-- A value that round-trips is made of Python strings. -/
theorem wellFormed_of_roundTrips {v : Value F} (hv : v.roundTrips = true) : v.wellFormed = true := by
  induction v with
  | str s =>
    simp only [Value.roundTrips, strRoundTrips, Bool.and_eq_true] at hv
    exact hv.1
  | list vs ih =>
    rw [Value.roundTrips, itemsRoundTrip_iff] at hv
    rw [Value.wellFormed, itemsWellFormed_iff]
    exact fun v hmem => ih v hmem (hv v hmem)
  | dict kvs ih =>
    simp only [Value.roundTrips, Bool.and_eq_true, membersRoundTrip_iff] at hv
    rw [Value.wellFormed, membersWellFormed_iff]
    intro kv hmem
    obtain ⟨hk, hkv⟩ := hv.2 kv hmem
    simp only [strRoundTrips, Bool.and_eq_true, List.all_eq_true, decide_eq_true_eq] at hk
    exact ⟨hk.1, ih kv hmem hkv⟩
  | _ => rfl

/-- A value that round-trips is its own reading back. -/
theorem loaded_of_roundTrips {v : Value F} (hv : v.roundTrips = true) : v.loaded = v := by
  have hstr : ∀ {s : List ℕ}, strRoundTrips s = true → joinPairs s = s := by
    intro s hs
    simp only [strRoundTrips, Bool.and_eq_true, Bool.not_eq_true'] at hs
    exact joinPairs_of_not_joinsPair hs.2
  induction v with
  | str s => simp only [Value.loaded, hstr hv]
  | list vs ih =>
    rw [Value.roundTrips, itemsRoundTrip_iff] at hv
    rw [Value.loaded, loadedItems_eq_map, List.map_congr_left (fun v hmem => ih v hmem (hv v hmem))]
    simp
  | dict kvs ih =>
    simp only [Value.roundTrips, Bool.and_eq_true, decide_eq_true_eq, membersRoundTrip_iff] at hv
    have hmap : loadedMembers kvs = kvs := by
      rw [loadedMembers_eq_map]
      conv_rhs => rw [← List.map_id kvs]
      apply List.map_congr_left
      intro kv hmem
      obtain ⟨hk, hkv⟩ := hv.2 kv hmem
      simp [hstr hk, ih kv hmem hkv]
    rw [Value.loaded, hmap, ofPairs_of_nodup hv.1]
  | _ => rfl

/-- A dict whose keys round-trip and are distinct is read back value by value. -/
theorem loaded_dict {kvs : List (List ℕ × Value F)} (hk : ∀ k ∈ keys kvs, strRoundTrips k = true)
    (hnodup : (keys kvs).Nodup) :
    (Value.dict kvs).loaded = .dict (kvs.map fun kv => (kv.1, kv.2.loaded)) := by
  have hmap : loadedMembers kvs = kvs.map fun kv => (kv.1, kv.2.loaded) := by
    rw [loadedMembers_eq_map]
    apply List.map_congr_left
    intro kv hkv
    have hs := hk kv.1 (List.mem_map_of_mem hkv)
    simp only [strRoundTrips, Bool.and_eq_true, Bool.not_eq_true'] at hs
    rw [joinPairs_of_not_joinsPair hs.2]
  have hkeys : keys (kvs.map fun kv => (kv.1, kv.2.loaded)) = keys kvs := by
    simp [keys, Function.comp_def]
  rw [Value.loaded, hmap, ofPairs_of_nodup (hkeys ▸ hnodup)]

theorem dumps_list_cons {v : Value F} {vs : List (Value F)} {t : List ℕ}
    (h : (Value.list (v :: vs)).dumps fmt = some t) :
    ∃ a b, v.dumps fmt = some a ∧ dumpsItems fmt vs = some b ∧ t = 0x5B :: (a ++ b ++ [0x5D]) := by
  simp only [Value.dumps, Option.bind_eq_bind, Option.bind_eq_some_iff, Option.pure_def,
    Option.some.injEq] at h
  obtain ⟨a, ha, b, hb, rfl⟩ := h
  exact ⟨a, b, ha, hb, rfl⟩

theorem dumpsItems_cons {v : Value F} {vs : List (Value F)} {t : List ℕ}
    (h : dumpsItems fmt (v :: vs) = some t) :
    ∃ a b, v.dumps fmt = some a ∧ dumpsItems fmt vs = some b ∧ t = 0x2C :: 0x20 :: (a ++ b) := by
  simp only [dumpsItems, Option.bind_eq_bind, Option.bind_eq_some_iff, Option.pure_def,
    Option.some.injEq] at h
  obtain ⟨a, ha, b, hb, rfl⟩ := h
  exact ⟨a, b, ha, hb, by simp [lit_comma]⟩

theorem dumps_dict_cons {k : List ℕ} {v : Value F} {kvs : List (List ℕ × Value F)} {t : List ℕ}
    (h : (Value.dict ((k, v) :: kvs)).dumps fmt = some t) :
    ∃ a b, v.dumps fmt = some a ∧ dumpsMembers fmt kvs = some b ∧
      t = 0x7B :: (encodeString k ++ 0x3A :: 0x20 :: (a ++ b ++ [0x7D])) := by
  simp only [Value.dumps, Option.bind_eq_bind, Option.bind_eq_some_iff, Option.pure_def,
    Option.some.injEq] at h
  obtain ⟨a, ha, b, hb, rfl⟩ := h
  exact ⟨a, b, ha, hb, by simp [lit_colon]⟩

theorem dumpsMembers_cons {k : List ℕ} {v : Value F} {kvs : List (List ℕ × Value F)}
    {t : List ℕ} (h : dumpsMembers fmt ((k, v) :: kvs) = some t) :
    ∃ a b, v.dumps fmt = some a ∧ dumpsMembers fmt kvs = some b ∧
      t = 0x2C :: 0x20 :: (encodeString k ++ 0x3A :: 0x20 :: (a ++ b)) := by
  simp only [dumpsMembers, Option.bind_eq_bind, Option.bind_eq_some_iff, Option.pure_def,
    Option.some.injEq] at h
  obtain ⟨a, ha, b, hb, rfl⟩ := h
  exact ⟨a, b, ha, hb, by simp [lit_comma, lit_colon]⟩

/-- A written value starts with a character that is neither whitespace nor `]`. -/
theorem dumps_head {v : Value F} {t : List ℕ} (h : v.dumps fmt = some t) :
    ∃ c t', t = c :: t' ∧ isWs c = false ∧ c ≠ 0x5D := by
  have hnum : ∀ {i : List ℕ} (r : List ℕ), IntPart i →
      ∃ c t', i ++ r = c :: t' ∧ isWs c = false ∧ c ≠ 0x5D := by
    intro i r hi
    obtain ⟨c, i', rfl, hc⟩ := hi.head
    refine ⟨c, i' ++ r, rfl, ?_, ?_⟩
    · rcases hc with rfl | hc
      · rfl
      · simp only [isDigit, Bool.and_eq_true, decide_eq_true_eq] at hc
        simp only [isWs, Bool.or_eq_false_iff, beq_eq_false_iff_ne, ne_eq]
        omega
    · rcases hc with rfl | hc
      · decide
      · simp only [isDigit, Bool.and_eq_true, decide_eq_true_eq] at hc
        omega
  cases v with
  | null => exact ⟨_, _, (Option.some.inj h).symm.trans lit_null, rfl, by decide⟩
  | bool b =>
    cases b
    · exact ⟨_, _, (Option.some.inj h).symm.trans lit_false, rfl, by decide⟩
    · exact ⟨_, _, (Option.some.inj h).symm.trans lit_true, rfl, by decide⟩
  | int i =>
    simpa using hnum [] (intPart_intRepr h)
  | float x =>
    simp only [Value.dumps, Option.some.injEq] at h
    subst h
    obtain ⟨i, f, e, hcs, hi, -⟩ := fmt.repr_literal x
    rw [hcs, List.append_assoc]
    exact hnum _ hi
  | str s => exact ⟨_, _, (Option.some.inj h).symm, rfl, by decide⟩
  | list vs =>
    cases vs with
    | nil => exact ⟨_, _, (Option.some.inj h).symm, rfl, by decide⟩
    | cons v vs =>
      obtain ⟨a, b, -, -, rfl⟩ := dumps_list_cons fmt h
      exact ⟨_, _, rfl, rfl, by decide⟩
  | dict kvs =>
    cases kvs with
    | nil => exact ⟨_, _, (Option.some.inj h).symm, rfl, by decide⟩
    | cons kv kvs =>
      obtain ⟨k, v⟩ := kv
      obtain ⟨a, b, -, -, rfl⟩ := dumps_dict_cons fmt h
      exact ⟨_, _, rfl, rfl, by decide⟩

theorem scanOnce_number {c : ℕ} (hc : c = 0x2D ∨ isDigit c = true) (n : ℕ) (t : List ℕ) :
    scanOnce fmt (n + 1) (c :: t) = scanNumber fmt (c :: t) := by
  rcases hc with rfl | hc
  · rfl
  · simp only [isDigit, Bool.and_eq_true, decide_eq_true_eq] at hc
    obtain ⟨h1, h2⟩ := hc
    interval_cases c <;> rfl

theorem scanOnce_scanNumber {i : List ℕ} (hi : IntPart i) (r : List ℕ) (n : ℕ) :
    scanOnce fmt (n + 1) (i ++ r) = scanNumber fmt (i ++ r) := by
  obtain ⟨c, i', rfl, hc⟩ := hi.head
  exact scanOnce_number fmt hc n _

theorem skipWs_dumps {v : Value F} {t : List ℕ} (h : v.dumps fmt = some t) (r : List ℕ) :
    skipWs (t ++ r) = t ++ r := by
  obtain ⟨c, t', rfl, hws, -⟩ := dumps_head fmt h
  exact skipWs_cons hws _

theorem scanOnce_list {c : ℕ} (hws : isWs c = false) (hc : c ≠ 0x5D) (n : ℕ) (t : List ℕ) :
    scanOnce fmt (n + 1) (0x5B :: c :: t) =
      (parseItems fmt n [] (c :: t)).map fun p => (Value.list p.1, p.2) := by
  simp only [scanOnce, skipWs_cons hws]
  split
  · next r heq =>
    simp only [List.cons.injEq] at heq
    exact absurd heq.1 hc
  · rfl

/-- `scan_once_unicode` reads `v.loaded` from what `dumps` wrote for `v`, whatever stop follows
it, given as many nested calls as the text has characters. -/
def ScansBack (v : Value F) : Prop :=
  ∀ {t r : List ℕ} {n : ℕ}, v.wellFormed = true → v.dumps fmt = some t → Stop r →
    t.length ≤ n → scanOnce fmt n (t ++ r) = some (v.loaded, r)

/-- The loop of `_parse_array_unicode` reads back the items `dumps` wrote after the `[`. -/
theorem parseItems_dumps {v : Value F} {vs : List (Value F)} (ih : ∀ w ∈ v :: vs, ScansBack fmt w)
    (hv : ∀ w ∈ v :: vs, w.wellFormed = true) {a b : List ℕ} (ha : v.dumps fmt = some a)
    (hb : dumpsItems fmt vs = some b) (rest : List ℕ) (acc : List (Value F)) {n : ℕ}
    (hn : (a ++ b).length < n) :
    parseItems fmt n acc (a ++ (b ++ 0x5D :: rest)) =
      some (acc ++ loadedItems (v :: vs), rest) := by
  obtain ⟨m, rfl⟩ : ∃ m, n = m + 1 := ⟨n - 1, by omega⟩
  simp only [List.length_append] at hn
  induction vs generalizing v a b acc m with
  | nil =>
    simp only [dumpsItems, Option.some.injEq] at hb
    subst hb
    have hscan : scanOnce fmt m (a ++ 0x5D :: rest) = some (v.loaded, 0x5D :: rest) :=
      ih v List.mem_cons_self (hv v List.mem_cons_self) ha (by simp [Stop]) (by omega)
    simp [parseItems, hscan, skipWs_cons (show isWs 0x5D = false by decide), loadedItems]
  | cons v' vs ihvs =>
    -- after the item come `, ` and the next item
    obtain ⟨a', b', ha', hb', rfl⟩ := dumpsItems_cons fmt hb
    simp only [List.length_cons, List.length_append] at hn
    have hscan : scanOnce fmt m (a ++ 0x2C :: 0x20 :: (a' ++ (b' ++ 0x5D :: rest))) =
        some (v.loaded, 0x2C :: 0x20 :: (a' ++ (b' ++ 0x5D :: rest))) :=
      ih v List.mem_cons_self (hv v List.mem_cons_self) ha (by simp [Stop]) (by omega)
    have hnext := ihvs (fun w hw => ih w (List.mem_cons_of_mem _ hw))
      (fun w hw => hv w (List.mem_cons_of_mem _ hw)) ha' hb' (acc ++ [v.loaded]) (m := m - 1)
      (by omega)
    rw [Nat.sub_add_cancel (by omega)] at hnext
    simp only [List.cons_append, List.append_assoc] at hnext ⊢
    simp only [parseItems, hscan, skipWs_cons (show isWs 0x2C = false by decide), skipWs_space,
      skipWs_dumps fmt ha', hnext]
    simp [loadedItems]

/-- The loop of `_parse_object_unicode` reads back the items `dumps` wrote after the `{`, setting
each into the dict in turn. -/
theorem parseMembers_dumps {k : List ℕ} {v : Value F} {kvs : List (List ℕ × Value F)}
    (ih : ∀ kv ∈ (k, v) :: kvs, ScansBack fmt kv.2)
    (hv : ∀ kv ∈ (k, v) :: kvs, (∀ c ∈ kv.1, c < 0x110000) ∧ kv.2.wellFormed = true)
    {a b : List ℕ} (ha : v.dumps fmt = some a) (hb : dumpsMembers fmt kvs = some b)
    (rest : List ℕ) (d : List (List ℕ × Value F)) {n : ℕ}
    (hn : (encodeString k ++ a ++ b).length + 2 < n) :
    parseMembers fmt n d (encodeString k ++ 0x3A :: 0x20 :: (a ++ (b ++ 0x7D :: rest))) =
      some ((loadedMembers ((k, v) :: kvs)).foldl (fun d e => setItem d e.1 e.2) d, rest) := by
  obtain ⟨m, rfl⟩ : ∃ m, n = m + 1 := ⟨n - 1, by omega⟩
  simp only [List.length_append] at hn
  induction kvs generalizing k v a b d m with
  | nil =>
    simp only [dumpsMembers, Option.some.injEq] at hb
    subst hb
    obtain ⟨hk, hvv⟩ := hv (k, v) List.mem_cons_self
    have hscan : scanOnce fmt m (a ++ 0x7D :: rest) = some (v.loaded, 0x7D :: rest) :=
      ih (k, v) List.mem_cons_self hvv ha (by simp [Stop]) (by omega)
    have hkey := scanString_escapes none k (by simp) hk (0x3A :: 0x20 :: (a ++ 0x7D :: rest))
    simp only [Option.toList_none, List.nil_append] at hkey
    simp only [List.nil_append, encodeString, List.cons_append, List.append_assoc]
    simp [parseMembers, hkey, skipWs_cons (show isWs 0x3A = false by decide), skipWs_space,
      skipWs_dumps fmt ha, hscan, skipWs_cons (show isWs 0x7D = false by decide), loadedMembers,
      joinPairs]
  | cons kv kvs ihkvs =>
    obtain ⟨k', v'⟩ := kv
    obtain ⟨a', b', ha', hb', rfl⟩ := dumpsMembers_cons fmt hb
    obtain ⟨hk, hvv⟩ := hv (k, v) List.mem_cons_self
    simp only [List.length_cons, List.length_append] at hn
    have hscan : scanOnce fmt m (a ++ 0x2C :: 0x20 :: (encodeString k' ++ 0x3A :: 0x20 ::
        (a' ++ (b' ++ 0x7D :: rest)))) = some (v.loaded,
          0x2C :: 0x20 :: (encodeString k' ++ 0x3A :: 0x20 :: (a' ++ (b' ++ 0x7D :: rest)))) :=
      ih (k, v) List.mem_cons_self hvv ha (by simp [Stop]) (by omega)
    have hnext := ihkvs (fun kv hkv => ih kv (List.mem_cons_of_mem _ hkv))
      (fun kv hkv => hv kv (List.mem_cons_of_mem _ hkv)) ha' hb'
      (setItem d (joinPairs k) v.loaded) (m := m - 1) (by omega)
    rw [Nat.sub_add_cancel (by omega)] at hnext
    have hkey := scanString_escapes none k (by simp) hk
      (0x3A :: 0x20 :: (a ++ 0x2C :: 0x20 :: (encodeString k' ++ 0x3A :: 0x20 ::
        (a' ++ (b' ++ 0x7D :: rest)))))
    simp only [Option.toList_none, List.nil_append] at hkey
    rw [← joinPairs] at hkey
    have hq : ∀ r, skipWs (encodeString k' ++ r) = encodeString k' ++ r := fun r =>
      skipWs_cons (show isWs 0x22 = false by decide) _
    simp only [List.cons_append, List.append_assoc] at hnext ⊢
    conv_lhs => rw [encodeString, List.cons_append, List.append_assoc, List.singleton_append]
    simp only [parseMembers, hkey, skipWs_cons (show isWs 0x3A = false by decide), skipWs_space,
      skipWs_dumps fmt ha, hscan, skipWs_cons (show isWs 0x2C = false by decide), hq, hnext]
    simp [loadedMembers]

/-- Every value that round-trips is read back from what `dumps` wrote: one case per constructor,
the lists and dicts through the loops above. -/
theorem scansBack (v : Value F) : ScansBack fmt v := by
  induction v with
  | null =>
    intro t rest n _ h _ hn
    obtain ⟨m, rfl⟩ : ∃ m, n = m + 1 := ⟨n - 1, by simp [Value.dumps] at h; subst h; simp [lit_null] at hn; omega⟩
    simp only [Value.dumps, Option.some.injEq] at h
    subst h
    rw [lit_null]
    rfl
  | bool b =>
    intro t rest n _ h _ hn
    obtain ⟨m, rfl⟩ : ∃ m, n = m + 1 := ⟨n - 1, by cases b <;> simp [Value.dumps] at h <;> subst h <;> simp [lit_true, lit_false] at hn <;> omega⟩
    cases b
    · simp only [Value.dumps, Option.some.injEq] at h
      subst h
      rw [lit_false]
      rfl
    · simp only [Value.dumps, Option.some.injEq] at h
      subst h
      rw [lit_true]
      rfl
  | int i =>
    intro t rest n _ h hr hn
    have hi := intPart_intRepr h
    obtain ⟨c, t', ht, -⟩ := hi.head
    obtain ⟨m, rfl⟩ : ∃ m, n = m + 1 := ⟨n - 1, by rw [ht] at hn; simp at hn; omega⟩
    rw [scanOnce_scanNumber fmt hi]
    exact scanNumber_intRepr fmt h hr
  | float x =>
    intro t rest n _ h hr hn
    simp only [Value.dumps, Option.some.injEq] at h
    subst h
    obtain ⟨i, f, e, hcs, hi, -⟩ := fmt.repr_literal x
    obtain ⟨c, i', rfl, -⟩ := hi.head
    obtain ⟨m, rfl⟩ : ∃ m, n = m + 1 := ⟨n - 1, by rw [hcs] at hn; simp at hn; omega⟩
    have hnum := scanOnce_scanNumber fmt hi (f ++ e ++ rest) m
    rw [← List.append_assoc, ← List.append_assoc, ← hcs] at hnum
    rw [hnum]
    exact scanNumber_repr fmt x hr
  | str s =>
    intro t rest n hv h _ hn
    simp only [Value.dumps, Option.some.injEq] at h
    subst h
    obtain ⟨m, rfl⟩ : ∃ m, n = m + 1 := ⟨n - 1, by simp [encodeString] at hn; omega⟩
    have hs : ∀ c ∈ s, c < 0x110000 := by simpa [Value.wellFormed] using hv
    have hscan := scanString_escapes none s (by simp) hs rest
    rw [Option.toList_none, List.nil_append] at hscan
    show (scanString (s.flatMap escapeChar ++ [0x22] ++ rest)).map _ = _
    rw [List.append_assoc, List.singleton_append, hscan]
    rfl
  | list vs ih =>
    intro t rest n hv h _ hn
    cases vs with
    | nil =>
      simp only [Value.dumps, Option.some.injEq] at h
      subst h
      obtain ⟨m, rfl⟩ : ∃ m, n = m + 1 := ⟨n - 1, by simp at hn; omega⟩
      rfl
    | cons v vs =>
      obtain ⟨a, b, ha, hb, rfl⟩ := dumps_list_cons fmt h
      have hvs : ∀ w ∈ v :: vs, w.wellFormed = true := itemsWellFormed_iff.mp hv
      obtain ⟨c, a', rfl, hws, hc⟩ := dumps_head fmt ha
      simp only [List.length_cons, List.length_append] at hn
      obtain ⟨m, rfl⟩ : ∃ m, n = m + 1 := ⟨n - 1, by omega⟩
      have hitems := parseItems_dumps fmt ih hvs ha hb rest [] (n := m)
        (by simp only [List.length_append, List.length_cons]; omega)
      simp only [List.cons_append, List.append_assoc, List.nil_append] at hitems ⊢
      rw [scanOnce_list fmt hws hc, hitems]
      rfl
  | dict kvs ih =>
    intro t rest n hv h _ hn
    cases kvs with
    | nil =>
      simp only [Value.dumps, Option.some.injEq] at h
      subst h
      obtain ⟨m, rfl⟩ : ∃ m, n = m + 1 := ⟨n - 1, by simp at hn; omega⟩
      rfl
    | cons kv kvs =>
      obtain ⟨k, v⟩ := kv
      obtain ⟨a, b, ha, hb, rfl⟩ := dumps_dict_cons fmt h
      simp only [List.length_cons, List.length_append] at hn
      obtain ⟨m, rfl⟩ : ∃ m, n = m + 1 := ⟨n - 1, by omega⟩
      have hmembers := parseMembers_dumps fmt ih (membersWellFormed_iff.mp hv) ha hb rest []
        (n := m) (by simp only [List.length_append]; omega)
      have hq : encodeString k = 0x22 :: (k.flatMap escapeChar ++ [0x22]) := rfl
      simp only [List.cons_append, List.append_assoc, List.nil_append] at hmembers ⊢
      rw [hq, List.cons_append] at hmembers ⊢
      show (parseMembers fmt m [] _).map _ = _
      rw [hmembers]
      -- the dict is rebuilt item by item
      rfl

/-- `json.loads(json.dumps(v))` is `v` with the surrogate pairs of its strings joined. -/
theorem decode_dumps_loaded {v : Value F} (hv : v.wellFormed = true) {t : List ℕ}
    (h : v.dumps fmt = some t) : decode fmt t = some v.loaded := by
  have hscan := scansBack fmt v hv h (r := []) (by simp [Stop]) le_rfl
  have hs := skipWs_dumps fmt h []
  rw [List.append_nil] at hscan hs
  simp only [decode, hs, hscan]
  rfl

/-- `json.dumps` raises only on an integer of more than `intMaxStrDigits` digits. -/
theorem dumps_isSome {v : Value F} (hv : v.roundTrips = true) : ∃ t, v.dumps fmt = some t := by
  induction v with
  | null => exact ⟨_, rfl⟩
  | bool b => cases b <;> exact ⟨_, rfl⟩
  | int i =>
    simp only [Value.roundTrips, decide_eq_true_eq] at hv
    exact ⟨_, if_neg (by omega)⟩
  | float x => exact ⟨_, rfl⟩
  | str s => exact ⟨_, rfl⟩
  | list vs ih =>
    rw [Value.roundTrips, itemsRoundTrip_iff] at hv
    -- the items after the first are written one by one
    have hitems : ∀ vs' : List (Value F), (∀ w ∈ vs', w ∈ vs) → ∃ b, dumpsItems fmt vs' = some b := by
      intro vs' hsub
      induction vs' with
      | nil => exact ⟨_, rfl⟩
      | cons w ws ihw =>
        obtain ⟨a, ha⟩ := ih w (hsub w List.mem_cons_self) (hv w (hsub w List.mem_cons_self))
        obtain ⟨b, hb⟩ := ihw fun u hu => hsub u (List.mem_cons_of_mem _ hu)
        simp [dumpsItems, ha, hb]
    cases vs with
    | nil => exact ⟨_, rfl⟩
    | cons v vs =>
      obtain ⟨a, ha⟩ := ih v List.mem_cons_self (hv v List.mem_cons_self)
      obtain ⟨b, hb⟩ := hitems vs fun u hu => List.mem_cons_of_mem _ hu
      simp [Value.dumps, ha, hb]
  | dict kvs ih =>
    simp only [Value.roundTrips, Bool.and_eq_true, membersRoundTrip_iff] at hv
    have hmembers : ∀ kvs' : List (List ℕ × Value F), (∀ kv ∈ kvs', kv ∈ kvs) →
        ∃ b, dumpsMembers fmt kvs' = some b := by
      intro kvs' hsub
      induction kvs' with
      | nil => exact ⟨_, rfl⟩
      | cons kv ks ihk =>
        obtain ⟨k, w⟩ := kv
        obtain ⟨a, ha⟩ := ih (k, w) (hsub _ List.mem_cons_self) (hv.2 _ (hsub _ List.mem_cons_self)).2
        obtain ⟨b, hb⟩ := ihk fun u hu => hsub u (List.mem_cons_of_mem _ hu)
        simp [dumpsMembers, ha, hb]
    cases kvs with
    | nil => exact ⟨_, rfl⟩
    | cons kv kvs =>
      obtain ⟨k, w⟩ := kv
      obtain ⟨a, ha⟩ := ih (k, w) List.mem_cons_self (hv.2 _ List.mem_cons_self).2
      obtain ⟨b, hb⟩ := hmembers kvs fun u hu => List.mem_cons_of_mem _ hu
      simp [Value.dumps, ha, hb]

end Values

end GoAttend.Lib.PyJson
