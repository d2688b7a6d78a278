import GoAttend.Lib.PyJson.RoundTrip

/-! What `dumps` writes is ASCII, so it always encodes to UTF-8, and the bytes decode back to the
same text: storing the bytes of a dump and loading them gives the value back as the text did. -/

namespace GoAttend.Lib.PyJson

open Dict

section Values

variable {F : Type} (fmt : FloatFormat F)

theorem hex4_lt (v : ℕ) : ∀ x ∈ hex4 v, x < 0x80 := by
  have hdig : ∀ d < 16, hexDigits.getD d 0 < 0x80 := by decide
  intro x hx
  simp only [hex4, List.map_cons, List.map_nil, List.mem_cons, List.not_mem_nil, or_false] at hx
  rcases hx with rfl | rfl | rfl | rfl <;> exact hdig _ (Nat.mod_lt _ (by norm_num))

/-- The letter of a two-character escape is ASCII. -/
theorem lt_of_shortEscape {e c : ℕ} (h : shortEscape e = some c) : e < 0x80 := by
  unfold shortEscape at h
  split_ifs at h <;> omega

theorem escapeChar_lt (c : ℕ) : ∀ x ∈ escapeChar c, x < 0x80 := by
  intro x hx
  rcases escapeChar_cases c with ⟨hp, he⟩ | ⟨e, hs, he⟩ | ⟨-, he⟩ | ⟨-, he⟩ <;> rw [he] at hx
  · -- printable ASCII
    simp only [plainChar, Bool.and_eq_true, decide_eq_true_eq, bne_iff_ne, ne_eq] at hp
    simp only [List.mem_singleton] at hx
    omega
  · -- a backslash and a letter
    have := lt_of_shortEscape hs
    simp only [List.mem_cons, List.not_mem_nil, or_false] at hx
    omega
  -- `\u` escapes: the prefix and hex digits
  · simp only [List.mem_append] at hx
    rcases hx with ((hx | hx) | hx) | hx
    · revert x; decide
    · exact hex4_lt _ x hx
    · revert x; decide
    · exact hex4_lt _ x hx
  · simp only [List.mem_append] at hx
    rcases hx with hx | hx
    · revert x; decide
    · exact hex4_lt _ x hx

theorem encodeString_lt (s : List ℕ) : ∀ x ∈ encodeString s, x < 0x80 := by
  intro x hx
  simp only [encodeString, List.mem_cons, List.mem_append, List.mem_flatMap, List.not_mem_nil,
    or_false] at hx
  rcases hx with rfl | ⟨c, -, hx⟩ | rfl
  · decide
  · exact escapeChar_lt c x hx
  · decide

theorem isDigit_lt {c : ℕ} (h : isDigit c = true) : c < 0x80 := by
  simp only [isDigit, Bool.and_eq_true, decide_eq_true_eq] at h
  omega

theorem FloatLiteral.lt {cs : List ℕ} (h : FloatLiteral cs) : ∀ x ∈ cs, x < 0x80 := by
  obtain ⟨i, f, e, rfl, ⟨sign, ds, rfl, hsign, hds⟩, hf, he, -⟩ := h
  have hdigits : ∀ x ∈ ds, isDigit x = true := by
    rcases hds with rfl | ⟨d, t, rfl, -, hd, ht⟩
    · decide
    · simpa [hd] using ht
  intro x hx
  simp only [List.mem_append] at hx
  rcases hx with ((hx | hx) | hx) | hx
  · rcases hsign with rfl | rfl <;> simp_all
  · exact isDigit_lt (hdigits x hx)
  · rcases hf with rfl | ⟨d, ds', rfl, hd, hds'⟩
    · simp at hx
    · simp only [List.mem_cons] at hx
      rcases hx with rfl | rfl | hx
      · decide
      · exact isDigit_lt hd
      · exact isDigit_lt (hds' x hx)
  · rcases he with rfl | ⟨E, sg, d, ds', rfl, hE, hsg, hd, hds'⟩
    · simp at hx
    · simp only [List.mem_cons, List.mem_append] at hx
      rcases hx with rfl | hx | rfl | hx
      · omega
      · rcases hsg with rfl | rfl | rfl <;> simp_all
      · exact isDigit_lt hd
      · exact isDigit_lt (hds' x hx)

theorem intRepr_lt {i : ℤ} {t : List ℕ} (h : intRepr i = some t) : ∀ x ∈ t, x < 0x80 := by
  obtain ⟨rfl, -⟩ := intRepr_eq_some h
  intro x hx
  simp only [List.mem_append] at hx
  rcases hx with hx | hx
  · split_ifs at hx <;> simp_all
  · exact isDigit_lt (isDigit_of_mem_decimal _ x hx)

/-- `dumps` writes ASCII only (`ensure_ascii=True`). -/
theorem dumps_lt (v : Value F) : ∀ {t : List ℕ}, v.dumps fmt = some t → ∀ x ∈ t, x < 0x80 := by
  induction v with
  | null =>
    intro t h
    simp only [Value.dumps, Option.some.injEq] at h
    subst h
    rw [lit_null]
    decide
  | bool b =>
    intro t h
    cases b <;> simp only [Value.dumps, Option.some.injEq] at h <;> subst h
    · rw [lit_false]
      decide
    · rw [lit_true]
      decide
  | int i => exact fun h => intRepr_lt h
  | float x =>
    intro t h
    simp only [Value.dumps, Option.some.injEq] at h
    subst h
    exact (fmt.repr_literal x).lt
  | str s =>
    intro t h
    simp only [Value.dumps, Option.some.injEq] at h
    subst h
    exact encodeString_lt s
  | list vs ih =>
    -- the items one by one, after the first
    have hitems : ∀ (vs' : List (Value F)), (∀ w ∈ vs', w ∈ vs) → ∀ {b : List ℕ},
        dumpsItems fmt vs' = some b → ∀ x ∈ b, x < 0x80 := by
      intro vs' hsub
      induction vs' with
      | nil =>
        intro b hb
        simp only [dumpsItems, Option.some.injEq] at hb
        simp [← hb]
      | cons w ws ihw =>
        intro b hb
        obtain ⟨a, b', ha, hb', rfl⟩ := dumpsItems_cons fmt hb
        have ha' := ih w (hsub w List.mem_cons_self) ha
        have hb'' := ihw (fun u hu => hsub u (List.mem_cons_of_mem _ hu)) hb'
        intro x hx
        simp only [List.mem_cons, List.mem_append] at hx
        rcases hx with rfl | rfl | hx | hx
        · decide
        · decide
        · exact ha' x hx
        · exact hb'' x hx
    intro t h
    cases vs with
    | nil =>
      simp only [Value.dumps, Option.some.injEq] at h
      subst h
      decide
    | cons v vs =>
      obtain ⟨a, b, ha, hb, rfl⟩ := dumps_list_cons fmt h
      have ha' := ih v List.mem_cons_self ha
      have hb' := hitems vs (fun u hu => List.mem_cons_of_mem _ hu) hb
      intro x hx
      simp only [List.mem_cons, List.mem_append, List.not_mem_nil, or_false] at hx
      rcases hx with rfl | (hx | hx) | rfl
      · decide
      · exact ha' x hx
      · exact hb' x hx
      · decide
  | dict kvs ih =>
    have hmembers : ∀ (kvs' : List (List ℕ × Value F)), (∀ kv ∈ kvs', kv ∈ kvs) → ∀ {b : List ℕ},
        dumpsMembers fmt kvs' = some b → ∀ x ∈ b, x < 0x80 := by
      intro kvs' hsub
      induction kvs' with
      | nil =>
        intro b hb
        simp only [dumpsMembers, Option.some.injEq] at hb
        simp [← hb]
      | cons kv ks ihk =>
        obtain ⟨k, w⟩ := kv
        intro b hb
        obtain ⟨a, b', ha, hb', rfl⟩ := dumpsMembers_cons fmt hb
        have ha' := ih (k, w) (hsub _ List.mem_cons_self) ha
        have hb'' := ihk (fun u hu => hsub u (List.mem_cons_of_mem _ hu)) hb'
        intro x hx
        simp only [List.mem_cons, List.mem_append] at hx
        rcases hx with rfl | rfl | hx | rfl | rfl | hx | hx
        · decide
        · decide
        · exact encodeString_lt k x hx
        · decide
        · decide
        · exact ha' x hx
        · exact hb'' x hx
    intro t h
    cases kvs with
    | nil =>
      simp only [Value.dumps, Option.some.injEq] at h
      subst h
      decide
    | cons kv kvs =>
      obtain ⟨k, w⟩ := kv
      obtain ⟨a, b, ha, hb, rfl⟩ := dumps_dict_cons fmt h
      have ha' := ih (k, w) List.mem_cons_self ha
      have hb' := hmembers kvs (fun u hu => List.mem_cons_of_mem _ hu) hb
      intro x hx
      simp only [List.mem_cons, List.mem_append, List.not_mem_nil, or_false] at hx
      rcases hx with rfl | hx | rfl | rfl | (hx | hx) | rfl
      · decide
      · exact encodeString_lt k x hx
      · decide
      · decide
      · exact ha' x hx
      · exact hb' x hx
      · decide

end Values

/-! ## Through UTF-8 and back -/

theorem encodeUtf8_of_isValidChar {s : List ℕ} (hs : ∀ c ∈ s, c.isValidChar) :
    encodeUtf8 s = some (Utf8.encode (s.map Char.ofNat)) :=
  if_pos hs

theorem encodeUtf8_of_lt {s : List ℕ} (hs : ∀ c ∈ s, c < 0x80) :
    encodeUtf8 s = some (Utf8.encode (s.map Char.ofNat)) := by
  apply encodeUtf8_of_isValidChar
  intro c hc
  have := hs c hc
  unfold Nat.isValidChar
  omega

theorem encodeUtf8_eq_none_iff {s : List ℕ} : encodeUtf8 s = none ↔ ∃ c ∈ s, ¬c.isValidChar := by
  unfold encodeUtf8
  split_ifs with h
  · simp only [false_iff, not_exists, not_and, not_not]
    exact h
  · simp only [not_forall] at h
    obtain ⟨c, hc, hv⟩ := h
    exact iff_of_true rfl ⟨c, hc, hv⟩

/-- Valid UTF-8 decodes to the text it encodes. -/
theorem decodeUtf8_of_encodeUtf8 {s : List ℕ} {b : List UInt8} (h : encodeUtf8 s = some b) :
    decodeUtf8 b = some s := by
  unfold encodeUtf8 at h
  split_ifs at h with hs
  cases h
  have hmap : (s.map Char.ofNat).map Char.toNat = s := by
    rw [List.map_map]
    conv_rhs => rw [← List.map_id s]
    apply List.map_congr_left
    intro c hc
    rw [Function.comp_apply, Char.ofNat, dif_pos (hs c hc)]
    rfl
  simp [decodeUtf8, Utf8.sanitize_encode, Utf8.runes_encode, hmap]

theorem encodeUtf8_inj {s s' : List ℕ} {b : List UInt8} (h : encodeUtf8 s = some b)
    (h' : encodeUtf8 s' = some b) : s = s' := by
  have := (decodeUtf8_of_encodeUtf8 h).symm.trans (decodeUtf8_of_encodeUtf8 h')
  exact Option.some.inj this

/-- A value `dumps` writes is kept as the UTF-8 bytes of its ASCII text, and `json.loads` reads
those bytes back as `v.loaded`. -/
theorem loadsBytes_dumps {F : Type} (fmt : FloatFormat F) {v : Value F} (hv : v.wellFormed = true)
    {t : List ℕ} (h : v.dumps fmt = some t) :
    ∃ b, encodeUtf8 t = some b ∧ loadsBytes fmt b = some v.loaded := by
  have he := encodeUtf8_of_lt (dumps_lt fmt v h)
  refine ⟨_, he, ?_⟩
  rw [loadsBytes, decodeUtf8_of_encodeUtf8 he, Option.bind_some, decode_dumps_loaded fmt hv h]

end GoAttend.Lib.PyJson
