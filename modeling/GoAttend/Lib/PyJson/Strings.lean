import GoAttend.Lib.PyJson.Basic

/-! How a `str` goes through `json`: `dumps` escapes every code point on its own, and the scanner
reads the escapes back, joining the escape of a high surrogate with the escape of a low one right
after it. A string with no such pair comes back unchanged; any string comes back with its pairs
joined. -/

namespace GoAttend.Lib.PyJson

open Dict

/-- No high surrogate directly followed by a low one. -/
def joinsPair : List ℕ → Bool
  | a :: b :: t => isHigh a && isLow b || joinsPair (b :: t)
  | _ => false

/-- A `str` that `json` gives back unchanged: code points below U+110000, as Python's are, with no
high surrogate directly before a low one. -/
def strRoundTrips (s : List ℕ) : Bool := s.all (· < 0x110000) && !joinsPair s

/-- What follows the escape of a high surrogate leaves it alone: it is not the escape of a low
surrogate. -/
def Unjoined (t : List ℕ) : Prop :=
  6 < t.length → t.take 2 = [0x5C, 0x75] →
    ∃ u t', readHex4 (t.drop 2) = some (u, t') ∧ isLow u = false

theorem hexValue_hexDigits : ∀ d < 16, hexValue (hexDigits.getD d 0) = some d := by decide

theorem readHex4_hex4 {v : ℕ} (hv : v < 0x10000) (t : List ℕ) :
    readHex4 (hex4 v ++ t) = some (v, t) := by
  have h1 := hexValue_hexDigits (v / 4096 % 16) (Nat.mod_lt _ (by norm_num))
  have h2 := hexValue_hexDigits (v / 256 % 16) (Nat.mod_lt _ (by norm_num))
  have h3 := hexValue_hexDigits (v / 16 % 16) (Nat.mod_lt _ (by norm_num))
  have h4 := hexValue_hexDigits (v % 16) (Nat.mod_lt _ (by norm_num))
  simp only [hex4, List.map_cons, List.map_nil, List.cons_append, List.nil_append, readHex4, h1,
    h2, h3, h4, Option.bind_eq_bind, Option.bind_some, Option.pure_def, Option.some.injEq,
    Prod.mk.injEq, and_true]
  omega

/-- The scanner at a `\u` escape whose four digits read `u`. -/
theorem scanString_u {t t' : List ℕ} {u : ℕ} (hr : readHex4 t = some (u, t')) (ht' : t' ≠ []) :
    scanString (0x5C :: 0x75 :: t) =
      if isHigh u ∧ 6 < t'.length ∧ t'.take 2 = [0x5C, 0x75] then
        match readHex4 (t'.drop 2) with
        | none => none
        | some (u2, t'') =>
          if isLow u2 then prepend (0x10000 + u % 1024 * 1024 + u2 % 1024) (scanString t'')
          else prepend u (scanString t')
      else prepend u (scanString t') := by
  rw [scanString]
  simp only [show (0x5C : ℕ) ≠ 0x22 by decide, if_false, if_true]
  split
  · next h => rw [hr] at h; cases h
  · next u0 t0 h =>
    rw [hr] at h
    obtain ⟨rfl, rfl⟩ := Prod.mk.inj (Option.some.inj h).symm
    rw [if_neg ht']
    split_ifs
    · split <;> simp_all
    · rfl

/-- A `\u` escape that no low surrogate's escape follows reads as its own code point. -/
theorem scanString_u_single {t t' : List ℕ} {u : ℕ} (hr : readHex4 t = some (u, t'))
    (ht' : t' ≠ []) (hj : isHigh u = true → Unjoined t') :
    scanString (0x5C :: 0x75 :: t) = prepend u (scanString t') := by
  rw [scanString_u hr ht']
  split_ifs with hc
  · obtain ⟨u2, t'', h2, hl⟩ := hj hc.1 hc.2.1 hc.2.2
    simp [h2, hl]
  · rfl

theorem scanString_quote (t : List ℕ) : scanString (0x22 :: t) = some ([], t) := by
  rw [scanString.eq_def]
  rfl

theorem scanString_plain {c : ℕ} (hc : plainChar c = true) (t : List ℕ) :
    scanString (c :: t) = prepend c (scanString t) := by
  simp only [plainChar, Bool.and_eq_true, decide_eq_true_eq, bne_iff_ne, ne_eq] at hc
  rw [scanString.eq_def]
  simp only [if_neg hc.2, if_neg hc.1.2, if_neg (show ¬c ≤ 0x1F by omega)]

theorem scanString_short {e c : ℕ} (he : shortEscape e = some c) (t : List ℕ) :
    scanString (0x5C :: e :: t) = prepend c (scanString t) := by
  have he' : e ≠ 0x75 := by
    rintro rfl
    simp [shortEscape] at he
  rw [scanString]
  simp [he', he]

theorem escapeChar_of_ge {c : ℕ} (hp : plainChar c = false) (hc : 0x10000 ≤ c) :
    escapeChar c = lit "\\u" ++ hex4 (0xD7C0 + c / 1024) ++ lit "\\u" ++ hex4 (0xDC00 + c % 1024) := by
  have h1 : c ≠ 0x5C ∧ c ≠ 0x22 ∧ c ≠ 0x08 ∧ c ≠ 0x0C ∧ c ≠ 0x0A ∧ c ≠ 0x0D ∧ c ≠ 0x09 := by omega
  simp [escapeChar, hp, h1, hc]

/-- What `escapeChar` writes, by kind of code point: the character itself, a two-character
escape, the escapes of two surrogates, or one `\u` escape. -/
theorem escapeChar_cases (c : ℕ) :
    (plainChar c = true ∧ escapeChar c = [c]) ∨
    (∃ e, shortEscape e = some c ∧ escapeChar c = [0x5C, e]) ∨
    (0x10000 ≤ c ∧
      escapeChar c = lit "\\u" ++ hex4 (0xD7C0 + c / 1024) ++ lit "\\u" ++ hex4 (0xDC00 + c % 1024)) ∨
    (c < 0x10000 ∧ escapeChar c = lit "\\u" ++ hex4 c) := by
  by_cases hp : plainChar c
  · exact .inl ⟨hp, by simp [escapeChar, hp]⟩
  by_cases hq : c = 0x5C ∨ c = 0x22
  · refine .inr (.inl ⟨c, ?_, by simp [escapeChar, hp, hq]⟩)
    rcases hq with rfl | rfl <;> rfl
  -- the one-letter escapes
  by_cases hs : c = 0x08 ∨ c = 0x0C ∨ c = 0x0A ∨ c = 0x0D ∨ c = 0x09
  · refine .inr (.inl ?_)
    rcases hs with rfl | rfl | rfl | rfl | rfl
    exacts [⟨0x62, rfl, by decide⟩, ⟨0x66, rfl, by decide⟩, ⟨0x6E, rfl, by decide⟩,
      ⟨0x72, rfl, by decide⟩, ⟨0x74, rfl, by decide⟩]
  by_cases hge : 0x10000 ≤ c
  · exact .inr (.inr (.inl ⟨hge, escapeChar_of_ge (by simpa using hp) hge⟩))
  · refine .inr (.inr (.inr ⟨by omega, ?_⟩))
    simp only [not_or] at hq hs
    simp [escapeChar, hp, hq, hs, hge]

theorem unjoined_escapeChar {d : ℕ} (hd : d < 0x110000) (hl : isLow d = false) (r : List ℕ) :
    Unjoined (escapeChar d ++ r) := by
  intro _ htake
  rcases escapeChar_cases d with ⟨hp, he⟩ | ⟨e, hs, he⟩ | ⟨hge, he⟩ | ⟨hlt, he⟩ <;>
    rw [he] at htake ⊢
  · -- printable: not a backslash
    simp only [plainChar, Bool.and_eq_true, decide_eq_true_eq, bne_iff_ne, ne_eq] at hp
    simp [hp.1.2] at htake
  · -- a two-character escape: its letter is not `u`
    have he' : e ≠ 0x75 := by
      rintro rfl
      simp [shortEscape] at hs
    simp [he'] at htake
  · refine ⟨0xD7C0 + d / 1024, lit "\\u" ++ hex4 (0xDC00 + d % 1024) ++ r, ?_, ?_⟩
    · simp only [lit, List.append_assoc]
      exact readHex4_hex4 (by omega) _
    · simp only [isLow, Bool.and_eq_false_iff, decide_eq_false_iff_not]
      omega
  · refine ⟨d, r, ?_, hl⟩
    simp only [lit, List.append_assoc]
    exact readHex4_hex4 hlt _

theorem scanString_escapeChar {c : ℕ} (hc : c < 0x110000) {t : List ℕ} (ht : t ≠ [])
    (hj : isHigh c = true → Unjoined t) :
    scanString (escapeChar c ++ t) = prepend c (scanString t) := by
  rcases escapeChar_cases c with ⟨hp, he⟩ | ⟨e, hs, he⟩ | ⟨hge, he⟩ | ⟨hlt, he⟩ <;> rw [he]
  · exact scanString_plain hp t
  · exact scanString_short hs t
  · -- above U+FFFF: the escapes of the two surrogates, which the scanner joins back
    have hhi : readHex4 (hex4 (0xD7C0 + c / 1024) ++ (lit "\\u" ++ hex4 (0xDC00 + c % 1024) ++ t)) =
        some (0xD7C0 + c / 1024, lit "\\u" ++ hex4 (0xDC00 + c % 1024) ++ t) :=
      readHex4_hex4 (by omega) _
    have hne : lit "\\u" ++ hex4 (0xDC00 + c % 1024) ++ t ≠ [] := by simp [lit]
    rw [show lit "\\u" ++ hex4 (0xD7C0 + c / 1024) ++ lit "\\u" ++ hex4 (0xDC00 + c % 1024) ++ t =
      0x5C :: 0x75 :: (hex4 (0xD7C0 + c / 1024) ++ (lit "\\u" ++ hex4 (0xDC00 + c % 1024) ++ t)) by
        simp [lit], scanString_u hhi hne]
    have hlen : (hex4 (0xDC00 + c % 1024)).length = 4 := rfl
    have htl : 0 < t.length := List.length_pos_iff.mpr ht
    have hcond : isHigh (0xD7C0 + c / 1024) = true ∧
        6 < (lit "\\u" ++ hex4 (0xDC00 + c % 1024) ++ t).length ∧
        (lit "\\u" ++ hex4 (0xDC00 + c % 1024) ++ t).take 2 = [0x5C, 0x75] := by
      refine ⟨?_, ?_, by simp [lit]⟩
      · simp only [isHigh, Bool.and_eq_true, decide_eq_true_eq]
        omega
      · simp only [List.length_append, hlen]
        simp [lit]
        omega
    rw [if_pos hcond]
    have hlo : readHex4 ((lit "\\u" ++ hex4 (0xDC00 + c % 1024) ++ t).drop 2) =
        some (0xDC00 + c % 1024, t) := by
      simp only [lit, List.append_assoc]
      exact readHex4_hex4 (by omega) _
    have hlow : isLow (0xDC00 + c % 1024) = true := by
      simp only [isLow, Bool.and_eq_true, decide_eq_true_eq]
      omega
    simp only [hlo, hlow, if_true]
    congr 1
    omega
  · -- a code point of the basic plane: one escape
    exact scanString_u_single (readHex4_hex4 hlt t) ht hj

theorem joinsPair_cons (c : ℕ) (s : List ℕ) :
    joinsPair (c :: s) = ((s.head?.map fun d => isHigh c && isLow d).getD false || joinsPair s) := by
  cases s with
  | nil => rfl
  | cons d s => rfl

/-- The code points the scanner makes of the escapes of `s`, `pending` the one before `s` not yet
written: a high surrogate directly followed by a low one is joined with it
(`Py_UNICODE_JOIN_SURROGATES`). -/
def joinPairsFrom : Option ℕ → List ℕ → List ℕ
  | none, [] => []
  | some a, [] => [a]
  | none, b :: t => joinPairsFrom (some b) t
  | some a, b :: t =>
    if isHigh a && isLow b then (0x10000 + a % 1024 * 1024 + b % 1024) :: joinPairsFrom none t
    else a :: joinPairsFrom (some b) t

/-- What `json.loads` makes of the `str` `s` that `json.dumps` wrote. -/
def joinPairs (s : List ℕ) : List ℕ := joinPairsFrom none s

theorem joinPairsFrom_of_not_joinsPair (p : Option ℕ) (s : List ℕ)
    (h : joinsPair (p.toList ++ s) = false) : joinPairsFrom p s = p.toList ++ s := by
  fun_induction joinPairsFrom p s with
  | case1 => rfl
  | case2 a => rfl
  | case3 b t ih => simpa using ih (by simpa using h)
  | case4 a b t hab ih =>
    simp [joinsPair_cons, hab] at h
  | case5 a b t hab ih =>
    have h' : joinsPair (b :: t) = false := by
      rw [Option.toList_some, List.singleton_append, joinsPair_cons, Bool.or_eq_false_iff] at h
      exact h.2
    simp [ih (by simpa using h')]

theorem joinPairs_of_not_joinsPair {s : List ℕ} (h : joinsPair s = false) : joinPairs s = s :=
  joinPairsFrom_of_not_joinsPair none s (by simpa using h)

theorem escapeChar_of_bmp {c : ℕ} (h1 : 0x7F ≤ c) (h2 : c < 0x10000) :
    escapeChar c = lit "\\u" ++ hex4 c := by
  have hp : plainChar c = false := by
    simp only [plainChar, Bool.and_eq_false_iff, decide_eq_false_iff_not, bne_eq_false_iff_eq]
    omega
  have hne : c ≠ 0x5C ∧ c ≠ 0x22 ∧ c ≠ 0x08 ∧ c ≠ 0x0C ∧ c ≠ 0x0A ∧ c ≠ 0x0D ∧ c ≠ 0x09 := by
    omega
  simp [escapeChar, hp, hne, show ¬0x10000 ≤ c by omega]

/-- The escapes of a high and a low surrogate, one after the other, scan to one code point. -/
theorem scanString_pair {a b : ℕ} (ha : isHigh a = true) (hb : isLow b = true) {t : List ℕ}
    (ht : t ≠ []) :
    scanString (escapeChar a ++ escapeChar b ++ t) =
      prepend (0x10000 + a % 1024 * 1024 + b % 1024) (scanString t) := by
  simp only [isHigh, isLow, Bool.and_eq_true, decide_eq_true_eq] at ha hb
  rw [escapeChar_of_bmp (by omega) (by omega), escapeChar_of_bmp (by omega) (by omega)]
  have hfirst : readHex4 (hex4 a ++ (lit "\\u" ++ hex4 b ++ t)) = some (a, lit "\\u" ++ hex4 b ++ t) :=
    readHex4_hex4 (by omega) _
  have hne : lit "\\u" ++ hex4 b ++ t ≠ [] := by simp [lit]
  rw [show lit "\\u" ++ hex4 a ++ (lit "\\u" ++ hex4 b) ++ t =
    0x5C :: 0x75 :: (hex4 a ++ (lit "\\u" ++ hex4 b ++ t)) by simp [lit], scanString_u hfirst hne]
  have hlen : (hex4 b).length = 4 := rfl
  have htl : 0 < t.length := List.length_pos_iff.mpr ht
  have hcond : isHigh a = true ∧ 6 < (lit "\\u" ++ hex4 b ++ t).length ∧
      (lit "\\u" ++ hex4 b ++ t).take 2 = [0x5C, 0x75] := by
    refine ⟨?_, ?_, by simp [lit]⟩
    · simp only [isHigh, Bool.and_eq_true, decide_eq_true_eq]
      omega
    · simp only [List.length_append, hlen]
      simp [lit]
      omega
  have hsecond : readHex4 ((lit "\\u" ++ hex4 b ++ t).drop 2) = some (b, t) := by
    simp only [lit, List.append_assoc]
    exact readHex4_hex4 (by omega) _
  have hlow : isLow b = true := by
    simp only [isLow, Bool.and_eq_true, decide_eq_true_eq]
    omega
  rw [if_pos hcond]
  simp only [hsecond, hlow, if_true]

/-- `scanstring_unicode` reads the escapes `json.dumps` wrote for a `str` as that string with its
surrogate pairs joined. The induction follows `joinPairsFrom`, the pending code point written
once the next one shows whether the two join. -/
theorem scanString_escapes (p : Option ℕ) (s : List ℕ) (hp : ∀ a ∈ p, a < 0x110000)
    (hs : ∀ c ∈ s, c < 0x110000) (rest : List ℕ) :
    scanString ((p.toList ++ s).flatMap escapeChar ++ 0x22 :: rest) =
      some (joinPairsFrom p s, rest) := by
  fun_induction joinPairsFrom p s with
  | case1 => exact scanString_quote rest
  | case2 a =>
    have hq : Unjoined (0x22 :: rest) := by
      intro _ htake
      simp at htake
    simp only [Option.toList_some, List.append_nil, List.flatMap_singleton]
    rw [scanString_escapeChar (hp a rfl) (by simp) (fun _ => hq), scanString_quote]
    rfl
  | case3 b t ih =>
    have hb : ∀ x ∈ some b, x < 0x110000 := by
      intro x hx
      rw [Option.mem_some_iff] at hx
      subst hx
      exact hs _ List.mem_cons_self
    simpa using ih hb (fun c hc => hs c (List.mem_cons_of_mem _ hc))
  | case4 a b t hab ih =>
    simp only [Bool.and_eq_true] at hab
    have ih' := ih (by simp) (fun c hc => hs c (List.mem_cons_of_mem _ hc))
    simp only [Option.toList_none, List.nil_append] at ih'
    simp only [Option.toList_some, List.singleton_append, List.flatMap_cons, List.append_assoc]
    rw [← List.append_assoc, scanString_pair hab.1 hab.2 (by simp), ih']
    rfl
  | case5 a b t hab ih =>
    have hb : ∀ x ∈ some b, x < 0x110000 := by
      intro x hx
      rw [Option.mem_some_iff] at hx
      subst hx
      exact hs _ List.mem_cons_self
    have ih' := ih hb (fun c hc => hs c (List.mem_cons_of_mem _ hc))
    simp only [Option.toList_some, List.singleton_append] at ih'
    -- `a` is written alone: when it is a high surrogate, `b` is not a low one
    have hj : isHigh a = true → Unjoined ((b :: t).flatMap escapeChar ++ 0x22 :: rest) := by
      intro hh
      have hl : isLow b = false := by simpa [hh] using hab
      simpa only [List.flatMap_cons, List.append_assoc] using
        unjoined_escapeChar (hs b List.mem_cons_self) hl _
    simp only [Option.toList_some, List.singleton_append, List.flatMap_cons, List.append_assoc]
    rw [scanString_escapeChar (hp a rfl) (by simp) (by simpa only [List.flatMap_cons,
      List.append_assoc] using hj)]
    rw [← List.append_assoc, ← List.flatMap_cons, ih']
    rfl

/-- A string below the surrogates, ASCII text for instance, round-trips. -/
theorem strRoundTrips_of_lt {s : List ℕ} (hs : ∀ c ∈ s, c < 0xD800) : strRoundTrips s = true := by
  have hpair : joinsPair s = false := by
    induction s with
    | nil => rfl
    | cons c s ih =>
      have hc : isHigh c = false := by
        have := hs c List.mem_cons_self
        simp only [isHigh, Bool.and_eq_false_iff, decide_eq_false_iff_not]
        omega
      rw [joinsPair_cons, hc, ih fun d hd => hs d (List.mem_cons_of_mem c hd)]
      cases s.head? <;> rfl
  simp only [strRoundTrips, hpair, Bool.not_false, Bool.and_true, List.all_eq_true,
    decide_eq_true_eq]
  intro c hc
  have := hs c hc
  omega

end GoAttend.Lib.PyJson
