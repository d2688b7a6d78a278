import GoAttend.Lib.PyJson.Basic

/-! How a number goes through `json`: the literal `dumps` writes for an integer or a float is the
longest number `_match_number_unicode` matches before a separator, and `int()` or `float()` reads
the value back from it. -/

namespace GoAttend.Lib.PyJson

open Dict

/-- What may follow a value `dumps` wrote: a comma, a closing bracket or brace, or nothing. -/
def Stop (r : List ℕ) : Prop := ∀ c ∈ r.head?, c = 0x2C ∨ c = 0x5D ∨ c = 0x7D

/-- After a number, the scanner finds no digit, dot or exponent to take. -/
theorem Stop.head {r : List ℕ} (hr : Stop r) :
    ∀ c ∈ r.head?, isDigit c = false ∧ c ≠ 0x2E ∧ c ≠ 0x65 ∧ c ≠ 0x45 := by
  intro c hc
  rcases hr c hc with rfl | rfl | rfl <;> decide

theorem Stop.not_digit {r : List ℕ} (hr : Stop r) : ∀ c ∈ r.head?, isDigit c = false :=
  fun c hc => (hr.head c hc).1

theorem digits_split {t r : List ℕ} (ht : ∀ c ∈ t, isDigit c = true)
    (hr : ∀ c ∈ r.head?, isDigit c = false) :
    (t ++ r).takeWhile isDigit = t ∧ (t ++ r).dropWhile isDigit = r := by
  rw [List.takeWhile_append_of_pos ht, List.dropWhile_append_of_pos ht]
  cases r with
  | nil => simp
  | cons c r =>
    have hc := hr c rfl
    simp [hc]

theorem matchDigits_append {ds r : List ℕ}
    (hds : ds = [0x30] ∨ ∃ d t, ds = d :: t ∧ d ≠ 0x30 ∧ isDigit d ∧ ∀ c ∈ t, isDigit c)
    (hr : ∀ c ∈ r.head?, isDigit c = false) : matchDigits (ds ++ r) = some (ds, r) := by
  rcases hds with rfl | ⟨d, t, rfl, hd0, hd, ht⟩
  · rfl
  · obtain ⟨h1, h2⟩ := digits_split ht hr
    simp [matchDigits, hd, h1, h2]

theorem matchInt_append {i r : List ℕ} (hi : IntPart i) (hr : ∀ c ∈ r.head?, isDigit c = false) :
    matchInt (i ++ r) = some (i, r) := by
  obtain ⟨sign, ds, rfl, hsign, hds⟩ := hi
  have hm := matchDigits_append hds hr
  rcases hsign with rfl | rfl
  · -- no sign: the first character is a digit, not `-`
    have hne : ∀ t, ds ++ r ≠ 0x2D :: t := by
      rcases hds with rfl | ⟨d, t, rfl, -, hd, -⟩
      · simp
      · intro t' h
        simp only [List.cons_append, List.cons.injEq] at h
        simp [isDigit, h.1] at hd
    simp only [List.nil_append]
    rw [matchInt.eq_2 _ hne, hm]
  · simp [matchInt, hm]

theorem matchFrac_of_not_dot {s : List ℕ} (h : ∀ c ∈ s.head?, c ≠ 0x2E) : matchFrac s = ([], s) := by
  match s, h with
  | [], _ => rfl
  | [_], _ => simp [matchFrac]
  | c :: d :: t, h =>
    have hc : c ≠ 0x2E := h c rfl
    simp [matchFrac, hc]

theorem matchFrac_append {f r : List ℕ} (hf : FracPart f) (hr : ∀ c ∈ r.head?, isDigit c = false) :
    matchFrac (f ++ r) = (f, r) := by
  obtain ⟨d, ds, rfl, hd, hds⟩ := hf
  obtain ⟨h1, h2⟩ := digits_split hds hr
  simp [matchFrac, hd, h1, h2]

theorem matchExp_of_not_e {s : List ℕ} (h : ∀ c ∈ s.head?, c ≠ 0x65 ∧ c ≠ 0x45) :
    matchExp s = ([], s) := by
  match s, h with
  | [], _ => rfl
  | c :: t, h =>
    have hc := h c rfl
    simp [matchExp, hc.1, hc.2]

theorem matchExp_append {e r : List ℕ} (he : ExpPart e) (hr : ∀ c ∈ r.head?, isDigit c = false) :
    matchExp (e ++ r) = (e, r) := by
  obtain ⟨E, sign, d, ds, rfl, hE, hsign, hd, hds⟩ := he
  obtain ⟨h1, h2⟩ := digits_split hds hr
  have hd' : d ≠ 0x2B ∧ d ≠ 0x2D := by
    simp only [isDigit, Bool.and_eq_true, decide_eq_true_eq] at hd
    omega
  rcases hsign with rfl | rfl | rfl
  · simp [matchExp, hE, hd, hd', h1, h2]
  · simp [matchExp, hE, hd, h1, h2]
  · simp [matchExp, hE, hd, h1, h2]

/-- A float literal is read whole, as a float. -/
theorem matchNumber_floatLiteral {cs r : List ℕ} (h : FloatLiteral cs) (hr : Stop r) :
    matchNumber (cs ++ r) = some (cs, true, r) := by
  obtain ⟨i, f, e, rfl, hi, hf, he, hfe⟩ := h
  have hrd := hr.not_digit
  -- what follows each part starts with a dot, an `e` or `E`, or the stop
  have hexp : matchExp (e ++ r) = (e, r) := by
    rcases he with rfl | he
    · exact matchExp_of_not_e fun c hc => (hr.head c hc).2.2
    · exact matchExp_append he hrd
  have her : ∀ c ∈ (e ++ r).head?, isDigit c = false ∧ c ≠ 0x2E := by
    intro c hc
    rcases he with rfl | ⟨E, _, _, _, rfl, hE, -⟩
    · exact ⟨(hr.head c hc).1, (hr.head c hc).2.1⟩
    · simp only [List.cons_append, List.head?_cons, Option.mem_def, Option.some.injEq] at hc
      subst hc
      rcases hE with rfl | rfl <;> decide
  have hfrac : matchFrac (f ++ (e ++ r)) = (f, e ++ r) := by
    rcases hf with rfl | hf
    · exact matchFrac_of_not_dot fun c hc => (her c hc).2
    · exact matchFrac_append hf fun c hc => (her c hc).1
  have hfer : ∀ c ∈ (f ++ (e ++ r)).head?, isDigit c = false := by
    intro c hc
    rcases hf with rfl | ⟨_, _, rfl, -⟩
    · exact (her c hc).1
    · simp only [List.cons_append, List.head?_cons, Option.mem_def, Option.some.injEq] at hc
      subst hc
      rfl
  have hint := matchInt_append hi hfer
  simp only [List.append_assoc] at hint ⊢
  simp only [matchNumber, hint, Option.map_some, hfrac, hexp, Option.some.injEq, Prod.mk.injEq,
    and_true]
  rcases hfe with hf | he <;> simp [*]


theorem isDigit_of_mem_decimal (n : ℕ) : ∀ c ∈ decimal n, isDigit c = true := by
  intro c hc
  unfold decimal at hc
  split_ifs at hc
  · simp only [List.mem_singleton] at hc
    subst hc
    rfl
  · obtain ⟨d, hd, rfl⟩ := List.mem_map.mp hc
    have hd10 := Nat.digits_lt_base (by norm_num) (List.mem_reverse.mp hd)
    simp only [isDigit, Bool.and_eq_true, decide_eq_true_eq]
    omega

/-- `int.__repr__` writes no leading zero. -/
theorem decimal_shape (n : ℕ) : decimal n = [0x30] ∨
    ∃ d t, decimal n = d :: t ∧ d ≠ 0x30 ∧ isDigit d ∧ ∀ c ∈ t, isDigit c := by
  by_cases hn : n = 0
  · left
    simp [decimal, hn]
  · right
    -- the leading digit is the last of `Nat.digits`, which is not zero
    have hne : Nat.digits 10 n ≠ [] := Nat.digits_ne_nil_iff_ne_zero.mpr hn
    have hlast := Nat.getLast_digit_ne_zero 10 hn
    have hsplit := List.dropLast_append_getLast hne
    have hdec : decimal n = ((Nat.digits 10 n).getLast hne + 0x30) ::
        ((Nat.digits 10 n).dropLast.reverse.map (· + 0x30)) := by
      rw [decimal, if_neg hn]
      conv_lhs => rw [← hsplit]
      simp
    have hall := isDigit_of_mem_decimal n
    rw [hdec] at hall
    refine ⟨_, _, hdec, by omega, hall _ List.mem_cons_self, fun c hc => hall c (List.mem_cons_of_mem _ hc)⟩

theorem digitsValue_decimal (n : ℕ) : digitsValue (decimal n) = n := by
  by_cases hn : n = 0
  · subst hn
    rfl
  · rw [decimal, if_neg hn, digitsValue, List.foldl_map, List.foldl_reverse]
    -- Horner's rule, most significant digit first, is `Nat.ofDigits` least significant first
    have horner : ∀ L : List ℕ,
        L.foldr (fun d acc => acc * 10 + (d + 0x30 - 0x30)) 0 = Nat.ofDigits 10 L := by
      intro L
      induction L with
      | nil => rfl
      | cons d L ih =>
        rw [List.foldr_cons, ih, Nat.ofDigits_cons]
        omega
    rw [horner, Nat.ofDigits_digits]

theorem intRepr_eq_some {i : ℤ} {t : List ℕ} (h : intRepr i = some t) :
    t = (if i < 0 then [0x2D] else []) ++ decimal i.natAbs ∧
      (decimal i.natAbs).length ≤ intMaxStrDigits := by
  unfold intRepr at h
  by_cases hl : intMaxStrDigits < (decimal i.natAbs).length
  · rw [if_pos hl] at h
    cases h
  · rw [if_neg hl] at h
    exact ⟨(Option.some.inj h).symm, by omega⟩

theorem intPart_intRepr {i : ℤ} {t : List ℕ} (h : intRepr i = some t) : IntPart t := by
  obtain ⟨rfl, -⟩ := intRepr_eq_some h
  exact ⟨_, _, rfl, by split_ifs <;> simp, decimal_shape _⟩

theorem matchNumber_intRepr {i : ℤ} {t r : List ℕ} (h : intRepr i = some t) (hr : Stop r) :
    matchNumber (t ++ r) = some (t, false, r) := by
  have hint := matchInt_append (intPart_intRepr h) hr.not_digit
  have hfrac : matchFrac r = ([], r) := matchFrac_of_not_dot fun c hc => (hr.head c hc).2.1
  have hexp : matchExp r = ([], r) := matchExp_of_not_e fun c hc => (hr.head c hc).2.2
  simp [matchNumber, hint, hfrac, hexp]

theorem parseInt_intRepr {i : ℤ} {t : List ℕ} (h : intRepr i = some t) : parseInt t = some i := by
  obtain ⟨rfl, hlen⟩ := intRepr_eq_some h
  have hv := digitsValue_decimal i.natAbs
  by_cases hi : i < 0
  · simp only [hi, if_true, List.singleton_append, parseInt, hv]
    rw [if_neg (by omega)]
    simp only [Option.some.injEq]
    omega
  · -- a digit comes first, not `-`
    have hne : ∀ ds, decimal i.natAbs ≠ 0x2D :: ds := by
      intro ds hds
      have hd := isDigit_of_mem_decimal i.natAbs 0x2D (by simp [hds])
      exact absurd hd (by decide)
    simp only [hi, if_false, List.nil_append]
    rw [parseInt.eq_2 _ hne, if_neg (by omega), hv]
    simp only [Option.some.injEq]
    omega

section Scanner

variable {F : Type} (fmt : FloatFormat F)

theorem scanNumber_intRepr {i : ℤ} {t r : List ℕ} (h : intRepr i = some t) (hr : Stop r) :
    scanNumber fmt (t ++ r) = some (.int i, r) := by
  simp [scanNumber, matchNumber_intRepr h hr, parseInt_intRepr h]

theorem scanNumber_repr (x : F) {r : List ℕ} (hr : Stop r) :
    scanNumber fmt (fmt.repr x ++ r) = some (.float x, r) := by
  simp [scanNumber, matchNumber_floatLiteral (fmt.repr_literal x) hr, fmt.parse_repr]

end Scanner

/-! ## A concrete format: the whole floats below `2 ^ 53`

Each of `0.0, 1.0, …, 2 ^ 53 - 1` is an exact double, and `float.__repr__` writes it as its
integer followed by `.0`, since it is below `1e16`. -/

/-- `float.__repr__` of a whole float below `2 ^ 53`. -/
def wholeRepr (x : Fin (2 ^ 53)) : List ℕ := decimal x.val ++ [0x2E, 0x30]

/-- `float()` on a literal ending in `.0` whose integer part is below `2 ^ 53`; any other literal
is a float outside this type. -/
def wholeParse (cs : List ℕ) : Option (Fin (2 ^ 53)) :=
  if cs.drop (cs.length - 2) = [0x2E, 0x30] then
    if h : digitsValue (cs.take (cs.length - 2)) < 2 ^ 53 then some ⟨_, h⟩ else none
  else none

theorem floatLiteral_wholeRepr (x : Fin (2 ^ 53)) : FloatLiteral (wholeRepr x) := by
  have hint : IntPart (decimal x.val) := ⟨[], _, rfl, Or.inl rfl, decimal_shape x.val⟩
  have hfrac : FracPart [0x2E, 0x30] := ⟨0x30, [], rfl, rfl, by simp⟩
  exact ⟨_, _, [], by simp [wholeRepr], hint, Or.inr hfrac, Or.inl rfl, Or.inl (by simp)⟩

theorem wholeParse_wholeRepr (x : Fin (2 ^ 53)) : wholeParse (wholeRepr x) = some x := by
  have hlen : (wholeRepr x).length - 2 = (decimal x.val).length := by simp [wholeRepr]
  have hdrop : (wholeRepr x).drop (decimal x.val).length = [0x2E, 0x30] := List.drop_left' rfl
  have htake : (wholeRepr x).take (decimal x.val).length = decimal x.val := List.take_left' rfl
  rw [wholeParse, hlen, if_pos hdrop]
  simp only [htake, digitsValue_decimal, x.isLt, dite_true]

/-- The whole floats below `2 ^ 53` as a float format. -/
def wholeFloats : FloatFormat (Fin (2 ^ 53)) :=
  ⟨wholeRepr, wholeParse, floatLiteral_wholeRepr, wholeParse_wholeRepr⟩

end GoAttend.Lib.PyJson
