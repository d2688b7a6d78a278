import Mathlib.Algebra.Order.Ring.Int
import Mathlib.Data.List.Basic

/-! Decimal integers as Go's standard library reads them. `strconv.ParseInt(s, 10, 64)`, and
`strconv.Atoi` on a 64-bit platform, accept an optional sign and one or more decimal digits, and
nothing else, when the value fits in 64 bits. `fmt.Sscanf(s, "%d", &n)` skips the spaces of its
table (where a newline is an error), reads an optional sign and the longest run of digits after
it, parses them with `ParseInt`, and leaves what follows unread. What `strconv.Itoa` and `%d`
print, both read back. -/

namespace GoAttend.Lib.GoScan

/-- A value of Go's `int64`. -/
def Fits64 (v : ℤ) : Prop := -2 ^ 63 ≤ v ∧ v < 2 ^ 63

instance : DecidablePred Fits64 := fun v => inferInstanceAs (Decidable (-2 ^ 63 ≤ v ∧ v < 2 ^ 63))

/-- The sign `ParseInt` takes off the front: whether it is `-`, and the digits after it. -/
def splitSign : List Char → Bool × List Char
  | '+' :: cs => (false, cs)
  | '-' :: cs => (true, cs)
  | cs => (false, cs)

/-- `strconv.ParseInt(s, 10, 64)`; `none` is its syntax or range error. -/
def parseInt (s : List Char) : Option ℤ :=
  let (neg, ds) := splitSign s
  if ds ≠ [] ∧ ds.all Char.isDigit = true then
    let v : ℤ := if neg then -(Nat.ofDigitChars 10 ds 0 : ℤ) else Nat.ofDigitChars 10 ds 0
    if Fits64 v then some v else none
  else none

/-- `strconv.Atoi` on a 64-bit platform: `ParseInt(s, 10, 0)`, which its fast path for short
strings agrees with. -/
def atoi (s : String) : Option ℤ := parseInt s.toList

/-- The table `space` of `fmt`'s scanner: ranges of code points, all below `1 << 16`. -/
def spaceTable : List (ℕ × ℕ) :=
  [(0x0009, 0x000d), (0x0020, 0x0020), (0x0085, 0x0085), (0x00a0, 0x00a0), (0x1680, 0x1680),
    (0x2000, 0x200a), (0x2028, 0x2029), (0x202f, 0x202f), (0x205f, 0x205f), (0x3000, 0x3000)]

/-- `isSpace` of `fmt`'s scanner. -/
def isSpace (c : Char) : Bool := spaceTable.any fun r => r.1 ≤ c.toNat && c.toNat ≤ r.2

/-- `SkipSpace` of `Sscanf`, where a newline is not a space: `none` is its `unexpected newline`.
A `\r` before a newline is passed over, and the newline then fails. -/
def skipSpace : List Char → Option (List Char)
  | [] => some []
  | c :: cs =>
    if c = '\r' ∧ cs.head? = some '\n' then skipSpace cs
    else if c = '\n' then none
    else if isSpace c then skipSpace cs
    else some (c :: cs)

/-- `s.accept(sign)`: the sign the input starts with, if any, and the rest. -/
def acceptSign : List Char → List Char × List Char
  | '+' :: cs => (['+'], cs)
  | '-' :: cs => (['-'], cs)
  | cs => ([], cs)

/-- `fmt.Sscanf(s, "%d", &n)` into an `int` on a 64-bit platform, the `scanInt` of `fmt`. -/
def scanInt (s : List Char) : Option ℤ :=
  (skipSpace s).bind fun s =>
    let (sign, rest) := acceptSign s
    -- `scanNumber`: at least one digit, then as many as follow
    let digits := rest.takeWhile Char.isDigit
    if digits = [] then none else parseInt (sign ++ digits)

/-! ## Digits -/

theorem isDigit_of_mem_toDigits {n : ℕ} {c : Char} (hc : c ∈ Nat.toDigits 10 n) :
    c.isDigit = true :=
  Nat.isDigit_of_mem_toDigits (by decide) (by decide) hc

/-- The digits of a number, then anything but a digit: the run of digits is the number's. -/
theorem takeWhile_toDigits_append (n : ℕ) {t : List Char}
    (ht : ∀ c ∈ t.head?, c.isDigit = false) :
    (Nat.toDigits 10 n ++ t).takeWhile Char.isDigit = Nat.toDigits 10 n := by
  rw [List.takeWhile_append_of_pos fun c hc => isDigit_of_mem_toDigits hc]
  cases t with
  | nil => simp
  | cons c t => simp [ht c rfl]

theorem dropWhile_toDigits_append (n : ℕ) {t : List Char}
    (ht : ∀ c ∈ t.head?, c.isDigit = false) :
    (Nat.toDigits 10 n ++ t).dropWhile Char.isDigit = t := by
  rw [List.dropWhile_append_of_pos fun c hc => isDigit_of_mem_toDigits hc]
  cases t with
  | nil => simp
  | cons c t => simp [ht c rfl]

/-- A decimal digit is one of the code points `48` to `57`. -/
theorem toNat_of_isDigit {c : Char} (hc : c.isDigit = true) : 48 ≤ c.toNat ∧ c.toNat ≤ 57 := by
  have h : c.isDigit = (decide ('0' ≤ c) && decide (c ≤ '9')) := rfl
  rw [h, Bool.and_eq_true, decide_eq_true_eq, decide_eq_true_eq, Char.le_def, Char.le_def] at hc
  exact ⟨hc.1, hc.2⟩

theorem isSpace_of_isDigit {c : Char} (hc : c.isDigit = true) : isSpace c = false := by
  have h := toNat_of_isDigit hc
  simp only [isSpace, spaceTable, List.any_cons, List.any_nil, Bool.or_false, Bool.or_eq_false_iff,
    Bool.and_eq_false_iff, decide_eq_false_iff_not, not_le]
  omega

/-- The digits of a number start with a digit, which is no sign and no space. -/
theorem toDigits_eq_cons (n : ℕ) :
    ∃ c cs, Nat.toDigits 10 n = c :: cs ∧ c ≠ '+' ∧ c ≠ '-' ∧ isSpace c = false := by
  obtain ⟨c, cs, hcs⟩ := List.exists_cons_of_ne_nil (Nat.toDigits_ne_nil (n := n) (b := 10))
  have hc : c.isDigit = true := isDigit_of_mem_toDigits (hcs ▸ List.mem_cons_self)
  have h0 := toNat_of_isDigit hc
  refine ⟨c, cs, hcs, ?_, ?_, isSpace_of_isDigit hc⟩
  · rintro rfl
    exact absurd h0.1 (by decide)
  · rintro rfl
    exact absurd h0.1 (by decide)

theorem splitSign_toDigits (n : ℕ) : splitSign (Nat.toDigits 10 n) = (false, Nat.toDigits 10 n) := by
  obtain ⟨c, cs, hcs, hplus, hminus, -⟩ := toDigits_eq_cons n
  rw [hcs]
  unfold splitSign
  split <;> simp_all

theorem acceptSign_toDigits_append (n : ℕ) (t : List Char) :
    acceptSign (Nat.toDigits 10 n ++ t) = ([], Nat.toDigits 10 n ++ t) := by
  obtain ⟨c, cs, hcs, hplus, hminus, -⟩ := toDigits_eq_cons n
  rw [hcs]
  unfold acceptSign
  split <;> simp_all

/-! ## `ParseInt` reads back what Go prints -/

theorem parseInt_toDigits {n : ℕ} (h : n < 2 ^ 63) :
    parseInt (Nat.toDigits 10 n) = some (n : ℤ) := by
  have hall : (Nat.toDigits 10 n).all Char.isDigit = true :=
    List.all_eq_true.mpr fun c hc => isDigit_of_mem_toDigits hc
  have hfits : Fits64 n := ⟨by omega, by exact_mod_cast h⟩
  simp only [parseInt, splitSign_toDigits, Nat.ofDigitChars_ten_toDigits]
  rw [if_pos ⟨Nat.toDigits_ne_nil, hall⟩]
  simp [hfits]

theorem parseInt_neg_toDigits {n : ℕ} (h : n ≤ 2 ^ 63) :
    parseInt ('-' :: Nat.toDigits 10 n) = some (-(n : ℤ)) := by
  have hall : (Nat.toDigits 10 n).all Char.isDigit = true :=
    List.all_eq_true.mpr fun c hc => isDigit_of_mem_toDigits hc
  have hfits : Fits64 (-(n : ℤ)) := ⟨by exact_mod_cast (neg_le_neg (by exact_mod_cast h)), by omega⟩
  simp only [parseInt, splitSign, Nat.ofDigitChars_ten_toDigits]
  rw [if_pos ⟨Nat.toDigits_ne_nil, hall⟩]
  simp [hfits]

/-- The text of an `int64` as `strconv.Itoa` and `%d` print it. -/
theorem toList_toString_int (v : ℤ) :
    (toString v).toList = if 0 ≤ v then Nat.toDigits 10 v.toNat else '-' :: Nat.toDigits 10 v.natAbs := by
  cases v with
  | ofNat n => simp [toString, Int.repr, Nat.toList_repr]
  | negSucc n => simp [toString, Int.repr, Nat.toList_repr, Int.natAbs_negSucc]

theorem toList_toString_int_ne_nil (v : ℤ) : (toString v).toList ≠ [] := by
  rw [toList_toString_int]
  split_ifs
  · exact Nat.toDigits_ne_nil
  · exact List.cons_ne_nil _ _

/-- `ParseInt` reads every `int64` back from its printing. -/
theorem parseInt_repr {v : ℤ} (hv : Fits64 v) : parseInt (toString v).toList = some v := by
  rw [toList_toString_int]
  split_ifs with h
  · rw [parseInt_toDigits (by have := hv.2; omega), Int.toNat_of_nonneg h]
  · rw [parseInt_neg_toDigits (by have := hv.1; omega)]
    congr 1
    omega

/-! ## `Sscanf` reads back what Go prints -/

/-- A space other than a newline is passed over. -/
theorem skipSpace_space {c : Char} (hc : isSpace c = true) (hn : c ≠ '\n') (cs : List Char) :
    skipSpace (c :: cs) = skipSpace cs := by
  rw [skipSpace]
  by_cases hr : c = '\r' ∧ cs.head? = some '\n'
  · rw [if_pos hr]
  · rw [if_neg hr, if_neg hn, if_pos hc]

theorem skipSpace_of_not_space {c : Char} (hc : isSpace c = false) (cs : List Char) :
    skipSpace (c :: cs) = some (c :: cs) := by
  have hr : c ≠ '\r' := by
    rintro rfl
    exact absurd hc (by decide)
  have hn : c ≠ '\n' := by
    rintro rfl
    exact absurd hc (by decide)
  rw [skipSpace, if_neg fun h => hr h.1, if_neg hn, if_neg (by simp [hc])]

theorem skipSpace_append {sp : List Char} (hsp : ∀ c ∈ sp, isSpace c = true ∧ c ≠ '\n')
    (s : List Char) : skipSpace (sp ++ s) = skipSpace s := by
  induction sp with
  | nil => rfl
  | cons c sp ih =>
    obtain ⟨hc, hn⟩ := hsp c List.mem_cons_self
    rw [List.cons_append, skipSpace_space hc hn, ih fun d hd => hsp d (List.mem_cons_of_mem c hd)]

theorem scanInt_append_spaces {sp : List Char} (hsp : ∀ c ∈ sp, isSpace c = true ∧ c ≠ '\n')
    (s : List Char) : scanInt (sp ++ s) = scanInt s := by
  simp only [scanInt, skipSpace_append hsp]

theorem scanInt_toDigits {n : ℕ} (h : n < 2 ^ 63) {t : List Char}
    (ht : ∀ c ∈ t.head?, c.isDigit = false) : scanInt (Nat.toDigits 10 n ++ t) = some (n : ℤ) := by
  obtain ⟨c, cs, hcs, -, -, hsp⟩ := toDigits_eq_cons n
  have hskip : skipSpace (Nat.toDigits 10 n ++ t) = some (Nat.toDigits 10 n ++ t) := by
    rw [hcs, List.cons_append, skipSpace_of_not_space hsp]
  simp only [scanInt, hskip, Option.bind_some, acceptSign_toDigits_append,
    takeWhile_toDigits_append n ht, List.nil_append]
  rw [if_neg Nat.toDigits_ne_nil, parseInt_toDigits h]

theorem scanInt_neg_toDigits {n : ℕ} (h : n ≤ 2 ^ 63) {t : List Char}
    (ht : ∀ c ∈ t.head?, c.isDigit = false) :
    scanInt ('-' :: (Nat.toDigits 10 n ++ t)) = some (-(n : ℤ)) := by
  have hskip : skipSpace ('-' :: (Nat.toDigits 10 n ++ t)) = some ('-' :: (Nat.toDigits 10 n ++ t)) :=
    skipSpace_of_not_space (by decide) _
  simp only [scanInt, hskip, Option.bind_some, acceptSign, takeWhile_toDigits_append n ht]
  rw [if_neg Nat.toDigits_ne_nil]
  exact parseInt_neg_toDigits h

/-- `Sscanf(s, "%d", &n)` reads an `int64` back from its printing, after spaces other than
newlines and before anything but a digit. -/
theorem scanInt_repr {v : ℤ} (hv : Fits64 v) {sp t : List Char}
    (hsp : ∀ c ∈ sp, isSpace c = true ∧ c ≠ '\n') (ht : ∀ c ∈ t.head?, c.isDigit = false) :
    scanInt (sp ++ (toString v).toList ++ t) = some v := by
  rw [List.append_assoc, scanInt_append_spaces hsp, toList_toString_int]
  split_ifs with h
  · rw [scanInt_toDigits (by have := hv.2; omega) ht, Int.toNat_of_nonneg h]
  · rw [List.cons_append, scanInt_neg_toDigits (by have := hv.1; omega) ht]
    congr 1
    omega

end GoAttend.Lib.GoScan
