import GoAttend.Lib.Utf8
import GoAttend.Lib.Dict
import Mathlib.Data.Nat.Digits.Lemmas

/-! CPython's `json` module as `json.dumps` and `json.loads` run with their defaults, through the
C accelerators of `_json.c`, and the UTF-8 codec of `str` and `bytes`. Python text is a list of
code points, surrogates included. `dumps` writes ASCII only (`ensure_ascii=True`): a code point
above U+FFFF becomes the escapes of its two surrogates, and the scanner joins a high surrogate
with the escape of a low surrogate right after it. A `str` holding a high surrogate directly
followed by a low one therefore comes back as one code point; every other value `dumps` accepts
comes back unchanged. Floats are the finite ones, through `float.__repr__` and `float()`, which
give each other back. -/

namespace GoAttend.Lib.PyJson

open Dict

/-- An ASCII literal as Python text. -/
def lit (s : String) : List ℕ := s.toList.map Char.toNat

/-- `Py_UNICODE_IS_HIGH_SURROGATE`. -/
def isHigh (c : ℕ) : Bool := 0xD800 ≤ c && c ≤ 0xDBFF

/-- `Py_UNICODE_IS_LOW_SURROGATE`. -/
def isLow (c : ℕ) : Bool := 0xDC00 ≤ c && c ≤ 0xDFFF

/-- The digits `[0-9]`. -/
def isDigit (c : ℕ) : Bool := 0x30 ≤ c && c ≤ 0x39

/-- A value `json.dumps` writes: `None`, a `bool`, an `int`, a finite `float`, a `str`, a list,
or a dict with `str` keys, its items in insertion order. -/
inductive Value (F : Type) where
  | null
  | bool (b : Bool)
  | int (i : ℤ)
  | float (x : F)
  | str (s : List ℕ)
  | list (vs : List (Value F))
  | dict (kvs : List (List ℕ × Value F))

/-! ## Number literals -/

/-- `-?(0|[1-9][0-9]*)`, the integer part of a number. -/
def IntPart (cs : List ℕ) : Prop :=
  ∃ sign ds, cs = sign ++ ds ∧ (sign = [] ∨ sign = [0x2D]) ∧
    (ds = [0x30] ∨ ∃ d t, ds = d :: t ∧ d ≠ 0x30 ∧ isDigit d ∧ ∀ c ∈ t, isDigit c)

/-- `\.[0-9]+`, a fraction. -/
def FracPart (cs : List ℕ) : Prop :=
  ∃ d ds, cs = 0x2E :: d :: ds ∧ isDigit d ∧ ∀ c ∈ ds, isDigit c

/-- `[eE][-+]?[0-9]+`, an exponent. -/
def ExpPart (cs : List ℕ) : Prop :=
  ∃ e sign d ds, cs = e :: (sign ++ d :: ds) ∧ (e = 0x65 ∨ e = 0x45) ∧
    (sign = [] ∨ sign = [0x2B] ∨ sign = [0x2D]) ∧ isDigit d ∧ ∀ c ∈ ds, isDigit c

/-- A number the scanner reads as a float: an integer part, then a fraction, an exponent or
both. -/
def FloatLiteral (cs : List ℕ) : Prop :=
  ∃ i f e, cs = i ++ f ++ e ∧ IntPart i ∧ (f = [] ∨ FracPart f) ∧ (e = [] ∨ ExpPart e) ∧
    (f ≠ [] ∨ e ≠ [])

/-- Python's finite floats as `json` writes and reads them. `repr` is `float.__repr__`, a decimal
literal with a fraction or an exponent (`1.0`, `1e+16`, `-2.5e-07`); `parse` is `float()` on a
literal the scanner matched, `none` where it would give an infinity. `float(repr(x)) == x`. -/
structure FloatFormat (F : Type) where
  repr : F → List ℕ
  parse : List ℕ → Option F
  repr_literal : ∀ x, FloatLiteral (repr x)
  parse_repr : ∀ x, parse (repr x) = some x

/-- `sys.get_int_max_str_digits()` by default: `int.__repr__` and `int()` raise `ValueError` on
more decimal digits than this. -/
def intMaxStrDigits : ℕ := 4300

/-- The decimal digits of `n`. -/
def decimal (n : ℕ) : List ℕ := if n = 0 then [0x30] else (Nat.digits 10 n).reverse.map (· + 0x30)

/-- `int.__repr__`, `none` where it raises. -/
def intRepr (i : ℤ) : Option (List ℕ) :=
  if intMaxStrDigits < (decimal i.natAbs).length then none
  else some ((if i < 0 then [0x2D] else []) ++ decimal i.natAbs)

/-! ## The encoder -/

/-- `Py_hexdigits`. -/
def hexDigits : List ℕ := lit "0123456789abcdef"

/-- Four lower-case hex digits of `v`. -/
def hex4 (v : ℕ) : List ℕ :=
  [v / 4096 % 16, v / 256 % 16, v / 16 % 16, v % 16].map fun d => hexDigits.getD d 0

/-- `S_CHAR`: printable ASCII other than `\` and `"`, which is copied as it is. -/
def plainChar (c : ℕ) : Bool := 0x20 ≤ c && c ≤ 0x7E && c != 0x5C && c != 0x22

/-- `ascii_escape_unichar`. -/
def escapeChar (c : ℕ) : List ℕ :=
  if plainChar c then [c]
  else if c = 0x5C ∨ c = 0x22 then [0x5C, c]
  else if c = 0x08 then lit "\\b"
  else if c = 0x0C then lit "\\f"
  else if c = 0x0A then lit "\\n"
  else if c = 0x0D then lit "\\r"
  else if c = 0x09 then lit "\\t"
  else if 0x10000 ≤ c then
    -- `Py_UNICODE_HIGH_SURROGATE` and `Py_UNICODE_LOW_SURROGATE`
    lit "\\u" ++ hex4 (0xD7C0 + c / 1024) ++ lit "\\u" ++ hex4 (0xDC00 + c % 1024)
  else lit "\\u" ++ hex4 c

/-- `ascii_escape_unicode`: a `str` as `json.dumps` writes it. -/
def encodeString (s : List ℕ) : List ℕ := 0x22 :: (s.flatMap escapeChar ++ [0x22])

section Encoder

variable {F : Type} (fmt : FloatFormat F)

mutual

/-- `json.dumps` with the separators `", "` and `": "`, as `encoder_listencode_obj` writes a
value; `none` where it raises. -/
def Value.dumps : Value F → Option (List ℕ)
  | .null => some (lit "null")
  | .bool true => some (lit "true")
  | .bool false => some (lit "false")
  | .int i => intRepr i
  | .float x => some (fmt.repr x)
  | .str s => some (encodeString s)
  | .list [] => some [0x5B, 0x5D]
  | .list (v :: vs) => do
    let first ← v.dumps
    let rest ← dumpsItems vs
    pure (0x5B :: (first ++ rest ++ [0x5D]))
  | .dict [] => some [0x7B, 0x7D]
  | .dict ((k, v) :: kvs) => do
    let first ← v.dumps
    let rest ← dumpsMembers kvs
    pure (0x7B :: (encodeString k ++ lit ": " ++ first ++ rest ++ [0x7D]))

/-- The items of a list after its first, each after `", "`. -/
def dumpsItems : List (Value F) → Option (List ℕ)
  | [] => some []
  | v :: vs => do
    let first ← v.dumps
    let rest ← dumpsItems vs
    pure (lit ", " ++ first ++ rest)

/-- The items of a dict after its first, each after `", "`. -/
def dumpsMembers : List (List ℕ × Value F) → Option (List ℕ)
  | [] => some []
  | (k, v) :: kvs => do
    let first ← v.dumps
    let rest ← dumpsMembers kvs
    pure (lit ", " ++ encodeString k ++ lit ": " ++ first ++ rest)

end

end Encoder

/-! ## The scanner -/

/-- `WHITESPACE`: space, tab, newline, carriage return. -/
def isWs (c : ℕ) : Bool := c == 0x20 || c == 0x09 || c == 0x0A || c == 0x0D

def skipWs (s : List ℕ) : List ℕ := s.dropWhile isWs

/-- A hex digit of either case. -/
def hexValue (c : ℕ) : Option ℕ :=
  if 0x30 ≤ c ∧ c ≤ 0x39 then some (c - 0x30)
  else if 0x61 ≤ c ∧ c ≤ 0x66 then some (c - 0x57)
  else if 0x41 ≤ c ∧ c ≤ 0x46 then some (c - 0x37)
  else none

/-- Four hex digits, and the text after them. -/
def readHex4 : List ℕ → Option (ℕ × List ℕ)
  | a :: b :: c :: d :: t => do
    let a ← hexValue a
    let b ← hexValue b
    let c ← hexValue c
    let d ← hexValue d
    pure (((a * 16 + b) * 16 + c) * 16 + d, t)
  | _ => none

theorem length_of_readHex4 {s t : List ℕ} {v : ℕ} (h : readHex4 s = some (v, t)) :
    t.length + 4 = s.length := by
  match s, h with
  | _ :: _ :: _ :: _ :: s, h =>
    simp only [readHex4, Option.bind_eq_bind, Option.bind_eq_some_iff, Option.pure_def,
      Option.some.injEq, Prod.mk.injEq] at h
    obtain ⟨_, _, _, _, _, _, _, _, -, rfl⟩ := h
    simp

/-- The character a one-letter escape stands for. -/
def shortEscape (e : ℕ) : Option ℕ :=
  if e = 0x22 ∨ e = 0x5C ∨ e = 0x2F then some e
  else if e = 0x62 then some 0x08
  else if e = 0x66 then some 0x0C
  else if e = 0x6E then some 0x0A
  else if e = 0x72 then some 0x0D
  else if e = 0x74 then some 0x09
  else none

/-- A code point in front of what the rest of a string scans to. -/
def prepend (c : ℕ) (r : Option (List ℕ × List ℕ)) : Option (List ℕ × List ℕ) :=
  r.map fun p => (c :: p.1, p.2)

/-- `scanstring_unicode` from after the opening quote: the string, and the text after its closing
quote; `none` where it raises. -/
def scanString (s : List ℕ) : Option (List ℕ × List ℕ) :=
  match s with
  | [] => none
  | c :: t =>
    if c = 0x22 then some ([], t)
    else if c = 0x5C then
      match t with
      | [] => none
      | e :: t =>
        if e = 0x75 then
          match _h : readHex4 t with
          | none => none
          | some (u, t') =>
            -- `end >= len`: the four digits may not end the text
            if t' = [] then none
            -- a high surrogate takes the escape right after it when that is a low surrogate
            else if isHigh u ∧ 6 < t'.length ∧ t'.take 2 = [0x5C, 0x75] then
              match h' : readHex4 (t'.drop 2) with
              | none => none
              | some (u2, t'') =>
                if isLow u2 then prepend (0x10000 + u % 1024 * 1024 + u2 % 1024) (scanString t'')
                else prepend u (scanString t')
            else prepend u (scanString t')
        else
          match shortEscape e with
          | some c => prepend c (scanString t)
          | none => none
    else if c ≤ 0x1F then none
    else prepend c (scanString t)
termination_by s.length
decreasing_by
  all_goals
    first
    | have h1 := length_of_readHex4 _h
      have h2 := length_of_readHex4 h'
      simp only [List.length_drop, List.length_cons] at h1 h2 ⊢
      omega
    | have h1 := length_of_readHex4 _h
      simp only [List.length_cons] at h1 ⊢
      omega
    | simp only [List.length_cons]
      omega


/-- One `0`, or a nonzero digit with every digit after it; and the text after them. -/
def matchDigits : List ℕ → Option (List ℕ × List ℕ)
  | 0x30 :: t => some ([0x30], t)
  | d :: t => if isDigit d then some (d :: t.takeWhile isDigit, t.dropWhile isDigit) else none
  | [] => none

/-- The integer part at the start of a number, `-?(0|[1-9][0-9]*)`. -/
def matchInt (s : List ℕ) : Option (List ℕ × List ℕ) :=
  match s with
  | 0x2D :: t => (matchDigits t).map fun p => (0x2D :: p.1, p.2)
  | _ => matchDigits s

/-- A fraction, taken only when a digit follows the dot. -/
def matchFrac (s : List ℕ) : List ℕ × List ℕ :=
  match s with
  | 0x2E :: d :: t =>
    if isDigit d then (0x2E :: d :: t.takeWhile isDigit, t.dropWhile isDigit) else ([], s)
  | _ => ([], s)

/-- An exponent, taken only when a digit follows the `e` and its sign; otherwise the scanner
backs up to the `e`. -/
def matchExp (s : List ℕ) : List ℕ × List ℕ :=
  match s with
  | e :: t =>
    if e = 0x65 ∨ e = 0x45 then
      let (sign, u) : List ℕ × List ℕ :=
        match t with
        | c :: u => if c = 0x2B ∨ c = 0x2D then ([c], u) else ([], t)
        | [] => ([], [])
      match u with
      | d :: u' =>
        if isDigit d then (e :: (sign ++ d :: u'.takeWhile isDigit), u'.dropWhile isDigit)
        else ([], s)
      | [] => ([], s)
    else ([], s)
  | [] => ([], [])

/-- `_match_number_unicode`: the number at the start of the text, whether it is a float (it has a
fraction or an exponent), and the text after it. -/
def matchNumber (s : List ℕ) : Option (List ℕ × Bool × List ℕ) :=
  (matchInt s).map fun p =>
    let f := matchFrac p.2
    let e := matchExp f.2
    (p.1 ++ f.1 ++ e.1, !f.1.isEmpty || !e.1.isEmpty, e.2)

/-- The value of a run of decimal digits. -/
def digitsValue (ds : List ℕ) : ℕ := ds.foldl (fun acc d => acc * 10 + (d - 0x30)) 0

/-- `int()` on the integer the scanner matched; `none` beyond `intMaxStrDigits` digits. -/
def parseInt (cs : List ℕ) : Option ℤ :=
  match cs with
  | 0x2D :: ds => if intMaxStrDigits < ds.length then none else some (-(digitsValue ds : ℤ))
  | ds => if intMaxStrDigits < ds.length then none else some (digitsValue ds)

section Scanner

variable {F : Type} (fmt : FloatFormat F)

/-- The number at the start of the text as `scan_once_unicode` reads it: a float through
`float()`, an integer through `int()`. -/
def scanNumber (s : List ℕ) : Option (Value F × List ℕ) :=
  match matchNumber s with
  | some (text, true, r) => (fmt.parse text).map fun x => (.float x, r)
  | some (text, false, r) => (parseInt text).map fun i => (.int i, r)
  | none => none

mutual

/-- `scan_once_unicode`: the value at the start of the text and the text after it, with at most
`n` nested calls; `none` where it raises. The constants `NaN` and `Infinity`, which are not finite
floats, are outside the model and read as `none`. -/
def scanOnce : ℕ → List ℕ → Option (Value F × List ℕ)
  | 0, _ => none
  | n + 1, s =>
    match s with
    | 0x22 :: t => (scanString t).map fun p => (.str p.1, p.2)
    | 0x7B :: t =>
      match skipWs t with
      | 0x7D :: r => some (.dict [], r)
      | r => (parseMembers n [] r).map fun p => (.dict p.1, p.2)
    | 0x5B :: t =>
      match skipWs t with
      | 0x5D :: r => some (.list [], r)
      | r => (parseItems n [] r).map fun p => (.list p.1, p.2)
    | 0x6E :: 0x75 :: 0x6C :: 0x6C :: t => some (.null, t)
    | 0x74 :: 0x72 :: 0x75 :: 0x65 :: t => some (.bool true, t)
    | 0x66 :: 0x61 :: 0x6C :: 0x73 :: 0x65 :: t => some (.bool false, t)
    | s => scanNumber fmt s

/-- `_parse_array_unicode` from its first item: each item, then `]` or a comma and the next. -/
def parseItems : ℕ → List (Value F) → List ℕ → Option (List (Value F) × List ℕ)
  | 0, _, _ => none
  | n + 1, acc, s =>
    match scanOnce n s with
    | none => none
    | some (v, r) =>
      match skipWs r with
      | 0x5D :: t => some (acc ++ [v], t)
      | 0x2C :: t => parseItems n (acc ++ [v]) (skipWs t)
      | _ => none

/-- `_parse_object_unicode` from its first key: each key, `:`, its value, set into the dict with
`PyDict_SetItem`, then `}` or a comma and the next. -/
def parseMembers : ℕ → List (List ℕ × Value F) → List ℕ →
    Option (List (List ℕ × Value F) × List ℕ)
  | 0, _, _ => none
  | n + 1, d, s =>
    match s with
    | 0x22 :: t =>
      match scanString t with
      | none => none
      | some (k, r) =>
        match skipWs r with
        | 0x3A :: r =>
          match scanOnce n (skipWs r) with
          | none => none
          | some (v, r) =>
            match skipWs r with
            | 0x7D :: t => some (setItem d k v, t)
            | 0x2C :: t => parseMembers n (setItem d k v) (skipWs t)
            | _ => none
        | _ => none
    | _ => none

end

/-- `JSONDecoder.decode`: one value with only whitespace around it, read with the text's length
as the bound on nested calls. -/
def decode (s : List ℕ) : Option (Value F) :=
  match scanOnce fmt s.length (skipWs s) with
  | some (v, r) => if skipWs r = [] then some v else none
  | none => none

end Scanner

/-! ## Text and bytes -/

/-- `str.encode("utf-8")`: `none` where a surrogate raises `UnicodeEncodeError`. -/
def encodeUtf8 (s : List ℕ) : Option (List UInt8) :=
  if ∀ c ∈ s, c.isValidChar then some (Utf8.encode (s.map Char.ofNat)) else none

/-- `bytes.decode("utf-8")`: `none` where the bytes are not valid UTF-8, that is where decoding
with replacement changes them. -/
def decodeUtf8 (b : List UInt8) : Option (List ℕ) :=
  if Utf8.sanitize b = b then some ((Utf8.runes b).map Char.toNat) else none

/-- `json.loads` on `bytes`, which `detect_encoding` reads as UTF-8 when they start with two
bytes other than NUL and no byte-order mark, as every text `dumps` writes does. -/
def loadsBytes {F : Type} (fmt : FloatFormat F) (b : List UInt8) : Option (Value F) :=
  (decodeUtf8 b).bind (decode fmt)

end GoAttend.Lib.PyJson
