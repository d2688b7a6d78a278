import GoAttend.Lib.Utf8

/-! Go's `encoding/json` on strings, non-negative integers and flat objects of them. A string is
written by `appendString` with HTML escaping on, as `json.Marshal` does, and read back by the
decoder's `unquote`; both go through `unicode/utf8`, so a string comes back with its invalid bytes
replaced by `RuneError` and is otherwise unchanged. -/

namespace GoAttend.Lib.Json

open Utf8

/-- The lower-case hex digits `appendString` writes. -/
def hex : List UInt8 := ascii "0123456789abcdef"

/-- `htmlSafeSet`: the ASCII bytes that `appendString` copies as they are. -/
def htmlSafe (b : UInt8) : Prop :=
  0x20 ≤ b ∧ b ≠ 0x22 ∧ b ≠ 0x5C ∧ b ≠ 0x3C ∧ b ≠ 0x3E ∧ b ≠ 0x26

instance : DecidablePred htmlSafe := fun _ => by unfold htmlSafe; infer_instance

/-- How `appendString` writes an ASCII byte. -/
def escapeAscii (b : UInt8) : List UInt8 :=
  if htmlSafe b then [b]
  else if b = 0x5C ∨ b = 0x22 then [0x5C, b]
  else if b = 0x08 then ascii "\\b"
  else if b = 0x0C then ascii "\\f"
  else if b = 0x0A then ascii "\\n"
  else if b = 0x0D then ascii "\\r"
  else if b = 0x09 then ascii "\\t"
  else ascii "\\u00" ++ [hex.getD (b.toNat / 16) 0, hex.getD (b.toNat % 16) 0]

/-- `appendString` between its quotes. An ASCII byte is escaped as above; a byte that starts no
valid encoding becomes the escape of `RuneError`; U+2028 and U+2029 are escaped; every other rune
is copied as its bytes. -/
def quoteBody (s : List UInt8) : List UInt8 :=
  match s with
  | [] => []
  | b :: rest =>
    if b < 0x80 then escapeAscii b ++ quoteBody rest
    else if decodeRune (b :: rest) = (runeError, 1) then ascii "\\ufffd" ++ quoteBody rest
    else if (decodeRune (b :: rest)).1 = '\u2028' ∨ (decodeRune (b :: rest)).1 = '\u2029' then
      ascii "\\u202" ++ [hex.getD ((decodeRune (b :: rest)).1.toNat % 16) 0] ++
        quoteBody ((b :: rest).drop (decodeRune (b :: rest)).2)
    else
      (b :: rest).take (decodeRune (b :: rest)).2 ++
        quoteBody ((b :: rest).drop (decodeRune (b :: rest)).2)
termination_by s.length
decreasing_by
  all_goals
    have hw := one_le_decodeRune_width (b :: rest)
    simp only [List.length_drop, List.length_cons]
    omega

/-- A JSON string literal as `json.Marshal` writes it. -/
def quote (s : List UInt8) : List UInt8 := [0x22] ++ quoteBody s ++ [0x22]

/-- The value of a hex digit of either case. -/
def unhex (c : UInt8) : Option ℕ :=
  if 0x30 ≤ c ∧ c ≤ 0x39 then some (c.toNat - 0x30)
  else if 0x61 ≤ c ∧ c ≤ 0x66 then some (c.toNat - 0x61 + 10)
  else if 0x41 ≤ c ∧ c ≤ 0x46 then some (c.toNat - 0x41 + 10)
  else none

/-- `getu4` after its `\u`: the code unit of four hex digits. -/
def getu4 : List UInt8 → Option ℕ
  | a :: b :: c :: d :: _ => do
    let a ← unhex a
    let b ← unhex b
    let c ← unhex c
    let d ← unhex d
    pure (a * 4096 + b * 256 + c * 16 + d)
  | _ => none

/-- The byte a one-letter escape stands for: `\"`, `\\`, `\/`, `\b`, `\f`, `\n`, `\r`, `\t`. -/
def shortEscape (e : UInt8) : Option UInt8 :=
  if e = 0x22 ∨ e = 0x5C ∨ e = 0x2F then some e
  else if e = 0x62 then some 0x08
  else if e = 0x66 then some 0x0C
  else if e = 0x6E then some 0x0A
  else if e = 0x72 then some 0x0D
  else if e = 0x74 then some 0x09
  else none

/-- `utf16.DecodeRune`: the rune of a surrogate pair, or `RuneError`. -/
def decodePair (r1 r2 : ℕ) : Char :=
  if 0xD800 ≤ r1 ∧ r1 < 0xDC00 ∧ 0xDC00 ≤ r2 ∧ r2 < 0xE000 then
    Char.ofNat ((r1 - 0xD800) * 1024 + (r2 - 0xDC00) + 0x10000)
  else runeError

/-- Prepend decoded bytes to the result of reading the rest. -/
def prepend (d : List UInt8) (r : Option (List UInt8 × List UInt8)) :
    Option (List UInt8 × List UInt8) :=
  r.map fun p => (d ++ p.1, p.2)

/-- The decoder on a string literal after its opening quote: the scanner's end of the literal
(the first quote no backslash escapes) and `unquote` of what lies before it, with what follows.
Escapes are decoded; a lone or unpaired surrogate becomes `RuneError`; control bytes are
refused; other bytes are read as runes, invalid ones as `RuneError`. -/
def unquote (s : List UInt8) : Option (List UInt8 × List UInt8) :=
  match s with
  | [] => none
  | c :: rest =>
    if c = 0x22 then some ([], rest)
    else if c = 0x5C then
      match rest with
      | [] => none
      | e :: rest' =>
        match shortEscape e with
        | some d => prepend [d] (unquote rest')
        | none =>
          if e = 0x75 then
            match getu4 rest' with
            | none => none
            | some r =>
              if 0xD800 ≤ r ∧ r < 0xE000 then
                match _hd : rest'.drop 4 with
                | 0x5C :: 0x75 :: t =>
                  match getu4 t with
                  | some r2 =>
                    if decodePair r r2 ≠ runeError then
                      prepend (String.utf8EncodeChar (decodePair r r2)) (unquote (t.drop 4))
                    else prepend (String.utf8EncodeChar runeError) (unquote (rest'.drop 4))
                  | none => prepend (String.utf8EncodeChar runeError) (unquote (rest'.drop 4))
                | _ => prepend (String.utf8EncodeChar runeError) (unquote (rest'.drop 4))
              else prepend (String.utf8EncodeChar (Char.ofNat r)) (unquote (rest'.drop 4))
          else none
    else if c < 0x20 then none
    else if c < 0x80 then prepend [c] (unquote rest)
    else
      prepend (String.utf8EncodeChar (decodeRune (c :: rest)).1)
        (unquote ((c :: rest).drop (decodeRune (c :: rest)).2))
termination_by s.length
decreasing_by
  all_goals
    try have hw := one_le_decodeRune_width (c :: rest)
    try have hl := congrArg List.length _hd
    simp only [List.length_drop, List.length_cons] at *
    omega

/-! ## One step of `unquote` -/

section unquote

variable (t : List UInt8)

end unquote

/-- `strconv.AppendInt` of a non-negative value: its decimal digits, most significant first. -/
def formatNat (n : ℕ) : List UInt8 :=
  if n < 10 then [(n + 0x30).toUInt8] else formatNat (n / 10) ++ [(n % 10 + 0x30).toUInt8]
termination_by n
decreasing_by omega

/-- A byte the scanner reads as a digit. -/
def isDigit (c : UInt8) : Bool := 0x30 ≤ c && c ≤ 0x39

/-- The value of a run of decimal digits. -/
def digitsValue (ds : List UInt8) : ℕ := ds.foldl (fun acc d => acc * 10 + (d.toNat - 0x30)) 0

/-- A number literal with no sign, fraction or exponent: a run of digits with no leading zero,
and what follows it. -/
def parseNat (s : List UInt8) : Option (ℕ × List UInt8) :=
  if s.takeWhile isDigit = [] then none
  else if s.head? = some 0x30 ∧ 1 < (s.takeWhile isDigit).length then none
  else some (digitsValue (s.takeWhile isDigit), s.dropWhile isDigit)

/-- A value of the kinds these models write: a string or a non-negative integer. -/
inductive Scalar
  | str (s : List UInt8)
  | num (n : ℕ)
  deriving DecidableEq, Repr

/-- A value as it reads back: a string loses its invalid bytes. -/
def Scalar.sanitize : Scalar → Scalar
  | .str s => .str (Utf8.sanitize s)
  | .num n => .num n

/-- A member as it reads back. -/
def sanitizeMember (m : List UInt8 × Scalar) : List UInt8 × Scalar := (sanitize m.1, m.2.sanitize)

def encodeScalar : Scalar → List UInt8
  | .str s => quote s
  | .num n => formatNat n

/-- `"key":value`. -/
def encodeMember (m : List UInt8 × Scalar) : List UInt8 :=
  quote m.1 ++ [0x3A] ++ encodeScalar m.2

/-- `json.Marshal` of a struct or a map with string and integer fields: an opening brace, the
members in order separated by commas, a closing brace. -/
def encodeObject (ms : List (List UInt8 × Scalar)) : List UInt8 :=
  [0x7B] ++ List.intercalate [0x2C] (ms.map encodeMember) ++ [0x7D]

/-- The scanner's white space. -/
def isSpace (c : UInt8) : Bool := c == 0x20 || c == 0x09 || c == 0x0A || c == 0x0D

def skipSpace (s : List UInt8) : List UInt8 := s.dropWhile isSpace

/-- A string or a number literal, and what follows it. -/
def parseScalar (s : List UInt8) : Option (Scalar × List UInt8) :=
  match s with
  | 0x22 :: t => (unquote t).map fun p => (.str p.1, p.2)
  | _ => (parseNat s).map fun p => (.num p.1, p.2)

/-- The members of an object after its opening brace, and what follows its closing brace. The
fuel bounds the number of members. -/
def parseMembers : ℕ → List UInt8 → Option (List (List UInt8 × Scalar) × List UInt8)
  | 0, _ => none
  | fuel + 1, s =>
    match skipSpace s with
    | 0x22 :: t =>
      match unquote t with
      | some (key, r) =>
        match skipSpace r with
        | 0x3A :: r =>
          match parseScalar (skipSpace r) with
          | some (v, r) =>
            match skipSpace r with
            | 0x2C :: r => (parseMembers fuel r).map fun p => ((key, v) :: p.1, p.2)
            | 0x7D :: r => some ([(key, v)], r)
            | _ => none
          | none => none
        | _ => none
      | none => none
    | _ => none

/-- `json.Unmarshal` of a document that must hold one object and nothing after it but white
space. -/
def parseObject (s : List UInt8) : Option (List (List UInt8 × Scalar)) :=
  match skipSpace s with
  | 0x7B :: r =>
    let members := match skipSpace r with
      | 0x7D :: r' => some ([], r')
      | _ => parseMembers s.length r
    match members with
    | some (ms, rest) => if skipSpace rest = [] then some ms else none
    | none => none
  | _ => none

/-- The value of the last member with the key, the one decoding into a map keeps. -/
def lookup (key : List UInt8) (ms : List (List UInt8 × Scalar)) : Option Scalar :=
  ms.foldl (fun acc m => if m.1 = key then some m.2 else acc) none

end GoAttend.Lib.Json
