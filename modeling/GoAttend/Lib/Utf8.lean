import Mathlib.Data.List.Basic
import Mathlib.Data.UInt
import Mathlib.Data.String.Basic

/-! Go strings are byte strings; `unicode/utf8` reads runes out of them. Invalid bytes are not
errors: each one reads as `RuneError` of width one, so every conversion through runes replaces
them. The decoder is Lean's `ByteArray.utf8DecodeChar?`, which accepts exactly the encodings Go's
`utf8.DecodeRune` accepts (no overlong forms, no surrogates, nothing above U+10FFFF). -/

namespace GoAttend.Lib.Utf8

/-- The bytes of an ASCII text, for the constant strings of the models. -/
def ascii (s : String) : List UInt8 := s.toList.map Char.toUInt8

/-- A character takes at most four bytes, so a text at most four times its length. -/
theorem utf8Len_le (cs : List Char) : String.utf8Len cs ≤ 4 * cs.length := by
  induction cs with
  | nil => simp
  | cons c cs ih =>
    rw [String.utf8Len_cons, List.length_cons]
    have := Char.utf8Size_le_four c
    omega

theorem utf8ByteSize_le (s : String) : s.utf8ByteSize ≤ 4 * s.length := by
  have h := utf8Len_le s.toList
  rwa [← String.utf8ByteSize_ofList, String.ofList_toList, String.length_toList] at h

/-- `utf8.RuneError`, U+FFFD. -/
def runeError : Char := '\uFFFD'

/-- `utf8.DecodeRune` on a non-empty string: the first rune and its width in bytes. A byte that
starts no valid encoding decodes to `RuneError` of width one. -/
def decodeRune (s : List UInt8) : Char × ℕ :=
  match s.toByteArray.utf8DecodeChar? 0 with
  | some c => (c, c.utf8Size)
  | none => (runeError, 1)

theorem one_le_decodeRune_width (s : List UInt8) : 1 ≤ (decodeRune s).2 := by
  unfold decodeRune
  split
  · exact Char.utf8Size_pos _
  · exact Nat.le_refl 1

/-- `[]rune(s)`, and the runes a `for range` loop over `s` visits. -/
def runes (s : List UInt8) : List Char :=
  match s with
  | [] => []
  | b :: bs => (decodeRune (b :: bs)).1 :: runes ((b :: bs).drop (decodeRune (b :: bs)).2)
termination_by s.length
decreasing_by
  have := one_le_decodeRune_width (b :: bs)
  simp only [List.length_drop, List.length_cons]
  omega

/-- `string(rs)` for a slice of runes: their UTF-8 encodings, one after the other. -/
def encode (cs : List Char) : List UInt8 := cs.flatMap String.utf8EncodeChar

/-- A string after a round through runes, `string([]rune(s))`: every byte that starts no valid
encoding is replaced by the three bytes of `RuneError`. -/
def sanitize (s : List UInt8) : List UInt8 := encode (runes s)

@[simp] theorem runes_nil : runes [] = [] := by
  rw [runes]

@[simp] theorem sanitize_nil : sanitize [] = [] := by
  simp [sanitize, encode]

theorem runes_of_ne_nil {s : List UInt8} (hs : s ≠ []) :
    runes s = (decodeRune s).1 :: runes (s.drop (decodeRune s).2) := by
  obtain ⟨b, bs, rfl⟩ := List.exists_cons_of_ne_nil hs
  rw [runes]

theorem sanitize_of_ne_nil {s : List UInt8} (hs : s ≠ []) :
    sanitize s = String.utf8EncodeChar (decodeRune s).1 ++ sanitize (s.drop (decodeRune s).2) := by
  rw [sanitize, runes_of_ne_nil hs]
  rfl

@[simp] theorem encode_nil : encode [] = [] := rfl

@[simp] theorem encode_cons (c : Char) (cs : List Char) :
    encode (c :: cs) = String.utf8EncodeChar c ++ encode cs := List.flatMap_cons

@[simp] theorem encode_append (cs ds : List Char) : encode (cs ++ ds) = encode cs ++ encode ds :=
  List.flatMap_append

/-! ## The encoding of one rune -/

/-- A successful decode reads the encoding of its rune off the front of the string. -/
theorem eq_encodeChar_append_of_decode {s : List UInt8} {c : Char}
    (h : s.toByteArray.utf8DecodeChar? 0 = some c) : ∃ l, s = String.utf8EncodeChar c ++ l := by
  obtain ⟨x, hx⟩ := ByteArray.exists_of_utf8DecodeChar?_eq_some h
  refine ⟨x.data.toList, ?_⟩
  have := congrArg (fun b => b.data.toList) hx
  simpa [List.data_toByteArray, ByteArray.data_append] using this

/-- A decode other than the error one reads a whole encoding off the front of the string. -/
theorem eq_encodeChar_of_decodeRune_ne {s : List UInt8} (h : decodeRune s ≠ (runeError, 1)) :
    ∃ l, s = String.utf8EncodeChar (decodeRune s).1 ++ l ∧
      (decodeRune s).2 = (decodeRune s).1.utf8Size := by
  unfold decodeRune at h ⊢
  cases hd : s.toByteArray.utf8DecodeChar? 0 with
  | none => simp [hd] at h
  | some c =>
    obtain ⟨l, hl⟩ := eq_encodeChar_append_of_decode hd
    exact ⟨l, hl, rfl⟩

theorem continuation_ge (x : UInt8) : 0x80 ≤ (x &&& 0x3f ||| 0x80) := by
  rw [UInt8.le_iff_toNat_le, UInt8.toNat_or]
  exact Nat.right_le_or

/-- Every byte of an encoding after the first is a continuation byte, so none is ASCII. -/
theorem encodeChar_getElem_ge {c : Char} {i : ℕ} (hi : 1 ≤ i)
    (h : i < (String.utf8EncodeChar c).length) : 0x80 ≤ (String.utf8EncodeChar c)[i] := by
  have hl := String.length_utf8EncodeChar c
  rcases Char.utf8Size_eq c with hc | hc | hc | hc
  · omega
  · simp only [String.utf8EncodeChar_eq_cons_cons hc]
    obtain rfl : i = 1 := by omega
    exact continuation_ge _
  · simp only [String.utf8EncodeChar_eq_cons_cons_cons hc]
    obtain rfl | rfl : i = 1 ∨ i = 2 := by omega
    · exact continuation_ge _
    · exact continuation_ge _
  · simp only [String.utf8EncodeChar_eq_cons_cons_cons_cons hc]
    obtain rfl | rfl | rfl : i = 1 ∨ i = 2 ∨ i = 3 := by omega
    · exact continuation_ge _
    · exact continuation_ge _
    · exact continuation_ge _

@[simp] theorem decodeRune_encodeChar_append (c : Char) (rest : List UInt8) :
    decodeRune (String.utf8EncodeChar c ++ rest) = (c, c.utf8Size) := by
  unfold decodeRune
  rw [List.toByteArray_append, ByteArray.utf8DecodeChar?_utf8EncodeChar_append]

theorem runes_encodeChar_append (c : Char) (rest : List UInt8) :
    runes (String.utf8EncodeChar c ++ rest) = c :: runes rest := by
  have hne : String.utf8EncodeChar c ++ rest ≠ [] := by
    have hl := String.length_utf8EncodeChar c
    have hpos := c.utf8Size_pos
    intro h
    have := congrArg List.length h
    simp only [List.length_append, List.length_nil] at this
    omega
  rw [runes_of_ne_nil hne, decodeRune_encodeChar_append, ← String.length_utf8EncodeChar,
    List.drop_left]

theorem runes_encode_append (cs : List Char) (rest : List UInt8) :
    runes (encode cs ++ rest) = cs ++ runes rest := by
  induction cs with
  | nil => rfl
  | cons c cs ih => rw [encode_cons, List.append_assoc, runes_encodeChar_append, ih, List.cons_append]

@[simp] theorem runes_encode (cs : List Char) : runes (encode cs) = cs := by
  simpa using runes_encode_append cs []

@[simp] theorem sanitize_encode (cs : List Char) : sanitize (encode cs) = encode cs := by
  rw [sanitize, runes_encode]

theorem sanitize_sanitize (s : List UInt8) : sanitize (sanitize s) = sanitize s :=
  sanitize_encode _

/-! ## ASCII bytes

An ASCII byte is a rune of its own and is never part of another rune's encoding, so decoding
restarts at it whatever came before. -/

theorem encodeChar_ofUInt8 {b : UInt8} (hb : b < 0x80) :
    String.utf8EncodeChar (Char.ofUInt8 b) = [b] := by
  have hval : (Char.ofUInt8 b).val = b.toUInt32 := rfl
  have h1 : (Char.ofUInt8 b).utf8Size = 1 := by
    rw [Char.utf8Size_eq_one_iff]
    rw [UInt8.lt_iff_toNat_lt] at hb
    simp only [hval, UInt32.le_iff_toNat_le, UInt8.toNat_toUInt32]
    simp at hb ⊢
    omega
  rw [String.utf8EncodeChar_eq_singleton h1]
  simp [hval]

theorem runes_ascii_cons {b : UInt8} (hb : b < 0x80) (rest : List UInt8) :
    runes (b :: rest) = Char.ofUInt8 b :: runes rest := by
  have h := runes_encodeChar_append (Char.ofUInt8 b) rest
  rwa [encodeChar_ofUInt8 hb, List.singleton_append] at h

/-- The first rune of `s` is the first rune of `s` followed by an ASCII byte, and it lies within
`s`. -/
theorem decodeRune_append_ascii {s : List UInt8} (hs : s ≠ []) {b : UInt8} (hb : b < 0x80)
    (rest : List UInt8) :
    decodeRune (s ++ b :: rest) = decodeRune s ∧ (decodeRune s).2 ≤ s.length := by
  unfold decodeRune
  cases hd : s.toByteArray.utf8DecodeChar? 0 with
  | some c =>
    have hle := ByteArray.le_size_of_utf8DecodeChar?_eq_some hd
    rw [List.size_toByteArray] at hle
    rw [List.toByteArray_append, ByteArray.utf8DecodeChar?_append_eq_some hd]
    exact ⟨rfl, by simpa using hle⟩
  | none =>
    refine ⟨?_, List.length_pos_iff.mpr hs⟩
    cases hd' : (s ++ b :: rest).toByteArray.utf8DecodeChar? 0 with
    | none => rfl
    | some c =>
      exfalso
      obtain ⟨l, hl⟩ := eq_encodeChar_append_of_decode hd'
      by_cases hlen : (String.utf8EncodeChar c).length ≤ s.length
      · -- then the whole encoding lies in `s`, which would decode
        obtain ⟨l', hl'⟩ : ∃ l', s = String.utf8EncodeChar c ++ l' := by
          refine ⟨s.drop (String.utf8EncodeChar c).length, ?_⟩
          have ht : s.take (String.utf8EncodeChar c).length = String.utf8EncodeChar c := by
            have := congrArg (List.take (String.utf8EncodeChar c).length) hl
            rwa [List.take_append_of_le_length hlen, List.take_left] at this
          nth_rewrite 1 [← List.take_append_drop (String.utf8EncodeChar c).length s]
          rw [ht]
        rw [hl', List.toByteArray_append, ByteArray.utf8DecodeChar?_utf8EncodeChar_append] at hd
        cases hd
      · -- otherwise `b` would be one of its continuation bytes
        have hi : s.length < (String.utf8EncodeChar c).length := by omega
        have hb' := encodeChar_getElem_ge (List.length_pos_iff.mpr hs) hi
        have hlt : s.length < (s ++ b :: rest).length := by simp
        have hget : (s ++ b :: rest)[s.length] = (String.utf8EncodeChar c)[s.length] := by
          simp only [hl, List.getElem_append_left hi]
        rw [List.getElem_append_right (Nat.le_refl _)] at hget
        simp only [Nat.sub_self, List.getElem_cons_zero] at hget
        rw [← hget] at hb'
        exact absurd hb (UInt8.not_lt.mpr hb')

theorem runes_append_ascii (s : List UInt8) {b : UInt8} (hb : b < 0x80) (rest : List UInt8) :
    runes (s ++ b :: rest) = runes s ++ Char.ofUInt8 b :: runes rest := by
  -- by the recursion of `runes s`: each rune of `s` is also a rune of the longer string
  fun_induction runes s with
  | case1 => exact runes_ascii_cons hb rest
  | case2 x xs ih =>
    obtain ⟨hd, hle⟩ := decodeRune_append_ascii (List.cons_ne_nil x xs) hb rest
    rw [runes_of_ne_nil (by simp), hd, List.drop_append_of_le_length hle, ih, List.cons_append]

theorem ofUInt8_ne_runeError {b : UInt8} (hb : b < 0x80) : Char.ofUInt8 b ≠ runeError := by
  intro he
  have h := congrArg List.length (encodeChar_ofUInt8 hb)
  have h3 : (String.utf8EncodeChar runeError).length = 3 := by decide
  rw [he, h3, List.length_singleton] at h
  exact absurd h (by decide)

/-- An ASCII rune is read only off its own byte. -/
theorem mem_of_ofUInt8_mem_runes {s : List UInt8} {b : UInt8} (hb : b < 0x80)
    (h : Char.ofUInt8 b ∈ runes s) : b ∈ s := by
  fun_induction runes s with
  | case1 => simp at h
  | case2 x xs ih =>
    rcases List.mem_cons.mp h with h | h
    · -- the first rune is not the error rune, so its encoding is the front of the string
      have hne : decodeRune (x :: xs) ≠ (runeError, 1) := fun he =>
        ofUInt8_ne_runeError hb (by rw [h, he])
      obtain ⟨l, hl, -⟩ := eq_encodeChar_of_decodeRune_ne hne
      rw [hl, ← h, encodeChar_ofUInt8 hb]
      exact List.mem_cons_self ..
    · exact List.mem_of_mem_drop (ih h)

theorem sanitize_ascii_cons {b : UInt8} (hb : b < 0x80) (rest : List UInt8) :
    sanitize (b :: rest) = b :: sanitize rest := by
  simp [sanitize, runes_ascii_cons hb, encodeChar_ofUInt8 hb]

/-- An ASCII string comes back unchanged. -/
theorem sanitize_of_all_lt {s : List UInt8} (h : s.all (fun b => b < 0x80) = true) :
    sanitize s = s := by
  have hs := List.all_eq_true.mp h
  induction s with
  | nil => simp [sanitize]
  | cons b s ih =>
    have hb : b < 0x80 := of_decide_eq_true (hs b (List.mem_cons_self ..))
    rw [sanitize_ascii_cons hb, ih (List.all_eq_true.mpr fun x hx => hs x (List.mem_cons_of_mem b hx))
      fun x hx => hs x (List.mem_cons_of_mem b hx)]

end GoAttend.Lib.Utf8
