import Mathlib.Data.List.Basic
import Mathlib.Data.UInt

/-! Go's `encoding/base64` with the URL alphabet and no padding (`RawURLEncoding`), the encoding of
every segment of a compact JWS. Bytes are grouped by three into 24-bit values and each value is
written as four 6-bit digits; a last group of one or two bytes gives two or three digits. -/

namespace GoAttend.Lib.Base64

/-- `encodeURL`, the alphabet of `URLEncoding` and `RawURLEncoding`. -/
def encodeURL : List UInt8 :=
  "ABCDEFGHIJKLMNOPQRSTUVWXYZabcdefghijklmnopqrstuvwxyz0123456789-_".toList.map Char.toUInt8

/-- The digit for a 6-bit value, `enc.encode[v]`. -/
def encodeSextet (v : ℕ) : UInt8 := encodeURL.getD v 0

/-- `enc.decodeMap`: the value of an alphabet byte; every other byte, `=` among them, is invalid. -/
def decodeSextet (c : UInt8) : Option ℕ := encodeURL.idxOf? c

/-- `RawURLEncoding.EncodeToString`. The source assembles each group with shifts and ors of
disjoint bits and takes digits with `>>` and `& 0x3F`; here they are sums, quotients and
remainders. -/
def encode : List UInt8 → List UInt8
  | b0 :: b1 :: b2 :: rest =>
    let v := b0.toNat * 2 ^ 16 + b1.toNat * 2 ^ 8 + b2.toNat
    [encodeSextet (v / 2 ^ 18), encodeSextet (v / 2 ^ 12 % 64), encodeSextet (v / 2 ^ 6 % 64),
      encodeSextet (v % 64)] ++ encode rest
  | [b0, b1] =>
    let v := b0.toNat * 2 ^ 16 + b1.toNat * 2 ^ 8
    [encodeSextet (v / 2 ^ 18), encodeSextet (v / 2 ^ 12 % 64), encodeSextet (v / 2 ^ 6 % 64)]
  | [b0] =>
    let v := b0.toNat * 2 ^ 16
    [encodeSextet (v / 2 ^ 18), encodeSextet (v / 2 ^ 12 % 64)]
  | [] => []

/-- `decodeQuantum` over the whole input: four digits give three bytes; a last quantum of three
or two digits gives two bytes or one (its unused low bits are not checked, as outside strict
mode); one digit left over, or a byte outside the alphabet, is a `CorruptInputError`. -/
def decodeQuanta : List UInt8 → Option (List UInt8)
  | c0 :: c1 :: c2 :: c3 :: rest => do
    let v0 ← decodeSextet c0
    let v1 ← decodeSextet c1
    let v2 ← decodeSextet c2
    let v3 ← decodeSextet c3
    let v := v0 * 2 ^ 18 + v1 * 2 ^ 12 + v2 * 2 ^ 6 + v3
    let tail ← decodeQuanta rest
    pure ([(v / 2 ^ 16).toUInt8, (v / 2 ^ 8 % 256).toUInt8, (v % 256).toUInt8] ++ tail)
  | [c0, c1, c2] => do
    let v0 ← decodeSextet c0
    let v1 ← decodeSextet c1
    let v2 ← decodeSextet c2
    let v := v0 * 2 ^ 18 + v1 * 2 ^ 12 + v2 * 2 ^ 6
    pure [(v / 2 ^ 16).toUInt8, (v / 2 ^ 8 % 256).toUInt8]
  | [c0, c1] => do
    let v0 ← decodeSextet c0
    let v1 ← decodeSextet c1
    let v := v0 * 2 ^ 18 + v1 * 2 ^ 12
    pure [(v / 2 ^ 16).toUInt8]
  | [_] => none
  | [] => some []

/-- `RawURLEncoding.DecodeString`: line feeds and carriage returns are skipped. -/
def decode (s : List UInt8) : Option (List UInt8) :=
  decodeQuanta (s.filter fun c => c != 10 && c != 13)

end GoAttend.Lib.Base64
