import GoAttend.Lib.Base64
import GoAttend.Lib.Json

/-! `github.com/golang-jwt/jwt/v5` (v5.2.1) for HS256 tokens, as a parameter: `Library` is what a
program calls, signing and parsing, and `Library.Lawful` the laws it relies on, the HMAC check
and the expiry at second precision. `Library.compact` is the library itself, for tokens in
compact form: three base64url segments joined by dots, the JSON header, the JSON claims and the
MAC of the first two. The MAC is a parameter of it, so it is lawful whatever function HMAC-SHA256
is; verification is the check that the signature equals the MAC of the signing string under the
key. -/

namespace GoAttend.Lib.Jwt

open Utf8 Json

/-- `jwt.RegisteredClaims`, the fields that are written or checked here. A `NumericDate` is whole
seconds since the epoch: `TimePrecision` is one second, and it truncates. -/
structure RegisteredClaims where
  issuer : List UInt8
  subject : List UInt8
  expiresAt : Option ℕ
  notBefore : Option ℕ
  issuedAt : Option ℕ
  deriving DecidableEq, Repr

/-- The names `GetSigningMethod` knows. -/
def signingMethods : List (List UInt8) :=
  ["HS256", "HS384", "HS512", "RS256", "RS384", "RS512", "ES256", "ES384", "ES512", "PS256",
    "PS384", "PS512", "EdDSA", "none"].map ascii

/-- The header `NewWithClaims` sets for HS256, in the order `json.Marshal` writes a map: sorted
keys. -/
def header : List (List UInt8 × Scalar) :=
  [(ascii "alg", .str (ascii "HS256")), (ascii "typ", .str (ascii "JWT"))]

section Signing

variable (hmac : List UInt8 → List UInt8 → List UInt8)

/-- `Token.SigningString`: the encoded header and the encoded claims, joined by a dot. -/
def signingString (claims : List UInt8) : List UInt8 :=
  Base64.encode (encodeObject header) ++ [0x2E] ++ Base64.encode claims

/-- `Token.SignedString` with `SigningMethodHS256`, for claims that `json.Marshal` wrote. -/
def signedString (key claims : List UInt8) : List UInt8 :=
  signingString claims ++ [0x2E] ++ Base64.encode (hmac key (signingString claims))

end Signing

/-- The expiry check of `Validator.Validate` at `now` (nanoseconds since the epoch): `now` must be
before `exp`; a token without `exp` passes. -/
def expOk (now : ℕ) : Option ℕ → Prop
  | some e => now < e * 10 ^ 9
  | none => True

/-- The not-before check: `now` must not be before `nbf`. -/
def nbfOk (now : ℕ) : Option ℕ → Prop
  | some n => n * 10 ^ 9 ≤ now
  | none => True

instance (now : ℕ) : DecidablePred (expOk now) := fun o => by
  cases o <;> unfold expOk <;> infer_instance

instance (now : ℕ) : DecidablePred (nbfOk now) := fun o => by
  cases o <;> unfold nbfOk <;> infer_instance

/-- `Validator.Validate` with the default options: expiry and not-before, no leeway; `iat`,
audience, issuer and subject are not checked. -/
def Valid (now : ℕ) (c : RegisteredClaims) : Prop :=
  expOk now c.expiresAt ∧ nbfOk now c.notBefore

instance (now : ℕ) : DecidablePred (Valid now) := fun _ => by
  unfold Valid; infer_instance

/-- The signing method the header names: `Header["alg"].(string)` and `GetSigningMethod`. -/
def headerMethod (h : List (List UInt8 × Scalar)) : Option (List UInt8) :=
  match lookup (ascii "alg") h with
  | some (.str alg) => if alg ∈ signingMethods then some alg else none
  | _ => none

section Parsing

variable {C : Type} (hmac : List UInt8 → List UInt8 → List UInt8)
  (decodeClaims : List (List UInt8 × Scalar) → Option C) (registered : C → RegisteredClaims)

/-- `Parser.ParseWithClaims` with the default parser. `decodeClaims` is `json.Unmarshal` into the
claims type and `registered` its registered claims. The token is split at its dots into exactly
three segments; the header and the claims are decoded; the key function gets the method; the
signature must be the MAC of the first two segments as they stand (only HS256 is modelled, the
one method the key function here accepts); and the claims must be valid at `now`. -/
def parseWithClaims (keyFunc : List UInt8 → Option (List UInt8)) (now : ℕ)
    (token : List UInt8) : Option C :=
  match token.splitOn 0x2E with
  | [h, c, sig] => do
    let hdr ← parseObject (← Base64.decode h)
    let claims ← decodeClaims (← parseObject (← Base64.decode c))
    let alg ← headerMethod hdr
    let sig ← Base64.decode sig
    let key ← keyFunc alg
    if alg = ascii "HS256" ∧ hmac key (h ++ [0x2E] ++ c) = sig ∧ Valid now (registered claims) then
      some claims
    else none
  | _ => none

end Parsing

/-- What a program calls: `NewWithClaims(SigningMethodHS256, claims).SignedString(key)`,
`ParseWithClaims` with a key function at a time (its errors as `none`), and the validator that
sets `Token.Valid`. -/
structure Library (C : Type) where
  signedString : List UInt8 → C → List UInt8
  parseWithClaims : (List UInt8 → Option (List UInt8)) → ℕ → List UInt8 → Option C
  validate : ℕ → RegisteredClaims → Bool

/-- The laws of the library for a claims type that `json.Marshal` writes as `toJson` and
`json.Unmarshal` reads as `ofJson`, with its registered claims `registered`. -/
structure Library.Lawful {C : Type} (J : Library C) (toJson : C → List (List UInt8 × Scalar))
    (ofJson : List (List UInt8 × Scalar) → Option C) (registered : C → RegisteredClaims) : Prop where
  /-- Tokens are in compact form: base64url and dots. -/
  compact : ∀ key c b, b ∈ J.signedString key c → b ∈ Base64.encodeURL ∨ b = 0x2E
  /-- The HMAC check: a token signed with the key the key function gives for HS256 verifies, and
  parses to what `json.Unmarshal` makes of its claims, when the validator accepts them. -/
  hmac_check : ∀ keyFunc key now c, keyFunc (ascii "HS256") = some key →
    J.parseWithClaims keyFunc now (J.signedString key c) =
      (ofJson ((toJson c).map sanitizeMember)).bind fun c' =>
        if J.validate now (registered c') then some c' else none
  /-- The expiry at second precision, without leeway: claims with `exp` and no `nbf` are valid
  exactly before `exp` seconds; the issuer, the subject and `iat` are not checked. -/
  exp_seconds : ∀ now r e, r.expiresAt = some e → r.notBefore = none →
    (J.validate now r = true ↔ now < e * 10 ^ 9)

/-- The library itself, with `hmac` for HMAC-SHA256. -/
def Library.compact {C : Type} (hmac : List UInt8 → List UInt8 → List UInt8)
    (toJson : C → List (List UInt8 × Scalar)) (ofJson : List (List UInt8 × Scalar) → Option C)
    (registered : C → RegisteredClaims) : Library C where
  signedString key c := Jwt.signedString hmac key (encodeObject (toJson c))
  parseWithClaims := Jwt.parseWithClaims hmac ofJson registered
  validate now r := decide (Valid now r)

end GoAttend.Lib.Jwt
