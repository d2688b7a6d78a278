import GoAttend.Lib.Jwt

/-! `internal/auth/jwt.go`: the claims the API signs, `Issue` and `Parse`, over golang-jwt as a
parameter (`Lib.Jwt.Library`). Go strings are byte strings; times are nanoseconds since the epoch,
as `time.Time` and `time.Duration` count them. -/

namespace GoAttend.Auth

open Lib Lib.Utf8 Lib.Json Lib.Jwt

/-- `auth.Claims`: its own `Subject` (tag `sub`) and `Role`, then the embedded
`jwt.RegisteredClaims`, whose own `Subject` is also tagged `sub`. -/
structure Claims where
  subject : List UInt8
  role : List UInt8
  registered : RegisteredClaims
  deriving DecidableEq, Repr

/-- The value `Parse` decodes into: `&Claims{}`. -/
def Claims.zero : Claims := ⟨[], [], ⟨[], [], none, none, none⟩⟩

/-- `json.Marshal` of `Claims`: `sub` and `role`, then the embedded struct's fields in their order,
`omitempty` dropping an empty issuer and absent dates. `encoding/json` writes only the least
nested of two fields with one name, so the embedded `Subject` is never written. -/
def Claims.toJson (c : Claims) : List (List UInt8 × Scalar) :=
  [(ascii "sub", .str c.subject), (ascii "role", .str c.role)] ++
    (if c.registered.issuer = [] then [] else [(ascii "iss", .str c.registered.issuer)]) ++
    c.registered.expiresAt.toList.map (fun e => (ascii "exp", .num e)) ++
    c.registered.notBefore.toList.map (fun n => (ascii "nbf", .num n)) ++
    c.registered.issuedAt.toList.map (fun i => (ascii "iat", .num i))

/-- The fields of `Claims` a JSON key can select. `sub` selects `Claims.Subject`: the embedded
`RegisteredClaims.Subject` is hidden for decoding as for encoding. -/
inductive Field
  | sub
  | role
  | iss
  | exp
  | nbf
  | iat
  deriving DecidableEq, Repr

def Field.name : Field → List UInt8
  | .sub => ascii "sub"
  | .role => ascii "role"
  | .iss => ascii "iss"
  | .exp => ascii "exp"
  | .nbf => ascii "nbf"
  | .iat => ascii "iat"

def fields : List Field := [.sub, .role, .iss, .exp, .nbf, .iat]

/-- `foldName` on ASCII: letters to upper case. -/
def foldName (s : List UInt8) : List UInt8 :=
  s.map fun c => if 0x61 ≤ c ∧ c ≤ 0x7A then c - 0x20 else c

/-- The field a key selects: the one with that exact name, else one whose name folds to the same. -/
def selectField (key : List UInt8) : Option Field :=
  match fields.find? (fun f => f.name = key) with
  | some f => some f
  | none => fields.find? fun f => foldName f.name = foldName key

/-- `json.Unmarshal` storing one member: a string field takes a string, a `NumericDate` a number,
anything else is an `UnmarshalTypeError`; a key that selects no field is skipped. -/
def Claims.set (c : Claims) (m : List UInt8 × Scalar) : Option Claims :=
  match selectField m.1, m.2 with
  | some .sub, .str v => some { c with subject := v }
  | some .role, .str v => some { c with role := v }
  | some .iss, .str v => some { c with registered.issuer := v }
  | some .exp, .num n => some { c with registered.expiresAt := some n }
  | some .nbf, .num n => some { c with registered.notBefore := some n }
  | some .iat, .num n => some { c with registered.issuedAt := some n }
  | some _, _ => none
  | none, _ => some c

/-- `json.Unmarshal(claimBytes, &Claims{})` on a decoded object: the members in order. -/
def Claims.ofJson (ms : List (List UInt8 × Scalar)) : Option Claims :=
  ms.foldlM Claims.set Claims.zero

section Tokens

variable (J : Library Claims)

/-- The key function of `Parse`: any method but HS256 is an `unexpected signing method`. -/
def keyFunc (key : List UInt8) (alg : List UInt8) : Option (List UInt8) :=
  if alg = ascii "HS256" then some key else none

/-- `auth.Parse` at `now`: `jwt.ParseWithClaims` into `Claims`, `parsed.Valid`, then the issuer
check, made only when an issuer is configured. Its errors are not told apart: `DeviceAuth` answers
each the same. -/
def parse (key issuer : List UInt8) (now : ℕ) (tokenStr : List UInt8) : Option Claims :=
  match J.parseWithClaims (keyFunc key) now tokenStr with
  | none => none
  | some claims => if issuer ≠ [] ∧ claims.registered.issuer ≠ issuer then none else some claims

variable {J} (hJ : J.Lawful Claims.toJson Claims.ofJson Claims.registered)
include hJ

end Tokens

end GoAttend.Auth
