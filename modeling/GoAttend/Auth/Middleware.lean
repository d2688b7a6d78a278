import GoAttend.Auth.Jwt

/-! `internal/auth/middleware.go` and the tokens of `POST /v1/devices/register`: which bearer
credentials the `/v1` routes admit. -/

namespace GoAttend.Auth

open Lib Lib.Utf8 Lib.Json Lib.Jwt

/-- The settings of `config.App` that the token routes read, with `Load`'s defaults. -/
structure Config where
  jwtIssuer : List UInt8 := ascii "attendance-engine"
  jwtSigningKey : List UInt8 := ascii "dev-signing-secret-change"
  accessTTL : ℕ := 15 * 60 * 10 ^ 9
  refreshTTL : ℕ := 24 * 60 * 60 * 10 ^ 9
  deriving DecidableEq, Repr

/-- ASCII lower case of one byte. -/
def lowerByte (c : UInt8) : UInt8 := if 0x41 ≤ c ∧ c ≤ 0x5A then c + 0x20 else c

/-- `strings.HasPrefix(strings.ToLower(authz), "bearer ")`. `ToLower` maps runes, and no rune
outside ASCII lowers to a letter of `bearer` or to a space, so the test reads the first seven bytes,
each lowered as ASCII. -/
def hasBearerPrefix (authz : List UInt8) : Prop := (authz.take 7).map lowerByte = ascii "bearer "

instance : DecidablePred hasBearerPrefix := fun _ => by unfold hasBearerPrefix; infer_instance

/-- `unicode.IsSpace` on ASCII. -/
def isAsciiSpace (c : UInt8) : Bool :=
  c == 0x09 || c == 0x0A || c == 0x0B || c == 0x0C || c == 0x0D || c == 0x20

/-- `strings.TrimSpace`, for white space within ASCII. -/
def trimSpace (s : List UInt8) : List UInt8 :=
  ((s.dropWhile isAsciiSpace).reverse.dropWhile isAsciiSpace).reverse

section DeviceAuth

variable (J : Library Claims)

/-- `DeviceAuth(signingKey, issuer)` on a request at `now` whose `Authorization` header is `authz`
(empty when absent): the message of the 401 it answers, or the claims it sets under `claims`
before the handler runs. -/
def deviceAuth (signingKey issuer : List UInt8) (now : ℕ) (authz : List UInt8) :
    Except String Claims :=
  if authz = [] ∨ ¬hasBearerPrefix authz then .error "missing bearer token"
  else
    match parse J signingKey issuer now (trimSpace (authz.drop 7)) with
    | none => .error "invalid token"
    | some claims => .ok claims

/-- The messages of the 401s of `DeviceAuth`. -/
theorem deviceAuth_error {signingKey issuer : List UInt8} {now : ℕ} {authz : List UInt8} {m : String}
    (h : deviceAuth J signingKey issuer now authz = .error m) :
    m = "missing bearer token" ∨ m = "invalid token" := by
  unfold deviceAuth at h
  split_ifs at h
  · cases h
    exact .inl rfl
  · split at h
    · cases h
      exact .inr rfl
    · cases h

variable {J} (hJ : J.Lawful Claims.toJson Claims.ofJson Claims.registered)
include hJ

end DeviceAuth

/-- golang-jwt with the MAC of a key and a message taken as their concatenation. -/
def concatJwt : Library Claims :=
  Library.compact (fun key msg => key ++ msg) Claims.toJson Claims.ofJson Claims.registered

end GoAttend.Auth
