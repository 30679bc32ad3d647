import WslVpn.Dns.Text
import WslVpn.Types

/-! Validation of the id_tokens of an identity provider. Decoding, the signature and the registered
claims are checked by a library.
-/

namespace WslVpn.Auth

/-- `text.to_ascii_lowercase()`. -/
def asciiLower (text : String) : String := String.ofList (Dns.toAsciiLowercase text.toList)

theorem asciiLower_asciiLower (text : String) : asciiLower (asciiLower text) = asciiLower text := by
  rw [asciiLower, asciiLower, String.toList_ofList, Dns.toAsciiLowercase, Dns.toAsciiLowercase,
    List.map_map]
  congr 1
  exact List.map_congr_left (fun char _ => Dns.toLower_toLower char)

/-- `text.trim()`. -/
def trimmed (text : String) : String := String.ofList (Dns.trim text.toList)

/-- `text.eq_ignore_ascii_case(other)`. -/
def eqIgnoreAsciiCase (text other : String) : Bool := asciiLower text == asciiLower other

inductive Algorithm where
  | hs256 | hs384 | hs512
  | es256 | es384
  | rs256 | rs384 | rs512
  | ps256 | ps384 | ps512
  | edDsa
  deriving DecidableEq

/-- `format!("{algorithm:?}")`. -/
def Algorithm.debug : Algorithm → String
  | .hs256 => "HS256" | .hs384 => "HS384" | .hs512 => "HS512"
  | .es256 => "ES256" | .es384 => "ES384"
  | .rs256 => "RS256" | .rs384 => "RS384" | .rs512 => "RS512"
  | .ps256 => "PS256" | .ps384 => "PS384" | .ps512 => "PS512"
  | .edDsa => "EdDSA"

/-- Asymmetric ones only. -/
def allowedAlgorithms : List Algorithm :=
  [.rs256, .rs384, .rs512, .ps256, .ps384, .ps512, .es256, .es384]

inductive KeyFamily where
  | rsa
  | ellipticCurve
  | octetKey
  | octetKeyPair
  deriving DecidableEq

/-- A published key, as far as it is told from the others. -/
structure Jwk where
  keyId : Option String
  algorithm : KeyFamily
  material : String
  deriving DecidableEq

/-- A key is only used for the family that it was published as. -/
def familyMatches : KeyFamily → Algorithm → Bool
  | .rsa, algorithm => [.rs256, .rs384, .rs512, .ps256, .ps384, .ps512].contains algorithm
  | .ellipticCurve, algorithm => [.es256, .es384].contains algorithm
  | .octetKey, _ | .octetKeyPair, _ => false

structure Header where
  alg : Algorithm
  kid : Option String

/-- A claim whose type the provider chooses. -/
inductive ClaimValue where
  | bool (value : Bool)
  | string (value : String)
  | other
  deriving DecidableEq

structure IdTokenClaims where
  iss : String
  sub : String
  email : Option String
  emailVerified : Option ClaimValue
  name : Option String
  preferredUsername : Option String
  nonce : Option String
  hd : Option String
  deriving DecidableEq

/-- What the library is told to check besides the signature. -/
structure Validation where
  algorithm : Algorithm
  issuer : String
  audience : String
  validateExp : Bool
  requiredSpecClaims : List String
  leeway : Nat

/-- The library that decodes tokens. A failure comes with its text. -/
structure Jwt where
  DecodingKey : Type
  decodeHeader : String → Except String Header
  fromJwk : Jwk → Except String DecodingKey
  decode : String → DecodingKey → Validation → Except String IdTokenClaims

inductive OidcError where
  | malformedHeader (message : String)
  | disallowedAlgorithm (algorithm : Algorithm)
  | missingKeyId
  | unknownKeyId (keyId : String)
  | unusableKey (message : String)
  | invalid (message : String)
  | missingSubject
  | missingEmail
  | emailNotVerified
  | nonceMismatch
  | discovery (message : String)
  | issuerMismatch (expected found : String)
  deriving DecidableEq

/-- What a valid id_token establishes. -/
structure VerifiedIdentity where
  issuer : String
  subject : String
  email : String
  displayName : Option String
  hostedDomain : Option String
  deriving DecidableEq

/-- Some providers send the text of a boolean. -/
def claimIsTrue : Option ClaimValue → Bool
  | some (.bool value) => value
  | some (.string value) => eqIgnoreAsciiCase value "true"
  | _ => false

/-- The claims of a token that the library accepts, under the key and the checks of this deployment.
-/
def decodedClaims (jwt : Jwt) (token : String) (jwks : List Jwk)
    (expectedIssuer expectedAudience : String)
    (leewaySecs : Nat) : Except OidcError IdTokenClaims := do
  let header ← (jwt.decodeHeader token).mapError .malformedHeader
  if header.alg ∉ allowedAlgorithms then throw (.disallowedAlgorithm header.alg)
  else
    let some kid := header.kid | throw .missingKeyId
    let some jwk := jwks.find? (·.keyId == some kid) | throw (.unknownKeyId kid)
    if !familyMatches jwk.algorithm header.alg then
      throw (.unusableKey ("kid " ++ kid ++ " cannot be used for " ++ header.alg.debug))
    else
      let key ← (jwt.fromJwk jwk).mapError .unusableKey
      (jwt.decode token key {
        algorithm := header.alg
        issuer := expectedIssuer
        audience := expectedAudience
        validateExp := true
        requiredSpecClaims := ["exp", "iss", "aud", "sub"]
        leeway := leewaySecs
      }).mapError .invalid

/-- The token was minted for this login. -/
def nonceMatches : Option String → Option String → Bool
  | some expected, found => found == some expected
  | none, _ => true

/-- The identity that the claims establish. -/
def identityOf (claims : IdTokenClaims) (expectedIssuer : String) (expectedNonce : Option String)
    : Except OidcError VerifiedIdentity :=
  if trimmed claims.sub = "" then .error .missingSubject
  else if claims.iss ≠ expectedIssuer then .error (.issuerMismatch expectedIssuer claims.iss)
  else if !nonceMatches expectedNonce claims.nonce then .error .nonceMismatch
  else
    match claims.email.or claims.preferredUsername with
    | none => .error .missingEmail
    | some email =>
        if !claimIsTrue claims.emailVerified then .error .emailNotVerified
        else .ok {
          issuer := claims.iss
          subject := claims.sub
          email := asciiLower email
          displayName := claims.name
          hostedDomain := (claims.hd.map (fun domain => asciiLower (trimmed domain))).filter (· ≠ "")
        }

def verifyIdToken (jwt : Jwt) (token : String) (jwks : List Jwk)
    (expectedIssuer expectedAudience : String) (expectedNonce : Option String) (leewaySecs : Nat)
    : Except OidcError VerifiedIdentity := do
  let claims ← decodedClaims jwt token jwks expectedIssuer expectedAudience leewaySecs
  identityOf claims expectedIssuer expectedNonce

section Verified

variable {jwt : Jwt} {token : String} {jwks : List Jwk} {issuer audience : String}
  {nonce : Option String} {leeway : Nat} {claims : IdTokenClaims} {identity : VerifiedIdentity}

theorem verifyIdToken_ok
    (accepted : verifyIdToken jwt token jwks issuer audience nonce leeway = .ok identity)
    : ∃ claims, decodedClaims jwt token jwks issuer audience leeway = .ok claims
        ∧ identityOf claims issuer nonce = .ok identity := by
  rw [verifyIdToken] at accepted
  cases decoded : decodedClaims jwt token jwks issuer audience leeway with
  | error error =>
      rw [decoded] at accepted
      cases accepted
  | ok claims =>
      rw [decoded] at accepted
      exact ⟨claims, rfl, accepted⟩

/-- What an identity takes from the claims. -/
theorem identityOf_ok (made : identityOf claims issuer nonce = .ok identity)
    : identity.issuer = claims.iss ∧ identity.subject = claims.sub
      ∧ claimIsTrue claims.emailVerified = true
      ∧ ∃ email, claims.email.or claims.preferredUsername = some email
          ∧ identity.email = asciiLower email := by
  unfold identityOf at made
  split at made
  · cases made
  · split at made
    · cases made
    · split at made
      · cases made
      · split at made
        · cases made
        · next email chosen =>
            split at made
            · cases made
            · next verified =>
                cases made
                exact ⟨rfl, rfl, by simpa using verified, email, chosen, rfl⟩

end Verified

end WslVpn.Auth
