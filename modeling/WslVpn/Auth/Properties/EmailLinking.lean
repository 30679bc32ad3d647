import WslVpn.Auth.Alone

/-! A first login is linked to an account by email. The provider has verified the `email` claim, but the
address may come from another one.
-/

namespace WslVpn.Auth

open Transactions.Locking

/-- The sign-in has bound an identity, so far unbound, to a user who was there before. -/
structure Attaches (db after : AuthDb) (identity : VerifiedIdentity) (user : UserRow) : Prop where
  unbound : db.accounts.committed.findIdentity identity.issuer identity.subject = none
  existed : user ∈ db.accounts.committed.users
  bound
    : ∃ row, after.accounts.committed.findIdentity identity.issuer identity.subject = some row
        ∧ row.userId = user.id

/-- The token has the user's address in its `email` claim, and the provider vouches for that. -/
def VerifiedEmail (claims : IdTokenClaims) (user : UserRow) : Prop :=
  ∃ email, claims.email = some email ∧ claimIsTrue claims.emailVerified = true
    ∧ eqIgnoreAsciiCase email user.email = true

/-- A new version of a binding is what its key finds. -/
theorem findIdentity_apply (tables : Accounts) (row : IdentityRow)
    : (tables.apply (.identity row)).findIdentity row.issuer row.subject = some row := by
  have others : (tables.identities.filter (fun other => !sameSubject other row)).find?
      (fun other => other.issuer == row.issuer && other.subject == row.subject) = none := by
    refine List.find?_eq_none.mpr ?_
    intro other member same
    have apart := (List.mem_filter.mp member).2
    rw [sameSubject, same] at apart
    cases apart
  rw [Accounts.findIdentity, Accounts.apply, List.find?_append, others]
  simp

section Attaches

variable {db after : AuthDb} {config : AuthConfig} {connection : Nat} {freshId : Uuid}
  {identity : VerifiedIdentity} {user : UserRow} {result : Except AppError Uuid}

/-- Only the user with the address of the identity is attached to, by cases on what the sign-in has
found.
-/
theorem Attaches.email (good : db.accounts.committed.Good)
    (ran : (Oidc.resolveUser config connection freshId identity).alone db = (result, after))
    (attaches : Attaches db after identity user)
    : user.email = identity.email := by
  obtain ⟨row, bound, named⟩ := attaches.bound
  rcases Oidc.resolveUser_alone ran with ⟨_, _, rfl⟩ | ⟨userId, writes, _, rfl, finds⟩
  · rw [attaches.unbound] at bound
    cases bound
  · cases finds with
    | bound found =>
        rw [attaches.unbound] at found
        cases found
    | @linked stored unbound found =>
        have made := findIdentity_apply db.accounts.committed (bindingOf identity stored.id)
        cases bound.symm.trans made
        have same : user = stored :=
          good.ids user attaches.existed stored (List.mem_of_find?_eq_some found) named.symm
        rw [same]
        simpa using List.find?_some found
    | @created new unbound noUser jit newNamed free =>
        have made := findIdentity_apply (db.accounts.committed.apply (.user new))
          (bindingOf identity freshId)
        cases bound.symm.trans made
        have known : db.accounts.committed.hasUser freshId = true :=
          Accounts.hasUser_iff.mpr ⟨user, attaches.existed, named.symm⟩
        rw [free] at known
        cases known

end Attaches

/-- When an accepted token attaches its subject to an account, the account has the verified address of
the token exactly when the token has an `email` claim.
-/
theorem email_link_verified_iff {jwt : Jwt} {token : String} {jwks : List Jwk}
    {issuer audience : String} {nonce : Option String} {leeway : Nat} {claims : IdTokenClaims}
    {identity : VerifiedIdentity}
    (decoded : decodedClaims jwt token jwks issuer audience leeway = .ok claims)
    (accepted : verifyIdToken jwt token jwks issuer audience nonce leeway = .ok identity)
    {db : AuthDb} (good : db.accounts.committed.Good) {config : AuthConfig} {connection : Nat}
    {freshId : Uuid} {user : UserRow}
    (attaches
      : Attaches db ((Oidc.resolveUser config connection freshId identity).alone db).2 identity user)
    : VerifiedEmail claims user ↔ claims.email ≠ none := by
  obtain ⟨same, decodedToo, made⟩ := verifyIdToken_ok accepted
  cases decoded.symm.trans decodedToo
  obtain ⟨_, _, verified, email, chosen, lowered⟩ := identityOf_ok made
  have address : user.email = identity.email := attaches.email good rfl
  constructor
  · intro carried
    obtain ⟨email, there, _⟩ := carried
    rw [there]
    exact Option.some_ne_none email
  · intro carried
    obtain ⟨claimed, there⟩ := Option.ne_none_iff_exists'.mp carried
    rw [there] at chosen
    have same : claimed = email := Option.some.inj chosen
    refine ⟨claimed, there, verified, ?_⟩
    rw [address, lowered, same, eqIgnoreAsciiCase, asciiLower_asciiLower, beq_self_eq_true]

/-- A library that takes every token for one with these claims. -/
def jwtOf (claims : IdTokenClaims) : Jwt where
  DecodingKey := Unit
  decodeHeader _ := .ok { alg := .rs256, kid := some "k1" }
  fromJwk _ := .ok ()
  decode _ _ _ := .ok claims

def rsaKey : Jwk where
  keyId := some "k1"
  algorithm := .rsa
  material := "AQAB"

def plainConfig : AuthConfig where
  issuer := "https://idp.example.com"
  clientId := "wsl"
  redirectUri := "https://vpn.example.com/callback"
  nativeSchemes := []
  clockSkewSecs := 60
  hostedDomains := []
  provisioning := .directory
  opsapi := none
  adminEmails := []
  devLoginEnabled := false
  isLocal := false
  hashToken := fun text => "hash of " ++ text
  challengeOf := fun text => "challenge of " ++ text
  toLowercase := asciiLower
  toLowercase_ascii := asciiLower_asciiLower

/-- The administrator's account, which the directory has made. -/
def boss : UserRow where
  id := 1
  email := "boss@example.com"
  displayName := none
  externalId := none
  active := true
  role := .admin

/-- A database with these users, and nothing else. -/
def usersOnly (users : List UserRow) : AuthDb where
  now := 0
  lower := asciiLower
  accounts := .start ⟨users, []⟩
  authStates := []
  cliExchanges := []
  accessTokens := []

theorem bossOnly_good : (usersOnly [boss]).accounts.committed.Good := by
  refine ⟨?_, ?_, ?_, ?_, ?_⟩
  · intro row there other otherThere _
    rw [List.mem_singleton.mp there, List.mem_singleton.mp otherThere]
  · intro row there other otherThere _
    rw [List.mem_singleton.mp there, List.mem_singleton.mp otherThere]
  · intro binding there
    cases there
  · intro binding there
    cases there
  · intro binding there
    cases there

def tokenClaims (email preferredUsername : Option String) : IdTokenClaims where
  iss := "https://idp.example.com"
  sub := "s-17"
  email
  emailVerified := some (.bool true)
  name := none
  preferredUsername
  nonce := some "n"
  hd := none

def bossIdentity : VerifiedIdentity where
  issuer := "https://idp.example.com"
  subject := "s-17"
  email := "boss@example.com"
  displayName := none
  hostedDomain := none

/-- The sign-in of the identity is the first one of the administrator. -/
theorem boss_attached
    : Attaches (usersOnly [boss])
        ((Oidc.resolveUser plainConfig 0 2 bossIdentity).alone (usersOnly [boss])).2 bossIdentity
        boss :=
  ⟨rfl, List.mem_singleton.mpr rfl, bindingOf bossIdentity 1, by decide +kernel, rfl⟩

theorem verified_link
    : VerifiedEmail (tokenClaims (some "Boss@Example.com") none) boss
      ↔ (tokenClaims (some "Boss@Example.com") none).email ≠ none :=
  @email_link_verified_iff (jwtOf (tokenClaims (some "Boss@Example.com") none)) "t" [rsaKey]
    "https://idp.example.com" "wsl" (some "n") 60 _ bossIdentity rfl (by decide +kernel) _ bossOnly_good
    plainConfig 0 2 boss boss_attached

/-- A token without an `email` claim attaches a stranger to the administrator's account: the address is
the name that the stranger has chosen at the provider.
-/
theorem chosen_name_attaches
    : verifyIdToken (jwtOf (tokenClaims none (some "boss@example.com"))) "t" [rsaKey]
          "https://idp.example.com" "wsl" (some "n") 60
        = .ok bossIdentity
      ∧ Attaches (usersOnly [boss])
          ((Oidc.resolveUser plainConfig 0 2 bossIdentity).alone (usersOnly [boss])).2 bossIdentity
          boss
      ∧ ¬ VerifiedEmail (tokenClaims none (some "boss@example.com")) boss := by
  refine ⟨by decide +kernel, boss_attached, ?_⟩
  intro carried
  obtain ⟨_, there, _⟩ := carried
  cases there

end WslVpn.Auth
