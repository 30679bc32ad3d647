import WslVpn.Interleaving.Caches
import WslVpn.Auth.Handshake

/-! The discovery documents and the signing keys of the providers, each kept for its issuer. -/

namespace WslVpn.Auth

open Interleaving

/-- The subset of a provider's discovery document that is used. -/
structure DiscoveryDocument extends ProviderMetadata where
  issuer : String
  endSessionEndpoint : Option String

/-- `text.trim_end_matches('/')`. -/
def trimEndSlashes (text : String) : String := String.ofList (text.toList.rdropWhile (· == '/'))

/-- Move a URL from the provider's public base onto the one that is reachable from here. -/
def rebase (url publicBase internalBase : String) : String :=
  match Dns.stripStart (trimEndSlashes publicBase).toList url.toList with
  | some rest => trimEndSlashes internalBase ++ String.ofList rest
  | none => url

/-- Where the discovery document is fetched. -/
def discoveryUrl (issuer : String) (internalUrl : Option String) : String :=
  trimEndSlashes (internalUrl.getD issuer) ++ "/.well-known/openid-configuration"

/-- The endpoints that are called from here, where the provider is reached at another address. -/
def moved (issuer : String) (internalUrl : Option String) (fetched : DiscoveryDocument)
    : DiscoveryDocument :=
  match internalUrl with
  | some internal =>
      { fetched with
        tokenEndpoint := rebase fetched.tokenEndpoint issuer internal
        jwksUri := rebase fetched.jwksUri issuer internal }
  | none => fetched

/-- A document that names another issuer is not used. -/
def acceptDiscovery (issuer : String) (internalUrl : Option String) (fetched : DiscoveryDocument)
    : Except OidcError DiscoveryDocument :=
  if trimEndSlashes fetched.issuer ≠ trimEndSlashes issuer then
    .error (.issuerMismatch issuer fetched.issuer)
  else .ok (moved issuer internalUrl fetched)

/-- In nanoseconds. -/
def metadataTtl : Nat := 3600 * 10 ^ 9
def jwksRefreshCooldown : Nat := 60 * 10 ^ 9

/-- The operations on the documents, by issuer. What fails is the request, with its text. -/
abbrev metadataSig : Signature (Caches.World String String DiscoveryDocument DiscoveryDocument String) String :=
  Caches.signature String String DiscoveryDocument DiscoveryDocument "request cancelled"

/-- The operations on the key sets, by issuer. -/
abbrev jwksSig : Signature (Caches.World String String (List Jwk) (List Jwk) String) String :=
  Caches.signature String String (List Jwk) (List Jwk) "request cancelled"

namespace ProviderKeys

def storeMetadata (issuer : String)
    : Except OidcError DiscoveryDocument → Program metadataSig OidcError DiscoveryDocument
  | .error error => throw error
  | .ok metadata => do
      let () ← Caches.ask OidcError.discovery (.insert issuer metadata)
      pure metadata

def fetchMetadata (issuer : String) (internalUrl : Option String)
    : Program metadataSig OidcError DiscoveryDocument := do
  let fetched ← Caches.ask OidcError.discovery
    (.get (discoveryUrl issuer internalUrl))
  storeMetadata issuer (acceptDiscovery issuer internalUrl fetched)

/-- Fetch, or reuse, the provider's discovery document. -/
def metadata (issuer : String) (internalUrl : Option String)
    : Program metadataSig OidcError DiscoveryDocument := do
  let hit ← Caches.ask OidcError.discovery (.read issuer)
  match hit with
  | none => fetchMetadata issuer internalUrl
  | some cached => do
      let now : Nat ← Caches.ask OidcError.discovery .clock
      if now - cached.fetchedAt < metadataTtl then pure cached.value
      else fetchMetadata issuer internalUrl

def fetchKeys (issuer jwksUri : String) : Program jwksSig OidcError (List Jwk) := do
  let fetched ← Caches.ask OidcError.discovery (.get jwksUri)
  let () ← Caches.ask OidcError.discovery (.insert issuer fetched)
  pure fetched

/-- The key is one of the set. -/
def known (kid : Option String) (keys : List Jwk) : Bool :=
  match kid with
  | some kid => (keys.find? (·.keyId == some kid)).isSome
  | none => true

/-- The provider's current keys, refreshed when the key is unknown. -/
def keysFor (issuer jwksUri : String) (kid : Option String) : Program jwksSig OidcError (List Jwk) := do
  let hit ← Caches.ask OidcError.discovery (.read issuer)
  match hit with
  | none => fetchKeys issuer jwksUri
  | some cached =>
      if known kid cached.value then pure cached.value
      else do
        let now : Nat ← Caches.ask OidcError.discovery .clock
        if now - cached.fetchedAt < jwksRefreshCooldown then pure cached.value
        else fetchKeys issuer jwksUri

end ProviderKeys

end WslVpn.Auth
