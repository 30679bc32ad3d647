import WslVpn.Auth.ProviderKeys

/-! The caches of the providers' documents and keys, whatever the schedule: what an issuer is given comes
from that issuer's own provider, and is never staler than the cache allows.
-/

namespace WslVpn.Auth

open Interleaving
open Interleaving.Caches

-----------------------------------------------------------------------------------------
-- The signing keys
-----------------------------------------------------------------------------------------

/-- A call for the keys of an issuer. -/
structure KeyCall where
  issuer : String
  jwksUri : String
  kid : Option String

/-- How long keys may be reused for a token that names a key. -/
def keysLast (kid : Option String) (keys : List Jwk) : Option Nat :=
  if ProviderKeys.known kid keys then none else some jwksRefreshCooldown

def KeyCall.caller (call : KeyCall) : Caller String String (List Jwk) (List Jwk) OidcError where
  key := call.issuer
  lasts := keysLast call.kid
  source := call.jwksUri
  accept := .ok

/-- Calls for keys that share the cache of a process. -/
def KeySystem.start (calls : List KeyCall) (world : World String String (List Jwk) (List Jwk) String)
    : System jwksSig OidcError (List Jwk) where
  state := world
  calls := calls.map (fun call => ProviderKeys.keysFor call.issuer call.jwksUri call.kid)

theorem keysFor_eq (call : KeyCall)
    : ProviderKeys.keysFor call.issuer call.jwksUri call.kid
      = call.caller.program OidcError.discovery := by
  rw [ProviderKeys.keysFor, Caller.program, readThrough]
  congr 1
  funext hit
  cases hit with
  | none => rfl
  | some cached =>
      simp only [KeyCall.caller, keysLast]
      split <;> rfl

theorem KeySystem.start_eq (calls : List KeyCall)
    (world : World String String (List Jwk) (List Jwk) String)
    : KeySystem.start calls world
      = Caches.start "request cancelled" OidcError.discovery (calls.map KeyCall.caller) world := by
  rw [KeySystem.start, Caches.start, List.map_map]
  congr 1
  exact List.map_congr_left (fun call _ => keysFor_eq call)

/-- The keys are what a URI answered with that was asked for this issuer. -/
def PublishedFor (calls : List KeyCall) (issuer : String) (keys : List Jwk)
    (served : Served String (List Jwk))
    : Prop :=
  served.document = keys ∧ ∃ call ∈ calls, call.issuer = issuer ∧ call.jwksUri = served.source

/-- What a call is told are keys of its own issuer: of a URI that was asked for that issuer. They were
fetched since the call began or were in the cache, and if the key of the token is not among them then
they had been put there less than a cooldown before.
-/
theorem keysFor_current {calls : List KeyCall}
    {world : World String String (List Jwk) (List Jwk) String} (cold : Cold world) {index : Nat}
    {call : KeyCall} (made : calls[index]? = some call)
    {before after : List (Event (Change String (List Jwk) String))} {keys : List Jwk}
    (begins
      : ((KeySystem.start calls world).run Change.effect before).calls[index]?
        = some (ProviderKeys.keysFor call.issuer call.jwksUri call.kid))
    (answered
      : ((KeySystem.start calls world).run Change.effect (before ++ after)).calls[index]?
        = some (.done (.ok keys)))
    : Current (PublishedFor calls) ((KeySystem.start calls world).run Change.effect before).state.now
        call.issuer (keysLast call.kid) keys
        ((KeySystem.start calls world).run Change.effect (before ++ after)).state := by
  rw [KeySystem.start_eq] at begins answered ⊢
  rw [keysFor_eq] at begins
  have made' : (calls.map KeyCall.caller)[index]? = some call.caller := by
    rw [List.getElem?_map, made]
    rfl
  refine (callers_current cold made' begins answered).vouched ?_
  rintro served ⟨_, member, issuer, source, accepted⟩
  obtain ⟨call, there, rfl⟩ := List.mem_map.mp member
  cases accepted
  exact ⟨rfl, call, there, issuer, source⟩

/-- One key before a rotation, and two behind it. -/
def rotatedKeys : List Jwk := [⟨some "old", .rsa, ""⟩, ⟨some "new", .rsa, ""⟩]

def exampleWorld {Document : Type} (document : Document) : World String String Document Document String where
  now := 0
  publishes _ := .ok document
  cache _ := none
  served := []
  inserted := []

theorem exampleWorld_cold {Document : Type} (document : Document) : Cold (exampleWorld document) :=
  ⟨fun _ => rfl, rfl, rfl⟩

/-- The provider rotates its keys half a minute before a token with the new key is presented: the call is
told the keys from before.
-/
theorem keysFor_current_rotation
    : let calls : List KeyCall :=
        [⟨"https://idp", "https://idp/keys", none⟩, ⟨"https://idp", "https://idp/keys", some "new"⟩]
      let fetched : List (Event (Change String (List Jwk) String)) :=
        [.run 0, .run 0, .run 0, .env (.publishes "https://idp/keys" (.ok rotatedKeys)),
          .env (.passes (30 * 10 ^ 9))]
      Current (PublishedFor calls) (30 * 10 ^ 9) "https://idp" (keysLast (some "new"))
        (rotatedKeys.take 1)
        ((KeySystem.start calls (exampleWorld (rotatedKeys.take 1))).run Change.effect
          (fetched ++ [.run 1, .run 1])).state :=
  @keysFor_current _ _ (exampleWorld_cold _) 1 ⟨"https://idp", "https://idp/keys", some "new"⟩ rfl
    [.run 0, .run 0, .run 0, .env (.publishes "https://idp/keys" (.ok rotatedKeys)),
      .env (.passes (30 * 10 ^ 9))] [.run 1, .run 1] _ rfl rfl

-----------------------------------------------------------------------------------------
-- The discovery documents
-----------------------------------------------------------------------------------------

/-- A call for the discovery document of an issuer. -/
structure DiscoveryCall where
  issuer : String
  internalUrl : Option String

def DiscoveryCall.caller (call : DiscoveryCall)
    : Caller String String DiscoveryDocument DiscoveryDocument OidcError where
  key := call.issuer
  lasts _ := some metadataTtl
  source := discoveryUrl call.issuer call.internalUrl
  accept := acceptDiscovery call.issuer call.internalUrl

def DiscoverySystem.start (calls : List DiscoveryCall)
    (world : World String String DiscoveryDocument DiscoveryDocument String)
    : System metadataSig OidcError DiscoveryDocument where
  state := world
  calls := calls.map (fun call => ProviderKeys.metadata call.issuer call.internalUrl)

theorem fetchMetadata_eq (call : DiscoveryCall)
    : ProviderKeys.fetchMetadata call.issuer call.internalUrl
      = refresh OidcError.discovery call.issuer (discoveryUrl call.issuer call.internalUrl)
        (acceptDiscovery call.issuer call.internalUrl) := by
  rw [ProviderKeys.fetchMetadata, refresh]
  congr 1
  funext fetched
  cases acceptDiscovery call.issuer call.internalUrl fetched <;> rfl

theorem metadata_eq (call : DiscoveryCall)
    : ProviderKeys.metadata call.issuer call.internalUrl
      = call.caller.program OidcError.discovery := by
  rw [ProviderKeys.metadata, Caller.program, readThrough, fetchMetadata_eq]
  congr 1
  funext hit
  cases hit <;> rfl

theorem DiscoverySystem.start_eq (calls : List DiscoveryCall)
    (world : World String String DiscoveryDocument DiscoveryDocument String)
    : DiscoverySystem.start calls world
      = Caches.start "request cancelled" OidcError.discovery (calls.map DiscoveryCall.caller) world := by
  rw [DiscoverySystem.start, Caches.start, List.map_map]
  congr 1
  exact List.map_congr_left (fun call _ => metadata_eq call)

/-- The document names the issuer, and comes from where one of the calls for this issuer asked. Its
endpoints are those of the document, moved to where that call asked.
-/
def DiscoveredFor (calls : List DiscoveryCall) (issuer : String) (metadata : DiscoveryDocument)
    (served : Served String DiscoveryDocument)
    : Prop :=
  trimEndSlashes served.document.issuer = trimEndSlashes issuer
  ∧ ∃ call ∈ calls, call.issuer = issuer ∧ discoveryUrl issuer call.internalUrl = served.source
      ∧ metadata = moved issuer call.internalUrl served.document

/-- What a call is told is a document that names its issuer, which was fetched since the call began or at
most an hour before. Those of other issuers are never used.
-/
theorem metadata_current {calls : List DiscoveryCall}
    {world : World String String DiscoveryDocument DiscoveryDocument String} (cold : Cold world)
    {index : Nat} {call : DiscoveryCall} (made : calls[index]? = some call)
    {before after : List (Event (Change String DiscoveryDocument String))}
    {metadata : DiscoveryDocument}
    (begins
      : ((DiscoverySystem.start calls world).run Change.effect before).calls[index]?
        = some (ProviderKeys.metadata call.issuer call.internalUrl))
    (answered
      : ((DiscoverySystem.start calls world).run Change.effect (before ++ after)).calls[index]?
        = some (.done (.ok metadata)))
    : Current (DiscoveredFor calls)
        ((DiscoverySystem.start calls world).run Change.effect before).state.now call.issuer
        (fun _ => some metadataTtl) metadata
        ((DiscoverySystem.start calls world).run Change.effect (before ++ after)).state := by
  rw [DiscoverySystem.start_eq] at begins answered ⊢
  rw [metadata_eq] at begins
  have made' : (calls.map DiscoveryCall.caller)[index]? = some call.caller := by
    rw [List.getElem?_map, made]
    rfl
  refine (callers_current cold made' begins answered).vouched ?_
  rintro served ⟨_, member, issuer, source, accepted⟩
  obtain ⟨call', there, rfl⟩ := List.mem_map.mp member
  have sameIssuer : call'.issuer = call.issuer := issuer
  change acceptDiscovery call'.issuer call'.internalUrl served.document = _ at accepted
  change discoveryUrl call'.issuer call'.internalUrl = _ at source
  rw [sameIssuer] at accepted source
  rw [acceptDiscovery] at accepted
  split at accepted
  · cases accepted
  · next named =>
      cases accepted
      exact ⟨not_not.mp named, call', there, sameIssuer, source, rfl⟩

def exampleDiscovery (issuer : String) : DiscoveryDocument where
  issuer
  authorizationEndpoint := "https://idp/auth"
  tokenEndpoint := "https://idp/token"
  jwksUri := "https://keys/idp"
  endSessionEndpoint := none

theorem fetched_alone {issuer : String} {internalUrl : Option String}
    {document metadata : DiscoveryDocument}
    (accepted : acceptDiscovery issuer internalUrl document = .ok metadata)
    : ((DiscoverySystem.start [⟨issuer, internalUrl⟩] (exampleWorld document)).run Change.effect
        [.run 0, .run 0, .run 0]).calls[0]? = some (.done (.ok metadata)) := by
  have got : ((DiscoverySystem.start [⟨issuer, internalUrl⟩] (exampleWorld document)).run Change.effect
      [.run 0, .run 0]).calls
      = [ProviderKeys.storeMetadata issuer (acceptDiscovery issuer internalUrl document)] := rfl
  have last := @System.run_append _ _ _ _ _ _ Change.effect
    (DiscoverySystem.start [⟨issuer, internalUrl⟩] (exampleWorld document)) [.run 0, .run 0] [.run 0]
  rw [accepted] at got
  generalize (DiscoverySystem.start [⟨issuer, internalUrl⟩] (exampleWorld document)).run Change.effect
    [.run 0, .run 0] = system at got last
  obtain ⟨world, calls⟩ := system
  cases got
  exact (congrArg (·.calls[0]?) last).trans rfl

/-- A provider that is reached at another address than the one it names. -/
theorem metadata_current_internal
    : Current (DiscoveredFor [⟨"https://idp/", some "http://dex:5556"⟩]) 0 "https://idp/"
        (fun _ => some metadataTtl)
        { exampleDiscovery "https://idp" with tokenEndpoint := "http://dex:5556/token" }
        ((DiscoverySystem.start [⟨"https://idp/", some "http://dex:5556"⟩]
          (exampleWorld (exampleDiscovery "https://idp"))).run Change.effect
          [.run 0, .run 0, .run 0]).state := by
  have accepted : acceptDiscovery "https://idp/" (some "http://dex:5556") (exampleDiscovery "https://idp")
      = .ok { exampleDiscovery "https://idp" with tokenEndpoint := "http://dex:5556/token" } := by
    have named : trimEndSlashes (exampleDiscovery "https://idp").issuer = trimEndSlashes "https://idp/" := by
      decide +kernel
    have token : rebase "https://idp/token" "https://idp/" "http://dex:5556" = "http://dex:5556/token" := by
      decide +kernel
    have keys : rebase "https://keys/idp" "https://idp/" "http://dex:5556" = "https://keys/idp" := by
      decide +kernel
    rw [acceptDiscovery, if_neg (not_not.mpr named)]
    simp only [moved, exampleDiscovery, token, keys]
  exact @metadata_current _ _ (exampleWorld_cold _) 0 ⟨"https://idp/", some "http://dex:5556"⟩ rfl [] _ _
    rfl (fetched_alone accepted)

end WslVpn.Auth
