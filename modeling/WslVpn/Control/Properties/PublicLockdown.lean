import WslVpn.Agent.ControlClient
import WslVpn.Auth.Administrators
import WslVpn.Control.Config

/-! What an accepted configuration holds when the control plane is addressed under a public host. The
checks for that are skipped wherever the text of the URL mentions a local host.
-/

namespace WslVpn.Control

open Auth (UrlLibrary asciiLower asciiLower_asciiLower devLogin listedAdmins trimmed)
open Agent (isLoopback)

/-- The host, as the URL library writes it, is `localhost` or a loopback address. -/
def LocalHost (host : String) : Prop :=
  host = "localhost"
  ∨ (AddressSpace.IpAddr.parse ((host.toList.dropWhile (· == '[')).rdropWhile (· == ']'))).any isLoopback

namespace Config

/-- The public URL has a host, which is not a local one. -/
def Exposed (urls : UrlLibrary) (config : Config) : Prop :=
  ∃ url host, urls.parse config.server.publicUrl = .ok url ∧ urls.hostStr url = some host
    ∧ ¬ LocalHost host

def secrets (config : Config) : List String :=
  [config.bootstrap.opsServiceToken, config.bootstrap.gatewayRegistrationToken]
    ++ config.bootstrap.scimServiceToken.toList

structure LockedDown (texts : TextLibrary) (config : Config) : Prop where
  startup : config.identity.devLoginEnabled = false
  devLogin
    : ∀ freshId secret email, devLogin (config.auth texts) freshId secret email = throw .forbidden
  ownSecrets : ∀ secret ∈ config.secrets, secret ∉ placeholderSecrets
  longSecrets : ∀ secret ∈ config.secrets, 16 ≤ secret.length
  administrators : listedAdmins (config.auth texts) ≠ []

end Config

-----------------------------------------------------------------------------------------
-- Helpers
-----------------------------------------------------------------------------------------

/-- A character takes a byte at least, by induction on the text. -/
theorem length_le_bytes (text : String) : text.length ≤ text.utf8ByteSize := by
  obtain ⟨chars, rfl⟩ : ∃ chars, text = String.ofList chars := ⟨text.toList, by simp⟩
  induction chars with
  | nil => simp
  | cons char rest ih =>
      have split : String.ofList (char :: rest) = String.singleton char ++ String.ofList rest := by
        rw [← List.singleton_append, String.ofList_append, String.singleton_eq_ofList]
      have wide := Char.utf8Size_pos char
      rw [split, String.length_append, String.utf8ByteSize_append, String.utf8ByteSize_singleton]
      simp only [String.length_singleton]
      omega

theorem forM_ok {Item : Type} (check : Item → Except String Unit) (items : List Item)
    : items.forM check = .ok () ↔ ∀ item ∈ items, check item = .ok () := by
  induction items with
  | nil => simp [pure, Except.pure]
  | cons item rest ih =>
      rw [List.forall_mem_cons, ← ih]
      exact checks_ok _ _

section Lockdown

variable {config : Config} (texts : TextLibrary) {urls : UrlLibrary}

/-- An address that is not blank is acted on. -/
theorem listedAdmins_ne_nil
    : listedAdmins (config.auth texts) ≠ []
      ↔ ∃ email ∈ config.bootstrap.adminEmails, trimmed email ≠ "" := by
  have kept : ∀ email, texts.toLowercase (trimmed email) ≠ "" ↔ trimmed email ≠ "" :=
    fun email => not_congr (texts.toLowercase_empty (trimmed email))
  simp [listedAdmins, Config.auth, List.filter_eq_nil_iff, kept]

/-- What the checks for exposed deployments ask for. -/
theorem validateExposed_ok
    : config.validateExposed = .ok ()
      ↔ (∀ secret ∈ config.secrets, secret ∉ placeholderSecrets ∧ 16 ≤ secret.utf8ByteSize)
        ∧ config.identity.devLoginEnabled = false ∧ config.bootstrap.adminEmails ≠ [] := by
  have one : ∀ field, checkSecret field = .ok ()
      ↔ field.2 ∉ placeholderSecrets ∧ 16 ≤ field.2.utf8ByteSize := by
    intro field
    simp [checkSecret]
  simp only [Config.validateExposed, checks_ok, forM_ok, one, bailIf_ok, Config.secrets]
  cases config.bootstrap.scimServiceToken <;> simp [and_assoc]

theorem exposed_or_local (accepted : config.validate urls = .ok ())
    : config.isLocal = true ∨ config.validateExposed = .ok () := by
  simp only [Config.validate, checks_ok] at accepted
  obtain ⟨_, _, _, _, _, _, _, accepted⟩ := accepted
  cases here : config.isLocal with
  | true => exact .inl rfl
  | false => exact .inr (by simpa [here] using accepted)

theorem devLogin_forbidden (disabled : config.identity.devLoginEnabled = false)
    (freshId : Uuid) (secret email : String)
    : devLogin (config.auth texts) freshId secret email = throw .forbidden := by
  rw [devLogin]
  exact if_pos (by simp [Config.auth, disabled])

/-- An accepted configuration of an exposed deployment is locked down exactly where what the checks skip
for a local one is in order, an address is not blank and no secret is short in spite of its bytes.
-/
theorem lockedDown_iff (accepted : config.validate urls = .ok ())
    : (config.Exposed urls → config.LockedDown texts)
      ↔ (config.Exposed urls →
          (config.isLocal = true → config.identity.devLoginEnabled = false
            ∧ ∀ secret ∈ config.secrets, secret ∉ placeholderSecrets ∧ 16 ≤ secret.utf8ByteSize)
          ∧ (∃ email ∈ config.bootstrap.adminEmails, trimmed email ≠ "")
          ∧ ∀ secret ∈ config.secrets, 16 ≤ secret.utf8ByteSize → 16 ≤ secret.length) := by
  refine imp_congr_right (fun _ => ?_)
  constructor
  · intro locked
    refine ⟨fun _ => ⟨locked.startup, fun secret member => ⟨locked.ownSecrets secret member, ?_⟩⟩,
      (listedAdmins_ne_nil texts).mp locked.administrators,
      fun secret member _ => locked.longSecrets secret member⟩
    exact (locked.longSecrets secret member).trans (length_le_bytes secret)
  · intro condition
    obtain ⟨skipped, named, long⟩ := condition
    have checked : config.identity.devLoginEnabled = false
        ∧ ∀ secret ∈ config.secrets, secret ∉ placeholderSecrets ∧ 16 ≤ secret.utf8ByteSize := by
      rcases exposed_or_local accepted with here | passed
      · exact skipped here
      · obtain ⟨secrets, disabled, _⟩ := validateExposed_ok.mp passed
        exact ⟨disabled, secrets⟩
    obtain ⟨disabled, secrets⟩ := checked
    exact {
      startup := disabled
      devLogin := devLogin_forbidden texts disabled
      ownSecrets := fun secret member => (secrets secret member).1
      longSecrets := fun secret member => long secret member (secrets secret member).2
      administrators := (listedAdmins_ne_nil texts).mpr named
    }

end Lockdown

-----------------------------------------------------------------------------------------
-- Two deployments
-----------------------------------------------------------------------------------------

/-- URLs of a scheme, a host and a path. -/
def webUrls : UrlLibrary where
  Url := String × String
  parse text :=
    let scheme := text.toList.takeWhile (· ≠ ':')
    let rest := text.toList.drop scheme.length
    if "://".toList.isPrefixOf rest then
      .ok (String.ofList scheme, String.ofList ((rest.drop 3).takeWhile (· ≠ '/')))
    else .error "relative URL without a base"
  scheme url := url.1
  hostStr url := some url.2
  port _ := none
  appendPairs url _ := url
  asStr url := url.1 ++ "://" ++ url.2

def asciiTexts : TextLibrary where
  hashToken := id
  challengeOf := id
  toLowercase := asciiLower
  toLowercase_ascii := asciiLower_asciiLower
  toLowercase_empty text := by simp [asciiLower, Dns.toAsciiLowercase]

/-- A deployment under the URL, with its secrets and the addresses of its administrators. -/
def deployment (publicUrl : String) (devLoginEnabled : Bool) (secret : String)
    (adminEmails : List String) : Config where
  server := ⟨"0.0.0.0:8080", publicUrl⟩
  database := ⟨"postgres://db.example.com/wsl", 20⟩
  identity := {
    oidc := ⟨"https://idp.example.com", "wsl", publicUrl ++ "/auth/oidc/callback", [], 60⟩
    devLoginEnabled
    admission := ⟨.jit, []⟩
    opsapi := none
  }
  bootstrap := ⟨secret, secret, none, adminEmails⟩

def production : Config :=
  deployment "https://vpn.example.com" false "0123456789abcdef" ["root@example.com"]

theorem lockedDown_production : production.LockedDown asciiTexts := by
  have accepted : production.validate webUrls = .ok () := rfl
  refine (lockedDown_iff asciiTexts accepted).mpr (fun _ => ⟨?_, ?_, ?_⟩) ?_
  · intro here
    cases here
  · exact ⟨"root@example.com", List.mem_cons_self, by decide⟩
  · intro secret member _
    have same : secret = "0123456789abcdef" := by
      simpa [production, deployment, Config.secrets] using member
    subst same
    decide
  · refine ⟨("https", "vpn.example.com"), "vpn.example.com", rfl, rfl, ?_⟩
    unfold LocalHost
    decide

/-- A public host whose name begins with `localhost`. -/
def mistaken : Config := deployment "https://localhost.example.com" true "change-me" []

theorem localhost_in_name
    : mistaken.validate webUrls = .ok () ∧ mistaken.Exposed webUrls
      ∧ ¬ mistaken.LockedDown asciiTexts := by
  refine ⟨rfl, ⟨("https", "localhost.example.com"), "localhost.example.com", rfl, rfl, ?_⟩, ?_⟩
  · unfold LocalHost
    decide
  · intro locked
    cases locked.startup

end WslVpn.Control
