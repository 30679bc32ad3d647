import WslVpn.Auth.Handshake

/-! The configuration of the control plane, and the checks that it has to pass before the process starts.
Of its sections the fields stand here that the checks and the sign-in read.
-/

namespace WslVpn.Control

open Auth (AuthConfig Provisioning UrlLibrary asciiLower trimmed)

structure ServerConfig where
  listen : String
  publicUrl : String

structure DatabaseConfig where
  url : String
  maxConnections : Nat

/-- `namespace` is the workspace that a person has to be a member of. -/
structure OpsApiSection where
  url : String
  workspace : String
  apiKey : String

structure AdmissionConfig where
  provisioning : Provisioning
  hostedDomains : List String

structure OidcSection where
  issuer : String
  clientId : String
  redirectUri : String
  nativeSchemes : List String
  clockSkewSecs : Nat

structure IdentityConfig where
  oidc : OidcSection
  devLoginEnabled : Bool
  admission : AdmissionConfig
  opsapi : Option OpsApiSection

structure BootstrapConfig where
  opsServiceToken : String
  gatewayRegistrationToken : String
  scimServiceToken : Option String
  adminEmails : List String

structure Config where
  server : ServerConfig
  database : DatabaseConfig
  identity : IdentityConfig
  bootstrap : BootstrapConfig

def googleIssuer : String := "https://accounts.google.com"

/-- Secrets that must never be left at their shipped example values. -/
def placeholderSecrets : List String :=
  ["dev-ops-token-change-me", "dev-gateway-token-change-me", "dev-scim-token-change-me", "change-me"]

/-- `text.contains(part)`. -/
def holds (text part : String) : Bool := part.toList <:+: text.toList

/-- `if wrong { anyhow::bail!(message) }`. -/
def bailIf (wrong : Bool) (message : String) : Except String Unit :=
  if wrong then .error message else .ok ()

@[simp] theorem bailIf_ok (wrong : Bool) (message : String)
    : bailIf wrong message = .ok () ↔ wrong = false := by
  cases wrong <;> simp [bailIf]

/-- A check behind another one. -/
@[simp] theorem checks_ok (check next : Except String Unit)
    : (check >>= fun _ => next) = .ok () ↔ check = .ok () ∧ next = .ok () := by
  cases check <;> simp [bind, Except.bind]

/-- Check that a configured native redirect scheme is one it is safe to accept. -/
def validateNativeScheme (scheme : String) : Except String Unit := do
  let lower := asciiLower scheme
  let named := "identity.oidc.native_schemes: '" ++ scheme ++ "'"
  bailIf (lower != scheme) (named ++ " must be lowercase")
  bailIf (["http", "https", "file", "data", "javascript"].contains lower)
    (named ++ " is not a private-use scheme")
  bailIf (!lower.toList.contains '.')
    (named ++ " must be derived from a domain name you control, such as 'io.example.vpn' "
      ++ "(RFC 8252 section 7.1)")
  bailIf (!lower.toList.head?.any Char.isAlpha
      || !(lower.toList.drop 1).all (fun char => char.isAlphanum || ['+', '-', '.'].contains char))
    (named ++ " is not a valid URI scheme")

/-- The labels between the dots consist of letters, digits and hyphens. -/
def isDomainName (domain : String) : Bool :=
  domain.toList.contains '.'
    && (domain.toList.splitOn '.').all
      (fun label => !label.isEmpty && label.all (fun char => char.isAlphanum || char == '-'))

def OpsApiSection.validate (urls : UrlLibrary) (opsapi : OpsApiSection) : Except String Unit :=
  match urls.parse opsapi.url with
  | .error _ => .error ("identity.opsapi.url: '" ++ opsapi.url ++ "' is not a URL")
  | .ok url => do
      let loopback := (urls.hostStr url).any (["localhost", "127.0.0.1", "[::1]"].contains ·)
      bailIf (urls.scheme url != "https" && !(urls.scheme url == "http" && loopback))
        "identity.opsapi.url must be https (http only to this machine)"
      bailIf (trimmed opsapi.workspace == "")
        ("identity.opsapi.namespace is required: anyone can create an OpsAPI account, "
          ++ "so membership of your workspace is what admits them")
      bailIf (!"opsk_".toList.isPrefixOf opsapi.apiKey.toList || opsapi.apiKey.utf8ByteSize < 20)
        "identity.opsapi.api_key must be an OpsAPI API key (opsk_...)"

/-- A secret of the bootstrap section, under the name of its field. -/
def checkSecret (field : String × String) : Except String Unit := do
  bailIf (placeholderSecrets.contains field.2)
    (field.1 ++ " still holds its example value; set a real secret")
  bailIf (field.2.utf8ByteSize < 16) (field.1 ++ " must be at least 16 characters")

namespace Config

section Checks

variable (urls : UrlLibrary) (config : Config)

def validateAdmission : Except String Unit := do
  let admission := config.identity.admission
  admission.hostedDomains.forM (fun domain =>
    bailIf (!isDomainName domain)
      ("identity.admission.hosted_domains: '" ++ domain ++ "' is not a domain name"))
  let anyone := decide (admission.provisioning = .jit) && admission.hostedDomains.isEmpty
  bailIf (config.identity.oidc.issuer.toList.rdropWhile (· == '/') == googleIssuer.toList && anyone)
    ("identity.oidc.issuer is Google, which signs in anyone with a Google account, and nothing "
      ++ "narrows that. Set identity.admission.hosted_domains to your Google Workspace domain, or "
      ++ "identity.admission.provisioning to `directory` so only people OpsAPI has provisioned can "
      ++ "sign in (or both).")

/-- True when the control plane is addressed as a loopback host. -/
def isLocal : Bool := holds config.server.publicUrl "localhost" || holds config.server.publicUrl "127.0.0.1"

/-- What a deployment that is not local is refused for: example secrets or a development back door. -/
def validateExposed : Except String Unit := do
  [("bootstrap.ops_service_token", config.bootstrap.opsServiceToken),
    ("bootstrap.gateway_registration_token", config.bootstrap.gatewayRegistrationToken)].forM checkSecret
  bailIf (config.bootstrap.scimServiceToken.any
      (fun scim => placeholderSecrets.contains scim || decide (scim.utf8ByteSize < 16)))
    "bootstrap.scim_service_token still holds its example value or is too short"
  bailIf config.identity.devLoginEnabled
    "identity.dev_login_enabled must be false unless server.public_url is loopback"
  bailIf config.bootstrap.adminEmails.isEmpty
    ("bootstrap.admin_emails must name at least one administrator; "
      ++ "without it no one can administer this deployment")

def validate : Except String Unit := do
  bailIf (config.server.listen == "") "server.listen required"
  bailIf (!"postgres".toList.isPrefixOf config.database.url.toList) "database.url must be a postgres URL"
  bailIf (config.identity.oidc.issuer == "" || config.identity.oidc.clientId == "")
    "identity.oidc.issuer and client_id required"
  config.identity.oidc.nativeSchemes.forM validateNativeScheme
  config.validateAdmission
  config.identity.opsapi.toList.forM (OpsApiSection.validate urls)
  bailIf (config.database.maxConnections == 0) "database.max_connections must be at least 1"
  if config.isLocal then .ok () else config.validateExposed

end Checks

end Config

/-- Hashing and lower-casing beyond ASCII, from libraries. -/
structure TextLibrary where
  hashToken : String → String
  challengeOf : String → String
  toLowercase : String → String
  toLowercase_ascii : ∀ text, asciiLower (toLowercase text) = toLowercase text
  toLowercase_empty : ∀ text, toLowercase text = "" ↔ text = ""

/-- The configuration as the sign-in and the start of the process read it. -/
def Config.auth (texts : TextLibrary) (config : Config) : AuthConfig where
  issuer := config.identity.oidc.issuer
  clientId := config.identity.oidc.clientId
  redirectUri := config.identity.oidc.redirectUri
  nativeSchemes := config.identity.oidc.nativeSchemes
  clockSkewSecs := config.identity.oidc.clockSkewSecs
  hostedDomains := config.identity.admission.hostedDomains
  provisioning := config.identity.admission.provisioning
  opsapi := config.identity.opsapi.map (fun ops => ⟨ops.url, ops.workspace⟩)
  adminEmails := config.bootstrap.adminEmails
  devLoginEnabled := config.identity.devLoginEnabled
  isLocal := config.isLocal
  hashToken := texts.hashToken
  challengeOf := texts.challengeOf
  toLowercase := texts.toLowercase
  toLowercase_ascii := texts.toLowercase_ascii

end WslVpn.Control
