import WslVpn.Auth.Calls

/-! The sign-in of browsers and native clients through the identity provider, in its three steps:
authorize, callback and exchange. What the provider answers comes from outside.
-/

namespace WslVpn.Auth

open Interleaving

/-- The library that reads and writes URLs. -/
structure UrlLibrary where
  Url : Type
  parse : String → Except String Url
  scheme : Url → String
  hostStr : Url → Option String
  port : Url → Option Nat
  appendPairs : Url → List (String × String) → Url
  asStr : Url → String

structure OidcConfig extends AuthConfig where
  scopes : List String
  clientSecret : Option String
  urls : UrlLibrary

structure ProviderMetadata where
  authorizationEndpoint : String
  tokenEndpoint : String
  jwksUri : String

/-- What comes of posting the code to the token endpoint. -/
inductive TokenAnswer where
  | unreachable
  | refused (message : String)
  | unreadable
  | answered (idToken : Option String)

/-- The provider as one call finds it. -/
structure Provider where
  metadata : Except OidcError ProviderMetadata
  token : (tokenUrl : String) → (form : List (String × String)) → TokenAnswer
  keysFor : (jwksUri idToken : String) → Except OidcError (List Jwk)

structure AuthorizeQuery where
  redirectUri : Option String
  clientChallenge : Option String

structure CallbackQuery where
  code : String
  state : String

structure ExchangeRequest where
  code : String
  verifier : String

/-- The random values of an authorize call. -/
structure HandshakeSecrets where
  codeVerifier : String
  oauthState : String
  nonce : String

/-- What a browser or a client is answered. -/
inductive LoginResponse where
  | redirect (target : String)
  | token (response : TokenResponse)

namespace Oidc

section Steps

variable (config : OidcConfig)

/-- Where a browser may be sent: the configured redirect, a listed scheme, or a loopback address. -/
def validateClientRedirect (uri : String) : Except AppError Unit :=
  if uri = config.redirectUri then .ok ()
  else
    match config.urls.parse uri with
    | .error error => .error (.badRequest ("redirect_uri: " ++ error))
    | .ok parsed =>
        let scheme := config.urls.scheme parsed
        if scheme ≠ "http" ∧ scheme ≠ "https" then
          if config.nativeSchemes.any (· == scheme) then .ok ()
          else .error (.badRequest "redirect_uri scheme is not in identity.oidc.native_schemes")
        else if scheme ≠ "http" then
          .error (.badRequest "redirect_uri must be http on a loopback address")
        else
          match config.urls.hostStr parsed with
          | none => .error (.badRequest "redirect_uri has no host")
          | some host =>
              if host ∉ ["127.0.0.1", "[::1]", "::1"] then
                .error (.badRequest "redirect_uri must be 127.0.0.1 or [::1]; names are not accepted")
              else if (config.urls.port parsed).isNone then
                .error (.badRequest "redirect_uri must name a port")
              else .ok ()

/-- The redirect of a native client, which is not the configured one. -/
def clientRedirect (query : AuthorizeQuery) : Option String :=
  query.redirectUri.filter (· ≠ config.redirectUri)

def discover (provider : Provider) : Except AppError ProviderMetadata :=
  provider.metadata.mapError reject

/-- The row that begins a handshake. -/
def authState (query : AuthorizeQuery) (secrets : HandshakeSecrets) (now : Timestamp)
    : AuthStateRow where
  state := secrets.oauthState
  codeVerifier := secrets.codeVerifier
  redirectUri := query.redirectUri.getD config.redirectUri
  clientRedirectUri := clientRedirect config query
  clientChallenge := query.clientChallenge
  nonce := some secrets.nonce
  expiresAt := now + minutes 10

def authorize (query : AuthorizeQuery) (secrets : HandshakeSecrets) (provider : Provider)
    : Login LoginResponse := do
  let () ← liftExcept (validateClientRedirect config (query.redirectUri.getD config.redirectUri))
  if (clientRedirect config query).isSome && query.clientChallenge.isNone then
    throw (.badRequest "a loopback redirect_uri requires client_challenge")
  else
    let metadata ← liftExcept (discover provider)
    let now : Timestamp ← send .utcNow
    let () ← send (.ticket (.insertAuthState (authState config query secrets now)))
    let url ← liftExcept
      ((config.urls.parse metadata.authorizationEndpoint).mapError (fun _ => AppError.internal))
    return .redirect (config.urls.asStr (config.urls.appendPairs url [
      ("client_id", config.clientId),
      ("response_type", "code"),
      ("scope", String.intercalate " " config.scopes),
      ("redirect_uri", config.redirectUri),
      ("state", secrets.oauthState),
      ("nonce", secrets.nonce),
      ("code_challenge", config.challengeOf secrets.codeVerifier),
      ("code_challenge_method", "S256")
    ]))

/-- The form that trades the provider's code for tokens. -/
def tokenForm (query : CallbackQuery) (codeVerifier : String) : List (String × String) :=
  [("grant_type", "authorization_code"),
    ("code", query.code),
    ("redirect_uri", config.redirectUri),
    ("client_id", config.clientId),
    ("code_verifier", codeVerifier)]
    ++ (config.clientSecret.map (fun secret => ("client_secret", secret))).toList

def idTokenOf : TokenAnswer → Except AppError String
  | .unreachable | .unreadable => .error .internal
  | .refused message => .error (.badRequest ("oidc token exchange failed: " ++ message))
  | .answered none => .error (.badRequest "missing id_token")
  | .answered (some idToken) => .ok idToken

/-- What a handshake's row and the provider say about who signs in. -/
def identify (jwt : Jwt) (query : CallbackQuery) (provider : Provider) (row : AuthStateRow)
    : Except AppError VerifiedIdentity := do
  let metadata ← discover provider
  let token ← idTokenOf (provider.token metadata.tokenEndpoint (tokenForm config query row.codeVerifier))
  let some nonce := row.nonce | throw (.badRequest "stale login attempt; start again")
  let jwks ← (provider.keysFor metadata.jwksUri token).mapError reject
  verify jwt config.toAuthConfig { token, jwks, nonce := some nonce }

def accessDenied : String :=
  "This account is not allowed to sign in to this VPN. Ask your administrator for access."

/-- A redirect that the handshake has stored, with something for the client. -/
def redirectTo (redirect : String) (pairs : List (String × String))
    : Except AppError LoginResponse :=
  match config.urls.parse redirect with
  | .error error => .error (.badRequest ("stored redirect_uri: " ++ error))
  | .ok url => .ok (.redirect (config.urls.asStr (config.urls.appendPairs url pairs)))

/-- A native client gets a code, and a browser its token. -/
def answerSignIn (row : AuthStateRow) (secret email : String) (userId : Uuid)
    : Login LoginResponse :=
  match row.clientRedirectUri, row.clientChallenge with
  | some redirect, some challenge => do
      let now : Timestamp ← send .utcNow
      let () ← send (.ticket (.insertExchange {
        codeHash := config.hashToken secret
        challenge
        userId
        email
        expiresAt := now + seconds 120
      }))
      liftExcept (redirectTo config redirect [("code", secret)])
  | _, _ => do
      let (accessToken, expiresIn) ← mintAccessToken config.toAuthConfig secret userId
      return .token { accessToken, tokenType := "Bearer", expiresIn, userId, email }

/-- The provider sends the browser back. The one secret that is drawn is a code or a token. -/
def callback (jwt : Jwt) (connection : Nat) (freshId : Uuid) (query : CallbackQuery)
    (secret : String)
    (provider : Provider) : Login LoginResponse := do
  let row : Option AuthStateRow ← send (.ticket (.takeAuthState query.state))
  match row with
  | none => throw (.badRequest "invalid or expired oauth state")
  | some row => do
      let identity ← liftExcept (identify config jwt query provider row)
      let resolved ← (resolveUser config.toAuthConfig connection freshId identity).attempt
      match resolved, row.clientRedirectUri with
      | .ok userId, _ => answerSignIn config row secret identity.email userId
      | .error .unauthorized, some redirect =>
          liftExcept (redirectTo config redirect
            [("error", "access_denied"), ("error_description", accessDenied)])
      | .error error, _ => throw error

/-- Redeem a code for a token. A code is used up whether or not the verifier matches. -/
def exchange (request : ExchangeRequest) (secret : String) : Login LoginResponse := do
  let row : Option ExchangeRow ← send (.ticket (.takeExchange (config.hashToken request.code)))
  match row with
  | none => throw .forbidden
  | some row =>
      if config.challengeOf request.verifier ≠ row.challenge then throw .forbidden
      else
        let (accessToken, expiresIn) ← mintAccessToken config.toAuthConfig secret row.userId
        return .token { accessToken, tokenType := "Bearer", expiresIn, userId := row.userId,
                        email := row.email }

end Steps

end Oidc

/-- A call of one of the three steps, by whomever, with what it will draw. -/
inductive HandshakeCall where
  | authorize (query : AuthorizeQuery) (secrets : HandshakeSecrets) (provider : Provider)
  | callback (freshId : Uuid) (query : CallbackQuery) (secret : String) (provider : Provider)
  | exchange (request : ExchangeRequest) (secret : String)

def HandshakeCall.program (jwt : Jwt) (config : OidcConfig) (connection : Nat)
    : HandshakeCall → Login LoginResponse
  | .authorize query secrets provider => Oidc.authorize config query secrets provider
  | .callback freshId query secret provider =>
      Oidc.callback config jwt connection freshId query secret provider
  | .exchange request secret => Oidc.exchange config request secret

/-- What happens besides the calls: time passes, and other services change the accounts, where users
may be deleted with what refers to them.
-/
inductive Surroundings where
  | elapses (passed : Nat)
  | accounts (changed : Transactions.Locking.Shared Accounts Write)
  | deletesUser (id : Uuid)

def Surroundings.effect : Surroundings → AuthDb → AuthDb
  | .elapses passed, db => Auth.elapses passed db
  | .accounts changed, db => { db with accounts := changed }
  | .deletesUser id, db => db.cascade (.deleteUser id)

abbrev HandshakeSystem := System authSql AppError LoginResponse

/-- The state that a call draws. -/
def HandshakeCall.drawnState : HandshakeCall → Option String
  | .authorize _ secrets _ => some secrets.oauthState
  | .callback .. | .exchange .. => none

/-- The code that a call draws. -/
def HandshakeCall.drawnCode : HandshakeCall → Option String
  | .callback _ _ secret _ => some secret
  | .authorize .. | .exchange .. => none

def HandshakeSystem.start (jwt : Jwt) (config : OidcConfig) (calls : List HandshakeCall)
    (db : AuthDb)
    : HandshakeSystem :=
  ⟨db, calls.mapIdx (fun connection call => call.program jwt config connection)⟩

theorem HandshakeSystem.start_calls {jwt : Jwt} {config : OidcConfig} {calls : List HandshakeCall}
    {db : AuthDb} {call : Nat} {program : Login LoginResponse}
    (found : (HandshakeSystem.start jwt config calls db).calls[call]? = some program)
    : ∃ made, calls[call]? = some made ∧ program = made.program jwt config call :=
  System.getElem?_made found

end WslVpn.Auth
