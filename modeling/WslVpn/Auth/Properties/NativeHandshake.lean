import WslVpn.Auth.Properties.EmailLinking
import WslVpn.Auth.Tickets

/-! What a native client's login rests on, whoever calls the three steps and in whatever order. -/

namespace WslVpn.Auth

open Interleaving
open Interleaving.System (Given)

/-- What a call was answered in the log, about a statement on the rows of a handshake. -/
abbrev Answered (log : List (Entry authSql)) (call : Nat) (statement : TicketStatement)
    (reply : statement.Reply) : Prop :=
  Given log call (.ticket statement) (.ok reply)

section Steps

variable (jwt : Jwt) (config : OidcConfig) (log : List (Entry authSql)) (call : Nat)

/-- The callback has resolved the user for the handshake's row, by what the call was answered. -/
structure Resolves (freshId : Uuid) (query : CallbackQuery) (provider : Provider)
    (row : AuthStateRow)
    (userId : Uuid) : Prop where
  taken : Answered log call (.takeAuthState query.state) (some row)
  resolved
    : ∃ identity, Oidc.identify config jwt query provider row = .ok identity
        ∧ (Oidc.resolveUser config.toAuthConfig call freshId identity).Yields (Given log call)
            (.ok userId)

/-- What an authorize call sends: a row that requires a challenge from a native client. -/
inductive AuthorizeSends (query : AuthorizeQuery) (secrets : HandshakeSecrets)
    : Request → Prop where
  | utcNow : AuthorizeSends query secrets .utcNow
  | begins (now : Timestamp)
    (challenged
      : (Oidc.clientRedirect config query).isSome = true → query.clientChallenge.isSome = true)
    : AuthorizeSends query secrets
        (.ticket (.insertAuthState (Oidc.authState config query secrets now)))

/-- What a callback sends: a code for a native client, or a token for a browser. -/
inductive CallbackSends (freshId : Uuid) (query : CallbackQuery) (secret : String)
    (provider : Provider)
    : Request → Prop where
  | takes : CallbackSends freshId query secret provider (.ticket (.takeAuthState query.state))
  | elsewhere {request : Request} (other : ∀ statement, request ≠ .ticket statement)
    : CallbackSends freshId query secret provider request
  | code {row : AuthStateRow} {exchange : ExchangeRow}
    (resolves : Resolves jwt config log call freshId query provider row exchange.userId)
    (native : row.clientRedirectUri.isSome = true)
    (challenge : row.clientChallenge = some exchange.challenge)
    (hashed : exchange.codeHash = config.hashToken secret)
    : CallbackSends freshId query secret provider (.ticket (.insertExchange exchange))
  | token {row : AuthStateRow} {token : AccessTokenRow}
    (taken : Answered log call (.takeAuthState query.state) (some row))
    (browser : row.clientRedirectUri = none ∨ row.clientChallenge = none)
    : CallbackSends freshId query secret provider (.ticket (.insertAccessToken token))

/-- A callback answers with a token only if the handshake was a browser's. -/
def CallbackEnds (query : CallbackQuery) (result : Except AppError LoginResponse) : Prop :=
  ∀ response, result = .ok (.token response) → ∃ row,
    Answered log call (.takeAuthState query.state) (some row)
      ∧ (row.clientRedirectUri = none ∨ row.clientChallenge = none)

/-- What an exchange sends: a token for the user of the code, to whoever proves the challenge. -/
inductive ExchangeSends (request : ExchangeRequest) (secret : String) : Request → Prop where
  | takes : ExchangeSends request secret (.ticket (.takeExchange (config.hashToken request.code)))
  | utcNow : ExchangeSends request secret .utcNow
  | token {row : ExchangeRow} {token : AccessTokenRow}
    (taken : Answered log call (.takeExchange (config.hashToken request.code)) (some row))
    (proved : config.challengeOf request.verifier = row.challenge)
    (owner : token.userId = row.userId)
    : ExchangeSends request secret (.ticket (.insertAccessToken token))

/-- An exchange answers with the token that it has minted. -/
def ExchangeEnds (result : Except AppError LoginResponse) : Prop :=
  ∀ response, result = .ok (.token response) → ∃ token : AccessTokenRow,
    Answered log call (.insertAccessToken token) ()
      ∧ token.userId = response.userId ∧ token.tokenHash = config.hashToken response.accessToken

end Steps

section Programs

variable {jwt : Jwt} {config : OidcConfig} {log : List (Entry authSql)} {call : Nat}

theorem authorize_along {query : AuthorizeQuery} {secrets : HandshakeSecrets} {provider : Provider}
    : Sends (AuthorizeSends config query secrets) (Oidc.authorize config query secrets provider) := by
  refine (sends_lift _).bind (fun _ => ?_)
  change Sends _ (if _ then _ else _)
  split
  · exact sends_throw _
  · next unasked =>
      refine (sends_lift _).bind (fun metadata => ?_)
      refine sends_then .utcNow (fun now => ?_)
      refine sends_then (.begins now ?_) (fun _ => ?_)
      · intro native
        cases challenge : query.clientChallenge with
        | some _ => rfl
        | none =>
            rw [native, challenge] at unasked
            exact absurd rfl unasked
      · exact (sends_lift _).bind (fun _ => sends_return _)

/-- Resolving a user touches no row of a handshake. -/
theorem resolveUser_elsewhere {config : AuthConfig} {freshId : Uuid} {identity : VerifiedIdentity}
    : Sends (fun request => ∀ statement, request ≠ .ticket statement)
        (Oidc.resolveUser config call freshId identity) := by
  rw [Oidc.resolveUser]
  split
  · exact sends_throw _
  · refine sends_inTransaction (by simp) (by simp) (by simp) ?_
    have within : Within call (do
        let userId ← Oidc.findUser config call freshId identity
        checkActive call userId) :=
      Oidc.within_findUser.bind (fun userId => within_checkActive userId)
    refine within.mono ?_
    intro request inside statement same
    obtain ⟨_, rfl⟩ := inside
    cases same

/-- A token is minted for the user, from the secret. -/
theorem mintAccessToken_along {config : AuthConfig} {check : Request → Prop} {secret : String}
    {userId : Uuid} (clock : check .utcNow)
    (mints : ∀ token : AccessTokenRow, token.userId = userId
      → check (.ticket (.insertAccessToken token)))
    : (mintAccessToken config secret userId).Along (Given log call) check
        (fun result => ∀ minted, result = .ok minted → minted.1 = secret ∧ ∃ token : AccessTokenRow,
          Answered log call (.insertAccessToken token) ()
            ∧ token.userId = userId ∧ token.tokenHash = config.hashToken secret) := by
  refine Program.Along.request clock ?_ ?_
  · intro now _
    refine Program.Along.request (mints _ rfl) ?_ ?_
    · intro _ answered minted ended
      cases ended
      exact ⟨rfl, _, answered, rfl, rfl⟩
    · intro fault _ minted ended
      cases ended
  · intro fault _ minted ended
    cases ended

/-- An error is no token. -/
theorem callbackEnds_error {query : CallbackQuery} (error : AppError)
    : CallbackEnds log call query (.error error) := by
  intro response ended
  cases ended

/-- A redirect is no token either. -/
theorem redirectTo_along {query : CallbackQuery} {redirect : String}
    {pairs : List (String × String)}
    {check : Request → Prop}
    : (liftExcept (Oidc.redirectTo config redirect pairs)).Along (Given log call) check
        (CallbackEnds log call query) := by
  unfold Oidc.redirectTo
  split
  · exact callbackEnds_error _
  · intro response ended
    cases ended

theorem answerSignIn_along {freshId userId : Uuid} {query : CallbackQuery} {secret email : String}
    {provider : Provider} {row : AuthStateRow}
    (resolves : Resolves jwt config log call freshId query provider row userId)
    : (Oidc.answerSignIn config row secret email userId).Along (Given log call)
        (CallbackSends jwt config log call freshId query secret provider)
        (CallbackEnds log call query) := by
  unfold Oidc.answerSignIn
  split
  · next redirect challenge native challenged =>
      refine Program.Along.request (.elsewhere (by simp)) ?_ (fun _ _ => callbackEnds_error _)
      intro now _
      refine Program.Along.request (.code resolves ?_ challenged rfl) ?_
        (fun _ _ => callbackEnds_error _)
      · rw [native]
        rfl
      · intro _ _
        exact redirectTo_along
  · next browser =>
      have browser : row.clientRedirectUri = none ∨ row.clientChallenge = none := by
        cases native : row.clientRedirectUri with
        | none => exact Or.inl rfl
        | some redirect =>
            cases challenged : row.clientChallenge with
            | none => exact Or.inr rfl
            | some challenge => exact absurd challenged (browser redirect challenge native)
      have minted : (mintAccessToken config.toAuthConfig secret userId).Along (Given log call)
          (CallbackSends jwt config log call freshId query secret provider) _ :=
        mintAccessToken_along (.elsewhere (by simp)) (fun _ _ => .token resolves.taken browser)
      refine @Program.Along.bind _ _ _ _ _ _ _ _ (fun _ => True) _ _ _
        (minted.weaken (fun _ fine => fine) ?_) ?_
      · intro result _
        cases result with
        | ok pair => trivial
        | error error => exact callbackEnds_error error
      · intro pair _ response ended
        exact ⟨row, resolves.taken, browser⟩

theorem callback_along {freshId : Uuid} {query : CallbackQuery} {secret : String}
    {provider : Provider}
    : (Oidc.callback config jwt call freshId query secret provider).Along (Given log call)
        (CallbackSends jwt config log call freshId query secret provider)
        (CallbackEnds log call query) := by
  refine Program.Along.request .takes ?_ (fun _ _ => callbackEnds_error _)
  intro row taken
  match row, taken with
  | none, _ => exact callbackEnds_error _
  | some row, taken =>
      cases identified : Oidc.identify config jwt query provider row with
      | error error =>
          simp only [identified]
          exact callbackEnds_error _
      | ok identity =>
          have own := (@resolveUser_elsewhere call config.toAuthConfig freshId identity).narrow
            (fun op reply (_ : Given log call op reply) => trivial)
          have yields := own.both (Program.along_yields _)
          simp only [identified]
          change ((Oidc.resolveUser config.toAuthConfig call freshId identity).attempt >>= _).Along
            _ _ _
          refine @Program.Along.bind _ _ _ _ _ _ _ _
            (fun resolved => ∀ userId, resolved = .ok userId →
              Resolves jwt config log call freshId query provider row userId) _ _ _
            (yields.attempt.weaken (fun request fine => .elsewhere fine.1) ?_) ?_
          · intro ended made
            obtain ⟨result, rfl, _, yielded⟩ := made
            intro userId same
            rw [same] at yielded
            exact ⟨taken, identity, identified, yielded⟩
          · intro resolved resolves
            split
            · next userId => exact answerSignIn_along (resolves userId rfl)
            · exact redirectTo_along
            · exact callbackEnds_error _

theorem exchange_along {request : ExchangeRequest} {secret : String}
    : (Oidc.exchange config request secret).Along (Given log call)
        (ExchangeSends config log call request secret) (ExchangeEnds config log call) := by
  have failed : ∀ error, ExchangeEnds config log call (.error error) := by
    intro error response ended
    cases ended
  refine Program.Along.request .takes ?_ (fun _ _ => failed _)
  intro row taken
  match row, taken with
  | none, _ => exact failed _
  | some row, taken =>
      change Program.Along _ _ _ (if _ then _ else _)
      split
      · exact failed _
      · next proved =>
          have proved := not_not.mp proved
          have minted : (mintAccessToken config.toAuthConfig secret row.userId).Along
              (Given log call)
              (ExchangeSends config log call request secret) _ :=
            mintAccessToken_along .utcNow (fun token owner => .token taken proved owner)
          refine @Program.Along.bind _ _ _ _ _ _ _ _
            (fun minted => minted.1 = secret ∧ ∃ token : AccessTokenRow,
              Answered log call (.insertAccessToken token) ()
                ∧ token.userId = row.userId ∧ token.tokenHash = config.hashToken secret)
            _ _ _ (minted.weaken (fun _ fine => fine) ?_) ?_
          · intro result made
            cases result with
            | ok pair => exact made pair rfl
            | error error => exact failed error
          · intro minted made response ended
            obtain ⟨rfl, token, there, owner, hashed⟩ := made
            cases ended
            exact ⟨token, there, owner, hashed⟩

end Programs

-----------------------------------------------------------------------------------------
-- Runs
-----------------------------------------------------------------------------------------

section Calls

variable (jwt : Jwt) (config : OidcConfig) (log : List (Entry authSql)) (call : Nat)

def HandshakeCall.SendsIn : HandshakeCall → Request → Prop
  | .authorize query secrets _ => AuthorizeSends config query secrets
  | .callback freshId query secret provider =>
      CallbackSends jwt config log call freshId query secret provider
  | .exchange request secret => ExchangeSends config log call request secret

def HandshakeCall.EndsIn : HandshakeCall → Except AppError LoginResponse → Prop
  | .authorize .. => fun _ => True
  | .callback _ query _ _ => CallbackEnds log call query
  | .exchange .. => ExchangeEnds config log call

theorem HandshakeCall.along (made : HandshakeCall)
    : (made.program jwt config call).Along (Given log call) (made.SendsIn jwt config log call)
        (made.EndsIn config log call) := by
  cases made with
  | authorize query secrets provider => exact authorize_along.narrow (fun _ _ _ => trivial)
  | callback freshId query secret provider => exact callback_along
  | exchange request secret => exact exchange_along

theorem callbackSends_noState {freshId : Uuid} {query : CallbackQuery} {secret : String}
    {provider : Provider} {request : Request}
    (sends : CallbackSends jwt config log call freshId query secret provider request)
    : request.issuedState = none := by
  cases sends with
  | elsewhere other =>
      cases request with
      | ticket statement => exact absurd rfl (other statement)
      | _ => rfl
  | takes => rfl
  | code resolves native challenge hashed => rfl
  | token taken browser => rfl

theorem exchangeSends_nothing {exchange : ExchangeRequest} {secret : String} {request : Request}
    (sends : ExchangeSends config log call exchange secret request)
    : request.issuedState = none ∧ request.issuedCode = none := by
  cases sends <;> exact ⟨rfl, rfl⟩

theorem authorizeSends_noCode {query : AuthorizeQuery} {secrets : HandshakeSecrets}
    {request : Request}
    (sends : AuthorizeSends config query secrets request)
    : request.issuedCode = none := by
  cases sends <;> rfl

section Once

variable {Value Result : Type} {follows : (request : Request) → Except DbError request.Reply → Prop}
  {kind : Request → Prop}

theorem once_send {request : Request} {rest : request.Reply → Login Result} (other : ¬ kind request)
    (once : ∀ reply, (rest reply).Once follows kind)
    : (send request >>= rest).Once follows kind := by
  have never : Sends (¬ kind ·) (send request) := sends_send other
  exact Program.Once.after (never.narrow (fun _ _ _ => trivial)) once

theorem once_lift {result : Except AppError Value} {rest : Value → Login Result}
    (once : ∀ value, (rest value).Once follows kind)
    : (liftExcept result >>= rest).Once follows kind := by
  have never : Sends (¬ kind ·) (liftExcept result) := sends_lift result
  exact Program.Once.after (never.narrow (fun _ _ _ => trivial)) once

end Once

/-- A call begins one handshake at most. -/
theorem HandshakeCall.once_state (made : HandshakeCall)
    : (made.program jwt config call).Once (Given log call) (fun request => request.issuedState.isSome) := by
  cases made with
  | authorize query secrets provider =>
      refine once_lift (fun _ => ?_)
      change (if _ then _ else _ : Login LoginResponse).Once _ _
      split
      · trivial
      · refine once_lift (fun metadata => ?_)
        refine once_send (by simp [Request.issuedState]) (fun now => ?_)
        refine Program.Once.request ?_
        intro _
        exact ((sends_lift _).bind (fun _ => sends_return _)).narrow (fun _ _ _ => trivial)
  | callback freshId query secret provider =>
      refine (callback_along.weaken ?_ (fun _ fine => fine)).once
      intro request sends
      simp [callbackSends_noState jwt config log call sends]
  | exchange request secret =>
      refine (exchange_along.weaken ?_ (fun _ fine => fine)).once
      intro request sends
      simp [(exchangeSends_nothing config log call sends).1]

/-- After a code has been given out, nothing is sent any more. -/
theorem answerSignIn_once {row : AuthStateRow} {secret email : String} {userId : Uuid}
    : (Oidc.answerSignIn config row secret email userId).Once (Given log call)
        (fun request => request.issuedCode.isSome) := by
  unfold Oidc.answerSignIn
  split
  · refine once_send (by simp [Request.issuedCode]) (fun now => ?_)
    refine Program.Once.request ?_
    intro _
    exact (sends_lift _).narrow (fun _ _ _ => trivial)
  · have minted : Sends (fun request => ¬ request.issuedCode.isSome)
        (mintAccessToken config.toAuthConfig secret userId) := by
      refine sends_then (by simp [Request.issuedCode]) (fun _ => ?_)
      exact sends_then (by simp [Request.issuedCode]) (fun _ => sends_return _)
    exact ((minted.bind (fun _ => sends_return _)).narrow (fun _ _ _ => trivial)).once

/-- A call gives out one code at most. -/
theorem HandshakeCall.once_code (made : HandshakeCall)
    : (made.program jwt config call).Once (Given log call) (fun request => request.issuedCode.isSome) := by
  cases made with
  | authorize query secrets provider =>
      have sends := (@authorize_along config query secrets provider).narrow
        (fun op reply (_ : Given log call op reply) => trivial)
      refine (sends.weaken ?_ (fun _ fine => fine)).once
      intro request sends
      simp [authorizeSends_noCode config sends]
  | callback freshId query secret provider =>
      refine once_send (by simp [Request.issuedCode]) ?_
      intro row
      match row with
      | none => trivial
      | some row =>
          refine once_lift (fun identity => ?_)
          have elsewhere :=
            (@resolveUser_elsewhere call config.toAuthConfig freshId identity).narrow
            (fun op reply (_ : Given log call op reply) => trivial)
          refine Program.Once.after (elsewhere.attempt.weaken ?_ (fun _ fine => fine)) ?_
          · intro request other
            cases request with
            | ticket statement => exact absurd rfl (other statement)
            | _ => simp [Request.issuedCode]
          · intro resolved
            split
            · exact answerSignIn_once config log call
            · exact ((sends_lift _).narrow (fun _ _ _ => trivial)).once
            · trivial
  | exchange request secret =>
      refine (exchange_along.weaken ?_ (fun _ fine => fine)).once
      intro request sends
      simp [(exchangeSends_nothing config log call sends).2]

end Calls

/-- The random values are fresh, and hashing keeps codes apart. -/
structure FreshSecrets (config : OidcConfig) (calls : List HandshakeCall) : Prop where
  states
    : ∀ (first second : Nat) made other state, calls[first]? = some made
      → calls[second]? = some other
        → made.drawnState = some state → other.drawnState = some state → first = second
  codes
    : ∀ (first second : Nat) made other code, calls[first]? = some made
      → calls[second]? = some other
        → made.drawnCode = some code → other.drawnCode = some code → first = second
  hashes : ∀ first second, config.hashToken first = config.hashToken second → first = second

/-- A handshake whose callback has resolved the user and has given out the code, and which was begun
with the challenge that the verifier meets.
-/
inductive ProvedBy (jwt : Jwt) (config : OidcConfig) (calls : List HandshakeCall)
    (log : List (Entry authSql)) (request : ExchangeRequest) (userId : Uuid) : Prop where
  | intro {beginning ending : Nat} {query secrets provider freshId answer provider'}
    {now : Timestamp}
    (authorized : calls[beginning]? = some (.authorize query secrets provider))
    (begun
      : Answered log beginning (.insertAuthState (Oidc.authState config query secrets now)) ())
    (called : calls[ending]? = some (.callback freshId answer request.code provider'))
    (same : answer.state = secrets.oauthState)
    (resolves
      : Resolves jwt config log ending freshId answer provider'
          (Oidc.authState config query secrets now) userId)
    (proved : query.clientChallenge = some (config.challengeOf request.verifier))
    : ProvedBy jwt config calls log request userId

/-- What a native client's login rests on in a run with this log. -/
structure HandshakesHold (jwt : Jwt) (config : OidcConfig) (calls : List HandshakeCall)
    (log : List (Entry authSql)) (ended : HandshakeSystem) : Prop where
  /-- No state is consumed twice. -/
  statesOnce : ((log.filterMap authStates.redeems).map (·.state)).Nodup
  /-- No code is redeemed twice, whatever verifier came with it. -/
  codesOnce : ((log.filterMap cliExchanges.redeems).map (·.codeHash)).Nodup
  /-- Each token that an exchange mints is for the user of the handshake that its verifier proves.
  -/
  minted
    : ∀ (call : Nat) request secret token,
        calls[call]? = some (.exchange request secret)
          → Answered log call (.insertAccessToken token) ()
            → ProvedBy jwt config calls log request token.userId
  answered
    : ∀ (call : Nat) request secret response,
        calls[call]? = some (.exchange request secret)
          → ended.calls[call]? = some (.done (.ok (.token response)))
            → ProvedBy jwt config calls log request response.userId
  /-- The callback of a handshake with a client redirect neither mints a token nor answers with one.
  -/
  direct
    : ∀ (beginning ending : Nat) query secrets provider freshId answer secret provider' redirect,
        calls[beginning]? = some (.authorize query secrets provider)
          → Oidc.clientRedirect config query = some redirect
            → calls[ending]? = some (.callback freshId answer secret provider')
              → answer.state = secrets.oauthState
                → (∀ token, ¬ Answered log ending (.insertAccessToken token) ())
                  ∧ ∀ response, ended.calls[ending]? ≠ some (.done (.ok (.token response)))

section Run

variable {jwt : Jwt} {config : OidcConfig} {calls : List HandshakeCall} {db : AuthDb}
  {events : List (Event Surroundings)} {log : List (Entry authSql)}
  (logged : log = (HandshakeSystem.start jwt config calls db).log Surroundings.effect events)

include logged

/-- What each call sends in the run, and what it ends with. -/
theorem sent_in_run {call : Nat} {made : HandshakeCall} (found : calls[call]? = some made)
    : (∀ entry ∈ log, entry.call = call → made.SendsIn jwt config log call entry.op)
      ∧ ∀ result, ((HandshakeSystem.start jwt config calls db).run Surroundings.effect events).calls[call]?
            = some (.done result)
          → made.EndsIn config log call result := by
  have started : (HandshakeSystem.start jwt config calls db).calls[call]?
      = some (made.program jwt config call) := by
    change (calls.mapIdx (fun connection call => call.program jwt config connection))[call]? = _
    rw [List.getElem?_mapIdx, found]
    rfl
  have part : ∀ entry ∈ (HandshakeSystem.start jwt config calls db).log Surroundings.effect events,
      entry ∈ log := by
    intro entry member
    rw [logged]
    exact member
  obtain ⟨checked, now, there, along⟩ :=
    System.along_log part started (made.along jwt config log call)
  refine ⟨?_, ?_⟩
  · intro entry member
    exact checked entry (logged ▸ member)
  · intro result ended
    cases there.symm.trans ended
    exact along

theorem caller_of_entry {entry : Entry authSql} (member : entry ∈ log)
    : ∃ made, calls[entry.call]? = some made ∧ made.SendsIn jwt config log entry.call entry.op := by
  obtain ⟨program, started⟩ := System.called_of_log (logged ▸ member)
  obtain ⟨made, found, _⟩ := HandshakeSystem.start_calls started
  exact ⟨made, found, (sent_in_run logged found).1 entry member rfl⟩

/-- A handshake is begun by an authorize call, in which a native client gives a challenge. -/
theorem begun_by_authorize {entry : Entry authSql} {row : AuthStateRow} (member : entry ∈ log)
    (issues : authStates.issues entry = some row)
    : ∃ query secrets provider now, calls[entry.call]? = some (.authorize query secrets provider)
        ∧ row = Oidc.authState config query secrets now
        ∧ Answered log entry.call (.insertAuthState row) ()
        ∧ ((Oidc.clientRedirect config query).isSome = true → query.clientChallenge.isSome = true) := by
  obtain ⟨made, found, sends⟩ := caller_of_entry logged member
  have issued : entry.op.issuedState = some row := authStates.issued_of_issues issues
  cases made with
  | authorize query secrets provider =>
      obtain ⟨call, op, reply⟩ := entry
      change AuthorizeSends config query secrets op at sends
      cases sends with
      | utcNow => cases issued
      | begins now challenged =>
          cases issued
          cases reply with
          | ok reply => exact ⟨query, secrets, provider, now, found, rfl, member, challenged⟩
          | error fault => cases issues
  | callback freshId query secret provider =>
      rw [callbackSends_noState jwt config log entry.call sends] at issued
      cases issued
  | exchange request secret =>
      rw [(exchangeSends_nothing config log entry.call sends).1] at issued
      cases issued

/-- A code is given out by a callback. -/
theorem given_by_callback {entry : Entry authSql} {row : ExchangeRow} (member : entry ∈ log)
    (issues : cliExchanges.issues entry = some row)
    : ∃ freshId query secret provider stored,
        calls[entry.call]? = some (.callback freshId query secret provider)
          ∧ Resolves jwt config log entry.call freshId query provider stored row.userId
          ∧ stored.clientRedirectUri.isSome = true ∧ stored.clientChallenge = some row.challenge
          ∧ row.codeHash = config.hashToken secret := by
  obtain ⟨made, found, sends⟩ := caller_of_entry logged member
  have issued : entry.op.issuedCode = some row := cliExchanges.issued_of_issues issues
  cases made with
  | authorize query secrets provider =>
      rw [authorizeSends_noCode config sends] at issued
      cases issued
  | callback freshId query secret provider =>
      obtain ⟨call, op, reply⟩ := entry
      change CallbackSends jwt config log call freshId query secret provider op at sends
      cases sends with
      | takes => cases issued
      | elsewhere other =>
          cases op with
          | ticket statement => exact absurd rfl (other statement)
          | _ => cases issued
      | @code stored exchange resolves native challenge hashed =>
          cases issued
          exact ⟨freshId, query, secret, provider, stored, found, resolves, native, challenge,
            hashed⟩
      | token taken browser => cases issued
  | exchange request secret =>
      rw [(exchangeSends_nothing config log entry.call sends).2] at issued
      cases issued

/-- A row that a callback has taken is the one of the state's handshake. -/
theorem taken_state {call : Nat} {state : String} {row : AuthStateRow}
    (empty : db.authStates = []) (taken : Answered log call (.takeAuthState state) (some row))
    : row.state = state ∧ ∃ issuer ∈ log, authStates.issues issuer = some row := by
  refine ⟨?_, ?_⟩
  · obtain ⟨_, _, _, _, after, ran⟩ := System.executed_of_log (logged ▸ taken)
    have found := congrArg Prod.fst (Except.ok.inj ran)
    have live := List.find?_some found
    simp only [Bool.and_eq_true, beq_iff_eq] at live
    exact live.1
  · subst logged
    have start : authStates.rows (HandshakeSystem.start jwt config calls db).state = [] := empty
    exact Vouchers.issued_of_redeemed (fun change db => (surroundings_drop change db).1) start taken
      rfl

theorem taken_code {call : Nat} {codeHash : String} {row : ExchangeRow}
    (empty : db.cliExchanges = []) (taken : Answered log call (.takeExchange codeHash) (some row))
    : row.codeHash = codeHash ∧ ∃ issuer ∈ log, cliExchanges.issues issuer = some row := by
  refine ⟨?_, ?_⟩
  · obtain ⟨_, _, _, _, after, ran⟩ := System.executed_of_log (logged ▸ taken)
    have found := congrArg Prod.fst (Except.ok.inj ran)
    have live := List.find?_some found
    simp only [Bool.and_eq_true, beq_iff_eq] at live
    exact live.1
  · subst logged
    have start : cliExchanges.rows (HandshakeSystem.start jwt config calls db).state = [] := empty
    exact Vouchers.issued_of_redeemed (fun change db => (surroundings_drop change db).2) start taken
      rfl

/-- A callback that is given a row is given the one that its state's handshake began with. -/
theorem taken_of_authorize {call : Nat} {state : String} {row : AuthStateRow}
    (empty : db.authStates = []) (taken : Answered log call (.takeAuthState state) (some row))
    : ∃ (beginning : Nat) (query : AuthorizeQuery) (secrets : HandshakeSecrets) (provider : Provider)
          (now : Timestamp),
        calls[beginning]? = some (.authorize query secrets provider)
          ∧ row = Oidc.authState config query secrets now ∧ state = secrets.oauthState
          ∧ Answered log beginning (.insertAuthState row) ()
          ∧ ((Oidc.clientRedirect config query).isSome = true → query.clientChallenge.isSome = true) := by
  obtain ⟨same, issuer, member, issues⟩ := taken_state logged empty taken
  obtain ⟨query, secrets, provider, now, found, made, begun, challenged⟩ :=
    begun_by_authorize logged member issues
  refine ⟨issuer.call, query, secrets, provider, now, found, made, ?_, begun, challenged⟩
  rw [← same, made]
  rfl

section Fresh

variable (fresh : FreshSecrets config calls) (noStates : db.authStates = [])
  (noCodes : db.cliExchanges = [])

include fresh noStates

theorem states_once : ((log.filterMap authStates.redeems).map (·.state)).Nodup := by
  subst logged
  have start : authStates.rows (HandshakeSystem.start jwt config calls db).state = [] := noStates
  refine Vouchers.redeemed_once (fun change db => (surroundings_drop change db).1) start ?_ ?_
  · intro call program started
    obtain ⟨made, _, rfl⟩ := HandshakeSystem.start_calls started
    exact made.once_state jwt config _ call
  · intro first firstIn second secondIn row other issues issuesToo same
    obtain ⟨_, secrets, _, _, found, rfl, _⟩ := begun_by_authorize rfl firstIn issues
    obtain ⟨_, secrets', _, _, foundToo, rfl, _⟩ := begun_by_authorize rfl secondIn issuesToo
    exact fresh.states _ _ _ _ secrets.oauthState found foundToo rfl (congrArg some same.symm)

/-- No token comes from the callback of a handshake with a client redirect. -/
theorem not_browser {beginning ending : Nat} {query : AuthorizeQuery} {secrets : HandshakeSecrets}
    {provider : Provider} {redirect : String} {row : AuthStateRow}
    (authorized : calls[beginning]? = some (.authorize query secrets provider))
    (native : Oidc.clientRedirect config query = some redirect)
    (taken : Answered log ending (.takeAuthState secrets.oauthState) (some row))
    : ¬ (row.clientRedirectUri = none ∨ row.clientChallenge = none) := by
  obtain ⟨begun, query', secrets', provider', now, found, rfl, same, _, challenged⟩ :=
    taken_of_authorize logged noStates taken
  cases fresh.states _ _ _ _ secrets.oauthState authorized found rfl (congrArg some same.symm)
  cases authorized.symm.trans found
  intro browser
  rcases browser with noRedirect | noChallenge
  · exact Option.some_ne_none _ (native.symm.trans noRedirect)
  · have given := challenged (by rw [native]; rfl)
    have missing : query.clientChallenge = none := noChallenge
    rw [missing] at given
    cases given

include noCodes

omit noStates in
theorem codes_once : ((log.filterMap cliExchanges.redeems).map (·.codeHash)).Nodup := by
  subst logged
  have start : cliExchanges.rows (HandshakeSystem.start jwt config calls db).state = [] := noCodes
  refine Vouchers.redeemed_once (fun change db => (surroundings_drop change db).2) start ?_ ?_
  · intro call program started
    obtain ⟨made, _, rfl⟩ := HandshakeSystem.start_calls started
    exact made.once_code jwt config _ call
  · intro first firstIn second secondIn row other issues issuesToo same
    obtain ⟨_, _, code, _, _, found, _, _, _, hashed⟩ := given_by_callback rfl firstIn issues
    obtain ⟨_, _, code', _, _, foundToo, _, _, _, hashedToo⟩ :=
      given_by_callback rfl secondIn issuesToo
    have equal : code = code' := fresh.hashes _ _ (hashed.symm.trans (same.trans hashedToo))
    exact fresh.codes _ _ _ _ code found foundToo rfl (congrArg some equal.symm)

/-- A token that an exchange mints goes back to the authorize call, over the code and the state. -/
theorem minted_proved {call : Nat} {request : ExchangeRequest} {secret : String}
    {token : AccessTokenRow}
    (found : calls[call]? = some (.exchange request secret))
    (minted : Answered log call (.insertAccessToken token) ())
    : ProvedBy jwt config calls log request token.userId := by
  have sends : ExchangeSends config log call request secret (.ticket (.insertAccessToken token)) :=
    (sent_in_run logged found).1 _ minted rfl
  cases sends with
  | @token row _ taken proved owner =>
      obtain ⟨hashed, issuer, member, issues⟩ := taken_code logged noCodes taken
      obtain ⟨freshId, answer, code, provider', stored, called, resolves, native, challenge,
          hash⟩ :=
        given_by_callback logged member issues
      have same : code = request.code := fresh.hashes _ _ (hash.symm.trans hashed)
      subst same
      obtain ⟨beginning, query, secrets, provider, now, authorized, rfl, state, begun, _⟩ :=
        taken_of_authorize logged noStates resolves.taken
      rw [owner]
      refine .intro authorized begun called state resolves ?_
      rw [proved]
      exact challenge

end Fresh

end Run

/-- In every run of authorize, callback and exchange calls, by whomever and in whatever order, each state
and each code is used up once, and a token is minted only for whoever proves the challenge.
-/
theorem handshakes_hold {jwt : Jwt} {config : OidcConfig} {calls : List HandshakeCall} {db : AuthDb}
    (fresh : FreshSecrets config calls) (noStates : db.authStates = [])
    (noCodes : db.cliExchanges = [])
    (events : List (Event Surroundings))
    : HandshakesHold jwt config calls
        ((HandshakeSystem.start jwt config calls db).log Surroundings.effect events)
        ((HandshakeSystem.start jwt config calls db).run Surroundings.effect events) := by
  refine ⟨states_once rfl fresh noStates, codes_once rfl fresh noCodes, ?_, ?_, ?_⟩
  · intro call request secret token found minted
    exact minted_proved rfl fresh noStates noCodes found minted
  · intro call request secret response found ended
    obtain ⟨token, minted, owner, _⟩ := (sent_in_run rfl found).2 _ ended response rfl
    rw [← owner]
    exact minted_proved rfl fresh noStates noCodes found minted
  · intro beginning ending query secrets provider freshId answer secret provider' redirect authorized
      native called same
    refine ⟨?_, ?_⟩
    · intro token minted
      have sends : CallbackSends jwt config _ ending freshId answer secret provider'
          (.ticket (.insertAccessToken token)) := (sent_in_run rfl called).1 _ minted rfl
      cases sends with
      | elsewhere other => exact other _ rfl
      | token taken browser =>
          rw [same] at taken
          exact not_browser rfl fresh noStates authorized native taken browser
    · intro response ended
      obtain ⟨row, taken, browser⟩ := (sent_in_run rfl called).2 _ ended response rfl
      rw [same] at taken
      exact not_browser rfl fresh noStates authorized native taken browser

/-- A library for URLs that are all on a loopback address. -/
def loopbackUrls : UrlLibrary where
  Url := String
  parse := .ok
  scheme _ := "http"
  hostStr _ := some "127.0.0.1"
  port _ := some 8080
  appendPairs url _ := url
  asStr url := url

def nativeConfig : OidcConfig where
  toAuthConfig := { plainConfig with provisioning := .jit }
  scopes := ["openid", "email"]
  clientSecret := none
  urls := loopbackUrls

def honestProvider : Provider where
  metadata := .ok ⟨"https://idp.example.com/auth", "https://idp.example.com/token", "https://idp.example.com/keys"⟩
  token _ _ := .answered (some "t")
  keysFor _ _ := .ok [rsaKey]

/-- A native client that logs in, and a stranger who tries the code with a verifier of their own. -/
def nativeLogin : List HandshakeCall :=
  [.authorize ⟨some "http://127.0.0.1:8080/", some "challenge of v"⟩ ⟨"cv", "s", "n"⟩ honestProvider,
    .callback 7 ⟨"c", "s"⟩ "code" honestProvider,
    .exchange ⟨"code", "v"⟩ "token",
    .exchange ⟨"code", "w"⟩ "other"]

def nativeEvents : List (Event Surroundings) :=
  List.replicate 2 (.run 0) ++ List.replicate 10 (.run 1) ++ List.replicate 3 (.run 2) ++ [.run 3]

def nativeSystem : HandshakeSystem :=
  .start (jwtOf (tokenClaims (some "alice@example.com") none)) nativeConfig nativeLogin (usersOnly [])

theorem nativeLogin_fresh : FreshSecrets nativeConfig nativeLogin := by
  have begins : ∀ (call : Nat) made state, nativeLogin[call]? = some made
      → HandshakeCall.drawnState made = some state → call = 0 := by
    intro call made state found drawn
    match call, found with
    | 0, _ => rfl
    | 1, found => cases found; cases drawn
    | 2, found => cases found; cases drawn
    | 3, found => cases found; cases drawn
  have ends : ∀ (call : Nat) made code, nativeLogin[call]? = some made
      → HandshakeCall.drawnCode made = some code → call = 1 := by
    intro call made state found drawn
    match call, found with
    | 0, found => cases found; cases drawn
    | 1, _ => rfl
    | 2, found => cases found; cases drawn
    | 3, found => cases found; cases drawn
  refine ⟨?_, ?_, ?_⟩
  · intro first second made other state found foundToo drawn drawnToo
    rw [begins first made state found drawn, begins second other state foundToo drawnToo]
  · intro first second made other code found foundToo drawn drawnToo
    rw [ends first made code found drawn, ends second other code foundToo drawnToo]
  · intro first second same
    exact (String.append_right_inj "hash of ").mp same

theorem nativeLogin_holds
    : ((nativeSystem.run Surroundings.effect nativeEvents).state.accessTokens.map (·.userId) = [7])
      ∧ HandshakesHold (jwtOf (tokenClaims (some "alice@example.com") none)) nativeConfig nativeLogin
          (nativeSystem.log Surroundings.effect nativeEvents)
          (nativeSystem.run Surroundings.effect nativeEvents) :=
  ⟨by decide +kernel, handshakes_hold nativeLogin_fresh rfl rfl nativeEvents⟩

end WslVpn.Auth
