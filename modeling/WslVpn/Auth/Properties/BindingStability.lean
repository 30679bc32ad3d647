import WslVpn.Auth.Properties.EmailLinking
import WslVpn.Auth.Standing

/-! Who a sign-in is, in every order of sign-ins and provisioning calls. -/

namespace WslVpn.Auth

open Interleaving Transactions.Locking

-----------------------------------------------------------------------------------------
-- Why a sign-in may return a user
-----------------------------------------------------------------------------------------

namespace Accounts

variable (tables : Accounts)

/-- The subject of the issuer is bound to the user. -/
def BoundTo (issuer subject : String) (userId : Uuid) : Prop :=
  ∃ row ∈ tables.identities, row.issuer = issuer ∧ row.subject = subject ∧ row.userId = userId

/-- The user has no binding of the issuer. -/
def Unbound (issuer : String) (userId : Uuid) : Prop :=
  ∀ row ∈ tables.identities, ¬ (row.issuer = issuer ∧ row.userId = userId)

def HasEmail (email : String) (userId : Uuid) : Prop :=
  ∃ row ∈ tables.users, row.id = userId ∧ row.email = email

def HasExternalId (externalId : String) (userId : Uuid) : Prop :=
  ∃ row ∈ tables.users, row.id = userId ∧ row.externalId = some externalId

end Accounts

/-- At some moment of the run at which the call was under way, the committed rows were so. -/
def During (start : LoginSystem) (events : List (Event Nat)) (call : Nat) (holds : Accounts → Prop)
    : Prop :=
  ∃ now, start.Passes elapses events now ∧ (∃ op next, now.calls[call]? = some (.step op next))
    ∧ holds now.state.accounts.committed

/-- Why the sign-in may return the user: by a binding, by a first login with their address, by the uuid
that they were provisioned under, or because the sign-in has made them.
-/
def BindingCall.MayReturn (during : (Accounts → Prop) → Prop) (userId : Uuid) : BindingCall → Prop
  | .oidc freshId identity =>
      during (·.BoundTo identity.issuer identity.subject userId)
        ∨ (during (·.HasEmail identity.email userId) ∧ during (·.Unbound identity.issuer userId))
        ∨ (userId = freshId ∧ during (·.hasUser userId = false))
  | .opsapi ops freshId person =>
      during (·.BoundTo (OpsApi.issuer ops) person.uuid userId)
        ∨ during (·.HasExternalId person.uuid userId)
        ∨ (userId = freshId ∧ during (·.hasUser userId = false))
  | .create .. | .update .. | .delete .. => False

section Plans

variable {tables : Accounts} {lower : String → String} {writes : List Write} {userId : Uuid}

theorem boundTo_of_plan {issuer subject : String}
    (planned : (Statement.selectBound issuer subject).plan lower tables = .ok (some userId, writes))
    : tables.BoundTo issuer subject userId := by
  have found := (Prod.mk.inj (Except.ok.inj planned)).1
  obtain ⟨row, there, named⟩ := Option.map_eq_some_iff.mp found
  have key : row.issuer = issuer ∧ row.subject = subject := by simpa using List.find?_some there
  exact ⟨row, List.mem_of_find?_eq_some there, key.1, key.2, named⟩

theorem hasEmail_of_plan {email : String} {active : Bool}
    (planned
      : (Statement.selectUserByEmail email).plan lower tables = .ok (some (userId, active), writes))
    : tables.HasEmail email userId := by
  have found := (Prod.mk.inj (Except.ok.inj planned)).1
  obtain ⟨row, there, named⟩ := Option.map_eq_some_iff.mp found
  have key : row.email = email := by simpa using List.find?_some there
  exact ⟨row, List.mem_of_find?_eq_some there, congrArg Prod.fst named, key⟩

theorem unbound_of_plan {issuer : String}
    (planned : (Statement.selectSubject issuer userId).plan lower tables = .ok (none, writes))
    : tables.Unbound issuer userId := by
  have missed := (Prod.mk.inj (Except.ok.inj planned)).1
  intro row there same
  have apart := List.find?_eq_none.mp (Option.map_eq_none_iff.mp missed) row there
  exact apart (by simpa using same)

theorem hasExternalId_of_plan {externalId : String}
    (planned
      : (Statement.selectUserByExternalId externalId).plan lower tables = .ok (some userId, writes))
    : tables.HasExternalId externalId userId := by
  have found := (Prod.mk.inj (Except.ok.inj planned)).1
  obtain ⟨row, there, named⟩ := Option.map_eq_some_iff.mp found
  exact ⟨row, List.mem_of_find?_eq_some there, named, by simpa using List.find?_some there⟩

theorem free_of_plan {row : UserRow}
    (planned : (Statement.insertUser row).plan lower tables = .ok (userId, writes))
    : userId = row.id ∧ tables.hasUser row.id = false := by
  simp only [Statement.plan] at planned
  split at planned
  · cases planned
  · next free =>
      cases planned
      exact ⟨rfl, Bool.eq_false_iff.mpr free⟩

end Plans

section Found

variable {config : AuthConfig} {calls : List BindingCall} {start : LoginSystem}
  {events : List (Event Nat)} {call : Nat} {userId : Uuid}

/-- What a sign-in was told before it had written anything, it read in the committed rows. -/
theorem during_of_told (reached : Reached calls start) {statement : Statement}
    {reply : statement.Reply}
    (told : Told (start.log elapses events) call statement reply) (early : Early statement)
    {holds : Accounts → Prop}
    (reads
      : ∀ lower tables writes, statement.plan lower tables = .ok (reply, writes) → holds tables)
    : During start events call holds := by
  obtain ⟨past, rest, split, ⟨next, issued⟩, after, answer⟩ := System.executed_of_log told
  have now := reached.run past
  have nothing := now.early call _ statement issued rfl early
  obtain ⟨_, writes, _, planned, _, _, _⟩ := within_cases answer
  have committed : (start.run elapses past).state.accounts.view rules call
      = (start.run elapses past).state.accounts.committed := by
    rw [Shared.view, nothing]
    rfl
  rw [committed] at planned
  exact ⟨_, ⟨past, rest, split, rfl⟩, ⟨_, next, issued⟩, reads _ _ _ planned⟩

theorem during_of_toldOfNew (reached : Reached calls start) {freshId : Uuid}
    (told : ToldOfNew (start.log elapses events) call freshId userId)
    : userId = freshId ∧ During start events call (·.hasUser userId = false) := by
  obtain ⟨row, named, told⟩ := told
  have early : Early (.insertUser row) := Or.inr ⟨row, rfl⟩
  have made := during_of_told reached told early (fun _ _ _ planned => free_of_plan planned)
  obtain ⟨now, passes, underWay, same, free⟩ := made
  exact ⟨same.trans named, now, passes, underWay, same ▸ free⟩

/-- Of whom a sign-in was told, it may return. -/
theorem BindingCall.mayReturn {made : BindingCall} (signsIn : made.SignsIn)
    (reached : Reached calls start)
    (told : made.ToldOf (start.log elapses events) call userId)
    : made.MayReturn (During start events call) userId := by
  cases made with
  | oidc freshId identity =>
      rcases told with bound | ⟨⟨active, address⟩, unbound⟩ | made
      · refine Or.inl (during_of_told reached bound (Or.inl (.bound _ _)) ?_)
        exact fun _ _ _ planned => boundTo_of_plan planned
      · refine Or.inr (Or.inl ⟨?_, ?_⟩)
        · refine during_of_told reached address (Or.inl (.address _)) ?_
          exact fun _ _ _ planned => hasEmail_of_plan planned
        · refine during_of_told reached unbound (Or.inl (.subject _ _)) ?_
          exact fun _ _ _ planned => unbound_of_plan planned
      · exact Or.inr (Or.inr (during_of_toldOfNew reached made))
  | opsapi ops freshId person =>
      rcases told with bound | provisioned | made
      · refine Or.inl (during_of_told reached bound (Or.inl (.bound _ _)) ?_)
        exact fun _ _ _ planned => boundTo_of_plan planned
      · refine Or.inr (Or.inl (during_of_told reached provisioned (Or.inl (.provisioned _)) ?_))
        exact fun _ _ _ planned => hasExternalId_of_plan planned
      · exact Or.inr (Or.inr (during_of_toldOfNew reached made))
  | create freshId request => exact signsIn
  | update id request => exact signsIn
  | delete id => exact signsIn

end Found

-----------------------------------------------------------------------------------------
-- Bindings over whole runs
-----------------------------------------------------------------------------------------

/-- In the run a binding stays with its user, and a sign-in returns the right user or changes
nothing.
-/
structure BindingsHold (calls : List BindingCall) (start : LoginSystem) (events : List (Event Nat))
    : Prop where
  /-- For each issuer there is one user for each subject, and one subject for each user. -/
  injective
    : ∀ now, start.Passes elapses events now
        → ∀ binding ∈ now.state.accounts.committed.identities,
          ∀ other ∈ now.state.accounts.committed.identities, binding.issuer = other.issuer
            → (binding.subject = other.subject ↔ binding.userId = other.userId)
  /-- A binding stays with its user, unless the user was gone at some moment since. -/
  stable
    : ∀ past since rest, events = past ++ since ++ rest
        → ∀ binding ∈ (start.run elapses past).state.accounts.committed.identities,
          (start.run elapses (past ++ since)).state.accounts.committed.BoundTo binding.issuer
              binding.subject binding.userId
            ∨ ∃ first second, since = first ++ second
                ∧ (start.run elapses (past ++ first)).state.accounts.committed.hasUser binding.userId
                    = false
  found
    : ∀ (call : Nat) made userId, calls[call]? = some made → made.SignsIn
        → (start.run elapses events).calls[call]? = some (.done (.ok (.signedIn userId)))
          → made.MayReturn (During start events call) userId
  /-- When a sign-in returns a user, the user is there and active. -/
  active
    : ∀ (call : Nat) made userId event before after, calls[call]? = some made → made.SignsIn
        → start.Takes elapses events event before after
          → before.calls[call]? ≠ some (.done (.ok (.signedIn userId)))
            → after.calls[call]? = some (.done (.ok (.signedIn userId)))
              → Active after.state.accounts.committed userId
  /-- No step of a sign-in makes an inactive user active. -/
  inactive
    : ∀ (call : Nat) made before after, calls[call]? = some made → made.SignsIn
        → start.Takes elapses events (.run call) before after
          → ∀ row ∈ before.state.accounts.committed.users, row.active = false
            → ∀ now ∈ after.state.accounts.committed.users, now.id = row.id → now.active = false
  /-- No step of a sign-in that ends in an error changes the rows. -/
  refused
    : ∀ (call : Nat) made error event before after, calls[call]? = some made → made.SignsIn
        → (start.run elapses events).calls[call]? = some (.done (.error error))
          → start.Takes elapses events event before after
            → event = .run call ∨ event = .lose call
              → after.state.accounts.committed = before.state.accounts.committed

section BindingsHold

variable {calls : List BindingCall} {system before after : LoginSystem} {event : Event Nat}
  {call : Nat}
  {made : BindingCall}

theorem injective_of_good {tables : Accounts} (good : tables.Good) {binding other : IdentityRow}
    (there : binding ∈ tables.identities) (otherThere : other ∈ tables.identities)
    (same : binding.issuer = other.issuer)
    : binding.subject = other.subject ↔ binding.userId = other.userId := by
  constructor
  · intro subject
    rw [good.subjects binding there other otherThere (sameSubject_iff.mpr ⟨same, subject⟩)]
  · intro person
    rw [good.persons binding there other otherThere (samePerson_iff.mpr ⟨same, person⟩)]

/-- What becomes of a binding in one step. -/
theorem Reached.binding (reached : Reached calls system) (moves : system.Moves elapses event after)
    {issuer subject : String} {userId : Uuid}
    (bound : system.state.accounts.committed.BoundTo issuer subject userId)
    : after.state.accounts.committed.BoundTo issuer subject userId
      ∨ after.state.accounts.committed.hasUser userId = false := by
  cases moves with
  | replied issued answer =>
      obtain ⟨row, there, rfl, rfl, rfl⟩ := bound
      exact reached.steady.binding_step (reached.binds issued) answer there
  | refused issued answer => exact Or.inl bound
  | lost issued => exact Or.inl bound
  | env change => exact Or.inl bound
  | idle named ended => exact Or.inl bound

/-- What becomes of a binding in a run, by induction on it. -/
theorem Reached.bindings (reached : Reached calls system) (since : List (Event Nat))
    {issuer subject : String} {userId : Uuid}
    (bound : system.state.accounts.committed.BoundTo issuer subject userId)
    : (system.run elapses since).state.accounts.committed.BoundTo issuer subject userId
      ∨ ∃ first second, since = first ++ second
          ∧ (system.run elapses first).state.accounts.committed.hasUser userId = false := by
  induction since generalizing system with
  | nil => exact Or.inl bound
  | cons event rest ih =>
      have moves := System.handle_moves elapses system event
      rcases reached.binding moves bound with stays | gone
      · rcases ih (reached.step moves) stays with stays | ⟨first, second, rfl, gone⟩
        · exact Or.inl stays
        · exact Or.inr ⟨event :: first, second, rfl, gone⟩
      · exact Or.inr ⟨[event], rest, rfl, gone⟩

/-- When a sign-in returns a user, its transaction has just committed what it saw. -/
theorem Checked.returns (checked : Checked calls system) (moves : system.Moves elapses event after)
    (listed : calls[call]? = some made) (signsIn : made.SignsIn) {userId : Uuid}
    (earlier : system.calls[call]? ≠ some (.done (.ok (.signedIn userId))))
    (now : after.calls[call]? = some (.done (.ok (.signedIn userId))))
    : Active after.state.accounts.committed userId := by
  have ends : ∀ {mover : Nat} {request : Request}
      {next : Except DbError request.Reply → Login LoginAnswer} {reply : Except DbError request.Reply},
      system.calls[mover]? = some (.step request next)
        → (system.calls.set mover (next reply))[call]? = some (.done (.ok (.signedIn userId)))
          → mover = call ∧ Awaits call userId (.step request next)
            ∧ ∃ given, reply = .ok given := by
    intro mover request next reply issued moved
    rcases System.getElem?_set_cases moved with ⟨rfl, ended⟩ | ⟨_, there⟩
    · have step := checked.reached.signInStep listed signsIn issued reply
      obtain ⟨found, named, awaits, answered⟩ := step.returns _ ended.symm
      cases named
      exact ⟨rfl, awaits, answered⟩
    · exact absurd there earlier
  cases moves with
  | @replied mover request next reply state issued answer =>
      obtain ⟨rfl, awaits, _⟩ := ends issued now
      have active := checked.active mover _ userId issued awaits
      obtain ⟨more, same, _⟩ := awaits
      cases same
      obtain ⟨_, rfl⟩ := commit_cases answer
      exact active
  | refused issued answer =>
      obtain ⟨_, _, _, same⟩ := ends issued now
      cases same
  | lost issued =>
      obtain ⟨_, _, _, same⟩ := ends issued now
      cases same
  | env change => exact absurd now earlier
  | idle named ended => exact absurd now earlier

/-- A step of a sign-in makes nobody active. -/
theorem Reached.inactive (reached : Reached calls system)
    (moves : system.Moves elapses (.run call) after) (listed : calls[call]? = some made)
    (signsIn : made.SignsIn) {row now : UserRow}
    (there : row ∈ system.state.accounts.committed.users)
    (off : row.active = false) (thereNow : now ∈ after.state.accounts.committed.users)
    (same : now.id = row.id)
    : now.active = false := by
  have kept : after.state = system.state → now.active = false := by
    intro unchanged
    rw [unchanged] at thereNow
    rw [reached.steady.valid.good.ids now thereNow row there same]
    exact off
  cases moves with
  | @replied _ request next reply state issued answer =>
      have own := (reached.signInStep listed signsIn issued (.ok reply)).own
      exact reached.steady.inactive_step own answer there off thereNow same
  | refused issued answer => exact kept rfl
  | idle named ended => exact kept rfl

/-- A step of a sign-in changes the rows only when it returns a user. -/
theorem Reached.unchanged (reached : Reached calls system)
    (moves : system.Moves elapses event after)
    (named : event = .run call ∨ event = .lose call) (listed : calls[call]? = some made)
    (signsIn : made.SignsIn)
    : after.state.accounts.committed = system.state.accounts.committed
      ∨ ∃ userId, after.calls[call]? = some (.done (.ok (.signedIn userId))) := by
  cases moves with
  | @replied mover request next reply state issued answer =>
      have own : mover = call := by
        rcases named with same | same
        · exact Event.run.inj same
        · cases same
      subst own
      have step := reached.signInStep listed signsIn issued (.ok reply)
      by_cases commits : request = .commit mover
      · obtain ⟨userId, ended⟩ := step.commits commits reply rfl
        refine Or.inr ⟨userId, ?_⟩
        rw [← ended]
        exact System.getElem?_set_moved issued _
      · exact Or.inl (committed_of_signIn step.own commits answer)
  | refused issued answer => exact Or.inl rfl
  | lost issued => exact Or.inl rfl
  | env change => exact Or.inl rfl
  | idle named ended => exact Or.inl rfl

end BindingsHold

/-- In every run in which no user's access is withdrawn between a sign-in's check of the user and its
`COMMIT`, bindings hold.
-/
theorem bindings_hold {config : AuthConfig} {calls : List BindingCall} {db : AuthDb}
    {tables : Accounts}
    (start : db.accounts = .start tables) (good : tables.Good) {events : List (Event Nat)}
    (undisturbed : (LoginSystem.binding config calls db).Meets elapses Undisturbed events)
    : BindingsHold calls (LoginSystem.binding config calls db) events := by
  have reached : Reached calls (LoginSystem.binding config calls db) := .start start good
  have checked : Checked calls (LoginSystem.binding config calls db) := .start start good
  refine ⟨?_, ?_, ?_, ?_, ?_, ?_⟩
  · intro now passes
    obtain ⟨past, rest, rfl, rfl⟩ := passes
    intro binding there other otherThere same
    exact injective_of_good (reached.run past).steady.valid.good there otherThere same
  · intro past since rest split binding there
    rw [System.run_append]
    have becomes := (reached.run past).bindings since ⟨binding, there, rfl, rfl, rfl⟩
    rcases becomes with stays | ⟨first, second, same, gone⟩
    · exact Or.inl stays
    · refine Or.inr ⟨first, second, same, ?_⟩
      rw [System.run_append]
      exact gone
  · intro call made userId listed signsIn ended
    obtain ⟨_, now, there, returns⟩ := System.along_log (fun _ member => member)
      (LoginSystem.binding_calls listed) (BindingCall.returns made)
    cases there.symm.trans ended
    exact BindingCall.mayReturn signsIn reached (returns userId rfl)
  · intro call made userId event before after listed signsIn takes earlier now
    obtain ⟨past, rest, rfl, rfl, moves, _⟩ := takes.inside
    have early := ((System.meets_append elapses).mp undisturbed).1
    have before : Checked calls ((LoginSystem.binding config calls db).run elapses past) :=
      System.run_induction elapses (fun _ _ _ checked fine moves => checked.step fine moves) checked early
    exact before.returns moves listed signsIn earlier now
  · intro call made before after listed signsIn takes row there off now thereNow same
    obtain ⟨past, rest, rfl, rfl, moves, _⟩ := takes.inside
    exact (reached.run past).inactive moves listed signsIn there off thereNow same
  · intro call made error event before after listed signsIn ended takes named
    obtain ⟨past, rest, rfl, rfl, moves, leads⟩ := takes.inside
    rcases (reached.run past).unchanged moves named listed signsIn with same | ⟨userId, returned⟩
    · exact same
    · have stays : (after.run elapses rest).calls[call]? = some (.done (.ok (.signedIn userId))) :=
        System.run_done returned rest
      rw [leads, ended] at stays
      cases stays

def deactivation : UpdateUserRequest where
  displayName := none
  active := some false
  role := none

/-- The administrator signs in for the first time, and is deactivated. -/
def deactivatedCalls : List BindingCall := [.oidc 2 bossIdentity, .update 1 deactivation]

def deactivated : LoginSystem := .binding plainConfig deactivatedCalls (usersOnly [boss])

/-- The sign-in commits first. -/
theorem bindings_hold_of_deactivatedAfterwards
    : (deactivated.run elapses
          (List.replicate 7 (.run 0) ++ [.run 1, .run 1])).state.accounts.committed.users.map (·.active)
        = [false]
      ∧ BindingsHold deactivatedCalls deactivated (List.replicate 7 (.run 0) ++ [.run 1, .run 1]) := by
  have undisturbed : deactivated.Meets elapses Undisturbed
      (List.replicate 7 (.run 0) ++ [.run 1, .run 1]) := by
    refine ⟨?_, ?_, ?_, ?_, ?_, ?_, ?_, ?_, ?_, trivial⟩
    all_goals
      intro request next reply after userId issued
      cases issued
      intro _ withdraws
    case refine_8 =>
      cases withdraws
      intro _ other program found awaits
      obtain ⟨_, commits, _⟩ := awaits
      match other, found with
      | 0, found =>
          cases found
          cases commits
      | 1, found =>
          cases found
          cases commits
      | _ + 2, found => cases found
    all_goals cases withdraws
  refine ⟨by decide +kernel, ?_⟩
  exact @bindings_hold plainConfig deactivatedCalls (usersOnly [boss]) ⟨[boss], []⟩ rfl
    bossOnly_good _
    undisturbed

/-- The sign-in finds the administrator active, and then they are deactivated. -/
def untilCommit : List (Event Nat) := List.replicate 6 (.run 0) ++ [.run 1]

/-- The deactivation comes between the check of the sign-in and its `COMMIT`: an insert that refers to
the user does not keep the user from being deactivated.
-/
theorem inactive_user_returned
    : ¬ BindingsHold deactivatedCalls deactivated (untilCommit ++ [.run 0]) := by
  intro hold
  have takes := System.takes_last elapses deactivated untilCommit (.run 0)
  have earlier : (deactivated.run elapses untilCommit).calls[0]?
      ≠ some (.done (.ok (.signedIn 1))) := by
    intro same
    cases same
  obtain ⟨row, there, _, active⟩ := hold.active 0 _ 1 _ _ _ rfl trivial takes earlier rfl
  have rows : ((deactivated.run elapses untilCommit).handle elapses
      (.run 0)).state.accounts.committed.users = [{ boss with active := false }] := by
    decide +kernel
  rw [rows] at there
  cases List.mem_singleton.mp there
  cases active

end WslVpn.Auth
