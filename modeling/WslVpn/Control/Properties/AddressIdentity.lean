import WslVpn.Control.Creation
import WslVpn.Control.Obligations
import WslVpn.Control.Revocation

/-! One identity behind an overlay address. Allocation keeps addresses apart inside a network; the
lookup knows no networks, so addresses of networks that overlap have to be kept apart as well.
-/

namespace WslVpn

open AddressSpace Interleaving

/-- The session counts: it is active and its lease is running. -/
def Db.Live (db : Db) (session : SessionRow) : Prop :=
  session.status = .active ∧ db.now < session.expiresAt

/-- The host is allocated in the network to the session. -/
def Db.Reserved (db : Db) (networkId sessionId : Uuid) (host : IpNetwork) : Prop :=
  HostOf networkId host db ∧ ⟨networkId, host, some sessionId⟩ ∈ db.ipamAllocations

/-- Two sessions do not compete for addresses: they are of one network, or of disjoint ones. -/
def Db.Apart (db : Db) (left right : SessionRow) : Prop :=
  left.networkId = right.networkId
  ∨ ∀ first second, db.networkAt left.networkId = some first
      → db.networkAt right.networkId = some second → first.cidr.Disjoint second.cidr

/-- The session is of an IPv4 network. -/
def Db.OnIpv4 (db : Db) (session : SessionRow) : Prop :=
  ∀ network, db.networkAt session.networkId = some network → network.cidr.ip.isIpv4 = true

/-- The statement lets no session that counts compete with another one: while it waits for its
address no other one waits, and networks of such sessions are disjoint IPv4 networks.
-/
def keepsApart : Statement → Db → Prop
  | .insertSession row, db =>
      db.Live row →
        (∀ session ∈ db.sessions, db.Live session → session.assignedIp ≠ placeholderAddress)
        ∧ db.OnIpv4 row ∧ ∀ session ∈ db.sessions, db.Live session → db.Apart session row
  | _, _ => True

/-- Sessions that count have addresses of their own. -/
structure Separated (db : Db) : Prop where
  ids : ∀ left ∈ db.sessions, ∀ right ∈ db.sessions, left.id = right.id → left = right
  networks : ∀ session ∈ db.sessions, ∃ network, db.networkAt session.networkId = some network
  keys
    : ∀ left ∈ db.ipamAllocations, ∀ right ∈ db.ipamAllocations,
        left.networkId = right.networkId → left.address = right.address → left = right
  reserved
    : ∀ session ∈ db.sessions, db.Live session → session.assignedIp ≠ placeholderAddress
        → db.Reserved session.networkId session.id session.assignedIp
  waiting
    : ∀ left ∈ db.sessions, ∀ right ∈ db.sessions, db.Live left → db.Live right
        → left.assignedIp = placeholderAddress → right.assignedIp = placeholderAddress
        → left = right
  apart
    : ∀ left ∈ db.sessions, ∀ right ∈ db.sessions, db.Live left → db.Live right
        → db.Apart left right
  ipv4 : ∀ session ∈ db.sessions, db.Live session → db.OnIpv4 session

/-- The placeholder is never handed out: its last octet is skipped. -/
theorem HostOf.ne_placeholder {networkId : Uuid} {host : IpNetwork} {db : Db}
    (handed : HostOf networkId host db)
    : host ≠ placeholderAddress := by
  rintro rfl
  obtain ⟨_, addr, _, _, usable, made⟩ := handed
  cases addr with
  | v4 address =>
      cases made
      cases usable
  | v6 address => cases made

/-- An address that counts belongs to one session. -/
theorem Separated.unique {db : Db} (separated : Separated db) {left right : SessionRow}
    (leftThere : left ∈ db.sessions) (rightThere : right ∈ db.sessions) (leftLive : db.Live left)
    (rightLive : db.Live right) (same : left.assignedIp = right.assignedIp)
    : left = right := by
  by_cases placeholder : left.assignedIp = placeholderAddress
  · exact separated.waiting left leftThere right rightThere leftLive rightLive placeholder
      (same.symm.trans placeholder)
  · obtain ⟨⟨first, addr, firstStored, firstIn, _, made⟩, firstRow⟩ :=
      separated.reserved left leftThere leftLive placeholder
    obtain ⟨⟨second, addr', secondStored, secondIn, _, made'⟩, secondRow⟩ :=
      separated.reserved right rightThere rightLive (same ▸ placeholder)
    rcases separated.apart left leftThere right rightThere leftLive rightLive with shared | disjoint
    · have rows := separated.keys _ firstRow _ secondRow shared same
      simp only [AllocationRow.mk.injEq, Option.some.injEq] at rows
      exact separated.ids left leftThere right rightThere rows.2.2
    · rw [same] at made
      obtain rfl := IpNetwork.new?_injective made made'
      exact absurd ⟨firstIn, secondIn⟩ (disjoint first second firstStored secondStored addr)

-----------------------------------------------------------------------------------------
-- What the calls promise each other
-----------------------------------------------------------------------------------------

/-- What the others leave in place, for a call that has drawn the given session. -/
structure Undisturbed (draw : Option Uuid) (before after : Db) : Prop where
  now : before.now ≤ after.now
  sessions
    : ∀ session ∈ before.sessions, ∃ new ∈ after.sessions,
        new.id = session.id ∧ new.userId = session.userId ∧ new.networkId = session.networkId
          ∧ new.expiresAt = session.expiresAt
          ∧ (draw = some session.id → new.assignedIp = session.assignedIp)
  ended : ∀ id, before.hasSession id = true → before.Ended id → after.Ended id
  networks
    : ∀ id network, before.networkAt id = some network → after.networkAt id = some network
  allocations
    : ∀ row ∈ before.ipamAllocations, ∀ id, row.sessionId = some id
        → before.hasSession id = true → row ∈ after.ipamAllocations ∨ after.Ended id

theorem Undisturbed.refl (draw : Option Uuid) (db : Db) : Undisturbed draw db db where
  now := le_rfl
  sessions := fun session there => ⟨session, there, rfl, rfl, rfl, rfl, fun _ => rfl⟩
  ended := fun _ _ ended => ended
  networks := fun _ _ stored => stored
  allocations := fun _ there _ _ _ => Or.inl there

theorem Undisturbed.hasSession {draw : Option Uuid} {before after : Db}
    (undisturbed : Undisturbed draw before after) {id : Uuid} (there : before.hasSession id = true)
    : after.hasSession id = true := by
  obtain ⟨session, member, same⟩ := List.any_eq_true.mp there
  obtain ⟨new, newMember, newId, _⟩ := undisturbed.sessions session member
  exact List.any_eq_true.mpr ⟨new, newMember, by simpa [newId] using same⟩

theorem Undisturbed.trans {draw : Option Uuid} {first second third : Db}
    (left : Undisturbed draw first second) (right : Undisturbed draw second third)
    : Undisturbed draw first third where
  now := left.now.trans right.now
  sessions := by
    intro session there
    obtain ⟨middle, between, id, user, network, expires, address⟩ := left.sessions session there
    obtain ⟨new, member, id', user', network', expires', address'⟩ := right.sessions middle between
    refine ⟨new, member, id'.trans id, user'.trans user, network'.trans network,
      expires'.trans expires, ?_⟩
    intro drawn
    exact (address' (id ▸ drawn)).trans (address drawn)
  ended := fun id there ended =>
    right.ended id (left.hasSession there) (left.ended id there ended)
  networks := fun id network stored => right.networks id network (left.networks id network stored)
  allocations := by
    intro row there id refers known
    rcases left.allocations row there id refers known with between | ended
    · exact right.allocations row between id refers (left.hasSession known)
    · exact Or.inr (right.ended id (left.hasSession known) ended)

/-- The statement takes no address away from a session, and gives one only as drawn and reserved. -/
def respects (draw : Option Uuid) : Statement → Db → Prop
  | .insertSession row, _ => row.assignedIp = placeholderAddress
  | .updateSessionAssignedIp id host, db =>
      draw = some id
      ∧ ∀ session ∈ db.sessions, session.id = id → session.status = .active
          → db.Reserved session.networkId id host
  | .deleteAllocationsOfSession id, db => db.hasSession id = true ∧ db.Ended id
  | .deleteUser _, _ => False
  | _, _ => True

section Step

variable {statement : Statement} {db after : Db} {reply : statement.Reply} {draw : Option Uuid}

theorem respects.kept (respected : respects draw statement db) (user : Uuid)
    : statement ≠ .deleteUser user := by
  rintro rfl
  exact respected

/-- A reservation stays while its session is active. -/
theorem Db.Reserved.outlasts {networkId sessionId : Uuid} {host : IpNetwork}
    (reserved : db.Reserved networkId sessionId host) (ran : statement.exec db = .ok (reply, after))
    (respected : respects draw statement db) (active : ¬ db.Ended sessionId)
    : after.Reserved networkId sessionId host := by
  obtain ⟨⟨network, addr, stored, handed⟩, row⟩ := reserved
  refine ⟨⟨network, addr, Statement.network_after ran stored, handed⟩, ?_⟩
  rcases Statement.allocation_after ran respected.kept row with there | ⟨released, rfl, same⟩
  · exact there
  · cases same
    exact absurd respected.2 active

/-- Sessions that are apart stay so: their networks are there already. -/
theorem Db.Apart.outlasts {left right left' right' : SessionRow} (apart : db.Apart left right)
    (ran : statement.exec db = .ok (reply, after))
    (leftNetwork : ∃ network, db.networkAt left.networkId = some network)
    (rightNetwork : ∃ network, db.networkAt right.networkId = some network)
    (leftSame : left'.networkId = left.networkId) (rightSame : right'.networkId = right.networkId)
    : after.Apart left' right' := by
  obtain ⟨first, firstStored⟩ := leftNetwork
  obtain ⟨second, secondStored⟩ := rightNetwork
  rw [Db.Apart, leftSame, rightSame]
  rcases apart with same | disjoint
  · exact Or.inl same
  · refine Or.inr ?_
    intro first' second' firstNow secondNow
    rw [Statement.network_after ran firstStored] at firstNow
    rw [Statement.network_after ran secondStored] at secondNow
    cases firstNow
    cases secondNow
    exact disjoint first second firstStored secondStored

theorem Db.OnIpv4.outlasts {session session' : SessionRow} (onIpv4 : db.OnIpv4 session)
    (ran : statement.exec db = .ok (reply, after))
    (network : ∃ network, db.networkAt session.networkId = some network)
    (same : session'.networkId = session.networkId)
    : after.OnIpv4 session' := by
  obtain ⟨network, stored⟩ := network
  intro network' now
  rw [same, Statement.network_after ran stored] at now
  cases now
  exact onIpv4 network stored

theorem Db.Apart.symm {left right : SessionRow} (apart : db.Apart left right)
    : db.Apart right left := by
  rcases apart with same | disjoint
  · exact Or.inl same.symm
  · exact Or.inr (fun first second firstStored secondStored address both =>
      disjoint second first secondStored firstStored address ⟨both.2, both.1⟩)

/-- A session that counts after a statement counted before it, or has just been inserted. -/
theorem live_before (ran : statement.exec db = .ok (reply, after))
    {age : SessionRow → SessionRow}
    (ages : ∀ session, Statement.Ages statement db session (age session)) {session : SessionRow}
    (live : after.Live (age session))
    : db.Live session := by
  obtain ⟨active, lasting⟩ := live
  rw [(ages session).expiresAt, (Statement.exec_effect ran).now] at lasting
  exact ⟨((ages session).active.mp active).1, lasting⟩

/-- The address of a session that counts: the one that it had, or one that is reserved for it. -/
theorem respects.address (respected : respects draw statement db)
    {age : SessionRow → SessionRow}
    (ages : ∀ session, Statement.Ages statement db session (age session)) {session : SessionRow}
    (there : session ∈ db.sessions) (live : db.Live session)
    : (age session).assignedIp = session.assignedIp
      ∨ db.Reserved session.networkId session.id (age session).assignedIp := by
  rw [(ages session).assignedIp]
  cases statement with
  | updateSessionAssignedIp id host =>
      by_cases same : session.id = id
      · refine Or.inr ?_
        subst same
        simp only [Statement.addressAfter, beq_self_eq_true, if_true]
        exact respected.2 session there rfl live.1
      · refine Or.inl ?_
        simp only [Statement.addressAfter, beq_iff_eq, same, if_false]
  | _ => exact Or.inl rfl

section Sessions

variable {age : SessionRow → SessionRow} {row : SessionRow}

/-- A session of the new table is an old one, aged, or the one that the statement inserts. -/
theorem aged_or_inserted
    (sessions : after.sessions = db.sessions.map age ++ statement.inserted db) {session : SessionRow}
    (there : session ∈ after.sessions)
    : (∃ old ∈ db.sessions, session = age old)
      ∨ ∃ row, statement = .insertSession row ∧ session = { row with createdAt := db.now } := by
  rw [sessions] at there
  rcases List.mem_append.mp there with aged | new
  · obtain ⟨old, member, rfl⟩ := List.mem_map.mp aged
    exact Or.inl ⟨old, member, rfl⟩
  · cases statement with
    | insertSession row => exact Or.inr ⟨row, rfl, List.mem_singleton.mp new⟩
    | _ => cases new

theorem inserted_fresh (ran : statement.exec db = .ok (reply, after))
    (isInsert : statement = .insertSession row) {old : SessionRow} (member : old ∈ db.sessions)
    : old.id ≠ row.id := by
  subst isInsert
  intro same
  have unused := (Statement.insertSession_ok ran).1
  have used : db.hasSession row.id = true := List.any_eq_true.mpr ⟨old, member, by simp [same]⟩
  rw [unused] at used
  cases used

theorem inserted_network (ran : statement.exec db = .ok (reply, after))
    (isInsert : statement = .insertSession row)
    : ∃ network, db.networkAt row.networkId = some network := by
  subst isInsert
  exact @optionally_networkAt db (some row.networkId) (Statement.insertSession_ok ran).2.1.2.2.2 _ rfl

theorem inserted_live (ran : statement.exec db = .ok (reply, after))
    (live : after.Live { row with createdAt := db.now })
    : db.Live row := by
  obtain ⟨active, lasting⟩ := live
  rw [(Statement.exec_effect ran).now] at lasting
  exact ⟨active, lasting⟩

/-- The inserted session has an identifier of its own. -/
theorem Separated.ids_after (separated : Separated db)
    (ran : statement.exec db = .ok (reply, after))
    (ages : ∀ session, Statement.Ages statement db session (age session))
    (sessions : after.sessions = db.sessions.map age ++ statement.inserted db)
    : ∀ left ∈ after.sessions, ∀ right ∈ after.sessions, left.id = right.id → left = right := by
  intro left leftThere right rightThere same
  rcases aged_or_inserted sessions leftThere with ⟨a, aThere, rfl⟩ | ⟨row, isInsert, rfl⟩ <;>
    rcases aged_or_inserted sessions rightThere with ⟨b, bThere, rfl⟩ | ⟨row', isInsert', rfl⟩
  · rw [(ages a).id, (ages b).id] at same
    rw [separated.ids a aThere b bThere same]
  · rw [(ages a).id] at same
    exact absurd same (inserted_fresh ran isInsert' aThere)
  · rw [(ages b).id] at same
    exact absurd same.symm (inserted_fresh ran isInsert bThere)
  · cases isInsert.symm.trans isInsert'
    rfl

/-- The unique index keeps allocations apart. -/
theorem Separated.keys_after (separated : Separated db) (respected : respects draw statement db)
    (ran : statement.exec db = .ok (reply, after))
    : ∀ left ∈ after.ipamAllocations, ∀ right ∈ after.ipamAllocations,
        left.networkId = right.networkId → left.address = right.address → left = right := by
  have earlier : ∀ row ∈ after.ipamAllocations,
      row ∈ db.ipamAllocations ∨ statement = .insertAllocation row := by
    intro row there
    rcases Statement.allocation_before ran there with ⟨old, _⟩ | new | ⟨user, rfl, _⟩
    · exact Or.inl old
    · exact Or.inr new
    · exact respected.elim
  intro left leftThere right rightThere sameNetwork sameAddress
  rcases earlier left leftThere with leftOld | leftNew <;>
    rcases earlier right rightThere with rightOld | rightNew
  · exact separated.keys left leftOld right rightOld sameNetwork sameAddress
  · subst rightNew
    exact absurd ⟨sameNetwork, sameAddress⟩ ((Statement.insertAllocation_ok ran).1 left leftOld)
  · subst leftNew
    exact absurd ⟨sameNetwork.symm, sameAddress.symm⟩
      ((Statement.insertAllocation_ok ran).1 right rightOld)
  · cases leftNew.symm.trans rightNew
    rfl

/-- A session gets only what is reserved for it, and the reservation stays while it is active. -/
theorem Separated.reserved_after (separated : Separated db)
    (respected : respects draw statement db) (ran : statement.exec db = .ok (reply, after))
    (ages : ∀ session, Statement.Ages statement db session (age session))
    (sessions : after.sessions = db.sessions.map age ++ statement.inserted db)
    : ∀ session ∈ after.sessions, after.Live session → session.assignedIp ≠ placeholderAddress
        → after.Reserved session.networkId session.id session.assignedIp := by
  intro session there live placed
  rcases aged_or_inserted sessions there with ⟨old, member, rfl⟩ | ⟨row, rfl, rfl⟩
  · have oldLive := live_before ran ages live
    have active : ¬ db.Ended old.id := fun ended => ended old member rfl oldLive.1
    have reserved : db.Reserved old.networkId old.id (age old).assignedIp := by
      rcases respected.address ages member oldLive with same | reserved
      · rw [same] at placed ⊢
        exact separated.reserved old member oldLive placed
      · exact reserved
    rw [(ages old).networkId, (ages old).id]
    exact reserved.outlasts ran respected active
  · exact absurd respected placed

/-- No statement takes an address away from a session that counts, and the inserted session waits alone.
-/
theorem Separated.waiting_after (separated : Separated db) (may : keepsApart statement db)
    (respected : respects draw statement db) (ran : statement.exec db = .ok (reply, after))
    (ages : ∀ session, Statement.Ages statement db session (age session))
    (sessions : after.sessions = db.sessions.map age ++ statement.inserted db)
    : ∀ left ∈ after.sessions, ∀ right ∈ after.sessions, after.Live left → after.Live right
        → left.assignedIp = placeholderAddress → right.assignedIp = placeholderAddress
        → left = right := by
  have waited : ∀ old ∈ db.sessions, db.Live old → (age old).assignedIp = placeholderAddress
      → old.assignedIp = placeholderAddress := by
    intro old member live placed
    rcases respected.address ages member live with same | reserved
    · exact same.symm.trans placed
    · exact absurd placed reserved.1.ne_placeholder
  have alone : ∀ row, statement = .insertSession row → db.Live row → ∀ old ∈ db.sessions,
      db.Live old → (age old).assignedIp ≠ placeholderAddress := by
    rintro row rfl live old member oldLive placed
    exact (may live).1 old member oldLive (waited old member oldLive placed)
  intro left leftThere right rightThere leftLive rightLive leftWaits rightWaits
  rcases aged_or_inserted sessions leftThere with ⟨a, aThere, rfl⟩ | ⟨row, isInsert, rfl⟩ <;>
    rcases aged_or_inserted sessions rightThere with ⟨b, bThere, rfl⟩ | ⟨row', isInsert', rfl⟩
  · have aLive := live_before ran ages leftLive
    have bLive := live_before ran ages rightLive
    rw [separated.waiting a aThere b bThere aLive bLive (waited a aThere aLive leftWaits)
      (waited b bThere bLive rightWaits)]
  · exact absurd leftWaits
      (alone row' isInsert' (inserted_live ran rightLive) a aThere (live_before ran ages leftLive))
  · exact absurd rightWaits
      (alone row isInsert (inserted_live ran leftLive) b bThere (live_before ran ages rightLive))
  · cases isInsert.symm.trans isInsert'
    rfl

/-- The inserted session is apart from those that count, and they stay apart. -/
theorem Separated.apart_after (separated : Separated db) (may : keepsApart statement db)
    (ran : statement.exec db = .ok (reply, after))
    (ages : ∀ session, Statement.Ages statement db session (age session))
    (sessions : after.sessions = db.sessions.map age ++ statement.inserted db)
    : ∀ left ∈ after.sessions, ∀ right ∈ after.sessions, after.Live left → after.Live right
        → after.Apart left right := by
  have joins : ∀ row, statement = .insertSession row → db.Live row → ∀ old ∈ db.sessions,
      db.Live old → db.Apart old row := by
    rintro row rfl live old member oldLive
    exact (may live).2.2 old member oldLive
  intro left leftThere right rightThere leftLive rightLive
  rcases aged_or_inserted sessions leftThere with ⟨a, aThere, rfl⟩ | ⟨row, isInsert, rfl⟩ <;>
    rcases aged_or_inserted sessions rightThere with ⟨b, bThere, rfl⟩ | ⟨row', isInsert', rfl⟩
  · have aLive := live_before ran ages leftLive
    have bLive := live_before ran ages rightLive
    exact (separated.apart a aThere b bThere aLive bLive).outlasts ran
      (separated.networks a aThere) (separated.networks b bThere) (ages a).networkId
      (ages b).networkId
  · have apart := joins row' isInsert' (inserted_live ran rightLive) a aThere
      (live_before ran ages leftLive)
    exact apart.outlasts ran (separated.networks a aThere) (inserted_network ran isInsert')
      (ages a).networkId rfl
  · have apart := joins row isInsert (inserted_live ran leftLive) b bThere
      (live_before ran ages rightLive)
    exact apart.symm.outlasts ran (inserted_network ran isInsert) (separated.networks b bThere) rfl
      (ages b).networkId
  · cases isInsert.symm.trans isInsert'
    exact Or.inl rfl

end Sessions

/-- Every statement keeps sessions that count apart, by what it does to each table. -/
theorem Separated.step (separated : Separated db) (may : keepsApart statement db)
    (respected : respects draw statement db) (ran : statement.exec db = .ok (reply, after))
    : Separated after := by
  obtain ⟨age, ages, sessions⟩ := Statement.sessions_exec ran respected.kept
  refine {
    ids := separated.ids_after ran ages sessions
    networks := ?networks
    keys := separated.keys_after respected ran
    reserved := separated.reserved_after respected ran ages sessions
    waiting := separated.waiting_after may respected ran ages sessions
    apart := separated.apart_after may ran ages sessions
    ipv4 := ?ipv4
  }
  case networks =>
    intro session there
    rcases aged_or_inserted sessions there with ⟨old, member, rfl⟩ | ⟨row, isInsert, rfl⟩
    · obtain ⟨network, stored⟩ := separated.networks old member
      rw [(ages old).networkId]
      exact ⟨network, Statement.network_after ran stored⟩
    · obtain ⟨network, stored⟩ := inserted_network ran isInsert
      exact ⟨network, Statement.network_after ran stored⟩
  case ipv4 =>
    intro session there live
    rcases aged_or_inserted sessions there with ⟨old, member, rfl⟩ | ⟨row, rfl, rfl⟩
    · exact (separated.ipv4 old member (live_before ran ages live)).outlasts ran
        (separated.networks old member) (ages old).networkId
    · exact (may (inserted_live ran live)).2.1.outlasts ran (inserted_network ran rfl) rfl

/-- A statement leaves in place what the calls that have drawn another session rely on. -/
theorem exec_undisturbed {draw other : Option Uuid} (respected : respects draw statement db)
    (ran : statement.exec db = .ok (reply, after))
    (drawn : ∀ id host, statement = .updateSessionAssignedIp id host → other ≠ some id)
    : Undisturbed other db after where
  now := (Statement.exec_effect ran).now.ge
  sessions := by
    intro session there
    obtain ⟨new, member, ages⟩ := Statement.session_after ran respected.kept there
    refine ⟨new, member, ages.id, ages.userId, ages.networkId, ages.expiresAt, ?_⟩
    intro own
    rw [ages.assignedIp]
    cases statement with
    | updateSessionAssignedIp id host =>
        have different : session.id ≠ id := by
          rintro rfl
          exact drawn session.id host rfl own
        simp only [Statement.addressAfter, beq_iff_eq, different, if_false]
    | _ => rfl
  ended := by
    intro id known ended session there same active
    rcases Statement.session_before ran respected.kept there with
      ⟨old, member, ages⟩ | ⟨row, rfl, rfl⟩
    · exact ended old member (ages.id.symm.trans same) (ages.active.mp active).1
    · have unused := (Statement.insertSession_ok ran).1
      rw [show row.id = id from same, known] at unused
      cases unused
  networks := fun _ _ stored => Statement.network_after ran stored
  allocations := by
    intro row there id refers known
    rcases Statement.allocation_after ran respected.kept there with stays | ⟨released, rfl, same⟩
    · exact Or.inl stays
    · refine Or.inr ?_
      obtain rfl := Option.some.inj (refers.symm.trans same)
      intro session there same active
      obtain ⟨old, member, ages⟩ :=
        (Statement.session_before ran respected.kept there).resolve_right (by rintro ⟨_, ⟨⟩, _⟩)
      exact respected.2 old member (ages.id.symm.trans same) (ages.active.mp active).1

end Step

/-- The session that a request has drawn. -/
def Request.drawn : Request → Option Uuid
  | .createSession draw _ _ _ => some draw.sessionId
  | _ => none

/-- The session that a call has drawn. -/
def drawOf (requests : List Request) (call : Nat) : Option Uuid :=
  (requests[call]?).bind Request.drawn

/-- No two creations draw the same session: `Uuid::new_v4` does not repeat itself. -/
def DrawsApart (requests : List Request) : Prop :=
  ∀ first second id, drawOf requests first = some id → drawOf requests second = some id
    → first = second

/-- Every call gives an address only to the session that it has drawn. -/
def separation (requests : List Request) (apart : DrawsApart requests) : Contract sql where
  possible := Separated
  later := fun call => Undisturbed (drawOf requests call)
  may := fun statement db => ∀ result, statement.exec db = .ok result → keepsApart statement db
  mayLose := fun _ _ => True
  asserts := fun call => respects (drawOf requests call)
  later_refl := fun call => Undisturbed.refl (drawOf requests call)
  later_trans := Undisturbed.trans
  exec_sound := by
    intro call op state reply after separated may respected ran
    refine ⟨separated.step (may _ ran) respected ran, ?_⟩
    intro other different
    refine exec_undisturbed respected ran ?_
    rintro id host rfl own
    exact different (apart other call id own respected.1)

section Calls

variable {requests : List Request} {apart : DrawsApart requests} {call : Nat}
  {draw : SessionService.Draw} {userId : Uuid} {req : CreateSessionRequest} {row : SessionRow}
  {host : IpNetwork} {db now : Db}

/-- The session is in place. -/
def InPlace (row : SessionRow) (db : Db) : Prop :=
  ∃ session ∈ db.sessions, session.id = row.id ∧ session.networkId = row.networkId

/-- The session has ended, or the host is reserved for it. -/
def Allocated (row : SessionRow) (host : IpNetwork) (db : Db) : Prop :=
  InPlace row db ∧ (∃ addr, IpNetwork.new? addr 32 = some host)
  ∧ (db.Ended row.id ∨ db.Reserved row.networkId row.id host)

/-- The session has the host as its address. -/
def Addressed (row : SessionRow) (host : IpNetwork) (db : Db) : Prop :=
  (∃ addr, IpNetwork.new? addr 32 = some host)
  ∧ ∃ session ∈ db.sessions, session.id = row.id ∧ session.assignedIp = host

theorem InPlace.later {draw : Option Uuid} (undisturbed : Undisturbed draw db now)
    (inPlace : InPlace row db)
    : InPlace row now := by
  obtain ⟨session, there, same, network⟩ := inPlace
  obtain ⟨new, member, id, _, newNetwork, _⟩ := undisturbed.sessions session there
  exact ⟨new, member, id.trans same, newNetwork.trans network⟩

theorem InPlace.known (inPlace : InPlace row db) : db.hasSession row.id = true := by
  obtain ⟨session, there, same, _⟩ := inPlace
  exact List.any_eq_true.mpr ⟨session, there, by simp [same]⟩

theorem Allocated.later {draw : Option Uuid} (undisturbed : Undisturbed draw db now)
    (allocated : Allocated row host db)
    : Allocated row host now := by
  obtain ⟨inPlace, handed, ended | ⟨⟨network, addr, stored, host⟩, there⟩⟩ := allocated
  · exact ⟨inPlace.later undisturbed, handed,
      Or.inl (undisturbed.ended row.id inPlace.known ended)⟩
  · refine ⟨inPlace.later undisturbed, handed, ?_⟩
    rcases undisturbed.allocations _ there row.id rfl inPlace.known with stays | ended
    · exact Or.inr ⟨⟨network, addr, undisturbed.networks _ _ stored, host⟩, stays⟩
    · exact Or.inl ended

theorem Addressed.later (undisturbed : Undisturbed (some row.id) db now)
    (addressed : Addressed row host db)
    : Addressed row host now := by
  obtain ⟨handed, session, there, same, address⟩ := addressed
  obtain ⟨new, member, id, _, _, _, newAddress⟩ := undisturbed.sessions session there
  exact ⟨handed, new, member, id.trans same, (newAddress (by rw [same])).trans address⟩

/-- The stages of a creation: the host is reserved for its session before the session gets it. -/
def addressStages (apart : DrawsApart requests) (call : Nat) (draw : SessionService.Draw)
    (userId : Uuid) (req : CreateSessionRequest)
    (drawn : drawOf requests call = some draw.sessionId)
    : Stages (separation requests apart) call draw userId req where
  inserted := InPlace
  allocated := Allocated
  addressed := fun row host db => row.id = draw.sessionId ∧ Addressed row host db
  inserted_later := InPlace.later
  allocated_later := Allocated.later
  addressed_later := by
    rintro row host db now undisturbed ⟨same, addressed⟩
    refine ⟨same, addressed.later ?_⟩
    rw [same, ← drawn]
    exact undisturbed
  network_later := fun undisturbed stored => undisturbed.networks _ _ stored
  quiet := by
    intro statement db quiet _
    have respected : respects (drawOf requests call) statement db := by
      cases statement <;> trivial
    refine ⟨respected, fun _ _ ran => exec_undisturbed respected ran ?_⟩
    rintro id host rfl
    cases quiet
  insertSession := by
    intro row db new _ _
    refine ⟨new.assignedIp, ?_⟩
    intro _ after ran
    obtain ⟨_, _, rfl⟩ := Statement.insertSession_ok ran
    exact ⟨_, List.mem_append_right _ List.mem_cons_self, rfl, rfl⟩
  insertAllocation := by
    intro row host db new _ inPlace handed _
    refine ⟨trivial, ?_⟩
    intro _ after ran
    obtain ⟨_, _, rfl⟩ := Statement.insertAllocation_ok ran
    rw [← new.networkId] at handed
    obtain ⟨network, addr, stored, member, usable, made⟩ := handed
    refine ⟨inPlace, ⟨addr, made⟩, Or.inr ⟨⟨network, addr, stored, member, usable, made⟩, ?_⟩⟩
    rw [new.networkId, new.id]
    exact List.mem_append_right _ List.mem_cons_self
  updateAddress := by
    intro row host db new separated allocated _
    obtain ⟨⟨stored, there, same, network⟩, handed, owned⟩ := allocated
    refine ⟨⟨drawn, ?_⟩, ?_⟩
    · intro session member isDrawn active
      obtain rfl := separated.ids session member stored there
        (isDrawn.trans (same.trans new.id).symm)
      rcases owned with ended | reserved
      · exact absurd active (ended session member same)
      · rw [network, ← new.id]
        exact reserved
    · intro count after ran
      cases ran
      refine ⟨new.id, handed, _, mem_updateWhere.mpr ⟨stored, there, rfl⟩, ?_⟩
      have own : (stored.id == draw.sessionId) = true := beq_iff_eq.mpr (same.trans new.id)
      simp only [own, if_true]
      exact ⟨same, trivial⟩
  insertPeer := by
    intro session host row db new _ _ addressed _
    refine ⟨trivial, ?_⟩
    intro _ after ran
    obtain ⟨_, _, rfl⟩ := Statement.insertPeer_ok ran
    exact addressed
  bumpGateway := by
    intro row host db new _ addressed _
    refine ⟨trivial, ?_⟩
    intro count after ran
    cases ran
    exact addressed

/-- A revocation releases addresses of sessions that have ended. -/
def releaseStages (apart : DrawsApart requests) (call : Nat)
    : Dismantling (separation requests apart) call where
  ended := fun id db => db.hasSession id = true ∧ db.Ended id
  ended_later := fun undisturbed ended =>
    ⟨undisturbed.hasSession ended.1, undisturbed.ended _ ended.1 ended.2⟩
  lists := by
    rintro statement db ⟨id, rfl | rfl | rfl | ⟨req, rfl⟩⟩ <;> trivial
  update := by
    intro id db _ _
    refine ⟨trivial, ?_⟩
    intro count after ran affected
    cases ran
    refine ⟨?_, updateSessionRevoked_ended⟩
    have some := List.countP_pos_iff.mp (Nat.pos_of_ne_zero affected)
    obtain ⟨session, there, active⟩ := some
    simp only [Db.isActiveSession, Bool.and_eq_true] at active
    rw [Db.hasSession, Db.updateSessionRevoked, any_updateWhere]
    · exact List.any_eq_true.mpr ⟨session, there, active.1⟩
    · exact fun _ => rfl
  dismantle := by
    intro id statement db dismantles _ _ ended
    have respected : respects (drawOf requests call) statement db := by
      rcases dismantles with rfl | rfl | rfl
      · trivial
      · exact ended
      · trivial
    refine ⟨respected, ?_⟩
    intro reply after ran
    have elsewhere : ∀ sessionId host, statement = .updateSessionAssignedIp sessionId host
        → drawOf requests call ≠ some sessionId := by
      rcases dismantles with rfl | rfl | rfl <;> rintro _ _ ⟨⟩
    have later := exec_undisturbed respected ran elsewhere
    exact ⟨later.hasSession ended.1, later.ended id ended.1 ended.2⟩

end Calls

/-- The client has been handed the address that its session has. -/
def Handed (response : CreateSessionResponse) (db : Db) : Prop :=
  ∃ host addr, response.wireguard.interfaceAddress = networkText host
    ∧ IpNetwork.new? addr 32 = some host
    ∧ ∃ session ∈ db.sessions, session.id = response.session.id ∧ session.assignedIp = host

/-- What the answer of a creation says. -/
def handsOut (requests : List Request) (call : Nat) (answer : Answer) (db : Db) : Prop :=
  ∀ response, answer = .session response → drawOf requests call ≠ none → Handed response db

/-- Only creations give addresses, and only those that end sessions release them. -/
theorem respects_of_issues {draw : Option Uuid} {request : Request} {statement : Statement}
    {db : Db}
    (free : request.free = true) (issued : request.issues statement)
    : respects draw statement db := by
  cases statement with
  | insertSession row =>
      obtain ⟨_, _, _, _, rfl, _⟩ := Request.issues_creation rfl issued
      cases free
  | updateSessionAssignedIp id host =>
      obtain ⟨_, _, _, _, rfl, _⟩ := Request.issues_creation rfl issued
      cases free
  | deleteAllocationsOfSession id => cases free_of_issues free issued
  | deleteUser id =>
      obtain rfl := Request.issues_deleteUser issued
      cases free
  | _ => trivial

/-- Every request but the deletion of a user keeps to the contract, by cases on the request. -/
theorem call_separates {state : AppState} {requests : List Request} {apart : DrawsApart requests}
    {request : Request} {call : Nat} {db : Db} (made : requests[call]? = some request)
    (deletes : ∀ id, request ≠ .deleteUser id) (separated : Separated db)
    : (request.call state).Keeps (separation requests apart) call (handsOut requests call) db := by
  have drawn : drawOf requests call = request.drawn := by simp only [drawOf, made, Option.bind_some]
  have silent
      : request.drawn = none
        → ∀ {program : Call Answer},
            program.Keeps (separation requests apart) call (fun _ _ => True) db
              → program.Keeps (separation requests apart) call (handsOut requests call) db := by
    intro undrawn program keeps
    refine Program.Keeps.mono ?_ keeps
    intro answer now _ response _ isDrawn
    exact absurd (drawn.trans undrawn) isDrawn
  have revoking
      : (∃ id, request = .revokeSession id ∨ request = .revokeDevice id
          ∨ ∃ req, request = .updateUser id req)
        → request.drawn = none
        → (request.call state).Keeps (separation requests apart) call (handsOut requests call) db :=
    fun ends undrawn => silent undrawn ((releaseStages apart call).call_keeps ends separated)
  have others
      : request.free = true → request.drawn = none
        → (request.call state).Keeps (separation requests apart) call (handsOut requests call) db := by
    intro free undrawn
    refine silent undrawn (request.call_along.keeps (fun _ _ _ _ => trivial) ?_ trivial)
    intro statement now issued _ _ _
    exact ⟨respects_of_issues free issued, fun _ _ _ => trivial⟩
  cases request with
  | createSession draw userId userEmail req =>
      refine Program.Keeps.bind separated
        (addressStages apart call draw userId req drawn).create_keeps ?_
      rintro _ now _ ⟨row, host, new, isRow, interface, _, ⟨addr, handed⟩, session, there, same, address⟩
        now' later _ response ⟨⟩ _
      obtain ⟨stored, member, id, _, _, _, stays⟩ := later.sessions session there
      have own : drawOf requests call = some session.id := by rw [drawn, same, new.id]; rfl
      exact ⟨host, addr, interface, handed, stored, member, id.trans (same.trans isRow.symm),
        (stays own).trans address⟩
  | revokeSession id => exact revoking ⟨id, Or.inl rfl⟩ rfl
  | revokeDevice id => exact revoking ⟨id, Or.inr (Or.inl rfl)⟩ rfl
  | updateUser id req => exact revoking ⟨id, Or.inr (Or.inr ⟨req, rfl⟩)⟩ rfl
  | deleteUser id => exact absurd rfl (deletes id)
  | _ => exact others rfl rfl

/-- The clock only ends leases. -/
theorem Separated.elapse {db : Db} (separated : Separated db) (passed : Nat)
    : Separated (elapse passed db) := by
  have earlier : ∀ {session : SessionRow},
      Db.Live (WslVpn.elapse passed db) session → db.Live session := by
    rintro session ⟨active, lasting⟩
    have passes : db.now ≤ db.now + passed := Int.le_add_of_nonneg_right (Int.natCast_nonneg passed)
    exact ⟨active, lt_of_le_of_lt passes lasting⟩
  exact {
    ids := separated.ids
    networks := separated.networks
    keys := separated.keys
    reserved := fun session there live => separated.reserved session there (earlier live)
    waiting := fun left leftThere right rightThere leftLive rightLive =>
      separated.waiting left leftThere right rightThere (earlier leftLive) (earlier rightLive)
    apart := fun left leftThere right rightThere leftLive rightLive =>
      separated.apart left leftThere right rightThere (earlier leftLive) (earlier rightLive)
    ipv4 := fun session there live => separated.ipv4 session there (earlier live)
  }

-----------------------------------------------------------------------------------------
-- The lookup
-----------------------------------------------------------------------------------------

/-- Who is behind the address in this state. -/
def identityAt (ip : IpAddr) (db : Db) : Except AppError (Option SessionIdentity) :=
  ((SessionService.identityByIp ip).execute (fun _ db => db) (fun _ => false) 0 db).1

/-- An IPv4 address leads to the session that its query selects. -/
theorem identityAt_selected {ip : IpAddr} {host : IpNetwork} {db : Db} {session : SessionRow}
    {email : String} (v4 : ip.isIpv4 = true) (made : IpNetwork.new? ip 32 = some host)
    (selected : db.identityByIp host = some (session, email))
    : ∃ identity, identityAt ip db = .ok (some identity) ∧ identity.sessionId = session.id := by
  unfold identityAt SessionService.identityByIp
  simp only [v4, if_true, made]
  rw [execute_query_answered rfl rfl, selected]
  exact ⟨_, rfl, rfl⟩

/-- The addresses that count are IPv4 addresses: the placeholder is one. -/
theorem Separated.isIpv4 {db : Db} (separated : Separated db) {session : SessionRow}
    (there : session ∈ db.sessions) (live : db.Live session) {ip : IpAddr}
    (address : IpNetwork.new? ip 32 = some session.assignedIp)
    : ip.isIpv4 = true := by
  by_cases placeholder : session.assignedIp = placeholderAddress
  · rw [placeholder] at address
    cases ip with
    | v4 _ => rfl
    | v6 _ => cases address
  · obtain ⟨⟨network, addr, stored, member, _, made⟩, _⟩ :=
      separated.reserved session there live placeholder
    obtain rfl := IpNetwork.new?_injective made address
    have v4 := separated.ipv4 session there live network stored
    cases addr with
    | v4 _ => rfl
    | v6 address =>
        rcases cidr : network.cidr with block | block
        · rw [cidr] at member
          cases member
        · rw [cidr] at v4
          cases v4

/-- The lookup of an address finds the session that counts and has it. -/
theorem Separated.identityAt {db : Db} (separated : Separated db) {session : SessionRow}
    (there : session ∈ db.sessions) (live : db.Live session)
    (owner : ∃ user ∈ db.users, user.id = session.userId ∧ user.active = true) {ip : IpAddr}
    (address : IpNetwork.new? ip 32 = some session.assignedIp)
    : ∃ identity, WslVpn.identityAt ip db = .ok (some identity)
        ∧ identity.sessionId = session.id := by
  have answers : ∀ other, db.answersFor session.assignedIp other = true
      → other.assignedIp = session.assignedIp ∧ db.Live other := by
    intro other answers
    simp only [Db.answersFor, Bool.and_eq_true, beq_iff_eq, decide_eq_true_eq] at answers
    exact ⟨answers.1.1.1, answers.1.1.2, answers.1.2⟩
  have own : session ∈ db.sessions.filter (db.answersFor session.assignedIp) := by
    obtain ⟨user, member, same, active⟩ := owner
    refine List.mem_filter.mpr ⟨there, ?_⟩
    simp only [Db.answersFor, Bool.and_eq_true, beq_iff_eq, decide_eq_true_eq]
    exact ⟨⟨⟨trivial, live.1⟩, live.2⟩, List.any_eq_true.mpr ⟨user, member, by simp [same, active]⟩⟩
  have chosen : firstBest (fun left right => decide (right.createdAt < left.createdAt))
      (db.sessions.filter (db.answersFor session.assignedIp)) = some session := by
    obtain ⟨best, found⟩ := @firstBest_isSome _
      (fun left right : SessionRow => decide (right.createdAt < left.createdAt)) _ _ own
    obtain ⟨member, isBest⟩ := List.mem_filter.mp (firstBest_mem found)
    obtain ⟨same, bestLive⟩ := answers best isBest
    rw [found, separated.unique member there bestLive live same]
  obtain ⟨user, found⟩ : ∃ user, db.users.find? (·.id == session.userId) = some user := by
    obtain ⟨user, member, same, _⟩ := owner
    exact Option.isSome_iff_exists.mp (List.find?_isSome.mpr ⟨user, member, by simp [same]⟩)
  have selected : db.identityByIp session.assignedIp = some (session, user.email) := by
    simp only [Db.identityByIp, chosen, found, Option.bind_eq_bind, Option.bind_some]
  exact identityAt_selected (separated.isIpv4 there live address) address selected

/-- The address that counts, with the full prefix. -/
theorem Separated.host {db : Db} (separated : Separated db) {session : SessionRow}
    (there : session ∈ db.sessions) (live : db.Live session)
    : IpNetwork.new? session.assignedIp.ip 32 = some session.assignedIp := by
  by_cases placeholder : session.assignedIp = placeholderAddress
  · rw [placeholder]
    rfl
  · obtain ⟨⟨_, addr, _, _, _, made⟩, _⟩ := separated.reserved session there live placeholder
    rw [IpNetwork.ip_of_new? made]
    exact made

-----------------------------------------------------------------------------------------
-- Whole runs
-----------------------------------------------------------------------------------------

namespace ControlPlane

/-- The turn lets no session that counts compete with another one. -/
def KeepsApart (plane : ControlPlane) (turn : Turn) : Prop :=
  ∀ call statement result, turn = .run call → plane.Runs call statement
    → statement.exec plane.state = .ok result → keepsApart statement plane.state

/-- In every run that keeps sessions apart, an address is that of one session that counts, and the
address that a creation has handed out leads to its session.
-/
theorem address_names_one_identity {state : AppState} {requests : List Request} {db : Db}
    {turns : List Turn} (deletes : ∀ id, .deleteUser id ∉ requests) (apart : DrawsApart requests)
    (sessions : db.sessions = []) (allocations : db.ipamAllocations = [])
    (keeps : (start state requests db).Obeys KeepsApart turns)
    {final : ControlPlane} (ends : final = (start state requests db).after turns)
    : (∀ ip, ∀ left ∈ final.state.sessions, ∀ right ∈ final.state.sessions,
        final.state.Live left → final.state.Live right → left.assignedIp.ip = ip
          → right.assignedIp.ip = ip → left = right)
      ∧ ∀ call draw userId userEmail req response,
          requests[call]? = some (.createSession draw userId userEmail req)
          → final.Answered call (.ok (.session response))
          → ∀ session ∈ final.state.sessions, session.id = response.session.id
            → final.state.Live session
            → (∃ user ∈ final.state.users, user.id = session.userId ∧ user.active = true)
            → ∃ host identity, parseNetwork response.wireguard.interfaceAddress = some host
                ∧ identityAt host.ip final.state = .ok (some identity)
                ∧ identity.sessionId = session.id := by
  have separated : Separated db := by
    constructor <;> simp [sessions, allocations]
  have initial : (start state requests db).Kept (separation requests apart)
      (handsOut requests) := by
    refine ⟨separated, ?_⟩
    intro call program found
    rw [start_calls] at found
    obtain ⟨request, made, rfl⟩ := Option.map_eq_some_iff.mp found
    refine call_separates made ?_ separated
    rintro id rfl
    exact deletes id (List.mem_of_getElem? made)
  have admits : (start state requests db).Meets elapse
      (System.Admits (separation requests apart)) turns := by
    refine System.Meets.weaken elapse ?_ keeps
    rintro plane (call | call | passed) meets
    · intro statement next issued result ran
      exact meets call statement result rfl (runs_of_issued issued) ran
    · exact fun _ _ _ => trivial
    · trivial
  have surroundings : ∀ passed db, Separated db
      → Separated (elapse passed db)
        ∧ ∀ call, Undisturbed (drawOf requests call) db (elapse passed db) := by
    intro passed db separated
    refine ⟨separated.elapse passed, fun call => ?_⟩
    refine ⟨?_, ?_, fun _ _ ended => ended, fun _ _ stored => stored, fun _ there _ _ _ => Or.inl there⟩
    · exact Int.le_add_of_nonneg_right (Int.natCast_nonneg passed)
    · exact fun session there => ⟨session, there, rfl, rfl, rfl, rfl, fun _ => rfl⟩
  have kept : final.Kept (separation requests apart) (handsOut requests) := by
    rw [ends]
    exact initial.run surroundings admits
  have separated := kept.possible
  refine ⟨?_, ?_⟩
  · intro ip left leftThere right rightThere leftLive rightLive leftAt rightAt
    have leftHost := separated.host leftThere leftLive
    have rightHost := separated.host rightThere rightLive
    rw [leftAt] at leftHost
    rw [rightAt] at rightHost
    exact separated.unique leftThere rightThere leftLive rightLive
      (Option.some.inj (leftHost.symm.trans rightHost))
  · intro call draw userId userEmail req response made answered session there same live owner
    have drawn : drawOf requests call ≠ none := by
      simp [drawOf, made, Request.drawn]
    obtain ⟨host, addr, interface, handed, stored, member, id, address⟩ :=
      kept.answered answered response rfl drawn
    obtain rfl := separated.ids session there stored member (same.trans id.symm)
    rw [← address] at handed
    obtain ⟨identity, found, named⟩ := separated.identityAt there live owner handed
    refine ⟨host, identity, ?_, ?_, named⟩
    · rw [interface, parseNetwork_networkText]
    · rw [← address, ← IpNetwork.new?_injective handed (separated.host there live)]
      exact found

/-- One creation. -/
def creation (sessionId peerId networkId : Uuid) : Request :=
  .createSession ⟨sessionId, peerId⟩ 1 "ada@example.com" ⟨networkId, 2, []⟩

/-- The small installation with a second network, which has a gateway of its own and is open to the same
user.
-/
def withAnnex (cidr : IpNetwork) : Db := {
  smallInstallation with
  networks := smallInstallation.networks ++ [⟨8, "annex", cidr, [], []⟩]
  gateways := smallInstallation.gateways
    ++ [⟨9, "annex-gw", "annex-key", "vpn:51821", some 8, "", none, none, 0⟩]
  policyVersions := smallInstallation.policyVersions.map (fun row =>
    { row with document := { row.document with spec := { row.document.spec with
      resources := ["lab", "annex"] } } })
}

/-- The annex beside the first network. -/
def disjointNetworks : Db := withAnnex (.v4 ⟨BitVec.ofNat 32 0x0A080200, 24, slash24⟩)

/-- A creation on either network. -/
def bothNetworks : List Request := [creation 6 7 3, creation 10 11 8]

/-- The second creation has read everything it decides by when the first one begins, and goes on when
that one has returned.
-/
def bothCreated : List Turn :=
  List.replicate 7 (.run 1) ++ List.replicate 17 (.run 0) ++ List.replicate 10 (.run 1)

theorem disjointNetworks_disjoint
    : (IpNetwork.v4 ⟨BitVec.ofNat 32 0x0A080100, 24, slash24⟩).Disjoint
        (.v4 ⟨BitVec.ofNat 32 0x0A080200, 24, slash24⟩) := by
  intro address both
  cases address with
  | v4 address =>
      have first := Prefix.contains_iff.mp both.1
      have second := Prefix.contains_iff.mp both.2
      exact absurd (first.symm.trans second) (by decide)
  | v6 address => cases both.1

theorem bothNetworks_apart : DrawsApart bothNetworks := by
  intro first second id drawn drawn'
  match first, second with
  | 0, 0 | 1, 1 => rfl
  | 0, 1 =>
      cases drawn
      cases drawn'
  | 1, 0 =>
      cases drawn
      cases drawn'
  | first + 2, _ => cases drawn
  | _, second + 2 => cases drawn'

/-- The turn inserts no session. -/
def addsNoSession (plane : ControlPlane) : Turn → Bool
  | .run call =>
      match (plane.calls[call]?).bind Program.pending? with
      | some (.insertSession _) => false
      | _ => true
  | _ => true

/-- No turn of the schedule inserts a session. -/
def addNoSessions (plane : ControlPlane) : List Turn → Bool
  | [] => true
  | turn :: rest => plane.addsNoSession turn && addNoSessions (System.handle elapse plane turn) rest

/-- A turn that adds no session has nothing to check. -/
theorem keepsApart_of_addsNoSession {plane : ControlPlane} {turn : Turn}
    (none : plane.addsNoSession turn = true) : plane.KeepsApart turn := by
  rintro call statement result rfl runs _
  rw [Runs] at runs
  simp only [addsNoSession, runs] at none
  cases statement with
  | insertSession => cases none
  | _ => trivial

/-- Nor has a schedule of such turns, by induction on it. -/
theorem obeys_of_addNoSessions {plane : ControlPlane} {turns : List Turn}
    (none : plane.addNoSessions turns = true) : plane.Obeys KeepsApart turns := by
  induction turns generalizing plane with
  | nil => trivial
  | cons turn rest ih =>
      obtain ⟨first, others⟩ := Bool.and_eq_true_iff.mp none
      exact ⟨keepsApart_of_addsNoSession first, ih others⟩

/-- Only the inserts of the sessions have anything to check. -/
theorem bothCreated_keepsApart
    : (start smallState bothNetworks disjointNetworks).Obeys KeepsApart bothCreated := by
  have before : bothCreated = (List.replicate 7 (.run 1) ++ List.replicate 7 (.run 0))
      ++ (.run 0 :: List.replicate 9 (.run 0)) ++ (.run 1 :: List.replicate 9 (.run 1)) := rfl
  rw [before]
  refine (System.meets_append elapse).mpr ⟨(System.meets_append elapse).mpr ⟨?_, ?_, ?_⟩, ?_, ?_⟩
  · exact obeys_of_addNoSessions (by decide +kernel)
  · intro call statement result same runs _
    cases same
    cases runs
    intro _
    refine ⟨?_, ?_, ?_⟩
    · intro session there
      exact absurd there List.not_mem_nil
    · intro network stored
      cases stored
      rfl
    · intro session there
      exact absurd there List.not_mem_nil
  · exact obeys_of_addNoSessions (by decide +kernel)
  · intro call statement result same runs _
    cases same
    cases runs
    intro _
    refine ⟨?_, ?_, ?_⟩
    · intro session there _
      cases List.mem_singleton.mp there
      decide
    · intro network stored
      cases stored
      rfl
    · intro session there _
      cases List.mem_singleton.mp there
      refine Or.inr ?_
      intro first second firstStored secondStored
      cases firstStored
      cases secondStored
      exact disjointNetworks_disjoint
  · exact obeys_of_addNoSessions (by decide +kernel)

def bothPlane : ControlPlane := (start smallState bothNetworks disjointNetworks).after bothCreated

/-- Two sessions on disjoint networks: either address leads to its own session. -/
theorem address_names_one_identity_both
    : ∃ first second early late, bothPlane.Answered 0 (.ok (.session first))
        ∧ bothPlane.Answered 1 (.ok (.session second))
        ∧ bothPlane.state.sessions = [early, late]
        ∧ bothPlane.state.Live early ∧ bothPlane.state.Live late
        ∧ (∃ host identity, parseNetwork first.wireguard.interfaceAddress = some host
            ∧ identityAt host.ip bothPlane.state = .ok (some identity)
            ∧ identity.sessionId = early.id)
        ∧ ∃ host identity, parseNetwork second.wireguard.interfaceAddress = some host
            ∧ identityAt host.ip bothPlane.state = .ok (some identity)
            ∧ identity.sessionId = late.id := by
  have lookup := (address_names_one_identity (by simp [bothNetworks, creation]) bothNetworks_apart rfl
    rfl bothCreated_keepsApart rfl).2
  have owner : ∃ user ∈ bothPlane.state.users, user.id = 1 ∧ user.active = true :=
    ⟨_, List.mem_cons_self, rfl, rfl⟩
  refine ⟨_, _, _, _, rfl, rfl, rfl, ⟨rfl, by decide⟩, ⟨rfl, by decide⟩, ?_, ?_⟩
  · exact lookup 0 ⟨6, 7⟩ 1 "ada@example.com" ⟨3, 2, []⟩ _ rfl rfl _ List.mem_cons_self rfl
      ⟨rfl, by decide⟩ owner
  · exact lookup 1 ⟨10, 11⟩ 1 "ada@example.com" ⟨8, 2, []⟩ _ rfl rfl _
      (List.mem_cons_of_mem _ List.mem_cons_self) rfl ⟨rfl, by decide⟩ owner

/-- The annex inside the first network. -/
def overlappingNetworks : Db := withAnnex (.v4 ⟨BitVec.ofNat 32 0x0A080100, 25, by decide⟩)

/-- Sessions on networks that overlap. -/
def overlappingPlane : ControlPlane :=
  (start smallState [creation 6 7 3, creation 10 11 8] overlappingNetworks).after
    (List.replicate 17 (.run 0) ++ [.env 1] ++ List.replicate 17 (.run 1))

/-- Both sessions are handed the address 10.8.1.2, and its lookup names the later one. -/
theorem overlap_names_another_session
    : ∃ first second early late, overlappingPlane.Answered 0 (.ok (.session first))
        ∧ overlappingPlane.Answered 1 (.ok (.session second))
        ∧ first.wireguard.interfaceAddress = second.wireguard.interfaceAddress
        ∧ overlappingPlane.state.sessions = [early, late]
        ∧ overlappingPlane.state.Live early ∧ overlappingPlane.state.Live late
        ∧ first.session.id = early.id ∧ early.id ≠ late.id ∧ early.assignedIp = late.assignedIp
        ∧ (∃ user ∈ overlappingPlane.state.users, user.id = early.userId ∧ user.active = true)
        ∧ ∃ identity, identityAt early.assignedIp.ip overlappingPlane.state = .ok (some identity)
            ∧ identity.sessionId = late.id :=
  ⟨_, _, _, _, rfl, rfl, rfl, rfl, ⟨rfl, by decide⟩, ⟨rfl, by decide⟩, rfl, by decide, rfl,
    ⟨_, List.mem_cons_self, rfl, rfl⟩, identityAt_selected rfl rfl rfl⟩

end ControlPlane

end WslVpn
