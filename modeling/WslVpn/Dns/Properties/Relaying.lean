import WslVpn.Dns.Forwarding
import WslVpn.Dns.Properties.ParserSafety

/-! What leaves the machine. A query is sent on only if its name is not the resolver's to answer, never to
the resolver itself, and the client gets one reply with its own id.
-/

namespace WslVpn.Dns

open Octets

/-- How one of the servers is asked. -/
def attempt (net : Network) (transport : Transport) (query : Bytes) (id : Nat)
    (upstream : SocketAddr)
    : Option Bytes :=
  match transport with
  | .udp => forwardUdp net upstream query id
  | .tcp => forwardTcp net upstream query

/-- The query is about a name that is neither the probe's nor overridden. -/
structure Foreign (table : Overrides) (query : Bytes) (question : Wire.Question) : Prop where
  parsed : Wire.parseQuery query = .ok question
  noProbe : toAsciiLowercase question.name ≠ toAsciiLowercase probeName
  noOverride : table.lookup question.name = none

/-- The reply is that of the server that was asked last, and those before it did not answer; or it is an
error, and none of the servers answered.
-/
def Relayed (attempt : SocketAddr → Option Bytes) (servers : List SocketAddr)
    (question : Wire.Question) (served : Served)
    : Prop :=
  (∃ silent last reply, served.asked = silent ++ [last] ∧ (∀ server ∈ silent, attempt server = none)
    ∧ attempt last = some reply ∧ served.reply = some reply)
  ∨ (served.asked = servers ∧ (∀ server ∈ servers, attempt server = none)
    ∧ served.reply = some (Wire.error question Wire.rcodeServfail))

/-- What is asked of others is not the resolver's to answer, and the reply belongs to the query. -/
structure Discreet (config : ServerConfig) (own : SocketAddr) (table : Overrides) (conf : Option Text)
    (net : Network) (transport : Transport) (query : Bytes) (served : Served)
    : Prop where
  foreign
    : served.asked ≠ [] →
        ∃ question, Foreign table query question
          ∧ Relayed (attempt net transport query question.id) (config.upstreams.resolve conf own)
              question served
  listed : served.asked <+: config.upstreams.resolve conf own
  elsewhere : own ∉ served.asked
  silent : served.reply = none ↔ query.length < Wire.headerLen
  sameId
    : ∀ reply, served.reply = some reply → transport = .udp ∨ served.asked = [] →
        Wire.u16At reply 0 = Wire.u16At query 0

-----------------------------------------------------------------------------------------
-- Trying the servers
-----------------------------------------------------------------------------------------

section Trying

variable {attempt : SocketAddr → Option Bytes} {servers : List SocketAddr}

/-- The servers are asked in order, by induction on them. -/
theorem forward_listed : (forward attempt servers).1 <+: servers := by
  induction servers with
  | nil => exact List.prefix_refl _
  | cons server rest ih =>
      rw [forward]
      cases attempt server with
      | some reply => exact List.prefix_append [server] rest
      | none => exact (List.prefix_cons_inj server).mpr ih

/-- Up to the first that answers, by induction on the servers. -/
theorem forward_cases
    : (∃ silent last reply, (forward attempt servers).1 = silent ++ [last]
        ∧ (∀ server ∈ silent, attempt server = none) ∧ attempt last = some reply
        ∧ (forward attempt servers).2 = some reply)
      ∨ ((forward attempt servers).1 = servers ∧ (∀ server ∈ servers, attempt server = none)
        ∧ (forward attempt servers).2 = none) := by
  induction servers with
  | nil => exact Or.inr ⟨rfl, fun _ none => absurd none List.not_mem_nil, rfl⟩
  | cons server rest ih =>
      cases tried : attempt server with
      | some reply =>
          have stops : forward attempt (server :: rest) = ([server], some reply) := by
            rw [forward, tried]
          rw [stops]
          exact Or.inl ⟨[], server, reply, rfl, fun _ none => absurd none List.not_mem_nil, tried, rfl⟩
      | none =>
          have goesOn : forward attempt (server :: rest)
              = (server :: (forward attempt rest).1, (forward attempt rest).2) := by
            rw [forward, tried]
          rw [goesOn]
          rcases ih with ⟨silent, last, reply, asked, before, answered, said⟩ | ⟨asked, all, said⟩
          · refine Or.inl ⟨server :: silent, last, reply, ?_, ?_, answered, said⟩
            · rw [asked]
              rfl
            · exact List.forall_mem_cons.mpr ⟨tried, before⟩
          · refine Or.inr ⟨?_, List.forall_mem_cons.mpr ⟨tried, all⟩, said⟩
            rw [asked]

theorem own_not_mem_resolve {upstreams : Upstreams} {conf : Option Text} {own : SocketAddr}
    : own ∉ upstreams.resolve conf own := by
  intro member
  simpa using (List.mem_filter.mp member).2

end Trying

-----------------------------------------------------------------------------------------
-- Ids
-----------------------------------------------------------------------------------------

section Ids

open Wire

variable {query reply : Bytes} {question : Question} {id rcode : Nat}

/-- The id of a reply that is written for a query is that of the query. -/
theorem u16At_bytes {rest : Bytes} (small : id < 2 ^ 16)
    : u16At (bytes 2 id ++ rest) 0 = some id := by
  have start : (bytes 2 id ++ rest).drop 0 = bytes 2 id ++ rest := List.drop_zero
  rw [u16At_part start length_bytes, number_bytes_of_lt small]

theorem long_of_read (read : parseQuery query ≠ .error .truncated) : headerLen ≤ query.length :=
  Nat.not_lt.mp (fun short => read (truncated_iff.mpr short))

theorem id_of_parseQuery (parsed : parseQuery query = .ok question)
    : u16At query 0 = some question.id ∧ question.id < 2 ^ 16 := by
  have long : 12 ≤ query.length := long_of_read (by simp [parsed])
  obtain ⟨header, labels, tail, composed, _, rfl⟩ := composed_of_parseQuery parsed
  obtain ⟨rest, split⟩ := composed.split
  have size := composed.header.length
  refine ⟨?_, field_lt⟩
  rw [u16At_eq_field (by omega), split, field_append (by omega)]
  rfl

theorem answer_id (parsed : parseQuery query = .ok question) (addresses : List AddressSpace.IpAddr)
    (ttl : UInt32)
    : u16At (answer question addresses ttl) 0 = u16At query 0 := by
  obtain ⟨read, small⟩ := id_of_parseQuery parsed
  rw [read, answer, header]
  simp only [List.append_assoc]
  exact u16At_bytes small

theorem error_id (parsed : parseQuery query = .ok question)
    : u16At (error question rcode) 0 = u16At query 0 := by
  obtain ⟨read, small⟩ := id_of_parseQuery parsed
  rw [read, error, header]
  simp only [List.append_assoc]
  exact u16At_bytes small

/-- What is malformed is refused with the id in its header. -/
theorem malformed_header (refused : parseQuery query = .error (.malformed id rcode))
    : headerLen ≤ query.length ∧ u16At query 0 = some id ∧ id < 2 ^ 16 := by
  have long : 12 ≤ query.length := long_of_read (by simp [refused])
  rw [u16At_eq_field (by omega), malformed_id refused]
  exact ⟨long, rfl, field_lt⟩

theorem refused_id (small : id < 2 ^ 16) : u16At (errorForId id rcode) 0 = some id := by
  rw [errorForId, List.append_assoc]
  exact u16At_bytes small

theorem forwardUdp_id {net : Network} {upstream : SocketAddr}
    (answered : forwardUdp net upstream query id = some reply)
    : u16At reply 0 = some id := by
  simpa using List.find?_some answered

end Ids

-----------------------------------------------------------------------------------------
-- What becomes of a query
-----------------------------------------------------------------------------------------

/-- What becomes of a query, by what is read of it and what the table says. -/
theorem handle_cases (ttl : Nat) (table : Overrides) (query : Bytes)
    : (handle ttl table query = .dropped ∧ Wire.parseQuery query = .error .truncated)
      ∨ (∃ id rcode, handle ttl table query = .refused id rcode
        ∧ Wire.parseQuery query = .error (.malformed id rcode))
      ∨ ∃ question, Wire.parseQuery query = .ok question
        ∧ (handle ttl table query = .probed question
          ∨ (∃ found, handle ttl table query = .answered question found ttl)
          ∨ (handle ttl table query = .forwarded question ∧ Foreign table query question)) := by
  cases parsed : Wire.parseQuery query with
  | error refused =>
      cases refused with
      | truncated => exact Or.inl ⟨by rw [handle, parsed], rfl⟩
      | malformed id rcode => exact Or.inr (Or.inl ⟨id, rcode, by rw [handle, parsed], rfl⟩)
  | ok question =>
      refine Or.inr (Or.inr ⟨question, rfl, ?_⟩)
      rw [handle, parsed]
      by_cases probed : toAsciiLowercase question.name = toAsciiLowercase probeName
      · exact Or.inl (if_pos probed)
      · dsimp only
        rw [if_neg probed]
        cases looked : table.lookup question.name with
        | some found => exact Or.inr (Or.inl ⟨found, rfl⟩)
        | none => exact Or.inr (Or.inr ⟨rfl, parsed, probed, looked⟩)

section Served

variable {config : ServerConfig} {own : SocketAddr} {table : Overrides} {conf : Option Text}
  {net : Network} {transport : Transport} {query : Bytes} {question : Wire.Question}

/-- What is not sent on is answered here. -/
theorem serve_here (here : ∀ question, handle config.ttl table query ≠ .forwarded question)
    : serve config own table conf net transport query
      = ⟨(handle config.ttl table query).reply (fun _ => none), []⟩ := by
  unfold serve
  split
  · next question handled => exact absurd handled (here question)
  · rfl

theorem serve_forwarded (handled : handle config.ttl table query = .forwarded question)
    : serve config own table conf net transport query
      = ⟨some ((forward (attempt net transport query question.id)
            (config.upstreams.resolve conf own)).2.getD (Wire.error question Wire.rcodeServfail)),
          (forward (attempt net transport query question.id)
            (config.upstreams.resolve conf own)).1⟩ := by
  unfold serve
  rw [handled]
  rfl

/-- A query with a header that is not sent on asks nothing of others, and is replied to. -/
theorem discreet_replied {reply : Bytes}
    (here : ∀ question, handle config.ttl table query ≠ .forwarded question)
    (said : (handle config.ttl table query).reply (fun _ => none) = some reply)
    (long : Wire.headerLen ≤ query.length) (sameId : Wire.u16At reply 0 = Wire.u16At query 0)
    : Discreet config own table conf net transport query
        (serve config own table conf net transport query) := by
  rw [serve_here here, said]
  exact {
    foreign := fun asked => absurd rfl asked
    listed := List.nil_prefix
    elsewhere := List.not_mem_nil
    silent := iff_of_false (Option.some_ne_none _) (Nat.not_lt.mpr long)
    sameId := fun _ replied _ => Option.some.inj replied ▸ sameId }

/-- What is sent on comes back from the first server that answers. -/
theorem discreet_forwarded (handled : handle config.ttl table query = .forwarded question)
    (foreign : Foreign table query question)
    : Discreet config own table conf net transport query
        (serve config own table conf net transport query) := by
  have long : Wire.headerLen ≤ query.length := long_of_read (by simp [foreign.parsed])
  have relayed : Relayed (attempt net transport query question.id)
      (config.upstreams.resolve conf own) question
      (serve config own table conf net transport query) := by
    rw [serve_forwarded handled]
    rcases @forward_cases (attempt net transport query question.id)
        (config.upstreams.resolve conf own)
      with ⟨silent, last, reply, asked, before, answered, said⟩ | ⟨asked, all, said⟩
    · exact Or.inl ⟨silent, last, reply, asked, before, answered, by rw [said]; rfl⟩
    · exact Or.inr ⟨asked, all, by rw [said]; rfl⟩
  refine ⟨fun _ => ⟨question, foreign, relayed⟩, ?_, ?_, ?_, ?_⟩
  · rw [serve_forwarded handled]
    exact forward_listed
  · rw [serve_forwarded handled]
    exact fun asked => own_not_mem_resolve (forward_listed.subset asked)
  · rw [serve_forwarded handled]
    exact iff_of_false (Option.some_ne_none _) (Nat.not_lt.mpr long)
  · intro reply said overUdp
    obtain ⟨read, small⟩ := id_of_parseQuery foreign.parsed
    rcases relayed with ⟨silent, last, other, asked, _, answered, same⟩ | ⟨_, _, same⟩
    · rcases overUdp with rfl | nobody
      · rw [said] at same
        cases same
        rw [read]
        exact forwardUdp_id answered
      · rw [nobody] at asked
        exact absurd asked.symm (List.append_ne_nil_of_right_ne_nil _ (List.cons_ne_nil _ _))
    · rw [said] at same
      cases same
      exact error_id foreign.parsed

end Served

/-- Whatever is asked, whatever the network says and whatever the table holds: a name that is overridden
is not told to anybody, the resolver does not ask itself, and the first answer is passed on as it is.
-/
theorem serve_discreet (config : ServerConfig) (own : SocketAddr) (table : Overrides)
    (conf : Option Text) (net : Network) (transport : Transport) (query : Bytes)
    : Discreet config own table conf net transport query
        (serve config own table conf net transport query) := by
  rcases handle_cases config.ttl table query
    with ⟨handled, refused⟩ | ⟨id, rcode, handled, refused⟩ | ⟨question, parsed, handled⟩
  · have nothing : serve config own table conf net transport query = ⟨none, []⟩ := by
      rw [serve_here (by simp [handled]), handled]
      rfl
    rw [nothing]
    exact {
      foreign := fun asked => absurd rfl asked
      listed := List.nil_prefix
      elsewhere := List.not_mem_nil
      silent := iff_of_true rfl (truncated_iff.mp refused)
      sameId := fun _ replied => absurd replied (Option.some_ne_none _).symm }
  · obtain ⟨long, read, small⟩ := malformed_header refused
    exact discreet_replied (by simp [handled]) (by rw [handled]; rfl) long
      ((refused_id small).trans read.symm)
  · have long : Wire.headerLen ≤ query.length := long_of_read (by simp [parsed])
    rcases handled with handled | ⟨found, handled⟩ | ⟨handled, foreign⟩
    · exact discreet_replied (by simp [handled]) (by rw [handled]; rfl) long (answer_id parsed _ _)
    · exact discreet_replied (by simp [handled]) (by rw [handled]; rfl) long (answer_id parsed _ _)
    · exact discreet_forwarded handled foreign

end WslVpn.Dns
