import WslVpn.AddressSpace.Alignment
import WslVpn.Control.Effects

/-! Which address `allocate` picks. A network keeps three addresses by their position, while the
code tells them by the last octet; the two agree as far as the length of the prefix lines the
network up with the octets.
-/

namespace WslVpn

open AddressSpace

namespace IpamService

/-- The addresses that a network keeps by position: its own one, the first host address for the
gateway, and the broadcast address of IPv4.
-/
def Kept : IpNetwork → IpAddr → Prop
  | .v4 block, .v4 address =>
      address.toNat = block.base ∨ address.toNat = block.base + 1 ∨ address.toNat = block.last
  | .v6 block, .v6 address => address.toNat = block.base ∨ address.toNat = block.base + 1
  | _, _ => False

/-- An address that may be handed out. -/
structure Open (cidr : IpNetwork) (used : List IpAddr) (address : IpAddr) : Prop where
  inside : cidr.contains address = true
  unused : address ∉ used
  notKept : ¬ Kept cidr address

/-- An address with the host prefix of its family. -/
def hostText : IpAddr → String
  | .v4 address => addressText (.v4 address) ++ "/32"
  | .v6 address => addressText (.v6 address) ++ "/128"

/-- The addresses of the network that are taken. -/
def usedAddresses (db : Db) (networkId : Uuid) : List IpAddr :=
  (db.allocatedAddresses networkId).map IpNetwork.ip

/-- The call takes an open address for the session and answers with it, or there is none left. -/
def ChoosesWell (db : Db) (networkId sessionId : Uuid) (cidr : IpNetwork)
    (outcome : Except AppError String × Db) : Prop :=
  match outcome with
  | (.ok text, after) =>
      ∃ host : IpNetwork,
        after.ipamAllocations
          = db.ipamAllocations ++ [{ networkId, address := host, sessionId := some sessionId }]
        ∧ Open cidr (usedAddresses db networkId) host.ip ∧ text = hostText host.ip
  | (.error error, _) =>
      error = .badRequest "no free IP addresses in network"
      ∧ ∀ address, ¬ Open cidr (usedAddresses db networkId) address

/-- The first free address is open, or nothing is. -/
def FirstIsOpen (cidr : IpNetwork) (used : List IpAddr) : Prop :=
  match firstFree cidr used with
  | none => ∀ address, ¬ Open cidr used address
  | some address => address.isIpv4 = true ∧ ¬ Kept cidr address

/-- Where the octets tell the kept addresses well enough. A network of more than 256 addresses
has kept octets at open places as well; one of fewer has kept places at other octets.
-/
def OctetsSuffice : IpNetwork → List IpAddr → Prop
  | .v4 block, used =>
      if block.length < 24 then
        (∃ address, block.contains address = true ∧ skipped (.v4 address) = false
          ∧ .v4 address ∉ used)
        ∨ ∀ address, block.contains address = true → .v4 address ∉ used →
            Kept (.v4 block) (.v4 address)
      else if block.length = 24 then True
      else
        (∀ address, block.contains address = true → address.toNat ≤ block.base + 1 →
          skipped (.v4 address) = true ∨ .v4 address ∈ used)
        ∧ ∀ address, block.contains address = true → address.toNat = block.last →
            skipped (.v4 address) = true ∨ .v4 address ∈ used
            ∨ ∃ between, block.contains between = true ∧ block.base + 1 < between.toNat
              ∧ between.toNat < block.last ∧ .v4 between ∉ used
  | .v6 block, used => ∀ address, block.contains address = true → .v6 address ∈ used

-----------------------------------------------------------------------------------------
-- One call
-----------------------------------------------------------------------------------------

section Call

variable {db : Db} {networkId sessionId : Uuid} {network : NetworkRow} {cidr : IpNetwork}
  {used : List IpAddr}

/-- Nobody has taken an address that is not among the used ones. -/
theorem insertAllocation_unused {host : IpNetwork} (known : db.networkAt networkId = some network)
    (started : db.hasSession sessionId = true)
    (unused : host.ip ∉ usedAddresses db networkId)
    : db.insertAllocation { networkId, address := host, sessionId := some sessionId }
      = .ok ((), { db with
          ipamAllocations := db.ipamAllocations
            ++ [{ networkId, address := host, sessionId := some sessionId }] }) := by
  have alone : db.ipamAllocations.any
      (fun other => other.networkId == networkId && other.address == host) = false := by
    rw [List.any_eq_false]
    intro other member same
    simp only [Bool.and_eq_true, beq_iff_eq] at same
    apply unused
    rw [usedAddresses, Db.allocatedAddresses, List.map_map]
    exact List.mem_map.mpr
      ⟨other, List.mem_filter.mpr ⟨member, by simp [same.1]⟩, by simp [same.2]⟩
  have there : db.hasNetwork networkId = true :=
    List.any_eq_true.mpr
      ⟨network, List.mem_of_find?_eq_some known, by simpa using List.find?_some known⟩
  simp [Db.insertAllocation, alone, there, Db.optionally, started]

/-- What the search finds. -/
theorem firstFree_some {address : IpAddr} (found : firstFree cidr used = some address)
    : cidr.contains address = true ∧ skipped address = false ∧ address ∉ used := by
  have test := List.find?_some found
  simp only [Bool.and_eq_true, Bool.not_eq_true', List.contains_eq_mem, decide_eq_false_iff_not]
    at test
  exact ⟨IpNetwork.mem_iter.mp (List.mem_of_find?_eq_some found), test⟩

/-- What it means that the search finds nothing. -/
theorem firstFree_none
    : firstFree cidr used = none
      ↔ ∀ address, cidr.contains address = true → skipped address = true ∨ address ∈ used := by
  simp only [firstFree, List.find?_eq_none, IpNetwork.mem_iter]
  apply forall_congr'
  intro address
  cases skipped address <;> simp

/-- The first free address is the answer, with the prefix length 32. -/
theorem allocate_alone (known : db.networkAt networkId = some network)
    (started : db.hasSession sessionId = true)
    : match firstFree network.cidr (usedAddresses db networkId) with
      | none =>
          (allocate networkId sessionId).alone db
            = (.error (.badRequest "no free IP addresses in network"), db)
      | some address =>
          ∃ host, IpNetwork.new? address 32 = some host
            ∧ (allocate networkId sessionId).alone db
              = (.ok (addressText address ++ "/32"), { db with
                  ipamAllocations := db.ipamAllocations
                    ++ [{ networkId, address := host, sessionId := some sessionId }] }) := by
  have first : (query (.selectNetworkCidr networkId)).alone db = (.ok (some network.cidr), db) := by
    apply alone_query_ok
    rw [Statement.exec, ← Db.networkAt, known]
    rfl
  have second : (query (.selectAllocatedAddresses networkId)).alone db
      = (.ok (db.allocatedAddresses networkId), db) :=
    alone_query_ok rfl
  cases found : firstFree network.cidr (usedAddresses db networkId) with
  | none =>
      rw [usedAddresses] at found
      rw [allocate, Interleaving.Program.alone_bind_ok first,
        Interleaving.Program.alone_bind_ok second, found]
      rfl
  | some address =>
      obtain ⟨_, _, unused⟩ := firstFree_some found
      obtain ⟨host, made⟩ : ∃ host, IpNetwork.new? address 32 = some host := by
        cases address <;> exact ⟨_, rfl⟩
      refine ⟨host, made, ?_⟩
      have third := insertAllocation_unused known started
        (by rwa [IpNetwork.ip_of_new? made] : host.ip ∉ usedAddresses db networkId)
      rw [usedAddresses] at found
      rw [allocate, Interleaving.Program.alone_bind_ok first,
        Interleaving.Program.alone_bind_ok second, found]
      simp only [made]
      exact Interleaving.Program.alone_bind_ok (alone_query_ok third)

/-- The family of an answer is that of the network. -/
theorem choosesWell_iff (known : db.networkAt networkId = some network)
    (started : db.hasSession sessionId = true)
    : ChoosesWell db networkId sessionId network.cidr ((allocate networkId sessionId).alone db)
      ↔ FirstIsOpen network.cidr (usedAddresses db networkId) := by
  have answer := allocate_alone known started
  unfold FirstIsOpen
  cases found : firstFree network.cidr (usedAddresses db networkId) with
  | none =>
      rw [found] at answer
      simp only [answer, ChoosesWell, true_and]
  | some address =>
      obtain ⟨inside, _, unused⟩ := firstFree_some found
      rw [found] at answer
      obtain ⟨host, made, answer⟩ := answer
      simp only [answer, ChoosesWell]
      have same := IpNetwork.ip_of_new? made
      constructor
      · intro ⟨taken, row, fine, text⟩
        obtain rfl : host = taken := by simpa using row
        rw [same] at fine text
        refine ⟨?_, fine.notKept⟩
        cases address with
        | v4 address => rfl
        | v6 address => simp [hostText, ← String.toList_inj] at text
      · intro ⟨family, fine⟩
        refine ⟨host, rfl, ?_, ?_⟩
        · rw [same]
          exact ⟨inside, unused, fine⟩
        · rw [same]
          cases address with
          | v4 address => rfl
          | v6 address => cases family

end Call

-----------------------------------------------------------------------------------------
-- Octets and positions
-----------------------------------------------------------------------------------------

section Octets

variable {block : Prefix 32} {used : List IpAddr} {address other : BitVec 32}

theorem skipped_iff
    : skipped (.v4 address) = true
      ↔ lastOctet address = 0 ∨ lastOctet address = 255 ∨ lastOctet address = 1 := by
  simp [skipped, or_assoc]

/-- A block of at most 256 addresses has one last octet for each address. -/
theorem lastOctet_of_long (long : 24 ≤ block.length) (inside : block.contains address = true)
    : lastOctet address = block.base % 256 + (address.toNat - block.base)
      ∧ block.base % 256 + block.size ≤ 256 := by
  have fits : block.size ∣ 256 := pow_dvd_pow 2 (by omega : 32 - block.length ≤ 8)
  exact ⟨Prefix.mod_of_contains fits (by decide) inside,
    Prefix.base_mod_add_size_le fits (by decide)⟩

/-- In such a block every address that the octet tells is kept by its position. -/
theorem kept_of_skipped (long : 24 ≤ block.length) (inside : block.contains address = true)
    (told : skipped (.v4 address) = true)
    : Kept (.v4 block) (.v4 address) := by
  obtain ⟨octet, room⟩ := lastOctet_of_long long inside
  have within := Prefix.contains_iff_interval.mp inside
  rw [skipped_iff] at told
  simp only [Kept, Prefix.last]
  omega

/-- In a block of at least 256 addresses every address that is kept by its position is told by
its octet.
-/
theorem skipped_of_kept (short : block.length ≤ 24) (kept : Kept (.v4 block) (.v4 address))
    : skipped (.v4 address) = true := by
  have whole : 256 ∣ block.size := pow_dvd_pow 2 (by omega : 8 ≤ 32 - block.length)
  have start := Prefix.base_mod_of_dvd whole
  have some := block.size_pos
  obtain ⟨count, size⟩ := whole
  rw [skipped_iff, lastOctet]
  simp only [Kept, Prefix.last] at kept
  omega

/-- Between the second and the last address of a small block no octet stops the search. -/
theorem not_skipped_between (long : 24 ≤ block.length) (inside : block.contains address = true)
    (above : block.base + 1 < address.toNat) (below : address.toNat < block.last)
    : skipped (.v4 address) = false := by
  rw [Bool.eq_false_iff]
  intro told
  have kept := kept_of_skipped long inside told
  simp only [Kept] at kept
  omega

/-- The search takes the lowest address that passes. -/
theorem firstFree_le (found : firstFree (.v4 block) used = some (.v4 address))
    (inside : block.contains other = true) (passed : skipped (.v4 other) = false)
    (unused : IpAddr.v4 other ∉ used)
    : address.toNat ≤ other.toNat := by
  have sorted : (IpNetwork.v4 block).iter.Pairwise
      (fun lower higher => ∀ left right, lower = .v4 left → higher = .v4 right →
        left.toNat < right.toNat) := by
    rw [IpNetwork.iter, List.pairwise_map]
    apply List.Pairwise.imp _ block.addresses_sorted
    intro lower higher ascending left right low high
    cases low
    cases high
    exact ascending
  have order := find?_before sorted found (IpNetwork.mem_iter.mpr (by exact inside))
    (by simp [passed, unused] : (!skipped (.v4 other) && !used.contains (.v4 other)) = true)
  cases order with
  | inl same =>
      cases same
      exact Nat.le_refl _
  | inr earlier => exact Nat.le_of_lt (earlier _ _ rfl rfl)

-- In each of the following the cases are those of the search.

/-- Nothing is open where everything that passes is used and all that does not pass is kept. -/
theorem not_open_of_none (long : 24 ≤ block.length) (found : firstFree (.v4 block) used = none)
    (place : IpAddr)
    : ¬ Open (.v4 block) used place := by
  intro fine
  cases place with
  | v4 address =>
      cases firstFree_none.mp found _ fine.inside with
      | inl told => exact fine.notKept (kept_of_skipped long fine.inside told)
      | inr taken => exact fine.unused taken
  | v6 address => cases fine.inside

/-- What is found in an IPv4 network. -/
theorem found_v4 {place : IpAddr} (found : firstFree (.v4 block) used = some place)
    : ∃ address, place = .v4 address ∧ block.contains address = true
        ∧ skipped (.v4 address) = false ∧ .v4 address ∉ used := by
  obtain ⟨inside, passed, unused⟩ := firstFree_some found
  cases place with
  | v4 address => exact ⟨address, rfl, inside, passed, unused⟩
  | v6 address => cases inside

theorem firstIsOpen_short (short : block.length ≤ 24)
    : FirstIsOpen (.v4 block) used
      ↔ (∃ address, block.contains address = true ∧ skipped (.v4 address) = false
          ∧ .v4 address ∉ used)
        ∨ ∀ address, block.contains address = true → .v4 address ∉ used →
            Kept (.v4 block) (.v4 address) := by
  unfold FirstIsOpen
  cases found : firstFree (.v4 block) used with
  | none =>
      have nothing := firstFree_none.mp found
      constructor
      · intro closed
        refine .inr (fun address inside unused => ?_)
        by_contra notKept
        exact closed (.v4 address) ⟨inside, unused, notKept⟩
      · intro either place fine
        rcases either with ⟨address, inside, passed, unused⟩ | full
        · cases nothing (.v4 address) inside with
          | inl told => simp [told] at passed
          | inr taken => exact unused taken
        · cases place with
          | v4 address => exact fine.notKept (full address fine.inside fine.unused)
          | v6 address => cases fine.inside
  | some place =>
      obtain ⟨address, rfl, inside, passed, unused⟩ := found_v4 found
      constructor
      · intro _
        exact .inl ⟨address, inside, passed, unused⟩
      · intro _
        refine ⟨rfl, ?_⟩
        intro kept
        simp [skipped_of_kept short kept] at passed

theorem firstIsOpen_octet (whole : block.length = 24) : FirstIsOpen (.v4 block) used := by
  unfold FirstIsOpen
  cases found : firstFree (.v4 block) used with
  | none => exact not_open_of_none whole.ge found
  | some place =>
      obtain ⟨address, rfl, inside, passed, unused⟩ := found_v4 found
      refine ⟨rfl, ?_⟩
      intro kept
      simp [skipped_of_kept whole.le kept] at passed

theorem firstIsOpen_long (long : 24 ≤ block.length)
    : FirstIsOpen (.v4 block) used
      ↔ (∀ address, block.contains address = true → address.toNat ≤ block.base + 1 →
          skipped (.v4 address) = true ∨ .v4 address ∈ used)
        ∧ ∀ address, block.contains address = true → address.toNat = block.last →
            skipped (.v4 address) = true ∨ .v4 address ∈ used
            ∨ ∃ between, block.contains between = true ∧ block.base + 1 < between.toNat
              ∧ between.toNat < block.last ∧ .v4 between ∉ used := by
  unfold FirstIsOpen
  cases found : firstFree (.v4 block) used with
  | none =>
      have nothing := firstFree_none.mp found
      constructor
      · intro _
        refine ⟨fun address inside _ => nothing (.v4 address) inside,
          fun address inside _ => ?_⟩
        cases nothing (.v4 address) inside with
        | inl told => exact .inl told
        | inr taken => exact .inr (.inl taken)
      · intro _
        exact not_open_of_none long found
  | some place =>
      obtain ⟨address, rfl, inside, passed, unused⟩ := found_v4 found
      have low := Prefix.base_le_of_contains inside
      have high := Prefix.le_last_of_contains inside
      have refuse : ¬ (skipped (.v4 address) = true ∨ .v4 address ∈ used) := by
        simp [passed, unused]
      constructor
      · intro ⟨_, notKept⟩
        simp only [Kept] at notKept
        constructor
        · intro other inside below
          by_contra free
          simp only [not_or, Bool.not_eq_true] at free
          have least := firstFree_le found inside free.1 free.2
          omega
        · intro _ _ _
          exact .inr (.inr ⟨address, inside, by omega, by omega, unused⟩)
      · intro ⟨front, back⟩
        refine ⟨rfl, ?_⟩
        intro kept
        by_cases early : address.toNat ≤ block.base + 1
        · exact refuse (front address inside early)
        · simp only [Kept] at kept
          rcases back address inside (by omega)
              with told | taken | ⟨other, member, above, below, free⟩
          · exact refuse (.inl told)
          · exact refuse (.inr taken)
          · have least :=
              firstFree_le found member (not_skipped_between long member above below) free
            omega

/-- No address of IPv6 gets the host prefix of its family. -/
theorem firstIsOpen_v6 {block : Prefix 128}
    : FirstIsOpen (.v6 block) used
      ↔ ∀ address, block.contains address = true → .v6 address ∈ used := by
  unfold FirstIsOpen
  cases found : firstFree (.v6 block) used with
  | none =>
      have nothing := firstFree_none.mp found
      have full : ∀ address, block.contains address = true → .v6 address ∈ used := by
        intro address inside
        cases nothing (.v6 address) inside with
        | inl told => cases told
        | inr taken => exact taken
      constructor
      · intro _
        exact full
      · intro _ place fine
        cases place with
        | v4 address => cases fine.inside
        | v6 address => exact fine.unused (full address fine.inside)
  | some place =>
      obtain ⟨inside, _, unused⟩ := firstFree_some found
      cases place with
      | v4 address => cases inside
      | v6 address =>
          constructor
          · intro ⟨family, _⟩
            cases family
          · intro full
            exact absurd (full address inside) unused

theorem firstIsOpen_iff {cidr : IpNetwork} : FirstIsOpen cidr used ↔ OctetsSuffice cidr used := by
  cases cidr with
  | v6 block => exact firstIsOpen_v6
  | v4 block =>
      rw [OctetsSuffice]
      split
      · next short => exact firstIsOpen_short short.le
      · next rest =>
          split
          · next whole => exact iff_of_true (firstIsOpen_octet whole) trivial
          · exact firstIsOpen_long (by omega)

end Octets

-----------------------------------------------------------------------------------------
-- The choice
-----------------------------------------------------------------------------------------

/-- The choice is right exactly where the octets suffice. -/
theorem choice_iff (db : Db) (networkId sessionId : Uuid) (network : NetworkRow)
    (known : db.networkAt networkId = some network) (started : db.hasSession sessionId = true)
    : ChoosesWell db networkId sessionId network.cidr ((allocate networkId sessionId).alone db)
      ↔ OctetsSuffice network.cidr (usedAddresses db networkId) :=
  (choosesWell_iff known started).trans firstIsOpen_iff

section Networks

/-- A network with its first session. -/
def firstSession (cidr : IpNetwork) : Db :=
  { Db.empty 0 with
    networks := [{ id := 1, name := "office", cidr, dnsServers := [], dnsDomains := [] }]
    sessions := [{
      id := 2
      userId := 3
      deviceId := 4
      gatewayId := 5
      networkId := 1
      policyId := none
      policyVersion := none
      assignedIp := .v4 (.host 0)
      status := .active
      createdAt := 0
      expiresAt := 60 }] }

/-- `10.0.0.0/24` and `10.0.0.128/25`. -/
def office : IpNetwork := .v4 ⟨IpAddr.ofOctets 10 0 0 0, 24, by decide⟩
def upperHalf : IpNetwork := .v4 ⟨IpAddr.ofOctets 10 0 0 128, 25, (Nat.le_add_right 25 7)⟩

theorem choice_iff_office
    : ChoosesWell (firstSession office) 1 2 office
        ((allocate 1 2).alone (firstSession office)) := by
  apply (choice_iff (firstSession office) 1 2 _ rfl rfl).mpr
  simp [OctetsSuffice, office]

/-- In `10.0.0.128/25` the first session gets the address of the network. -/
theorem network_address_chosen
    : ¬ ChoosesWell (firstSession upperHalf) 1 2 upperHalf
        ((allocate 1 2).alone (firstSession upperHalf)) := by
  intro well
  have known : (firstSession upperHalf).networkAt 1 = some ⟨1, "office", upperHalf, [], []⟩ := rfl
  have first := (choosesWell_iff known rfl).mp well
  have found : firstFree upperHalf [] = some (.v4 (IpAddr.ofOctets 10 0 0 128)) := by
    decide +kernel
  change FirstIsOpen upperHalf [] at first
  rw [FirstIsOpen, found] at first
  exact first.2 (.inl (by decide +kernel))

end Networks

end IpamService

end WslVpn
