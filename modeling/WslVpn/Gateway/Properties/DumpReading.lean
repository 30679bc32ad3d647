import WslVpn.Dns.Lines
import WslVpn.Dns.Numerals
import WslVpn.Separated.Trim
import WslVpn.Gateway.Dump

/-! The gateway finds the peers of an interface in what `wg` shows of it. -/

namespace WslVpn

open AddressSpace
open Dns (Text trim lines isWhitespace IsNumeral numerals_address numerals_ipv4 numerals_ipv6
  numerals_toDigits numerals_append numerals_cons)

-----------------------------------------------------------------------------------------
-- Fields
-----------------------------------------------------------------------------------------

/-- No blank is in the text, and so nothing that ends a field or a line. -/
def Solid (text : Text) : Prop := ∀ char ∈ text, isWhitespace char = false

instance (text : Text) : Decidable (Solid text) :=
  decidable_of_iff _ List.all_iff_forall_prop

variable {text first second : Text} {parts : List Text}

theorem Solid.append (left : Solid first) (right : Solid second) : Solid (first ++ second) :=
  List.forall_mem_append.mpr ⟨left, right⟩

/-- What holds of the signs of parts and of what stands between them, by induction on the parts. -/
theorem forall_mem_intercalate {Holds : Char → Prop} {sign : Char} (between : Holds sign)
    (inside : ∀ part ∈ parts, ∀ char ∈ part, Holds char)
    : ∀ char ∈ [sign].intercalate parts, Holds char := by
  induction parts with
  | nil => exact fun char member => absurd member List.not_mem_nil
  | cons part rest ih =>
      obtain ⟨here, others⟩ := List.forall_mem_cons.mp inside
      cases rest with
      | nil => simpa [List.intercalate] using here
      | cons next rest =>
          rw [List.intercalate_cons_of_ne_nil (List.cons_ne_nil _ _), List.append_assoc]
          refine List.forall_mem_append.mpr ⟨here, ?_⟩
          exact List.forall_mem_cons.mpr ⟨between, ih others⟩

theorem Solid.of_numerals (numerals : ∀ char ∈ text, IsNumeral char) : Solid text :=
  fun char member => (numerals char member).plain.1

theorem Solid.tabless (solid : Solid text) : '\t' ∉ text := by
  intro member
  have blank := solid '\t' member
  cases blank

theorem Solid.unbroken (solid : Solid text) : '\n' ∉ text := by
  intro member
  have blank := solid '\n' member
  cases blank

theorem Solid.trimmed (solid : Solid text) : trim text = text := by
  refine Separated.trimBy_of_trimmed ⟨?_, ?_⟩
  · exact fun char head => solid char (List.mem_of_mem_head? head)
  · exact fun char last => solid char (List.mem_of_getLast? last)

theorem solid_decimal (number : Nat) : Solid (decimalField number) :=
  .of_numerals (numerals_toDigits (by decide) (by decide) number)

theorem solid_key (key : Vector UInt8 32) : Solid (keyField key) := by
  refine Base64.Coding.forall_mem_encode ?_
  decide +kernel

theorem key_ne_nil (key : Vector UInt8 32) : keyField key ≠ [] := by
  intro nothing
  have decoded := @Base64.Coding.decode_encode Base64.standard key.toList
  rw [show Base64.standard.encode key.toList = [] from nothing] at decoded
  have length := key.length_toList
  rw [← Option.some.inj decoded] at length
  cases length

theorem solid_fieldOr {Value : Type} {absent : String} {field : Value → Text} {value : Option Value}
    (standIn : Solid absent.toList) (present : ∀ value, Solid (field value))
    : Solid (fieldOr absent field value) := by
  cases value with
  | none => exact standIn
  | some value => exact present value

theorem solid_endpoint (endpoint : IpAddr × Fin 65536) : Solid (endpointField endpoint) := by
  obtain ⟨address, port⟩ := endpoint
  have number := solid_decimal port
  cases address with
  | v4 address =>
      refine Solid.append (.of_numerals (numerals_ipv4 address)) ?_
      exact List.forall_mem_cons.mpr ⟨rfl, number⟩
  | v6 address =>
      refine List.forall_mem_cons.mpr ⟨rfl, ?_⟩
      refine Solid.append (Solid.append (.of_numerals (numerals_ipv6 address)) ?_) number
      decide

theorem numerals_network (network : IpNetwork) : ∀ char ∈ network.render, IsNumeral char := by
  refine numerals_append (numerals_address network.ip) ?_
  exact numerals_cons (by decide) (numerals_toDigits (by decide) (by decide) network.prefixLength)

theorem render_ne_nil (network : IpNetwork) : network.render ≠ [] := by
  simp [IpNetwork.render]

/-- The written networks. -/
theorem rendered (ips : List IpNetwork)
    : ∀ part ∈ ips.map IpNetwork.render, ∃ network : IpNetwork, part = network.render := by
  intro part member
  obtain ⟨network, _, same⟩ := List.mem_map.mp member
  exact ⟨network, same.symm⟩

theorem solid_ips (ips : List IpNetwork) : Solid (ipsField ips) := by
  rw [ipsField]
  split
  · decide
  · refine forall_mem_intercalate rfl ?_
    intro part member
    obtain ⟨network, rfl⟩ := rendered ips part member
    exact Solid.of_numerals (numerals_network network)

/-- Networks that are written out are not taken for an absent value. -/
theorem intercalate_slash {network : IpNetwork} {ips : List IpNetwork}
    : '/' ∈ [','].intercalate ((network :: ips).map IpNetwork.render) := by
  have slash : '/' ∈ network.render := by simp [IpNetwork.render]
  cases ips with
  | nil => simpa [List.intercalate] using slash
  | cons next ips =>
      rw [List.map_cons, List.intercalate_cons_of_ne_nil (by simp), List.append_assoc]
      exact List.mem_append_left _ slash

/-- The allowed-ips are read back. -/
theorem dumpedIps_ipsField (ips : List IpNetwork)
    : dumpedIps (ipsField ips) = ips.map networkText := by
  cases ips with
  | nil => rfl
  | cons network ips =>
      have slash := @intercalate_slash network ips
      have present : ¬ ([','].intercalate ((network :: ips).map IpNetwork.render) = "(none)".toList
          ∨ [','].intercalate ((network :: ips).map IpNetwork.render) = []) := by
        intro absent
        rcases absent with standIn | nothing
        · rw [standIn] at slash
          exact absurd slash (by decide)
        · rw [nothing] at slash
          cases slash
      have alone : ∀ part ∈ (network :: ips).map IpNetwork.render, ',' ∉ part := by
        intro part member comma
        obtain ⟨network, rfl⟩ := rendered _ part member
        exact (numerals_network network ',' comma).plain.2.2 rfl
      have parts : ([','].intercalate ((network :: ips).map IpNetwork.render)).splitOn ','
          = (network :: ips).map IpNetwork.render := List.splitOn_intercalate ',' alone (by simp)
      have solid : ∀ part ∈ (network :: ips).map IpNetwork.render, trim part = part := by
        intro part member
        obtain ⟨network, rfl⟩ := rendered _ part member
        exact (Solid.of_numerals (numerals_network network)).trimmed
      have trimmed : ((network :: ips).map IpNetwork.render).map trim
          = (network :: ips).map IpNetwork.render :=
        (List.map_congr_left solid).trans (List.map_id _)
      have whole : ((network :: ips).map IpNetwork.render).filter (· ≠ [])
          = (network :: ips).map IpNetwork.render := by
        refine List.filter_eq_self.mpr ?_
        intro part member
        obtain ⟨network, rfl⟩ := rendered _ part member
        exact decide_eq_true (render_ne_nil network)
      rw [ipsField, if_neg (List.cons_ne_nil _ _), dumpedIps, if_neg present, parts, trimmed, whole,
        List.map_map]
      rfl

theorem solid_fwmark (mark : Nat) : Solid (fwmarkField mark) :=
  Solid.append (by decide) (.of_numerals (numerals_toDigits (by decide) (by decide) mark))

-----------------------------------------------------------------------------------------
-- Lines
-----------------------------------------------------------------------------------------

theorem ShownPeer.solid (peer : ShownPeer) : ∀ field ∈ peer.fields, Solid field := by
  simp only [ShownPeer.fields, List.forall_mem_cons, List.not_mem_nil, false_imp_iff, implies_true,
    and_true]
  exact ⟨solid_key _, solid_fieldOr (by decide) solid_key, solid_fieldOr (by decide) solid_endpoint,
    solid_ips _, solid_decimal _, solid_decimal _, solid_decimal _,
    solid_fieldOr (by decide) solid_decimal⟩

theorem ShownInterface.solid (shown : ShownInterface) : ∀ field ∈ shown.fields, Solid field := by
  simp only [ShownInterface.fields, List.forall_mem_cons, List.not_mem_nil, false_imp_iff,
    implies_true, and_true]
  exact ⟨solid_fieldOr (by decide) solid_key, solid_fieldOr (by decide) solid_key, solid_decimal _,
    solid_fieldOr (by decide) solid_fwmark⟩

/-- A line is read as the fields that it was put together of. -/
theorem lines_dumpLine (solid : ∀ field ∈ parts, Solid field) (back : Text)
    : lines (dumpLine parts ++ back) = ['\t'].intercalate parts :: lines back := by
  have inside : ∀ char ∈ ['\t'].intercalate parts, char ≠ '\n' ∧ char ≠ '\r' := by
    refine forall_mem_intercalate (by decide) ?_
    intro field member char there
    have visible := solid field member char there
    constructor
    · rintro rfl
      cases visible
    · rintro rfl
      cases visible
  have unbroken : '\n' ∉ ['\t'].intercalate parts := fun member => (inside '\n' member).1 rfl
  have kept : Dns.dropReturn (['\t'].intercalate parts) = ['\t'].intercalate parts := by
    refine if_neg ?_
    intro last
    exact (inside '\r' (List.mem_of_getLast? last)).2 rfl
  rw [dumpLine, List.append_assoc, List.singleton_append, Dns.lines_cons unbroken, kept]

/-- So are the lines of the peers, by induction on them. -/
theorem lines_peers (peers : List ShownPeer)
    : lines (peers.flatMap (fun peer => dumpLine peer.fields))
      = peers.map (fun peer => ['\t'].intercalate peer.fields) := by
  induction peers with
  | nil => rfl
  | cons peer peers ih => rw [List.flatMap_cons, lines_dumpLine peer.solid, ih, List.map_cons]

theorem dumpedPeer_fields (peer : ShownPeer)
    : dumpedPeer (['\t'].intercalate peer.fields) = some peer.live := by
  have parts : (['\t'].intercalate peer.fields).splitOn '\t' = peer.fields :=
    List.splitOn_intercalate '\t' (fun field member => (peer.solid field member).tabless) (by simp [ShownPeer.fields])
  rw [dumpedPeer, parts]
  simp only [ShownPeer.fields, if_neg (key_ne_nil peer.publicKey), dumpedIps_ipsField]
  rfl

/-- Whatever an interface has been told and has seen, the gateway reads from its dump the keys of the
peers and what each may send from, in order, and nothing else.
-/
theorem parseWgDump_dump (shown : ShownInterface)
    : parseWgDump shown.dump = shown.peers.map ShownPeer.live := by
  have each (peer : ShownPeer) : dumpedPeer (['\t'].intercalate peer.fields) = some peer.live :=
    dumpedPeer_fields peer
  rw [parseWgDump, ShownInterface.dump, lines_dumpLine shown.solid, lines_peers, List.drop_one,
    List.tail_cons, List.filterMap_map]
  simp [each]

end WslVpn
