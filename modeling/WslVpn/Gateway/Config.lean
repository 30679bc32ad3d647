import WslVpn.Types

/-! The gateway's own configuration file, as far as it decides what is done to the interface. -/

namespace WslVpn

open AddressSpace

structure WireGuardSection where
  interface : String
  manageInterface : Bool := false
  /-- The interface already exists and carries peers: its port and its key are not the gateway's. -/
  adoptExisting : Bool := false
  publicKey : Option String
  /-- The range on the interface that the control plane owns. -/
  managedRange : Option String

structure GatewayConfigFile where
  wireguard : WireGuardSection

inductive ConfigFileError where
  /-- `wireguard.adopt_existing requires wireguard.public_key`. -/
  | adoptWithoutPublicKey
  /-- `invalid wireguard.managed_range`. -/
  | invalidManagedRange (range : String)
  deriving DecidableEq

namespace GatewayConfigFile

/-- Fail fast on files that would damage an adopted hub. -/
def validate (cfg : GatewayConfigFile) : Except ConfigFileError Unit :=
  if cfg.wireguard.adoptExisting && cfg.wireguard.publicKey.isNone then
    .error .adoptWithoutPublicKey
  else
    match cfg.wireguard.managedRange with
    | none => .ok ()
    | some range =>
        if (parseNetwork range).isSome then .ok () else .error (.invalidManagedRange range)

/-- The range that scopes peer removal: the file's own one, else the network that is served. -/
def managedRange (cfg : GatewayConfigFile) (controlCidr : String) : Option IpNetwork :=
  (cfg.wireguard.managedRange.bind parseNetwork).or (parseNetwork controlCidr)

/-- In a file that passes the checks, a range of its own is used whatever network is served. -/
theorem managedRange_of_validate {cfg : GatewayConfigFile} {range : String}
    (valid : cfg.validate = .ok ()) (own : cfg.wireguard.managedRange = some range)
    (controlCidr : String)
    : (cfg.managedRange controlCidr).isSome = true
      ∧ cfg.managedRange controlCidr = parseNetwork range := by
  have parses : (parseNetwork range).isSome = true := by
    unfold validate at valid
    rw [own] at valid
    split at valid
    · cases valid
    · by_contra unparsed
      simp only [unparsed, if_false] at valid
      cases valid
  obtain ⟨net, parsed⟩ := Option.isSome_iff_exists.mp parses
  rw [managedRange, own, Option.bind_some, parsed, Option.some_or]
  exact ⟨rfl, rfl⟩

end GatewayConfigFile

end WslVpn
