import WslVpn.Control.Allows
import WslVpn.Control.PolicyDocument

/-! What a policy asks of a device that says nothing of compliance. -/

namespace WslVpn

/-- The document leaves compliance and the signals to their defaults. -/
structure WrittenDocument.Silent (written : WrittenDocument) : Prop where
  compliant : ∀ device ∈ written.spec.device, device.compliant = none
  requiredSignals : ∀ device ∈ written.spec.device, device.requiredSignals.getD [] = []

variable {readYaml : String → YamlReading} {yaml : String} {written : WrittenDocument}
  {doc : AccessPolicyDocument}

/-- Without the section there is the blanket check, with it there is none. -/
theorem device_of_silent (reads : readYaml yaml = .document written)
    (accepted : parsePolicyYaml readYaml yaml = .ok doc) (silent : written.Silent)
    : doc.spec.device.requiredSignals = []
      ∧ (written.spec.device = none → doc.spec.device.compliant = some true)
      ∧ (written.spec.device ≠ none → doc.spec.device.compliant = none) := by
  obtain ⟨same, reads', read, _⟩ := parsePolicyYaml_ok.mp accepted
  rw [reads] at reads'
  cases reads'
  obtain ⟨session, _, rfl⟩ := read_ok.mp read
  cases device : written.spec.device with
  | none => simp [DeviceRequirements.default]
  | some section_ =>
      have compliant := silent.compliant section_ device
      have requiredSignals := silent.requiredSignals section_ device
      simp [WrittenDevice.read, compliant, requiredSignals]

/-- A policy that says nothing of compliance lets only compliant devices in exactly when it has no device
section, unless it lets nobody in.
-/
theorem compliance_default_iff (reads : readYaml yaml = .document written)
    (accepted : parsePolicyYaml readYaml yaml = .ok doc) (silent : written.Silent)
    : (∀ policies input, AllowsBy policies input doc →
        input.posture ≠ []
        ∧ ∀ signal ∈ input.posture, signal.result = .pass ∨ signal.result = .unsupported)
      ↔ written.spec.device = none ∨ doc.NeverAllows := by
  obtain ⟨unnamed, defaulted, unset⟩ := device_of_silent reads accepted silent
  constructor
  · intro compliance
    by_contra other
    obtain ⟨present, can⟩ := not_or.mp other
    have met : doc.spec.device.Met [] true := by
      refine ⟨fun _ => rfl, fun named => absurd unnamed named, ?_⟩
      intro _ asks
      rw [unset present] at asks
      cases asks
    obtain ⟨input, empty, allowed⟩ := allowsBy_alone can met
    exact (compliance [doc] input allowed).1 empty
  · intro condition policies input allowed
    rcases condition with absent | never
    · exact allowed.met.2.2 unnamed (defaulted absent)
    · exact absurd never allowed.can

def managedYaml : String :=
  "apiVersion: wsl.io/v1\nkind: AccessPolicy\nmetadata:\n  name: developers-registry\nspec:\n"
    ++ "  subjects:\n    groups:\n      - developers\n  resources:\n    - registry\n"
    ++ "  device:\n    managed: true\n"

def managedDocument : WrittenDocument where
  apiVersion := "wsl.io/v1"
  kind := "AccessPolicy"
  metadata := ⟨"developers-registry"⟩
  spec := {
    subjects := ⟨some ["developers"], none⟩
    resources := ["registry"]
    device := some ⟨some (some true), none, none⟩
    session := none
    action := none
  }

def managedPolicy : AccessPolicyDocument where
  apiVersion := "wsl.io/v1"
  kind := "AccessPolicy"
  metadata := ⟨"developers-registry"⟩
  spec := {
    subjects := ⟨["developers"], []⟩
    resources := ["registry"]
    device := ⟨some true, none, []⟩
    session := ⟨28800⟩
    action := ⟨true⟩
  }

/-- A reader that reads the one text. -/
def readManaged (yaml : String) : YamlReading :=
  if yaml = managedYaml then .document managedDocument else .failed "unexpected text" none

theorem readManaged_reads : readManaged managedYaml = .document managedDocument := if_pos rfl

theorem managed_accepted : parsePolicyYaml readManaged managedYaml = .ok managedPolicy :=
  parsePolicyYaml_ok.mpr ⟨managedDocument, readManaged_reads, rfl,
    checkPolicyDocument_ok.mpr ⟨rfl, rfl, by decide⟩⟩

theorem managed_silent : managedDocument.Silent where
  compliant := by
    intro device member
    cases member
    rfl
  requiredSignals := by
    intro device member
    cases member
    rfl

theorem compliance_default_iff_managed
    : (∀ policies input, AllowsBy policies input managedPolicy →
        input.posture ≠ []
        ∧ ∀ signal ∈ input.posture, signal.result = .pass ∨ signal.result = .unsupported)
      ↔ managedDocument.spec.device = none ∨ managedPolicy.NeverAllows :=
  compliance_default_iff readManaged_reads managed_accepted managed_silent

/-- A device that is managed gets in with its disk encryption off. -/
theorem managed_not_compliant
    : readManaged managedYaml = .document managedDocument
      ∧ parsePolicyYaml readManaged managedYaml = .ok managedPolicy ∧ managedDocument.Silent
      ∧ ∃ input, AllowsBy [managedPolicy] input managedPolicy
        ∧ ⟨"disk_encryption", .fail, none⟩ ∈ input.posture := by
  refine ⟨readManaged_reads, managed_accepted, managed_silent,
    ⟨"alice@example.com", ["developers"], "registry",
      [⟨"device_management", .pass, none⟩, ⟨"disk_encryption", .fail, none⟩], true⟩, ⟨?_, ?_⟩, ?_⟩
  · decide
  · decide
  · exact List.mem_cons_of_mem _ List.mem_cons_self

end WslVpn
