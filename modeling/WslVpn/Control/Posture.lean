import WslVpn.Control.Policy

/-! What a policy asks of a device, as what its signals say. -/

namespace WslVpn

/-- A check of the name has passed. -/
def Passes (posture : List PostureSignal) (name : String) : Prop :=
  ∃ signal ∈ posture, signal.name = name ∧ signal.result = .pass

/-- There are signals, and none of them is a failure or unknown. -/
def Complies (posture : List PostureSignal) : Prop :=
  posture ≠ [] ∧ ∀ signal ∈ posture, signal.result = .pass ∨ signal.result = .unsupported

/-- The device meets the requirements: the named signals, or the blanket check in their place. -/
def DeviceRequirements.Met (device : DeviceRequirements) (posture : List PostureSignal)
    (managed : Bool) : Prop :=
  (device.managed = some true → managed = true)
  ∧ (device.requiredSignals ≠ [] → ∀ name ∈ device.requiredSignals, Passes posture name)
  ∧ (device.requiredSignals = [] → device.compliant = some true → Complies posture)

theorem any_passes {posture : List PostureSignal} {name : String}
    : posture.any (fun signal => signal.name == name && signal.result == .pass) = true
      ↔ Passes posture name := by
  simp [Passes]

theorem deviceReportsManaged_iff {posture : List PostureSignal}
    : deviceReportsManaged posture = true ↔ Passes posture deviceManagementSignal :=
  any_passes

theorem deviceOk_iff {policy : AccessPolicyDocument} {input : EvaluationInput}
    : deviceOk policy input = true ↔ policy.spec.device.Met input.posture input.deviceManaged := by
  unfold deviceOk DeviceRequirements.Met
  by_cases refused : (policy.spec.device.managed == some true && !input.deviceManaged) = true
  · rw [if_pos refused]
    rw [Bool.and_eq_true, beq_iff_eq, Bool.not_eq_true'] at refused
    simp [refused]
  · have managed : policy.spec.device.managed = some true → input.deviceManaged = true := by
      intro asks
      simpa [asks] using refused
    rw [if_neg refused]
    cases named : policy.spec.device.requiredSignals with
    | cons first rest =>
        simp only [List.isEmpty_cons, Bool.not_false, if_true, List.all_eq_true, any_passes]
        exact ⟨fun meets => ⟨managed, fun _ => meets, fun none => by cases none⟩,
          fun meets => meets.2.1 (List.cons_ne_nil _ _)⟩
    | nil =>
        simp only [List.isEmpty_nil, Bool.not_true, Bool.false_eq_true, if_false]
        by_cases compliant : policy.spec.device.compliant = some true
        · cases posture : input.posture with
          | nil => simp [compliant, Complies]
          | cons signal rest => simpa [compliant, Complies] using fun _ _ => managed
        · simpa [compliant] using managed

end WslVpn
