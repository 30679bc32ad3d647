import WslVpn.Control.Posture
import WslVpn.Control.Properties.PolicyOrder

/-! A device gains nothing by a worse posture: every rule about the device is met by better signals if it
is met by worse ones.
-/

namespace WslVpn

/-- The same check with a worse result, or with the same. -/
inductive PostureResult.Worsens : PostureResult → PostureResult → Prop where
  | same (result : PostureResult) : Worsens result result
  | unsupported : Worsens .pass .unsupported
  | passUnknown : Worsens .pass .unknown
  | passFail : Worsens .pass .fail
  | unknown : Worsens .unsupported .unknown
  | fail : Worsens .unsupported .fail

/-- Signals of the same names with worse results, and any number of bad ones among them. -/
inductive WorsePosture : List PostureSignal → List PostureSignal → Prop where
  | nil : WorsePosture [] []
  | worsened {signal signal' : PostureSignal} {better worse : List PostureSignal}
    (name : signal'.name = signal.name) (result : signal.result.Worsens signal'.result)
    (rest : WorsePosture better worse)
    : WorsePosture (signal :: better) (signal' :: worse)
  | inserted {signal : PostureSignal} {better worse : List PostureSignal}
    (bad : signal.result = .fail ∨ signal.result = .unknown) (rest : WorsePosture better worse)
    : WorsePosture better (signal :: worse)

/-- What `SessionService::create` evaluates for a device with this posture. -/
def EvaluationInput.reporting (input : EvaluationInput) (posture : List PostureSignal)
    : EvaluationInput :=
  { input with posture, deviceManaged := deviceReportsManaged posture }

theorem PostureResult.Worsens.passed {result : PostureResult} (worsens : result.Worsens .pass)
    : result = .pass := by
  cases worsens
  rfl

/-- What the blanket check takes was taken before. -/
theorem PostureResult.Worsens.complied {result result' : PostureResult}
    (worsens : result.Worsens result')
    (complies : result' = .pass
      ∨ result' = .unsupported) : result = .pass ∨ result = .unsupported := by
  cases worsens <;> simp_all

namespace WorsePosture

variable {better worse : List PostureSignal}

/-- A check that still passes passed before, by induction on the signals. -/
theorem passed (worsens : WorsePosture better worse) {name : String} (passes : Passes worse name)
    : Passes better name := by
  induction worsens with
  | nil => exact passes
  | @worsened signal signal' better worse named result rest ih =>
      obtain ⟨found, member, same, pass⟩ := passes
      rcases List.mem_cons.mp member with rfl | member
      · rw [pass] at result
        exact ⟨signal, List.mem_cons_self, named.symm.trans same, result.passed⟩
      · obtain ⟨before, member, same, pass⟩ := ih ⟨found, member, same, pass⟩
        exact ⟨before, List.mem_cons_of_mem _ member, same, pass⟩
  | inserted bad rest ih =>
      obtain ⟨found, member, same, pass⟩ := passes
      rcases List.mem_cons.mp member with rfl | member
      · rw [pass] at bad
        rcases bad with bad | bad <;> cases bad
      · exact ih ⟨found, member, same, pass⟩

/-- Among signals that meet the blanket check none has been inserted, by induction on the signals.
-/
theorem complied (worsens : WorsePosture better worse)
    (complies : ∀ signal ∈ worse, signal.result = .pass ∨ signal.result = .unsupported)
    : (∀ signal ∈ better, signal.result = .pass ∨ signal.result = .unsupported)
      ∧ better.length = worse.length := by
  induction worsens with
  | nil => exact ⟨complies, rfl⟩
  | worsened named result rest ih =>
      obtain ⟨here, later⟩ := List.forall_mem_cons.mp complies
      obtain ⟨before, lengths⟩ := ih later
      exact ⟨List.forall_mem_cons.mpr ⟨result.complied here, before⟩, congrArg Nat.succ lengths⟩
  | inserted bad rest ih =>
      obtain ⟨here, _⟩ := List.forall_mem_cons.mp complies
      rcases bad with bad | bad <;> simp [bad] at here

/-- The device meets what it met with the worse posture, by cases on what the policy asks. -/
theorem met (worsens : WorsePosture better worse) {device : DeviceRequirements}
    (met : device.Met worse (deviceReportsManaged worse))
    : device.Met better (deviceReportsManaged better) := by
  obtain ⟨managed, named, compliant⟩ := met
  refine ⟨?_, ?_, ?_⟩
  · intro asks
    have reports := deviceReportsManaged_iff.mp (managed asks)
    exact deviceReportsManaged_iff.mpr (worsens.passed reports)
  · intro some name member
    exact worsens.passed (named some name member)
  · intro none asks
    obtain ⟨filled, complies⟩ := compliant none asks
    obtain ⟨before, lengths⟩ := worsens.complied complies
    refine ⟨?_, before⟩
    intro empty
    rw [empty] at lengths
    exact filled (List.length_eq_zero_iff.mp lengths.symm)

end WorsePosture

/-- What a device is allowed with a worse posture it is allowed with the better one, by the same policy and
for as long.
-/
theorem posture_monotone (policies : List AccessPolicyDocument) (input : EvaluationInput)
    {better worse : List PostureSignal} (worsens : WorsePosture better worse)
    (allowed : (evaluate policies (input.reporting worse)).allow = true)
    : ∃ policy,
        policies.find? (Applies · (input.reporting worse)) = some policy
        ∧ policies.find? (Applies · (input.reporting better)) = some policy
        ∧ (evaluate policies (input.reporting worse)).verdict
          = (true, some policy.metadata.name, some policy.spec.session.duration)
        ∧ (evaluate policies (input.reporting better)).verdict
          = (true, some policy.metadata.name, some policy.spec.session.duration) := by
  have worseVerdict := @evaluate_verdict policies (input.reporting worse)
  have betterVerdict := @evaluate_verdict policies (input.reporting better)
  have same : policies.find? (Applies · (input.reporting better))
      = policies.find? (Applies · (input.reporting worse)) := rfl
  cases found : policies.find? (Applies · (input.reporting worse)) with
  | none =>
      rw [found] at worseVerdict
      have denied := congrArg Prod.fst worseVerdict
      rw [PolicyDecision.verdict, allowed] at denied
      cases denied
  | some policy =>
      rw [same] at betterVerdict
      rw [found, Option.map_some, Option.getD_some, ruling] at worseVerdict betterVerdict
      by_cases grants : Grants policy (input.reporting worse) = true
      · have grants' : Grants policy (input.reporting better) = true := by
          rw [Grants, Bool.and_eq_true] at grants ⊢
          exact ⟨deviceOk_iff.mpr (worsens.met (deviceOk_iff.mp grants.1)), grants.2⟩
        rw [if_pos grants] at worseVerdict
        rw [if_pos grants'] at betterVerdict
        exact ⟨policy, rfl, same.trans found, worseVerdict, betterVerdict⟩
      · rw [if_neg grants] at worseVerdict
        have denied := congrArg Prod.fst worseVerdict
        rw [PolicyDecision.verdict, allowed] at denied
        cases denied

def encryptionPolicy : AccessPolicyDocument where
  apiVersion := "wsl.io/v1"
  kind := "AccessPolicy"
  metadata := ⟨"developers-registry"⟩
  spec := {
    subjects := ⟨["developers"], []⟩
    resources := ["registry"]
    device := ⟨none, none, ["disk_encryption"]⟩
    session := ⟨28800⟩
    action := ⟨true⟩
  }

/-- A firewall that is off does not matter to a policy that asks for encryption. -/
theorem posture_monotone_firewall
    : ∃ policy,
        [encryptionPolicy].find? (Applies · (EvaluationInput.reporting
          ⟨"alice@example.com", ["developers"], "registry", [], false⟩
          [⟨"firewall", .fail, none⟩, ⟨"disk_encryption", .pass, none⟩])) = some policy
        ∧ [encryptionPolicy].find? (Applies · (EvaluationInput.reporting
          ⟨"alice@example.com", ["developers"], "registry", [], false⟩
          [⟨"disk_encryption", .pass, none⟩])) = some policy
        ∧ (evaluate [encryptionPolicy] (EvaluationInput.reporting
            ⟨"alice@example.com", ["developers"], "registry", [], false⟩
            [⟨"firewall", .fail, none⟩, ⟨"disk_encryption", .pass, none⟩])).verdict
          = (true, some policy.metadata.name, some policy.spec.session.duration)
        ∧ (evaluate [encryptionPolicy] (EvaluationInput.reporting
            ⟨"alice@example.com", ["developers"], "registry", [], false⟩
            [⟨"disk_encryption", .pass, none⟩])).verdict
          = (true, some policy.metadata.name, some policy.spec.session.duration) :=
  posture_monotone [encryptionPolicy] ⟨"alice@example.com", ["developers"], "registry", [], false⟩
    (.inserted (Or.inl rfl) (.worsened rfl (.same .pass) .nil)) (by decide)

end WslVpn
