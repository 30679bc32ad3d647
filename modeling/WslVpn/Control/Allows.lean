import WslVpn.Control.Posture
import WslVpn.Control.Properties.PolicyOrder

/-! Which policy allows, and which policies can. -/

namespace WslVpn

/-- Evaluation allows, and it is this policy that decides. -/
structure AllowsBy (policies : List AccessPolicyDocument) (input : EvaluationInput)
    (policy : AccessPolicyDocument) : Prop where
  decides : policies.find? (Applies · input) = some policy
  allows : (evaluate policies input).allow = true

/-- The policy allows nobody, whatever the device is. -/
def AccessPolicyDocument.NeverAllows (policy : AccessPolicyDocument) : Prop :=
  policy.spec.action.connect = false ∨ policy.spec.resources = []
  ∨ (policy.spec.subjects.groups = [] ∧ policy.spec.subjects.users = [])

section Allows

variable {policies : List AccessPolicyDocument} {policy : AccessPolicyDocument}
  {input : EvaluationInput}

theorem AllowsBy.ruled (allowed : AllowsBy policies input policy)
    : Applies policy input = true ∧ Grants policy input = true
      ∧ (evaluate policies input).verdict
        = (true, some policy.metadata.name, some policy.spec.session.duration) := by
  have verdict := @evaluate_verdict policies input
  rw [allowed.decides, Option.map_some, Option.getD_some, ruling] at verdict
  by_cases grants : Grants policy input = true
  · rw [if_pos grants] at verdict
    exact ⟨by simpa using List.find?_some allowed.decides, grants, verdict⟩
  · rw [if_neg grants] at verdict
    have denied := congrArg Prod.fst verdict
    rw [PolicyDecision.verdict, allowed.allows] at denied
    cases denied

theorem AllowsBy.met (allowed : AllowsBy policies input policy)
    : policy.spec.device.Met input.posture input.deviceManaged := by
  have grants := allowed.ruled.2.1
  rw [Grants, Bool.and_eq_true] at grants
  exact deviceOk_iff.mp grants.1

theorem AllowsBy.duration (allowed : AllowsBy policies input policy)
    : (evaluate policies input).sessionDurationSecs = some policy.spec.session.duration :=
  congrArg (fun verdict => verdict.2.2) allowed.ruled.2.2

theorem AllowsBy.can (allowed : AllowsBy policies input policy) : ¬ policy.NeverAllows := by
  obtain ⟨applies, grants, _⟩ := allowed.ruled
  rw [Applies, Bool.and_eq_true] at applies
  rw [Grants, Bool.and_eq_true] at grants
  intro never
  rcases never with off | none | nobody
  · rw [off] at grants
    cases grants.2
  · simp [none] at applies
  · simp [matchesSubjects, nobody] at applies

/-- A policy that can allow does so on its own for a device that meets it. -/
theorem allowsBy_alone (can : ¬ policy.NeverAllows) {posture : List PostureSignal} {managed : Bool}
    (met : policy.spec.device.Met posture managed)
    : ∃ input : EvaluationInput, input.posture = posture ∧ AllowsBy [policy] input policy := by
  simp only [AccessPolicyDocument.NeverAllows, not_or, Bool.not_eq_false] at can
  obtain ⟨connect, some, somebody⟩ := can
  obtain ⟨resource, others, resources⟩ := List.exists_cons_of_ne_nil some
  have subject : ∃ email groups, ∀ input : EvaluationInput, input.userEmail = email
      → input.groups = groups →
      matchesSubjects policy input = true := by
    by_cases groups : policy.spec.subjects.groups = []
    · obtain ⟨user, rest, users⟩ := List.exists_cons_of_ne_nil (fun none => somebody ⟨groups, none⟩)
      refine ⟨user, [], ?_⟩
      intro input email _
      simp [matchesSubjects, groups, users, email]
    · obtain ⟨group, rest, groups⟩ := List.exists_cons_of_ne_nil groups
      refine ⟨"", [group], ?_⟩
      intro input _ member
      simp [matchesSubjects, groups, member]
  obtain ⟨email, groups, matching⟩ := subject
  have applies : Applies policy ⟨email, groups, resource, posture, managed⟩ = true := by
    rw [Applies, matching _ rfl rfl]
    simp [resources]
  have grants : Grants policy ⟨email, groups, resource, posture, managed⟩ = true := by
    rw [Grants, connect, deviceOk_iff.mpr met]
    rfl
  refine ⟨⟨email, groups, resource, posture, managed⟩, rfl, ?_, ?_⟩
  · rw [List.find?_cons, applies]
  · have verdict := @evaluate_cons [] policy _ applies
    rw [ruling, if_pos grants] at verdict
    exact congrArg Prod.fst verdict

end Allows

end WslVpn
