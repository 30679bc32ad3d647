import WslVpn.Control.Requests

/-! The order of the policies. Evaluation takes the first policy that applies, and the query that
reads the policies leaves their order to the database.
-/

namespace WslVpn

/-- The policy is about the subject and the resource. -/
def Applies (policy : AccessPolicyDocument) (input : EvaluationInput) : Bool :=
  matchesSubjects policy input
  && policy.spec.resources.any (fun r => r == input.resource || r == "*")

/-- The policy lets the device connect. -/
def Grants (policy : AccessPolicyDocument) (input : EvaluationInput) : Bool :=
  deviceOk policy input && policy.spec.action.connect

/-- The answer, the name of the policy behind it and the duration of the session. -/
def PolicyDecision.verdict (decision : PolicyDecision) : Bool × Option String × Option Int :=
  (decision.allow, decision.policyName, decision.sessionDurationSecs)

/-- What a policy that applies decides. -/
def ruling (policy : AccessPolicyDocument) (input : EvaluationInput)
    : Bool × Option String × Option Int :=
  if Grants policy input then (true, some policy.metadata.name, some policy.spec.session.duration)
  else (false, some policy.metadata.name, none)

/-- The policies that apply agree: in their name, in whether they grant and for how long. -/
def Unanimous (policies : List AccessPolicyDocument) (input : EvaluationInput) : Prop :=
  ∀ first ∈ policies, ∀ second ∈ policies, Applies first input = true → Applies second input = true
    → first.metadata.name = second.metadata.name ∧ Grants first input = Grants second input
      ∧ (Grants first input = true
        → first.spec.session.duration = second.spec.session.duration)

section Evaluate

variable {policies : List AccessPolicyDocument} {policy other : AccessPolicyDocument}
  {input : EvaluationInput}

/-- The first policy that applies rules, by induction on the policies. -/
theorem evaluate_verdict
    : (evaluate policies input).verdict
      = ((policies.find? (Applies · input)).map (ruling · input)).getD (false, none, none) := by
  induction policies with
  | nil => rfl
  | cons policy rest ih =>
      unfold evaluate
      by_cases subject : matchesSubjects policy input = true
      · by_cases resource : policy.spec.resources.any (fun r => r == input.resource || r == "*")
          = true
        · have applies : Applies policy input = true := by
            simp only [Applies, subject, resource, Bool.and_self]
          simp only [subject, resource, List.find?_cons, applies, Option.map_some, Option.getD_some]
          cases device : deviceOk policy input
          · simp [ruling, Grants, device, PolicyDecision.deny, PolicyDecision.verdict]
          · cases connect : policy.spec.action.connect
            · simp [ruling, Grants, device, connect, PolicyDecision.deny, PolicyDecision.verdict]
            · simp [ruling, Grants, device, connect, PolicyDecision.verdict]
        · have passes : Applies policy input = false := by
            simp only [Applies, subject, Bool.true_and]
            exact Bool.eq_false_iff.mpr resource
          rw [List.find?_cons, passes, ← ih]
          simp only [subject, Bool.eq_false_iff.mpr resource]
          rfl
      · have passes : Applies policy input = false := by
          simp only [Applies, Bool.eq_false_iff.mpr subject, Bool.false_and]
        rw [List.find?_cons, passes, ← ih]
        simp only [Bool.eq_false_iff.mpr subject]
        rfl

/-- A policy that applies and comes first rules. -/
theorem evaluate_cons (applies : Applies policy input = true)
    : (evaluate (policy :: policies) input).verdict = ruling policy input := by
  rw [evaluate_verdict, List.find?_cons, applies]
  rfl

/-- Rulings are equal when the policies agree on everything that is in them. -/
theorem ruling_eq_iff
    : ruling policy input = ruling other input
      ↔ policy.metadata.name = other.metadata.name ∧ Grants policy input = Grants other input
        ∧ (Grants policy input = true
          → policy.spec.session.duration = other.spec.session.duration) := by
  unfold ruling
  cases Grants policy input <;> cases Grants other input <;> simp

end Evaluate

/-- The order of the policies does not matter exactly when those that apply are unanimous. -/
theorem evaluate_order_iff {policies : List AccessPolicyDocument} {input : EvaluationInput}
    : (∀ left right : List AccessPolicyDocument, left.Perm policies → right.Perm policies
        → (evaluate left input).verdict = (evaluate right input).verdict)
      ↔ Unanimous policies input := by
  constructor
  · intro alike first firstThere second secondThere firstApplies secondApplies
    -- Either policy may come first.
    have rulings := alike _ _ (List.perm_cons_erase firstThere).symm
      (List.perm_cons_erase secondThere).symm
    rw [evaluate_cons firstApplies, evaluate_cons secondApplies] at rulings
    exact ruling_eq_iff.mp rulings
  · intro unanimous left right leftOrder rightOrder
    rw [evaluate_verdict, evaluate_verdict]
    cases leftFirst : left.find? (Applies · input) with
    | none =>
        have none : right.find? (Applies · input) = none := by
          rw [List.find?_eq_none] at leftFirst ⊢
          exact fun policy there => leftFirst policy
            ((leftOrder.trans rightOrder.symm).mem_iff.mpr there)
        rw [none]
    | some first =>
        have there := List.mem_of_find?_eq_some leftFirst
        have applies : Applies first input = true := by simpa using List.find?_some leftFirst
        obtain ⟨second, rightFirst⟩ : ∃ second, right.find? (Applies · input) = some second := by
          rw [← Option.isSome_iff_exists, List.find?_isSome]
          exact ⟨first, (leftOrder.trans rightOrder.symm).mem_iff.mp there, applies⟩
        have alsoThere := List.mem_of_find?_eq_some rightFirst
        have alsoApplies : Applies second input = true := by
          simpa using List.find?_some rightFirst
        have agree := unanimous first (leftOrder.mem_iff.mp there) second
          (rightOrder.mem_iff.mp alsoThere) applies alsoApplies
        rw [rightFirst]
        simp only [Option.map_some, Option.getD_some]
        exact ruling_eq_iff.mpr agree

/-- A policy for ada on the network "lab". -/
def labPolicy (name : String) (connect : Bool) : AccessPolicyDocument where
  apiVersion := "wsl.io/v1"
  kind := "AccessPolicy"
  metadata := ⟨name⟩
  spec := {
    subjects := ⟨[], ["ada@example.com"]⟩
    resources := ["lab"]
    device := ⟨none, none, []⟩
    session := ⟨3600⟩
    action := ⟨connect⟩
  }

/-- One policy lets ada in and another one does not: the answer is that of the one read first. -/
theorem evaluate_order_differs
    : let input : EvaluationInput := ⟨"ada@example.com", [], "lab", [], false⟩
      let opens := labPolicy "opens" true
      let closes := labPolicy "closes" false
      [closes, opens].Perm [opens, closes]
      ∧ (evaluate [opens, closes] input).verdict = (true, some "opens", some 3600)
      ∧ (evaluate [closes, opens] input).verdict = (false, some "closes", none) := by
  refine ⟨List.Perm.swap _ _ _, ?_, ?_⟩
  · decide
  · decide

end WslVpn
