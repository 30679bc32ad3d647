import WslVpn.Types

/-! Policy documents and their fail-closed evaluation. -/

namespace WslVpn

structure PolicySubjects where
  groups : List String
  users : List String
  deriving DecidableEq

structure DeviceRequirements where
  managed : Option Bool
  compliant : Option Bool
  requiredSignals : List String
  deriving DecidableEq

/-- The duration is a count of seconds: no accepted notation has a finer unit. -/
structure SessionRequirements where
  duration : Int
  deriving DecidableEq

structure PolicyAction where
  connect : Bool
  deriving DecidableEq

structure AccessPolicySpec where
  subjects : PolicySubjects
  resources : List String
  device : DeviceRequirements
  session : SessionRequirements
  action : PolicyAction
  deriving DecidableEq

structure PolicyMetadata where
  name : String
  deriving DecidableEq

structure AccessPolicyDocument where
  apiVersion : String
  kind : String
  metadata : PolicyMetadata
  spec : AccessPolicySpec
  deriving DecidableEq

structure EvaluationInput where
  userEmail : String
  groups : List String
  resource : String
  posture : List PostureSignal
  deviceManaged : Bool

def matchesSubjects (policy : AccessPolicyDocument) (input : EvaluationInput) : Bool :=
  let subjects := policy.spec.subjects
  if subjects.groups.isEmpty && subjects.users.isEmpty then false
  else
    subjects.groups.any (fun group => input.groups.any (· == group))
    || subjects.users.any (· == input.userEmail)

def deviceManagementSignal : String := "device_management"

def deviceReportsManaged (posture : List PostureSignal) : Bool :=
  posture.any (fun signal => signal.name == deviceManagementSignal && signal.result == .pass)

def deviceOk (policy : AccessPolicyDocument) (input : EvaluationInput) : Bool :=
  if policy.spec.device.managed == some true && !input.deviceManaged then false
  else if !policy.spec.device.requiredSignals.isEmpty then
    policy.spec.device.requiredSignals.all fun name =>
      input.posture.any (fun signal => signal.name == name && signal.result == .pass)
  else if policy.spec.device.compliant == some true then
    if input.posture.isEmpty then false
    else input.posture.all (fun signal => signal.result == .pass || signal.result == .unsupported)
  else true

/-- The answer of a policy that refuses, or of no policy at all. -/
def PolicyDecision.deny (policyName : Option String) (reason : String) : PolicyDecision where
  allow := false
  policyId := none
  policyName := policyName
  policyVersion := none
  gitCommit := none
  reason := reason
  resources := []
  sessionDurationSecs := none

/-- Fail-closed: the first policy that applies to the subject and the resource decides. -/
def evaluate (policies : List AccessPolicyDocument) (input : EvaluationInput) : PolicyDecision :=
  match policies with
  | [] => .deny none "no matching policy (fail-closed)"
  | policy :: rest =>
      if !matchesSubjects policy input then evaluate rest input
      else if !policy.spec.resources.any (fun r => r == input.resource || r == "*") then
        evaluate rest input
      else if !deviceOk policy input then
        .deny (some policy.metadata.name) "device posture or managed requirements not met"
      else if !policy.spec.action.connect then
        .deny (some policy.metadata.name) "policy action.connect is false"
      else {
        allow := true
        policyId := none
        policyName := some policy.metadata.name
        policyVersion := none
        gitCommit := none
        reason := "matched access policy"
        resources := policy.spec.resources
        sessionDurationSecs := some policy.spec.session.duration
      }

end WslVpn
