import DarkFactory.Policy.Escalation

namespace DarkFactory

inductive MergeExecutor | human | trustedFinalizer | agent
  deriving DecidableEq, Repr

inductive MergeDecisionKind | blocked | manualMergeRequired | humanMergeAuthorized | finalizerMergeAllowed
  deriving DecidableEq, Repr

structure MergePolicy where
  autoMergeRiskClasses : List RiskClass := []
  mergeMethods : List String := ["squash"]
  mergeAuthorizationGate : Gate := .review
  deriving DecidableEq, Repr

def defaultMergePolicy : MergePolicy := {}

structure MergeRequestContext where
  executor : MergeExecutor
  riskClass : RiskClass
  route : Route
  stage : Stage
  expectedSha : Option String
  headSha : Option String
  humanApprovals : List Decision := []
  gateResults : List GateResult := []
  deriving DecidableEq, Repr

structure MergeDecision where
  kind : MergeDecisionKind
  reason : Option String := none
  mergeMethod : Option String := none
  deriving DecidableEq, Repr

def MergeDecisionKind.authorized (kind : MergeDecisionKind) : Bool :=
  kind = .humanMergeAuthorized || kind = .finalizerMergeAllowed

def gatesNotSatisfiedAtHead (context : MergeRequestContext) (sha : String) : List Gate :=
  unsatisfiedGates context.route context.stage (context.gateResults.filter (·.sha = some sha))

def humanDecisionAt (policy : MergePolicy) (sha : String) (decision : Decision) : Bool :=
  decision.decidedBy = .human && decision.gate = policy.mergeAuthorizationGate &&
    decision.commitSha = some sha

/-- The last human decision on the merge gate bound to the revision, in list order. -/
def latestHumanDecision (context : MergeRequestContext) (policy : MergePolicy) (sha : String) :
    Option Decision :=
  (context.humanApprovals.filter (humanDecisionAt policy sha)).getLast?

def singleMethod (policy : MergePolicy) : Option String :=
  match policy.mergeMethods with
  | [method] => some method
  | _ => none

def authorizeMerge (context : MergeRequestContext) (policy : MergePolicy) (sha : String) : MergeDecision :=
  match latestHumanDecision context policy sha with
  | none =>
    { kind := .manualMergeRequired
      reason := some (s!"no human approval on gate '{policy.mergeAuthorizationGate.value}' bound " ++
        s!"to the final SHA {sha} (ADR-009 p.7, FR-010)") }
  | some latest =>
    if latest.outcome ≠ .approved then
      { kind := .manualMergeRequired
        reason := some (s!"latest human decision on gate '{policy.mergeAuthorizationGate.value}' at " ++
          s!"the final SHA {sha} is '{latest.outcome.value}', not an " ++ "approval (ADR-011 p.2)") }
    else if context.executor = .human then { kind := .humanMergeAuthorized }
    else if policy.autoMergeRiskClasses.contains context.riskClass then
      { kind := .finalizerMergeAllowed, mergeMethod := singleMethod policy }
    else
      { kind := .manualMergeRequired
        reason := some (s!"auto-merge is not enabled for risk class {context.riskClass.value}: " ++
          "manual mode (FR-010; ADR-011 p.2, T-085)") }

def missingAtMerge (context : MergeRequestContext) (sha : String) : List ControlPoint :=
  if isR2OrHigher context.riskClass then
    missingControlPoints context.route context.stage context.riskClass context.humanApprovals (some sha)
  else []

/-- The checks run in a fixed order and the first outcome that fires wins. -/
def evaluateMerge (context : MergeRequestContext) (policy : MergePolicy) : MergeDecision :=
  if context.executor = .agent then
    { kind := .blocked
      reason := some ("merge executor 'agent' is not permitted: agent jobs have no merge " ++
        "authority (FR-004, FR-023)") }
  else
    match context.expectedSha, context.headSha with
    | some expected, some head =>
      if expected ≠ head then
        { kind := .blocked
          reason := some (s!"expected SHA {expected} does not match the observed head " ++
            s!"{head}: merge stopped (FR-011)") }
      else if !(gatesNotSatisfiedAtHead context expected).isEmpty then
        { kind := .blocked
          reason := some (s!"required gates not satisfied at the final SHA {expected}: " ++
            Text.join ", " ((gatesNotSatisfiedAtHead context expected).map Gate.value) ++
            " (T-032; a new SHA invalidates previous passes, ADR-009 p.7)") }
      else if !(missingAtMerge context expected).isEmpty then
        { kind := .blocked
          reason := some (s!"risk class {context.riskClass.value} requires human control points " ++
            s!"approved at the final SHA {expected}: " ++
            Text.join ", " ((missingAtMerge context expected).map ControlPoint.value) ++
            " (ADR-023 p.4/p.5)") }
      else authorizeMerge context policy expected
    | _, _ =>
      { kind := .blocked
        reason := some "cannot verify SHA immutability: expected or head SHA unknown (FR-011)" }

/-- A merge is authorized only at an unchanged head with every gate and control point closed there. -/
theorem evaluateMerge_authorized (context : MergeRequestContext) (policy : MergePolicy)
    (authorized : (evaluateMerge context policy).kind.authorized = true) :
    ∃ sha, context.expectedSha = some sha ∧ context.headSha = some sha ∧
      gatesNotSatisfiedAtHead context sha = [] ∧ missingAtMerge context sha = [] ∧
      evaluateMerge context policy = authorizeMerge context policy sha := by
  unfold evaluateMerge at authorized ⊢
  split at authorized
  · simp [MergeDecisionKind.authorized] at authorized
  · rename_i permitted
    cases expected : context.expectedSha with
    | none => simp [expected, MergeDecisionKind.authorized] at authorized
    | some sha =>
      cases observed : context.headSha with
      | none => simp [expected, observed, MergeDecisionKind.authorized] at authorized
      | some head =>
        simp only [expected, observed] at authorized ⊢
        split at authorized
        · simp [MergeDecisionKind.authorized] at authorized
        · rename_i same
          split at authorized
          · simp [MergeDecisionKind.authorized] at authorized
          · rename_i gates
            split at authorized
            · simp [MergeDecisionKind.authorized] at authorized
            · rename_i points
              simp only [Bool.not_eq_true', Bool.not_eq_false, List.isEmpty_iff] at gates points
              have equal : sha = head := by simpa using same
              subst equal
              refine ⟨sha, rfl, rfl, gates, points, ?_⟩
              simp [permitted, gates, points]

end DarkFactory
