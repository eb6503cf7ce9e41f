import DarkFactory.Policy.Risk
import DarkFactory.Sdd.Normalized

namespace DarkFactory

def specificationGatePolicy : String := "specification-gate"
def specificationGatePolicyVersion : String := "1.0"

structure GateFinding where
  axis : Axis
  code : String
  message : String
  blocking : Bool
  deriving DecidableEq, Repr

structure GateDecisionOverride where
  decidedBy : DecisionSource
  reason : String
  human : decidedBy = .human := by decide
  reasoned : reason ≠ "" := by decide
  deriving DecidableEq

structure GateDecision where
  policy : String := specificationGatePolicy
  policyVersion : String := specificationGatePolicyVersion
  gate : Gate := .specification
  changesetId : String
  changesetRevision : String
  riskClass : RiskClass
  result : GateStatus
  findings : List GateFinding := []
  evidence : List String := []
  explanation : String
  decidedBy : DecisionSource := .policy
  override : Option GateDecisionOverride := none
  decided : result = .passed ∨ result = .failed
  deriving DecidableEq

def acceptanceScenarioCheck : String := "acceptance-scenario"

def defaultSpecGateBlockingCodes : List String :=
  ["baseline_revision_mismatch", "declared_artifact_missing", "duplicate_delta_target", "missing_required_artifact",
    "reconciliation_required_for_high_risk", "requirement_without_acceptance_scenario", "requirement_without_task",
    "requirement_without_verification", "required_evidence_unavailable", "risk_class_lowered_without_policy",
    "scope_contradiction", "self_supersede"]

structure SpecGatePolicy where
  name : String := specificationGatePolicy
  version : String := specificationGatePolicyVersion
  blockingCodes : List String := defaultSpecGateBlockingCodes
  named : name ≠ "" := by decide
  versioned : version ≠ "" := by decide

def sortedTexts (texts : List String) : List String := texts.dedup.insertionSort (· ≤ ·)

def missingArtifactFindings (manifest : ManifestFields) (riskClass : RiskClass) : List AxisFinding :=
  missingSlotFindings manifest riskClass

def riskTransitionFinding (manifestRisk effective : RiskClass) : AxisFinding :=
  if riskOrder effective < riskOrder manifestRisk then
    ⟨.policy, "risk_class_lowered_without_policy",
      "the implementation contract lowers the risk class " ++ manifestRisk.value ++ " -> " ++ effective.value ++
        "; only the formal policy or a human may lower it"⟩
  else
    ⟨.policy, "risk_class_raised",
      "the implementation contract raises the risk class " ++ manifestRisk.value ++ " -> " ++ effective.value⟩

section Gate

-- `folded` is `str.casefold`.
variable {α : Type} {codec : SddCodec α} (folded : String → String)
variable (change : ChangeSet codec.models) (contract : Option ImplementationContract)

def reconciliationFindings (riskClass : RiskClass) : List AxisFinding :=
  if isR2OrHigher riskClass ∧ change.reconciliation.isNone then [planFinding riskClass] else []

def scopeContradictionFindings (contract : ImplementationContract) : List AxisFinding :=
  let inScope := contract.scope.inScope.map fun item => folded (Text.strip item)
  let outOfScope := contract.scope.outOfScope.map fun item => folded (Text.strip item)
  (sortedTexts (inScope.filter (· ∈ outOfScope))).map fun item =>
    ⟨.consistency, "scope_contradiction",
      "scope item " ++ Text.repr item ++ " is approved both in scope and out of scope"⟩

def RequirementVerification.accepts (entry : RequirementVerification) : Bool :=
  entry.checks.any fun check => check.type = acceptanceScenarioCheck

/-- The entries under their requirements, a later one in the place of an earlier. -/
def entriesByRequirement (entries : List RequirementVerification) : String → Option RequirementVerification :=
  entries.foldl (fun table entry => Function.update table entry.requirement (some entry)) fun _ => none

def acceptanceScenarioFindings : List AxisFinding :=
  let entries := entriesByRequirement (verificationEntries change)
  (requirementTargets change).flatMap fun target =>
    if (entries target).any RequirementVerification.accepts then []
    else
      [⟨.completeness, "requirement_without_acceptance_scenario",
        "requirement " ++ Text.repr target ++ " has no " ++ Text.repr acceptanceScenarioCheck ++
          " check in the verification plan"⟩]

def evidenceReferences : List String :=
  sortedTexts ([ArtifactSlot.intent, .spec, .design, .tasks, .verification, .evidence, .reconciliation].filterMap
    change.fields.artifacts ++ (evidenceEntries change).map EvidenceEntry.id)

def gateExplanation (findings : List GateFinding) : String :=
  let blocking := findings.filter GateFinding.blocking
  if blocking ≠ [] then
    "specification gate failed: " ++ toString blocking.length ++ " blocking findings: " ++
      Text.join ", " (sortedTexts (blocking.map GateFinding.code))
  else if findings ≠ [] then
    "specification gate passed: " ++ toString findings.length ++ " non-blocking findings"
  else "specification gate passed: no findings"

def effectiveRisk : RiskClass := contract.elim change.fields.riskClass ImplementationContract.riskClass

/-- The findings the gate weighs: two axes are computed again where the contract moves the risk class. -/
def orderedFindings : List AxisFinding :=
  let normalized := normalize change
  let manifestRisk := change.fields.riskClass
  let effective := effectiveRisk change contract
  let moved := contract.isSome ∧ effective ≠ manifestRisk
  let completeness := if moved then missingArtifactFindings change.fields effective else normalized.completeness
  let policyAxis :=
    if moved then reconciliationFindings change effective ++ [riskTransitionFinding manifestRisk effective]
    else normalized.policy
  (completeness ++ acceptanceScenarioFindings change) ++
    (normalized.consistency ++ contract.elim [] (scopeContradictionFindings folded)) ++
    policyAxis ++ normalized.coverage ++ normalized.evidence

def weigh (policy : SpecGatePolicy) (finding : AxisFinding) : GateFinding :=
  ⟨finding.axis, finding.code, finding.message, finding.code ∈ policy.blockingCodes⟩

def evaluateSpecificationGate (policy : Option SpecGatePolicy := none) : GateDecision :=
  let gatePolicy := policy.getD {}
  let findings := (orderedFindings folded change contract).map (weigh gatePolicy)
  { policy := gatePolicy.name
    policyVersion := gatePolicy.version
    gate := .specification
    changesetId := change.manifest.id
    changesetRevision := change.fields.baseline.revision
    riskClass := effectiveRisk change contract
    result := if findings.any GateFinding.blocking then .failed else .passed
    findings := findings
    evidence := evidenceReferences change
    explanation := gateExplanation findings
    decided := by split <;> simp }

end Gate

end DarkFactory
