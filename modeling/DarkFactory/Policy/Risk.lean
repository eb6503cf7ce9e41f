import DarkFactory.Rules.Gates
import DarkFactory.Rules.Routes

namespace DarkFactory

def isR2OrHigher (riskClass : RiskClass) : Bool := riskOrder .r2 ≤ riskOrder riskClass

structure RiskFacts where
  boundaries : List BoundaryArea := []
  decisionClass : DecisionClass := .knownPath
  irreversible : Bool := false
  regulatedData : Bool := false
  documentationOnly : Bool := false
  factorySelfModification : Bool := false
  deriving DecidableEq, Repr

def classifyRisk (facts : RiskFacts) : RiskClass :=
  if facts.factorySelfModification then .r4
  else if facts.irreversible || facts.regulatedData then .r3
  else if !facts.boundaries.isEmpty || facts.decisionClass = .newPath then .r2
  else if facts.documentationOnly then .r0
  else .r1

/-- `max` over the risk order; on equal rank the first argument stays. -/
def riskMax (left right : RiskClass) : RiskClass := if riskOrder left < riskOrder right then right else left

def effectiveRiskClass (declared : RiskClass) (facts : RiskFacts) (routeFloor : RiskClass) : RiskClass :=
  riskMax (riskMax declared (classifyRisk facts)) routeFloor

def trustedChangePaths : List String :=
  ["src/dark_factory/orchestration/rules/",
   "src/dark_factory/orchestration/policy/",
   "src/dark_factory/changes/risk.py",
   "src/dark_factory/quality/gates/"]

def isTrustedChange (item : String) : Bool :=
  let path := Text.removePrefix (Text.strip item) "./"
  trustedChangePaths.any (fun head => Text.startsWith path head)

def riskFacts (contract : ImplementationContract) : RiskFacts :=
  { boundaries := contract.allowedBoundaries
    factorySelfModification := contract.scope.inScope.any isTrustedChange }

/-- The class of a run: declared and classified facts count only once the contract is approved. -/
def effectiveChangeRiskClass (contract : Option ImplementationContract) (route : Route) : RiskClass :=
  let floor := (routeProfile route).minRiskClass
  match contract with
  | some approved =>
    if approved.approval.isSome then effectiveRiskClass approved.riskClass (riskFacts approved) floor
    else effectiveRiskClass .r0 {} floor
  | none => effectiveRiskClass .r0 {} floor

structure ControlPointBinding where
  stage : Stage
  gate : Gate
  deriving DecidableEq, Repr

def controlPointBinding : ControlPoint → ControlPointBinding
  | .problem => ⟨.specification, .specification⟩
  | .solution => ⟨.planning, .planning⟩
  | .ux => ⟨.specification, .ui⟩
  | .discoveryRelease => ⟨.reviewVerification, .review⟩

def controlPointOrder : List ControlPoint := [.discoveryRelease, .problem, .solution, .ux]

def requiredControlPoints (route : Route) (stage : Stage) (riskClass : RiskClass) : List ControlPoint :=
  controlPointOrder.filter fun point =>
    (controlPointBinding point).stage = stage &&
      decide ((controlPointBinding point).gate ∈ requiredHumanGates route stage riskClass)

/-- A human approval of the gate bound to the given revision; no revision matches an unbound one. -/
def approvesAt (sha : Option String) (gate : Gate) (decision : Decision) : Bool :=
  decision.decidedBy = .human && decision.outcome = .approved && decision.commitSha = sha &&
    decision.gate = gate

def missingControlPoints (route : Route) (stage : Stage) (riskClass : RiskClass)
    (decisions : List Decision) (sha : Option String) : List ControlPoint :=
  (requiredControlPoints route stage riskClass).filter fun point =>
    !decisions.any (approvesAt sha (controlPointBinding point).gate)

theorem missingControlPoints_empty (route : Route) (stage : Stage) (riskClass : RiskClass)
    (decisions : List Decision) (sha : Option String) :
    missingControlPoints route stage riskClass decisions sha = [] ↔
      ∀ point ∈ requiredControlPoints route stage riskClass,
        decisions.any (approvesAt sha (controlPointBinding point).gate) = true := by
  simp [missingControlPoints, List.filter_eq_nil_iff]

theorem riskOrder_riskMax (left right : RiskClass) :
    riskOrder (riskMax left right) = max (riskOrder left) (riskOrder right) := by
  unfold riskMax
  split <;> omega

end DarkFactory
