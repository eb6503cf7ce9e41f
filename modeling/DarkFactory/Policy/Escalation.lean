import DarkFactory.Policy.Risk

namespace DarkFactory

def riskObligations (riskClass : RiskClass) (route : Route) (stage : Stage) (decisions : List Decision)
    (sha : Option String) : List String :=
  let profile := routeProfile route
  let missing := missingControlPoints route stage riskClass decisions sha
  (if routeAllowsRisk route riskClass then []
    else [s!"route {Text.repr route.value} does not allow risk class {riskClass.value} " ++
      s!"(band {profile.minRiskClass.value}-{profile.maxRiskClass.value})"]) ++
  (if missing.isEmpty then []
    else [s!"no human approval on the control points of stage {Text.repr stage.value}: " ++
      Text.join ", " (missing.map ControlPoint.value)])

/-- Unmet obligations of a class from R2 up: the route band and the control points of the stage. -/
def riskEscalationViolation (riskClass : RiskClass) (route : Route) (stage : Stage)
    (decisions : List Decision) (sha : Option String) : Option EscalationViolation :=
  if !isR2OrHigher riskClass then none
  else
    let unmet := riskObligations riskClass route stage decisions sha
    if unmet.isEmpty then none
    else some ⟨.riskRaisedToR2,
      s!"risk class {riskClass.value} obligations are not met: " ++ Text.join "; " unmet⟩

def autonomyBudgetViolation (contract : Option ImplementationContract) (iterationsUsed : Nat) :
    Option EscalationViolation :=
  match contract with
  | none => none
  | some contract =>
    let allowed := contract.budget.maxAutonomousIterations
    if iterationsUsed < allowed then none
    else some ⟨.autonomyBudgetExhausted,
      s!"autonomous iteration budget exhausted: {iterationsUsed}/{allowed} iterations used"⟩

def escalationStopReason (escalations : List EscalationViolation) : Option String :=
  if escalations.isEmpty then none
  else some (Text.join "; " (escalations.map fun violation => s!"{violation.rule.value}: {violation.reason}"))

theorem escalationStopReason_none (escalations : List EscalationViolation) :
    escalationStopReason escalations = none ↔ escalations = [] := by
  cases escalations <;> simp [escalationStopReason]

theorem riskEscalationViolation_none (riskClass : RiskClass) (route : Route) (stage : Stage)
    (decisions : List Decision) (sha : Option String) :
    riskEscalationViolation riskClass route stage decisions sha = none ↔
      (isR2OrHigher riskClass = true →
        routeAllowsRisk route riskClass = true ∧
          missingControlPoints route stage riskClass decisions sha = []) := by
  unfold riskEscalationViolation riskObligations
  cases isR2OrHigher riskClass <;> cases routeAllowsRisk route riskClass <;>
    cases missingControlPoints route stage riskClass decisions sha <;> simp

theorem autonomyBudgetViolation_none (contract : Option ImplementationContract) (used : Nat) :
    autonomyBudgetViolation contract used = none ↔
      ∀ granted, contract = some granted → used < granted.budget.maxAutonomousIterations := by
  unfold autonomyBudgetViolation
  cases contract with
  | none => simp
  | some contract => simp

end DarkFactory
