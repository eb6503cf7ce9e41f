import DarkFactory.Flow.Apply

namespace DarkFactory

theorem merge_listed {stage : Stage} (listed : (flowTransitions stage).contains .merge = true) :
    stage = .reviewVerification := by
  revert listed
  cases stage <;> decide

theorem release_listed {stage : Stage} (listed : (flowTransitions stage).contains .release = true) :
    stage = .release := by
  revert listed
  cases stage <;> decide

theorem phaseRound_listed {stage : Stage} (listed : (flowTransitions stage).contains .phaseRound = true) :
    stage = .specification := by
  revert listed
  cases stage <;> decide

theorem rework_listed {stage : Stage} (listed : (flowTransitions stage).contains .rework = true) :
    reworkTarget stage ≠ .release := by
  revert listed
  cases stage <;> decide

theorem executeStage_listed {stage : Stage} (listed : (flowTransitions stage).contains .executeStage = true) :
    stageIndex stage < 3 := by
  revert listed
  cases stage <;> decide

theorem firstStopReason_none {reasons : List (Option String)} :
    firstStopReason reasons = none ↔ ∀ reason ∈ reasons, reason = none := by
  simp [firstStopReason, List.findSome?_eq_none_iff]

theorem blockReason_none {run : ChangeRun} {stage : Stage} {results : List GateResult} {now : Timestamp} :
    blockReason run stage results now = none ↔
      unsatisfiedGates run.route stage results = [] ∧ continuationViolations run.budget now = [] := by
  unfold blockReason
  cases unsatisfiedGates run.route stage results <;> cases continuationViolations run.budget now <;> simp

theorem riskBandReason_none {run : ChangeRun} :
    riskBandReason run = none ↔ routeAllowsRisk run.route (riskClassOf run) = true := by
  unfold riskBandReason
  cases allowed : routeAllowsRisk run.route (riskClassOf run) <;> simp [allowed]

theorem autonomyBudgetReason_none {run : ChangeRun} :
    autonomyBudgetReason run = none ↔
      ∀ contract, run.implementationContract = some contract →
        run.stages.length < contract.budget.maxAutonomousIterations := by
  simp [autonomyBudgetReason, autonomyBudgetViolation_none]

theorem escalationReason_none {run : ChangeRun} {result : StageResult} {decisions : List Decision} :
    escalationReason run result decisions = none ↔
      result.escalations = [] ∧
        riskEscalationViolation (riskClassOf run) run.route result.stage decisions
          (controlPointSha run result) = none ∧
        autonomyBudgetReason run = none := by
  unfold escalationReason
  rw [← escalationStopReason_none]
  cases escalationStopReason result.escalations with
  | some declared => simp
  | none =>
    cases riskEscalationViolation (riskClassOf run) run.route result.stage decisions
      (controlPointSha run result) <;> simp

end DarkFactory
