import DarkFactory.Flow.Entry
import DarkFactory.Flow.Reasons

namespace DarkFactory

structure SameTerms (run other : ChangeRun) : Prop where
  id : other.id = run.id
  route : other.route = run.route
  contract : other.implementationContract = run.implementationContract
  budget : other.budget = run.budget
  stages : other.stages.length = run.stages.length

theorem SameTerms.riskClass {run other : ChangeRun} (same : SameTerms run other) :
    riskClassOf other = riskClassOf run := by
  simp [riskClassOf, same.route, same.contract]

section Terms

variable {run other : ChangeRun}

theorem SameTerms.blockReason (same : SameTerms run other) (stage : Stage) (results : List GateResult)
    (now : Timestamp) : blockReason other stage results now = DarkFactory.blockReason run stage results now := by
  simp only [DarkFactory.blockReason, same.route, same.budget]

theorem SameTerms.autonomyBudgetReason (same : SameTerms run other) :
    autonomyBudgetReason other = DarkFactory.autonomyBudgetReason run := by
  simp only [DarkFactory.autonomyBudgetReason, same.contract, same.stages]

theorem SameTerms.riskBandReason (same : SameTerms run other) :
    riskBandReason other = DarkFactory.riskBandReason run := by
  simp only [DarkFactory.riskBandReason, same.riskClass, same.route]

theorem SameTerms.escalationReason (same : SameTerms run other) (result : StageResult)
    (decisions : List Decision) :
    escalationReason other result decisions = DarkFactory.escalationReason run result decisions := by
  simp only [DarkFactory.escalationReason, controlPointSha, same.riskClass, same.route,
    same.autonomyBudgetReason]

theorem SameTerms.mergePolicyDecision (same : SameTerms run other) (result : StageResult)
    (context : Option MergeRequestContext) :
    mergePolicyDecision other result context = DarkFactory.mergePolicyDecision run result context := by
  simp only [DarkFactory.mergePolicyDecision, same.riskClass, same.route]

theorem SameTerms.verdict (same : SameTerms run other) (result : StageResult) (history : List StageResult)
    (now : Timestamp) (context : Option MergeRequestContext) (decisions : List Decision) :
    verdict other result history now context decisions =
      DarkFactory.verdict run result history now context decisions := by
  have completion : completionViolations { other with status := .succeeded } (history ++ [result]) =
      completionViolations { run with status := .succeeded } (history ++ [result]) := rfl
  unfold DarkFactory.verdict
  cases result.nextAction with
  | executeStage target reason =>
    simp only [executeVerdict, same.route, same.blockReason, same.escalationReason]
  | waitForInput | waitForCi | requestApproval | phaseRound | stop => rfl
  | rework action => simp only [reworkVerdict, same.autonomyBudgetReason, same.budget]
  | merge =>
    simp only [mergeVerdict, same.route, same.blockReason, same.riskBandReason, same.mergePolicyDecision]
  | release => simp only [releaseVerdict, same.blockReason, same.riskBandReason, completion]

/-- Entering the stage and setting the run running keep the terms; only the usage is charged. -/
theorem handled_charged {entered : ChangeRun} {result : StageResult} (same : SameTerms run entered) :
    SameTerms (chargeUsage result run) (handled result entered) := by
  constructor
  · rw [show (chargeUsage result run).id = run.id from rfl, ← same.id]
    unfold handled chargeUsage moveRun
    split <;> rfl
  · rw [handled_route]
    exact same.route
  · rw [handled_contract]
    exact same.contract
  · rw [handled_budget, same.budget]
    rfl
  · rw [handled_stages]
    exact same.stages

end Terms

end DarkFactory
