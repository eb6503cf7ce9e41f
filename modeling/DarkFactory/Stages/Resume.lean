import DarkFactory.Flow.Entry
import DarkFactory.Flow.Reasons
import DarkFactory.Flow.Terms
import DarkFactory.Stages.Gates

namespace DarkFactory

structure Parked (run : ChangeRun) (stage : Stage) (attemptNumber : Nat) : Prop where
  waiting : run.status = .waiting
  inFlight : ∃ index stageRun, activeIndex run stage = some index ∧ run.stages[index]? = some stageRun ∧
    stageRun.status = .waiting ∧ stageRun.attemptNumber = attemptNumber

/-- The decision of a resumed advance: the resolution of the observation is applied to the parked run
    with the observed merge facts and approvals folded in. -/
def resumeDecision (run : ChangeRun) (stage : Stage) (change : Change) (checkpoint : StageResult)
    (observation : GateObservation) (attempt : WaitingAttempt) (history : List StageResult)
    (mergeContext : Option MergeRequestContext) (humanDecisions : List Decision) :
    Except Failure (FlowDecision × ChangeRun) := do
  let resolution ← buildGateResolution run stage change checkpoint observation attempt history
  match applyResult resolution.result history attempt.now (resolution.mergeContext.or mergeContext)
      (humanDecisions ++ observation.approvals) run with
  | .ok decision after => .ok (decision, after)
  | .error failure _ => .error failure

def entersStage (target : Stage) (decided : Except Failure (FlowDecision × ChangeRun)) : Bool :=
  match decided with
  | .ok (decision, _) => decision.nextStage = some target
  | .error _ => false

theorem resumeDecision_eq {run current : ChangeRun} {stage : Stage} {change : Change}
    {checkpoint : StageResult} {observation : GateObservation} {attempt : WaitingAttempt}
    {history : List StageResult} {context : Option MergeRequestContext} {decisions : List Decision}
    {resolution : GateResolution} {computed : Except Failure Verdict} {index : Nat}
    (built : buildGateResolution run stage change checkpoint observation attempt history = .ok resolution)
    (applied : applyResult resolution.result history attempt.now (resolution.mergeContext.or context)
      (decisions ++ observation.approvals) run = Verdict.outcome computed stage index current) :
    resumeDecision run stage change checkpoint observation attempt history context decisions =
      computed.map fun reached => (reached.decision stage, reached.carry index current) := by
  simp only [resumeDecision, built, Bind.bind, Except.bind, applied]
  cases computed <;> rfl

theorem entersStage_map {target stage : Stage} {computed : Except Failure Verdict} {index : Nat}
    {current : ChangeRun} :
    entersStage target (computed.map fun reached => (reached.decision stage, reached.carry index current)) =
        true ↔
      ∃ reached, computed = .ok reached ∧ reached.nextStage = some target := by
  cases computed <;> simp [entersStage, Except.map, Verdict.decision]

section Parked

variable {run : ChangeRun} {stage : Stage} {attemptNumber : Nat} {result : StageResult}

theorem Parked.ensured (parked : Parked run stage attemptNumber) (own : result.stage = stage)
    (number : result.attemptNumber = attemptNumber) :
    ∃ index entered, ensureStageRun result run = .ok (index, entered) ∧ SameTerms run entered := by
  obtain ⟨index, stageRun, active, there, -, attempt⟩ := parked.inFlight
  have current : attemptMatches stageRun result.attemptNumber = true := by
    simp [attemptMatches, attempt, number]
  subst own
  exact ⟨index, _, ensureStageRun_occupied active there current, ⟨rfl, rfl, rfl, rfl, by simp⟩⟩

theorem handled_terms {run entered : ChangeRun} (same : SameTerms run entered)
    (free : result.usage = none) : SameTerms run (handled result entered) := by
  have charged : (handled result entered).budget = (moveRun .running entered).budget := by
    simp [handled, chargeUsage, accumulateUsage, free]
  constructor
  · rw [← same.id]; unfold handled chargeUsage moveRun; split <;> rfl
  · rw [← same.route]; unfold handled chargeUsage moveRun; split <;> rfl
  · rw [← same.contract]; unfold handled chargeUsage moveRun; split <;> rfl
  · rw [charged, ← same.budget]; unfold moveRun; split <;> rfl
  · rw [← same.stages]; unfold handled chargeUsage moveRun; split <;> rfl

theorem Parked.applied (parked : Parked run stage attemptNumber) (own : result.stage = stage)
    (number : result.attemptNumber = attemptNumber) (free : result.usage = none)
    (listed : (flowTransitions result.stage).contains result.nextAction.type = true)
    (paired : result.status = expectedResultStatus result.nextAction)
    (history : List StageResult) (now : Timestamp) (context : Option MergeRequestContext)
    (decisions : List Decision) :
    ∃ index current, SameTerms run current ∧
      applyResult result history now context decisions run =
        Verdict.outcome (verdict current result history now context decisions) result.stage index current := by
  obtain ⟨index, entered, ensured, same⟩ := parked.ensured own number
  have live : runTerminal run.status = false := by rw [parked.waiting]; rfl
  exact ⟨index, handled result entered, handled_terms same free,
    applyResult_eq live listed paired ensured⟩

end Parked

end DarkFactory
