import DarkFactory.Stages.Agreement

namespace DarkFactory

def redone (route : Route) (stage : Stage) (result : StageResult) : Bool :=
  result.stage = stage && result.status = .succeeded &&
    (unsatisfiedGates route stage result.gateResults).isEmpty

def repaired (route : Route) : List StageResult → Bool
  | [] => true
  | result :: later =>
    (result.status ≠ .failed || (result.nextAction.type = .rework && later.any (redone route result.stage))) &&
      repaired route later

structure RepairedRelease (run : ChangeRun) (result : StageResult) (history : List StageResult)
    (now : Timestamp) : Prop where
  repaired : repaired run.route history = true
  accepted : (history.filter (·.status = .failed)).length ≤ run.budget.usedReworkRounds
  live : runTerminal run.status = false
  inFlight : ∃ index stageRun, activeIndex run .release = some index ∧ run.stages[index]? = some stageRun ∧
    attemptMatches stageRun result.attemptNumber = true
  stage : result.stage = .release
  action : result.nextAction.type = .release
  status : result.status = .succeeded
  gates : unsatisfiedGates run.route .release result.gateResults = []
  undeclared : result.escalations = []
  funded : continuationViolations (accumulateUsage result.usage run.budget) now = []
  allowed : routeAllowsRisk run.route (riskClassOf run) = true

def finalStatus (outcome : EStateM.Result Failure ChangeRun FlowDecision) : Option RunStatus :=
  match outcome with
  | .ok _ after => some after.status
  | .error .. => none

section Release

variable {run : ChangeRun} {result : StageResult} {history : List StageResult} {now : Timestamp}

theorem handled_risk (entered : ChangeRun) : riskClassOf (handled result entered) = riskClassOf entered := by
  unfold handled chargeUsage moveRun riskClassOf
  split <;> rfl

theorem releaseVerdict_clean {entered : ChangeRun} (same : SameTerms run entered)
    (ready : RepairedRelease run result history now) :
    (releaseVerdict (handled result entered) result history now).runStatus = .succeeded ↔
      ∀ item ∈ history ++ [result], item.clean = true := by
  have free : firstStopReason [blockReason (handled result entered) result.stage result.gateResults now,
      escalationStopReason result.escalations, riskBandReason (handled result entered)] = none := by
    simp only [firstStopReason_none, List.mem_cons, List.not_mem_nil, or_false, forall_eq_or_imp, forall_eq,
      blockReason_none, escalationStopReason_none, riskBandReason_none, handled_budget, handled_route,
      handled_risk, same.route, same.budget, same.riskClass, ready.stage]
    exact ⟨⟨ready.gates, ready.funded⟩, ready.undeclared, ready.allowed⟩
  rw [← completionViolations_empty { handled result entered with status := .succeeded } _ rfl]
  simp only [releaseVerdict, free]
  cases completionViolations { handled result entered with status := .succeeded } (history ++ [result]) <;>
    simp [Verdict.blocked]

theorem carry_status (reached : Verdict) (index : Nat) : (reached.carry index run).status = reached.runStatus := by
  simp [Verdict.carry]

end Release

/-- The release of a repaired run completes it exactly when no result of its whole history, the failed
    attempts included, carries an open blocker or misses required evidence. -/
theorem repaired_run_completes_iff (run : ChangeRun) (result : StageResult) (history : List StageResult)
    (now : Timestamp) (context : Option MergeRequestContext) (decisions : List Decision)
    (ready : RepairedRelease run result history now) :
    finalStatus (applyResult result history now context decisions run) = some .succeeded ↔
      ∀ item ∈ history ++ [result], item.clean = true := by
  obtain ⟨index, stageRun, active, there, current⟩ := ready.inFlight
  rw [← ready.stage] at active
  have ensured := ensureStageRun_occupied active there current
  have same : SameTerms run { run with stages := run.stages.set index (stageRun.enter result.attemptNumber) } :=
    ⟨rfl, rfl, rfl, rfl, by simp⟩
  cases action : result.nextAction with
  | release environment reason =>
    have listed : (flowTransitions result.stage).contains result.nextAction.type = true := by
      rw [ready.stage, action]
      rfl
    have paired : result.status = expectedResultStatus result.nextAction := by
      rw [ready.status, action]
      rfl
    rw [applyResult_eq ready.live listed paired ensured, ← releaseVerdict_clean same ready]
    simp only [verdict, action, Verdict.outcome, finalStatus, carry_status, Option.some.injEq]
  | executeStage | waitForInput | waitForCi | rework | phaseRound | requestApproval | merge | stop =>
    have kind := ready.action
    rw [action] at kind
    cases kind

def waitingConstruction (revision : String) : ChangeRun :=
  { id := "run_1", changeId := "change-1", route := .quick, provider := .github, status := .waiting
    stages := [{ id := s!"run_1:construction:{revision}", stage := .construction, status := .waiting,
                 inputRevision := some revision }] }

def pipelineResult (revision head : String) (status : PipelineStatus) : List StageResult :=
  match buildGateResolution (waitingConstruction revision) .construction
      { id := "change-1", riskClass := .r1, changeRequest := some reviewRequest } reviewCheckpoint
      { headSha := some head, merged := false, pipelineStatus := some status } ⟨1, revision, 0⟩ [] with
  | .ok resolution => [resolution.result]
  | .error _ => []

def releaseRun : ChangeRun :=
  { id := "run_1", changeId := "change-1", route := .quick, provider := .github, status := .running
    stages := [{ id := "run_1:release:c4", stage := .release, inputRevision := some "c4" }]
    budget := { usedReworkRounds := 1 } }

def releaseResult : StageResult :=
  { stage := .release, runId := "run_1", changeId := "change-1", inputRevision := some "c4"
    status := .succeeded, nextAction := .release "dev" none
    gateResults := [{ gate := .release, status := .passed }], producedAt := 0 }

theorem releaseRun_ready {history : List StageResult} (fixed : repaired .quick history = true)
    (accepted : (history.filter (·.status = .failed)).length ≤ 1) :
    RepairedRelease releaseRun releaseResult history 0 where
  repaired := fixed
  accepted := accepted
  live := rfl
  inFlight := ⟨0, _, rfl, rfl, rfl⟩
  stage := rfl
  action := rfl
  status := rfl
  gates := by decide
  undeclared := rfl
  funded := by decide
  allowed := by decide

def unfinishedConstruction : StageResult :=
  { stage := .construction, runId := "run_1", changeId := "change-1", inputRevision := some "c0"
    status := .failed
    nextAction := .rework ⟨1, 3, "a test fails", firstRound, thirdRound⟩
    findings := [{ id := "q-1", origin := .agent, severity := .major, reviewedSha := some "c1", status := .open }]
    producedAt := 0 }

theorem reworked_run_completes :
    (unfinishedConstruction :: pipelineResult "c2" "c3" .success).map (·.status) = [.failed, .succeeded] ∧
      finalStatus (applyResult releaseResult (unfinishedConstruction :: pipelineResult "c2" "c3" .success) 0 none []
        releaseRun) = some .succeeded := by
  have ready : RepairedRelease releaseRun releaseResult
      (unfinishedConstruction :: pipelineResult "c2" "c3" .success) 0 :=
    releaseRun_ready (by decide +kernel) (by decide +kernel)
  refine ⟨by decide +kernel, ?_⟩
  exact (repaired_run_completes_iff releaseRun releaseResult _ 0 none [] ready).mpr (by decide +kernel)

/-- A red pipeline, its rework round and the green one: the finding of the failed attempt stays open and
    the release stops. -/
theorem repaired_run_stops :
    RepairedRelease releaseRun releaseResult
        (pipelineResult "c0" "c1" .failure ++ pipelineResult "c2" "c3" .success) 0 ∧
      (pipelineResult "c0" "c1" .failure).map (·.status) = [.failed] ∧
      finalStatus (applyResult releaseResult
        (pipelineResult "c0" "c1" .failure ++ pipelineResult "c2" "c3" .success) 0 none [] releaseRun) =
          some .blocked := by
  refine ⟨releaseRun_ready ?_ ?_, ?_, ?_⟩ <;> decide +kernel

end DarkFactory
