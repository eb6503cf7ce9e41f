import DarkFactory.Flow.Apply

namespace DarkFactory

/-- What a transition does to the executed stage run and to the run, without the order of writes. -/
structure Verdict where
  action : NextAction
  stageStatus : StageStatus
  runStatus : RunStatus
  nextStage : Option Stage := none
  fresh : Bool := false
  spends : Bool := false
  deriving DecidableEq

namespace Verdict

def blocked (reason : String) : Verdict :=
  { action := .stop .blocked reason, stageStatus := .blocked, runStatus := .blocked }

def parked (action : NextAction) : Verdict :=
  { action, stageStatus := .waiting, runStatus := .waiting }

def advanced (action : NextAction) (target : Stage) : Verdict :=
  { action, stageStatus := .succeeded, runStatus := .running, nextStage := some target }

def decision (verdict : Verdict) (stage : Stage) : FlowDecision :=
  { stage, action := verdict.action, stageStatus := verdict.stageStatus,
    runStatus := verdict.runStatus, nextStage := verdict.nextStage }

end Verdict

def StageRun.moved (target : StageStatus) (stageRun : StageRun) : StageRun :=
  { stageRun with status := target, stateRevision := stageRun.stateRevision + 1 }

def moveStage (index : Nat) (target : StageStatus) (run : ChangeRun) : ChangeRun :=
  { run with stages := run.stages.modify index (StageRun.moved target) }

def moveRun (target : RunStatus) (run : ChangeRun) : ChangeRun :=
  if run.status = target then run else { run with status := target, stateRevision := run.stateRevision + 1 }

def enterNext (verdict : Verdict) (run : ChangeRun) : ChangeRun :=
  match verdict.nextStage with
  | none => run
  | some target => if verdict.fresh then restart target run else start target run

def Verdict.carry (verdict : Verdict) (index : Nat) (run : ChangeRun) : ChangeRun :=
  let spent := if verdict.spends then spendRound run else run
  moveRun verdict.runStatus (enterNext verdict (moveStage index verdict.stageStatus spent))

def executeVerdict (run : ChangeRun) (result : StageResult) (nextStage : Stage) (now : Timestamp)
    (humanDecisions : List Decision) : Except Failure Verdict :=
  let expected := (routeProfile run.route).nextStage result.stage
  if expected ≠ some nextStage then
    let shown := (expected.map Stage.value).getD "<none>"
    .error ⟨.invalidFlowTransition,
      s!"stage {result.stage.value} on route {run.route.value} must advance to " ++
      s!"{shown}, got {nextStage.value}"⟩
  else
    match firstStopReason [blockReason run result.stage result.gateResults now,
        escalationReason run result humanDecisions] with
    | some reason => .ok (.blocked reason)
    | none => .ok (.advanced result.nextAction nextStage)

def reworkVerdict (run : ChangeRun) (result : StageResult) (requestedRound : Nat) : Verdict :=
  match firstStopReason [escalationStopReason result.escalations, autonomyBudgetReason run] with
  | some reason => .blocked reason
  | none =>
    match reworkViolation run.budget requestedRound with
    | some violation => .blocked violation.reason
    | none =>
      { action := result.nextAction, stageStatus := .failed, runStatus := .running,
        nextStage := some (reworkTarget result.stage),
        fresh := reworkTarget result.stage = result.stage, spends := true }

def mergeVerdict (run : ChangeRun) (result : StageResult) (now : Timestamp)
    (mergeContext : Option MergeRequestContext) : Except Failure Verdict :=
  match (routeProfile run.route).nextStage result.stage with
  | none => .error ⟨.flowState, s!"no stage follows {result.stage.value} on route {run.route.value}"⟩
  | some target =>
    match firstStopReason [blockReason run result.stage result.gateResults now,
        escalationStopReason result.escalations, riskBandReason run] with
    | some reason => .ok (.blocked reason)
    | none =>
      let policy := mergePolicyDecision run result mergeContext
      match policy.kind with
      | .blocked => .ok (.blocked (textOr policy.reason "merge blocked by merge policy"))
      | .manualMergeRequired =>
        let detail := textOr policy.reason "the merge policy requires the human merge"
        .ok (.parked (.waitForInput s!"waiting for human merge (ADR-011 p.2): {detail}"))
      | .humanMergeAuthorized | .finalizerMergeAllowed => .ok (.advanced result.nextAction target)

def releaseVerdict (run : ChangeRun) (result : StageResult) (history : List StageResult)
    (now : Timestamp) : Verdict :=
  match firstStopReason [blockReason run result.stage result.gateResults now,
      escalationStopReason result.escalations, riskBandReason run] with
  | some reason => .blocked reason
  | none =>
    let violations := completionViolations { run with status := .succeeded } (history ++ [result])
    if !violations.isEmpty then .blocked (Text.join "; " violations)
    else { action := result.nextAction, stageStatus := .succeeded, runStatus := .succeeded }

def phaseRoundVerdict (result : StageResult) : Verdict :=
  { action := result.nextAction, stageStatus := .succeeded, runStatus := .running,
    nextStage := some result.stage, fresh := true }

def stopVerdict (result : StageResult) (outcome : StopOutcome) : Verdict :=
  { action := result.nextAction, stageStatus := (stopStatus outcome).1, runStatus := (stopStatus outcome).2 }

/-- The transition of the flow as a function of the run as it stands before the handlers write. -/
def verdict (run : ChangeRun) (result : StageResult) (history : List StageResult) (now : Timestamp)
    (mergeContext : Option MergeRequestContext) (humanDecisions : List Decision) : Except Failure Verdict :=
  match result.nextAction with
  | .executeStage nextStage _ => executeVerdict run result nextStage now humanDecisions
  | .waitForInput .. | .waitForCi .. | .requestApproval .. => .ok (.parked result.nextAction)
  | .rework action => .ok (reworkVerdict run result action.round)
  | .phaseRound .. => .ok (phaseRoundVerdict result)
  | .merge .. => mergeVerdict run result now mergeContext
  | .release .. => .ok (releaseVerdict run result history now)
  | .stop outcome _ => .ok (stopVerdict result outcome)

section Handlers

variable {run : ChangeRun} {index : Nat} {stageRun : StageRun}

theorem stageRunAt_eq (there : run.stages[index]? = some stageRun) : run.stageRunAt index = stageRun := by
  simp [ChangeRun.stageRunAt, List.getD, there]

theorem setStageStatus_eq (target : StageStatus) (there : run.stages[index]? = some stageRun)
    (allowed : target ∈ stageStatusTransitions stageRun.status) :
    setStageStatus index target run = .ok () (moveStage index target run) := by
  have moved : stageRun.applyStatus target = .ok (stageRun.moved target) :=
    StageRun.applyStatus_ok.mpr ⟨allowed, rfl⟩
  have same : run.stages.set index (stageRun.moved target) =
      run.stages.modify index (StageRun.moved target) := by
    rw [List.modify_eq_set_getElem?, there]
    rfl
  simp [setStageStatus, Outcome.perform, there, moved, same, moveStage, Bind.bind, Except.bind,
    Pure.pure, Except.pure]

theorem setRunStatus_eq (target : RunStatus) (allowed : target ∈ runStatusTransitions run.status) :
    setRunStatus target run = .ok () (moveRun target run) := by
  have moved := ChangeRun.applyStatus_ok.mpr ⟨allowed, rfl⟩
  have other : run.status ≠ target := by
    rintro rfl
    revert allowed
    cases run.status <;> decide
  simp [setRunStatus, Outcome.perform, moved, moveRun, other, Bind.bind, Except.bind, Pure.pure,
    Except.pure]

@[simp] theorem moveStage_status (target : StageStatus) : (moveStage index target run).status = run.status := rfl

@[simp] theorem restart_status (target : Stage) : (restart target run).status = run.status := rfl

@[simp] theorem start_status (target : Stage) : (start target run).status = run.status := by
  unfold start
  split <;> rfl

theorem moveStage_there (target : StageStatus) (there : run.stages[index]? = some stageRun) :
    (moveStage index target run).stages[index]? = some (stageRun.moved target) := by
  simp [moveStage, there]

theorem restart_there (target : Stage) (there : run.stages[index]? = some stageRun) :
    (restart target run).stages[index]? = some stageRun := by
  have bound := (List.getElem?_eq_some_iff.mp there).1
  simp [restart, List.getElem?_append_left bound, there]

theorem start_there (target : Stage) (there : run.stages[index]? = some stageRun) :
    (start target run).stages[index]? = some stageRun := by
  unfold start
  split
  · exact there
  · exact restart_there target there

@[simp] theorem moveRun_stages (target : RunStatus) : (moveRun target run).stages = run.stages := by
  unfold moveRun
  split <;> rfl

@[simp] theorem moveRun_status (target : RunStatus) : (moveRun target run).status = target := by
  unfold moveRun
  split
  · assumption
  · rfl

theorem moveRun_self (target : RunStatus) (same : run.status = target) : moveRun target run = run := by
  simp [moveRun, same]

/-- The handlers run on a stage run just entered, in a run just set running. -/
structure Entered (run : ChangeRun) (index : Nat) (stageRun : StageRun) : Prop where
  there : run.stages[index]? = some stageRun
  inProgress : stageRun.status = .inProgress
  running : run.status = .running

theorem settle_eq (entered : Entered run index stageRun) (action : NextAction) (stageTarget : StageStatus)
    (runTarget : RunStatus) (stageAllowed : stageTarget ∈ stageStatusTransitions .inProgress)
    (runAllowed : runTarget ∈ runStatusTransitions .running) :
    (do setStageStatus index stageTarget; setRunStatus runTarget; decision index action none : Flow _) run =
      .ok { stage := stageRun.stage, action, stageStatus := stageTarget, runStatus := runTarget,
            nextStage := none }
        (moveRun runTarget (moveStage index stageTarget run)) := by
  rw [Outcome.state_bind_eq (setStageStatus_eq stageTarget entered.there
    (by rw [entered.inProgress]; exact stageAllowed))]
  rw [Outcome.state_bind_eq (setRunStatus_eq runTarget
    (by rw [moveStage_status, entered.running]; exact runAllowed))]
  have there : (moveRun runTarget (moveStage index stageTarget run)).stages[index]? =
      some (stageRun.moved stageTarget) := by
    rw [moveRun_stages]
    exact moveStage_there stageTarget entered.there
  rw [decision, Outcome.state_get_bind, stageRunAt_eq there]
  simp [StageRun.moved, Pure.pure, EStateM.pure]

theorem advance_eq (entered : Entered run index stageRun) (target : Stage) :
    advance index target run = .ok () (start target (moveStage index .succeeded run)) := by
  rw [advance, Outcome.state_bind_eq (setStageStatus_eq .succeeded entered.there
    (by rw [entered.inProgress]; decide))]
  rfl

theorem stop_eq (entered : Entered run index stageRun) (reason : String) :
    stop index reason run = .ok ((Verdict.blocked reason).decision stageRun.stage)
      ((Verdict.blocked reason).carry index run) :=
  settle_eq entered _ _ _ (by decide) (by decide)

theorem park_eq (entered : Entered run index stageRun) (action : NextAction) :
    park index action run = .ok ((Verdict.parked action).decision stageRun.stage)
      ((Verdict.parked action).carry index run) :=
  settle_eq entered _ _ _ (by decide) (by decide)

end Handlers

/-- What a computed verdict leaves behind; a refusal leaves the run as the handler found it. -/
def Verdict.outcome (computed : Except Failure Verdict) (stage : Stage) (index : Nat) (run : ChangeRun) :
    EStateM.Result Failure ChangeRun FlowDecision :=
  match computed with
  | .ok verdict => .ok (verdict.decision stage) (verdict.carry index run)
  | .error failure => .error failure run

section Handlers

variable {run : ChangeRun} {index : Nat} {stageRun : StageRun} {result : StageResult}

theorem handleExecute_eq (entered : Entered run index stageRun) (own : stageRun.stage = result.stage)
    (nextStage : Stage) (now : Timestamp) (decisions : List Decision) :
    handleExecute index result nextStage now decisions run =
      Verdict.outcome (executeVerdict run result nextStage now decisions) result.stage index run := by
  rw [handleExecute, Outcome.state_get_bind, executeVerdict]
  dsimp only
  by_cases wrong : (routeProfile run.route).nextStage result.stage ≠ some nextStage
  · rw [if_pos wrong, if_pos wrong]
    rfl
  · rw [if_neg wrong, if_neg wrong]
    cases firstStopReason [blockReason run result.stage result.gateResults now,
        escalationReason run result decisions] with
    | some reason =>
      dsimp only
      rw [stop_eq entered, own]
      rfl
    | none =>
      dsimp only
      rw [Outcome.state_bind_eq (advance_eq entered nextStage), Outcome.state_get_bind]
      simp [Verdict.outcome, Verdict.advanced, Verdict.decision, Verdict.carry, enterNext, moveRun,
        entered.running, Pure.pure, EStateM.pure]

theorem handleRework_eq (entered : Entered run index stageRun) (own : stageRun.stage = result.stage)
    (round : Nat) :
    handleRework index result round run =
      Verdict.outcome (.ok (reworkVerdict run result round)) result.stage index run := by
  rw [handleRework, Outcome.state_get_bind, reworkVerdict]
  cases firstStopReason [escalationStopReason result.escalations, autonomyBudgetReason run] with
  | some reason =>
    dsimp only
    rw [stop_eq entered, own]
    rfl
  | none =>
    cases reworkViolation run.budget round with
    | some violation =>
      dsimp only
      rw [stop_eq entered, own]
      rfl
    | none =>
      dsimp only
      rw [Outcome.state_modify_bind]
      have spent : Entered (spendRound run) index stageRun :=
        ⟨entered.there, entered.inProgress, entered.running⟩
      rw [Outcome.state_bind_eq (setStageStatus_eq .failed spent.there
        (by rw [spent.inProgress]; decide))]
      have there := moveStage_there .failed spent.there
      by_cases same : reworkTarget result.stage = result.stage
      · rw [if_pos same, Outcome.state_modify_bind, decision, Outcome.state_get_bind,
          stageRunAt_eq (restart_there _ there)]
        simp [Verdict.outcome, Verdict.decision, Verdict.carry, enterNext, moveRun, spent.running, same,
          StageRun.moved, own, Pure.pure, EStateM.pure]
      · rw [if_neg same, Outcome.state_modify_bind, decision, Outcome.state_get_bind,
          stageRunAt_eq (start_there _ there)]
        simp [Verdict.outcome, Verdict.decision, Verdict.carry, enterNext, moveRun, spent.running, same,
          StageRun.moved, own, Pure.pure, EStateM.pure]

theorem handleMerge_eq (entered : Entered run index stageRun) (own : stageRun.stage = result.stage)
    (now : Timestamp) (context : Option MergeRequestContext) :
    handleMerge index result now context run =
      Verdict.outcome (mergeVerdict run result now context) result.stage index run := by
  rw [handleMerge, Outcome.state_get_bind, mergeVerdict]
  cases (routeProfile run.route).nextStage result.stage with
  | none => rfl
  | some target =>
    dsimp only
    cases firstStopReason [blockReason run result.stage result.gateResults now,
        escalationStopReason result.escalations, riskBandReason run] with
    | some reason =>
      dsimp only
      rw [stop_eq entered, own]
      rfl
    | none =>
      have merged : (do advance index target; decision index result.nextAction (some target) : Flow _) run =
          Verdict.outcome (.ok (.advanced result.nextAction target)) result.stage index run := by
        rw [Outcome.state_bind_eq (advance_eq entered target), decision, Outcome.state_get_bind,
          stageRunAt_eq (start_there _ (moveStage_there _ entered.there))]
        simp [Verdict.outcome, Verdict.advanced, Verdict.decision, Verdict.carry, enterNext, moveRun,
          entered.running, StageRun.moved, own, Pure.pure, EStateM.pure]
      dsimp only
      cases (mergePolicyDecision run result context).kind with
      | blocked =>
        dsimp only
        rw [stop_eq entered, own]
        rfl
      | manualMergeRequired =>
        dsimp only
        rw [waitForHumanMerge, park_eq entered, own]
        rfl
      | humanMergeAuthorized => exact merged
      | finalizerMergeAllowed => exact merged

theorem handleRelease_eq (entered : Entered run index stageRun) (own : stageRun.stage = result.stage)
    (history : List StageResult) (now : Timestamp) :
    handleRelease index result history now run =
      Verdict.outcome (.ok (releaseVerdict run result history now)) result.stage index run := by
  rw [handleRelease, Outcome.state_get_bind, releaseVerdict]
  cases firstStopReason [blockReason run result.stage result.gateResults now,
      escalationStopReason result.escalations, riskBandReason run] with
  | some reason =>
    dsimp only
    rw [stop_eq entered, own]
    rfl
  | none =>
    dsimp only
    cases completionViolations { run with status := .succeeded } (history ++ [result]) with
    | nil =>
      simp only [List.isEmpty_nil, Bool.not_true, Bool.false_eq_true, ↓reduceIte]
      rw [settle_eq entered _ .succeeded .succeeded (by decide) (by decide), own]
      rfl
    | cons first rest =>
      simp only [List.isEmpty_cons, Bool.not_false, ↓reduceIte]
      rw [stop_eq entered, own]
      rfl

theorem handlePhaseRound_eq (entered : Entered run index stageRun) (own : stageRun.stage = result.stage) :
    handlePhaseRound index result run =
      Verdict.outcome (.ok (phaseRoundVerdict result)) result.stage index run := by
  rw [handlePhaseRound, Outcome.state_bind_eq (setStageStatus_eq .succeeded entered.there
    (by rw [entered.inProgress]; decide)), Outcome.state_modify_bind, decision, Outcome.state_get_bind,
    stageRunAt_eq (restart_there _ (moveStage_there _ entered.there))]
  simp [Verdict.outcome, phaseRoundVerdict, Verdict.decision, Verdict.carry, enterNext, moveRun,
    entered.running, StageRun.moved, own, Pure.pure, EStateM.pure]

theorem handleStop_eq (entered : Entered run index stageRun) (own : stageRun.stage = result.stage)
    (outcome : StopOutcome) :
    handleStop index result outcome run =
      Verdict.outcome (.ok (stopVerdict result outcome)) result.stage index run := by
  rw [handleStop, settle_eq entered _ _ _ (by cases outcome <;> decide) (by cases outcome <;> decide), own]
  rfl

/-- On an entered stage run the handlers do what the verdict says, and nothing else. -/
theorem handleAction_eq (entered : Entered run index stageRun) (own : stageRun.stage = result.stage)
    (history : List StageResult) (now : Timestamp) (context : Option MergeRequestContext)
    (decisions : List Decision) :
    handleAction index result history now context decisions run =
      Verdict.outcome (verdict (chargeUsage result run) result history now context decisions)
        result.stage index (chargeUsage result run) := by
  have charged : Entered (chargeUsage result run) index stageRun :=
    ⟨entered.there, entered.inProgress, entered.running⟩
  rw [handleAction, Outcome.state_modify_bind, verdict]
  cases action : result.nextAction with
  | executeStage nextStage reason => exact handleExecute_eq charged own nextStage now decisions
  | waitForInput | waitForCi | requestApproval =>
    dsimp only
    rw [park_eq charged, own]
    rfl
  | rework round => exact handleRework_eq charged own round.round
  | phaseRound => simpa only [action] using handlePhaseRound_eq charged own
  | merge => exact handleMerge_eq charged own now context
  | release => exact handleRelease_eq charged own history now
  | stop outcome => simpa only [action] using handleStop_eq charged own outcome

end Handlers

end DarkFactory
