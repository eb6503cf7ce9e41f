import DarkFactory.Lib.Last
import DarkFactory.Lib.Outcome
import DarkFactory.Changes.Run
import DarkFactory.Policy.Merge
import DarkFactory.Rules.Limits

namespace DarkFactory

def flowTransitions : Stage → List NextActionType
  | .specification => [.executeStage, .waitForInput, .rework, .phaseRound, .requestApproval, .stop]
  | .planning => [.executeStage, .waitForInput, .waitForCi, .rework, .requestApproval, .stop]
  | .construction => [.executeStage, .waitForInput, .waitForCi, .rework, .requestApproval, .stop]
  | .reviewVerification => [.merge, .waitForInput, .waitForCi, .rework, .requestApproval, .stop]
  | .release => [.release, .waitForCi, .stop]

def reworkTarget : Stage → Stage
  | .specification => .specification
  | .planning => .planning
  | .construction => .construction
  | .reviewVerification => .construction
  | .release => .release

def stopStatus : StopOutcome → StageStatus × RunStatus
  | .blocked => (.blocked, .blocked)
  | .failed => (.failed, .failed)
  | .canceled => (.canceled, .canceled)

def mergePolicy : MergePolicy := defaultMergePolicy

structure FlowDecision where
  stage : Stage
  action : NextAction
  stageStatus : StageStatus
  runStatus : RunStatus
  nextStage : Option Stage
  deriving DecidableEq

def expectedResultStatus : NextAction → StageStatus
  | .executeStage .. | .merge .. | .release .. | .phaseRound .. => .succeeded
  | .waitForInput .. | .waitForCi .. | .requestApproval .. => .waiting
  | .rework .. => .failed
  | .stop outcome _ => (stopStatus outcome).1

/-- Flow transitions mutate the run in place; what was written before a raise stays written. -/
abbrev Flow := EStateM Failure ChangeRun

def setRunStatus (target : RunStatus) : Flow Unit :=
  Outcome.perform fun run => do
    let after ← run.applyStatus target
    pure ((), after)

/-- A stage run is held by its index in `run.stages`; the list only grows, so the index stays valid. -/
def setStageStatus (index : Nat) (target : StageStatus) : Flow Unit :=
  Outcome.perform fun run =>
    match run.stages[index]? with
    | none => .ok ((), run)
    | some stageRun => do
      let after ← stageRun.applyStatus target
      pure ((), { run with stages := run.stages.set index after })

def ChangeRun.stageRunAt (run : ChangeRun) (index : Nat) : StageRun :=
  run.stages.getD index { id := "", stage := .specification }

def activeAt (stage : Stage) (stageRun : StageRun) : Bool := stageRun.stage = stage && stageRun.active

/-- `active[-1]` of the non-terminal stage runs of the stage. -/
def activeIndex (run : ChangeRun) (stage : Stage) : Option Nat :=
  Last.lastIndex (activeAt stage) run.stages

def stageRunId (run : ChangeRun) (stage : Stage) : String :=
  let occurrence := (run.stages.filter (·.stage = stage)).length + 1
  s!"{run.id}:{stage.value}:{occurrence}"

def restart (stage : Stage) (run : ChangeRun) : ChangeRun :=
  { run with stages := run.stages ++ [{ id := stageRunId run stage, stage }] }

def start (stage : Stage) (run : ChangeRun) : ChangeRun :=
  match activeIndex run stage with
  | some _ => run
  | none => restart stage run

def beginRetry (stageRun : StageRun) (result : StageResult) : Except Failure StageRun :=
  match stageRun.beginRetry result.attemptNumber with
  | .ok after => .ok after
  | .error _ => .error ⟨.flowState,
      s!"stage {result.stage.value} result from attempt {result.attemptNumber} " ++
      s!"does not match active attempt {stageRun.attemptNumber}"⟩

def enterInProgress (stageRun : StageRun) : Except Failure StageRun :=
  if stageRun.status = .inProgress then .ok stageRun else stageRun.applyStatus .inProgress

def ensureStageRun (result : StageResult) (run : ChangeRun) : Except Failure (Nat × ChangeRun) :=
  match activeIndex run result.stage with
  | some index => do
    let stageRun := run.stageRunAt index
    let current ← if stageRun.attemptNumber ≠ result.attemptNumber then beginRetry stageRun result
      else pure stageRun
    let entered ← enterInProgress current
    pure (index, { run with stages := run.stages.set index entered })
  | none =>
    if result.attemptNumber ≠ 1 then
      .error ⟨.flowState,
        s!"stage {result.stage.value} has no active stage run " ++ s!"for attempt {result.attemptNumber}"⟩
    else do
      let entered ← enterInProgress { id := stageRunId run result.stage, stage := result.stage }
      pure (run.stages.length, { run with stages := run.stages ++ [entered] })

def accumulateUsage (usage : Option Usage) (budget : BudgetSnapshot) : BudgetSnapshot :=
  match usage with
  | none => budget
  | some usage =>
    let tokens := usage.totalTokens.getD (usage.promptTokens + usage.completionTokens)
    { budget with
      tokensUsed := budget.tokensUsed + tokens
      costUsed := match usage.cost with
        | none => budget.costUsed
        | some cost => budget.costUsed.add cost }

def autonomyBudgetReason (run : ChangeRun) : Option String :=
  (autonomyBudgetViolation run.implementationContract run.stages.length).map (·.reason)

def riskClassOf (run : ChangeRun) : RiskClass :=
  effectiveChangeRiskClass run.implementationContract run.route

def riskBandReason (run : ChangeRun) : Option String :=
  let riskClass := riskClassOf run
  let profile := routeProfile run.route
  if routeAllowsRisk run.route riskClass then none
  else some (s!"risk class {riskClass.value} is not allowed on route {run.route.value} " ++
    s!"(band {profile.minRiskClass.value}-{profile.maxRiskClass.value}): " ++
    "a risky change does not take the short route (ADR-023 p.3, ADR-018 p.5)")

/-- `gate_result.sha or result.input_revision`: an empty SHA reads as absent. -/
def shaOr (sha fallback : Option String) : Option String :=
  match sha with
  | some text => if text = "" then fallback else some text
  | none => fallback

def controlPointSha (run : ChangeRun) (result : StageResult) : Option String :=
  let human := requiredHumanGates run.route result.stage (riskClassOf run)
  match result.gateResults.find? (fun item => decide (item.gate ∈ human) && item.status = .passed) with
  | some item => shaOr item.sha result.inputRevision
  | none => result.inputRevision

def escalationReason (run : ChangeRun) (result : StageResult) (humanDecisions : List Decision) :
    Option String :=
  match escalationStopReason result.escalations with
  | some declared => some declared
  | none =>
    match riskEscalationViolation (riskClassOf run) run.route result.stage humanDecisions
        (controlPointSha run result) with
    | some obligations => some s!"{obligations.rule.value}: {obligations.reason}"
    | none => autonomyBudgetReason run

def blockReason (run : ChangeRun) (stage : Stage) (gateResults : List GateResult) (now : Timestamp) :
    Option String :=
  let unsatisfied := unsatisfiedGates run.route stage gateResults
  if !unsatisfied.isEmpty then
    some ("required gates not satisfied: " ++ Text.join ", " (unsatisfied.map Gate.value))
  else
    let violations := continuationViolations run.budget now
    if !violations.isEmpty then some (Text.join "; " (violations.map (·.reason))) else none

/-- The first reason that fires hides the later ones. -/
def firstStopReason (reasons : List (Option String)) : Option String := reasons.findSome? id

def decision (index : Nat) (action : NextAction) (nextStage : Option Stage) : Flow FlowDecision := do
  let run ← get
  let stageRun := run.stageRunAt index
  pure { stage := stageRun.stage, action, stageStatus := stageRun.status, runStatus := run.status, nextStage }

def stop (index : Nat) (reason : String) : Flow FlowDecision := do
  setStageStatus index .blocked
  setRunStatus .blocked
  decision index (.stop .blocked reason) none

def park (index : Nat) (action : NextAction) : Flow FlowDecision := do
  setStageStatus index .waiting
  setRunStatus .waiting
  decision index action none

/-- `reason or fallback`. -/
def textOr (reason : Option String) (fallback : String) : String := (shaOr reason none).getD fallback

def waitForHumanMerge (index : Nat) (reason : Option String) : Flow FlowDecision :=
  let detail := textOr reason "the merge policy requires the human merge"
  park index (.waitForInput s!"waiting for human merge (ADR-011 p.2): {detail}")

def advance (index : Nat) (target : Stage) : Flow Unit := do
  setStageStatus index .succeeded
  modify (start target)

def handleExecute (index : Nat) (result : StageResult) (nextStage : Stage) (now : Timestamp)
    (humanDecisions : List Decision) : Flow FlowDecision := do
  let run ← get
  let expected := (routeProfile run.route).nextStage result.stage
  if expected ≠ some nextStage then
    let shown := (expected.map Stage.value).getD "<none>"
    throw ⟨.invalidFlowTransition,
      s!"stage {result.stage.value} on route {run.route.value} must advance to " ++
      s!"{shown}, got {nextStage.value}"⟩
  else
    match firstStopReason [blockReason run result.stage result.gateResults now,
        escalationReason run result humanDecisions] with
    | some reason => stop index reason
    | none => do
      advance index nextStage
      let after ← get
      pure { stage := result.stage, action := result.nextAction, stageStatus := .succeeded,
             runStatus := after.status, nextStage := some nextStage }

def spendRound (run : ChangeRun) : ChangeRun :=
  { run with budget := { run.budget with usedReworkRounds := run.budget.usedReworkRounds + 1 } }

def handleRework (index : Nat) (result : StageResult) (requestedRound : Nat) : Flow FlowDecision := do
  let run ← get
  match firstStopReason [escalationStopReason result.escalations, autonomyBudgetReason run] with
  | some reason => stop index reason
  | none =>
    match reworkViolation run.budget requestedRound with
    | some violation => stop index violation.reason
    | none => do
      modify spendRound
      setStageStatus index .failed
      let target := reworkTarget result.stage
      if target = result.stage then modify (restart target) else modify (start target)
      decision index result.nextAction (some target)

def mergePolicyDecision (run : ChangeRun) (result : StageResult)
    (mergeContext : Option MergeRequestContext) : MergeDecision :=
  match mergeContext with
  | none =>
    { kind := .manualMergeRequired
      reason := some "no merge context was provided with the merge result (FR-010: manual mode)" }
  | some context =>
    evaluateMerge { context with
      route := run.route
      stage := result.stage
      riskClass := riskClassOf run
      gateResults := result.gateResults } mergePolicy

def handleMerge (index : Nat) (result : StageResult) (now : Timestamp)
    (mergeContext : Option MergeRequestContext) : Flow FlowDecision := do
  let run ← get
  match (routeProfile run.route).nextStage result.stage with
  | none => throw ⟨.flowState, s!"no stage follows {result.stage.value} on route {run.route.value}"⟩
  | some target =>
    match firstStopReason [blockReason run result.stage result.gateResults now,
        escalationStopReason result.escalations, riskBandReason run] with
    | some reason => stop index reason
    | none =>
      let policy := mergePolicyDecision run result mergeContext
      match policy.kind with
      | .blocked => stop index (textOr policy.reason "merge blocked by merge policy")
      | .manualMergeRequired => waitForHumanMerge index policy.reason
      | .humanMergeAuthorized | .finalizerMergeAllowed => do
        advance index target
        decision index result.nextAction (some target)

def handleRelease (index : Nat) (result : StageResult) (history : List StageResult) (now : Timestamp) :
    Flow FlowDecision := do
  let run ← get
  match firstStopReason [blockReason run result.stage result.gateResults now,
      escalationStopReason result.escalations, riskBandReason run] with
  | some reason => stop index reason
  | none =>
    let violations := completionViolations { run with status := .succeeded } (history ++ [result])
    if !violations.isEmpty then stop index (Text.join "; " violations)
    else do
      setStageStatus index .succeeded
      setRunStatus .succeeded
      decision index result.nextAction none

def handlePhaseRound (index : Nat) (result : StageResult) : Flow FlowDecision := do
  setStageStatus index .succeeded
  modify (restart result.stage)
  decision index result.nextAction (some result.stage)

def handleStop (index : Nat) (result : StageResult) (outcome : StopOutcome) : Flow FlowDecision := do
  setStageStatus index (stopStatus outcome).1
  setRunStatus (stopStatus outcome).2
  decision index result.nextAction none

def chargeUsage (result : StageResult) (run : ChangeRun) : ChangeRun :=
  { run with budget := accumulateUsage result.usage run.budget }

def handleAction (index : Nat) (result : StageResult) (history : List StageResult) (now : Timestamp)
    (mergeContext : Option MergeRequestContext) (humanDecisions : List Decision) : Flow FlowDecision := do
  modify (chargeUsage result)
  match result.nextAction with
  | .executeStage nextStage _ => handleExecute index result nextStage now humanDecisions
  | .waitForInput .. | .waitForCi .. | .requestApproval .. => park index result.nextAction
  | .rework action => handleRework index result action.round
  | .phaseRound .. => handlePhaseRound index result
  | .merge .. => handleMerge index result now mergeContext
  | .release .. => handleRelease index result history now
  | .stop outcome _ => handleStop index result outcome

/-- The single transition point of the flow: one stage result is applied to the run. -/
def applyResult (result : StageResult) (history : List StageResult) (now : Timestamp)
    (mergeContext : Option MergeRequestContext) (humanDecisions : List Decision) : Flow FlowDecision := do
  let run ← get
  if runTerminal run.status then
    throw ⟨.flowState,
      s!"run {Text.repr run.id} is terminal ({run.status.value}); no transitions allowed"⟩
  else if !(flowTransitions result.stage).contains result.nextAction.type then
    throw ⟨.invalidFlowTransition,
      s!"Flow transition {result.stage.value} -> {result.nextAction.type.value} is not allowed"⟩
  else if result.status ≠ expectedResultStatus result.nextAction then
    throw ⟨.flowState,
      s!"stage {result.stage.value} result status {Text.repr result.status.value} does not match " ++
      s!"next action {Text.repr result.nextAction.type.value} " ++
      s!"(expected {Text.repr (expectedResultStatus result.nextAction).value})"⟩
  else do
    let index ← Outcome.perform (ensureStageRun result)
    let entered ← get
    if entered.status ≠ .running then setRunStatus .running else pure ()
    handleAction index result history now mergeContext humanDecisions

end DarkFactory
