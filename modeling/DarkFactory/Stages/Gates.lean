import DarkFactory.Flow.Apply
import DarkFactory.Stages.Phases

namespace DarkFactory

inductive PipelineStatus | queued | inProgress | success | failure | canceled
  deriving DecidableEq, Repr

def PipelineStatus.value : PipelineStatus → String
  | .queued => "queued"
  | .inProgress => "in_progress"
  | .success => "success"
  | .failure => "failure"
  | .canceled => "canceled"

def pipelineFailed (status : Option PipelineStatus) : Bool :=
  status = some .failure || status = some .canceled

structure GateObservation where
  headSha : Option String
  merged : Bool
  pipelineStatus : Option PipelineStatus
  approvals : List Decision := []
  reworkOrders : List ReworkOrder := []
  phase : Option Phase := none
  nextPhase : Option Phase := none
  deriving DecidableEq

structure GateResolution where
  result : StageResult
  mergeContext : Option MergeRequestContext
  deriving DecidableEq

def isPurelyHumanGated (route : Route) (stage : Stage) (riskClass : RiskClass) : Bool :=
  let human := requiredHumanGates route stage riskClass
  decide (human ≠ ∅) && decide (requiredGates route stage \ human = ∅)

def pendingReworkOrder (observation : GateObservation) : Option ReworkOrder :=
  observation.reworkOrders.reverse.find? ReworkOrder.isPending

/-- The newest approval or waiver on a human gate, of the waiting phase when one is known. -/
def settlingDecision (observation : GateObservation) (human : Finset Gate) : Option Decision :=
  observation.approvals.reverse.find? fun decision =>
    (decision.outcome = .approved || decision.outcome = .waived) && decide (decision.gate ∈ human) &&
      (observation.phase.isNone || observation.phase = some (decisionPhase decision))

def gateResolved (observation : Option GateObservation) (stage : Stage) (route : Route)
    (riskClass : RiskClass) : Bool :=
  match observation with
  | none => false
  | some observation =>
    if stage = .release then false
    else if observation.merged then
      stage = .reviewVerification || isPurelyHumanGated route stage riskClass
    else if isPurelyHumanGated route stage riskClass then
      (pendingReworkOrder observation).isSome ||
        (settlingDecision observation (requiredHumanGates route stage riskClass)).isSome
    else if observation.pipelineStatus = some .success then
      if requiredHumanGates route stage riskClass ≠ ∅ then false else stage ≠ .reviewVerification
    else pipelineFailed observation.pipelineStatus

structure WaitingAttempt where
  attemptNumber : Nat
  inputRevision : String
  now : Timestamp
  deriving DecidableEq, Repr

def attemptResult (run : ChangeRun) (stage : Stage) (attempt : WaitingAttempt) (status : StageStatus)
    (nextAction : NextAction) (isResult : resultStatus status = true := by
    first | exact succeeded_isResult | exact waiting_isResult | exact failed_isResult | exact blocked_isResult | decide) : StageResult :=
  { stage, runId := run.id, changeId := run.changeId, attemptNumber := attempt.attemptNumber,
    inputRevision := some attempt.inputRevision, status, nextAction, producedAt := attempt.now,
    statusIsResult := isResult }

def waivedOn (gate : Gate) (decision : Decision) : Bool :=
  decision.gate = gate && decision.outcome = .waived && decisionPhase decision = phaseOfGate gate

def humanGateResult (gate : Gate) (observation : GateObservation) (reason : String) : GateResult :=
  let waiver := if observation.merged then none else observation.approvals.reverse.find? (waivedOn gate)
  match waiver with
  | some decision =>
    { gate, status := .skipped, sha := observation.headSha
      summary := some (s!"phase {(phaseOfGate gate).value} waived: " ++
        textOr decision.comment "no reason given") }
  | none => { gate, status := .passed, sha := observation.headSha, summary := some reason }

def planResult (run : ChangeRun) (stage : Stage) (attempt : WaitingAttempt) (plan : ReworkDecision) :
    Except Failure StageResult :=
  match plan.outcome with
  | .blocked => .ok (attemptResult run stage attempt .blocked (.stop .blocked plan.reason))
  | .rework => do
    let action ← ReworkAction.build (plan.round.getD (run.budget.usedReworkRounds + 1)) plan.maxRounds plan.reason
    pure (attemptResult run stage attempt .failed (.rework action))

def resolveReworkOrder (run : ChangeRun) (stage : Stage) (observation : GateObservation)
    (attempt : WaitingAttempt) : Except Failure GateResolution := do
  let plan ← planReworkOrder run.budget observation.reworkOrders
  let result ← planResult run stage attempt plan
  pure { result := { result with phase := observation.phase }, mergeContext := none }

def phaseRoundReason (observation : GateObservation) (human : Finset Gate) (next : Phase) : String :=
  let settledPhase := (observation.phase.map Phase.value).getD "phase"
  let verb := match settlingDecision observation human with
    | some settled => if settled.outcome = DecisionOutcome.waived then "waived" else "approved"
    | none => "approved"
  s!"phase {settledPhase} {verb} at {Text.shown observation.headSha};" ++ s!" next round: {next.value}"

def humanReason (observation : GateObservation) : String :=
  match observation.merged, observation.headSha with
  | true, some sha => s!"change request observed merged at {sha}"
  | true, none => "change request observed merged"
  | false, some sha => s!"human approval observed at {sha}"
  | false, none => "human approval observed on the change request"

def resolveHumanGated (run : ChangeRun) (stage : Stage) (observation : GateObservation)
    (attempt : WaitingAttempt) (riskClass : RiskClass) : Except Failure GateResolution :=
  let human := requiredHumanGates run.route stage riskClass
  if !observation.merged && (pendingReworkOrder observation).isSome then
    resolveReworkOrder run stage observation attempt
  else
    match (routeProfile run.route).nextStage stage with
    | none => .error ⟨.value, s!"stage {stage.value} on route {run.route.value} has no successor"⟩
    | some successor =>
      match observation.merged, observation.nextPhase with
      | false, some next =>
        let action := NextAction.phaseRound next (some (phaseRoundReason observation human next))
        let result := attemptResult run stage attempt .succeeded action
        .ok { result := { result with phase := observation.phase }, mergeContext := none }
      | _, _ =>
        let reason := humanReason observation
        let result := attemptResult run stage attempt .succeeded (.executeStage successor (some reason))
        .ok { result := { result with
                gateResults := (sortedGates human).map (humanGateResult · observation reason)
                phase := observation.phase }
              mergeContext := none }

def machineGates (route : Route) (stage : Stage) (riskClass : RiskClass) : Finset Gate :=
  requiredGates route stage \ requiredHumanGates route stage riskClass

def machineGateResults (route : Route) (stage : Stage) (observation : GateObservation)
    (riskClass : RiskClass) : List GateResult :=
  let gates := sortedGates (machineGates route stage riskClass)
  match observation.pipelineStatus, observation.headSha with
  | some .success, some sha =>
    gates.map fun gate =>
      { gate, status := .passed, sha := some sha, summary := some s!"pipeline success at {sha}" }
  | some status, sha =>
    if pipelineFailed (some status) then
      gates.map fun gate =>
        { gate, status := .failed, sha
          summary := some (s!"pipeline {status.value} at " ++ textOr sha "an unknown SHA") }
    else []
  | none, _ => []

def gateRank (gate : Gate) : Nat := gateOrder.idxOf gate

def failedGates (results : List GateResult) : List Gate :=
  ((results.filter (·.status = .failed)).map (·.gate)).insertionSort
    (fun left right => gateRank left ≤ gateRank right)

def pipelineText (observation : GateObservation) : String :=
  s!"pipeline {Text.shown (observation.pipelineStatus.map PipelineStatus.value)} at " ++
    textOr observation.headSha "an unknown SHA"

def pipelineFindings (failed : List Gate) (observation : GateObservation) : List Finding :=
  failed.map fun gate =>
    { id := s!"ci-pipeline:{gate.value}", origin := .ci, severity := .blocker
      category := some gate.value, reviewedSha := observation.headSha
      requiredAction := some (s!"gate {Text.repr gate.value} failed: {pipelineText observation}" ++
        "; make the gate pass and re-run CI")
      status := .open }

def pipelineFailureReason (observation : GateObservation) (failed : List Gate) : String :=
  let names := Text.join ", " (failed.map Gate.value)
  s!"{pipelineText observation}: machine gate(s) {names} failed"

def resolveMachineGated (run : ChangeRun) (stage : Stage) (observation : GateObservation)
    (attempt : WaitingAttempt) (riskClass : RiskClass) : Except Failure GateResolution :=
  let machineResults := machineGateResults run.route stage observation riskClass
  if (unsatisfiedGates run.route stage machineResults).isEmpty then
    match (routeProfile run.route).nextStage stage with
    | none => .error ⟨.value, s!"stage {stage.value} on route {run.route.value} has no successor"⟩
    | some successor =>
      let reason := s!"pipeline success at {Text.shown observation.headSha}"
      let result := attemptResult run stage attempt .succeeded (.executeStage successor (some reason))
      .ok { result := { result with gateResults := machineResults }, mergeContext := none }
  else
    let failed := failedGates machineResults
    if !failed.isEmpty then do
      let action ← ReworkAction.build (run.budget.usedReworkRounds + 1) run.budget.maxReworkRounds
        (pipelineFailureReason observation failed)
      let result := attemptResult run stage attempt .failed (.rework action)
      pure { result := { result with
               gateResults := machineResults
               findings := pipelineFindings failed observation }
             mergeContext := none }
    else
      let result := attemptResult run stage attempt .blocked (.stop .blocked
        ("pipeline success cannot be attributed to a head SHA; a gate may not be " ++
          "passed without an observed success at the final SHA (FR-009)"))
      .ok { result := { result with gateResults := machineResults }, mergeContext := none }

def failedReview (result : StageResult) : Option (String × StageResult) :=
  match result.inputRevision with
  | some revision =>
    if result.stage = .reviewVerification && result.status = .failed && revision ≠ "" then
      some (revision, result)
    else none
  | none => none

def reviewPasses (history : List StageResult) : Except Failure (List ReviewPass) :=
  (history.filterMap failedReview).zipIdx.mapM fun (review, index) =>
    ReviewPass.build (index + 1) review.1
      ((review.2.findings.filter (·.severity = .blocker)).map findingSignature) review.2.escalations

def knownChangeRequest (change : Change) (checkpoint : StageResult) : Option ChangeRequestRef :=
  match checkpoint.nextAction with
  | .waitForCi _ changeRequest => changeRequest.or change.changeRequest
  | _ => change.changeRequest

def changeRequestRef (change : Change) (checkpoint : StageResult) (observation : GateObservation) :
    Except Failure ChangeRequestRef :=
  match knownChangeRequest change checkpoint with
  | none => .error ⟨.value, "the merged observation names no change request: neither the waiting " ++
      "checkpoint nor the change snapshot carries one (merge, ADR-011)"⟩
  | some ref =>
    .ok (if observation.merged && ref.status ≠ .merged then { ref with status := .merged } else ref)

def reviewGateResult (observation : GateObservation) (number : Nat) : List GateResult :=
  match observation.headSha with
  | some sha =>
    [{ gate := .review, status := .passed, sha := some sha
       summary := some s!"change request #{number} merged" }]
  | none => []

def resolveMerged (run : ChangeRun) (change : Change) (checkpoint : StageResult)
    (observation : GateObservation) (attempt : WaitingAttempt) (riskClass : RiskClass) :
    Except Failure GateResolution := do
  let ref ← changeRequestRef change checkpoint observation
  let reason := s!"change request #{ref.number} observed merged at {Text.shown observation.headSha}"
  let result := attemptResult run .reviewVerification attempt .succeeded (.merge ref (some reason))
  pure
    { result := { result with
        gateResults := reviewGateResult observation ref.number ++
          machineGateResults run.route .reviewVerification observation riskClass }
      mergeContext := some
        { executor := .human, riskClass := riskClassOf run, route := run.route, stage := .reviewVerification
          expectedSha := observation.headSha, headSha := observation.headSha
          humanApprovals := observation.approvals } }

/-- The rework loop over the earlier failed reviews and the pass that has just failed. -/
def planReview (run : ChangeRun) (observation : GateObservation) (attempt : WaitingAttempt)
    (history : List StageResult) (findings : List Finding) : Except Failure ReworkDecision := do
  let prior ← reviewPasses history
  let current ← ReviewPass.build (prior.length + 1)
    (textOr observation.headSha attempt.inputRevision) (findings.map findingSignature) []
  planRework run.budget (prior ++ [current])

def resolveReview (run : ChangeRun) (change : Change) (checkpoint : StageResult)
    (observation : GateObservation) (attempt : WaitingAttempt) (history : List StageResult)
    (riskClass : RiskClass) : Except Failure GateResolution :=
  if observation.merged then resolveMerged run change checkpoint observation attempt riskClass
  else do
    let machineResults := machineGateResults run.route .reviewVerification observation riskClass
    let findings := pipelineFindings (failedGates machineResults) observation
    let plan ← planReview run observation attempt history findings
    let result ← planResult run .reviewVerification attempt plan
    pure { result := { result with gateResults := machineResults, findings }, mergeContext := none }

def buildGateResolution (run : ChangeRun) (stage : Stage) (change : Change) (checkpoint : StageResult)
    (observation : GateObservation) (attempt : WaitingAttempt) (history : List StageResult) :
    Except Failure GateResolution :=
  let riskClass := riskClassOf run
  if !gateResolved (some observation) stage run.route riskClass then
    .error ⟨.value, s!"observation of stage {stage.value} does not resolve its external wait; " ++
      "the driver replays the waiting checkpoint instead"⟩
  else if stage = .reviewVerification then
    resolveReview run change checkpoint observation attempt history riskClass
  else if isPurelyHumanGated run.route stage riskClass then
    resolveHumanGated run stage observation attempt riskClass
  else resolveMachineGated run stage observation attempt riskClass

end DarkFactory
