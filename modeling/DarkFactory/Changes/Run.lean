import DarkFactory.Changes.Records

namespace DarkFactory

def runStatusTransitions : RunStatus → List RunStatus
  | .pending => [.running, .canceled, .superseded]
  | .running => [.waiting, .blocked, .succeeded, .failed, .canceled, .superseded]
  | .waiting => [.running, .blocked, .failed, .canceled, .superseded]
  | .blocked => [.running, .failed, .canceled, .superseded]
  | .succeeded | .failed | .canceled | .superseded => []

def stageStatusTransitions : StageStatus → List StageStatus
  | .pending => [.inProgress, .skipped, .canceled, .superseded]
  | .inProgress => [.waiting, .succeeded, .failed, .blocked, .canceled, .superseded]
  | .waiting => [.inProgress, .failed, .blocked, .canceled, .superseded]
  | .blocked => [.inProgress, .failed, .canceled, .superseded]
  | .failed => [.inProgress, .canceled, .superseded]
  | .succeeded | .skipped | .superseded | .canceled => []

def runTerminal (status : RunStatus) : Bool := (runStatusTransitions status).isEmpty

def stageTerminal (status : StageStatus) : Bool := (stageStatusTransitions status).isEmpty

def retryableStage (status : StageStatus) : Bool := status = .failed || status = .blocked

/-- Statuses a result may carry: an attempt still in progress has no result. -/
def resultStatus (status : StageStatus) : Bool :=
  status = .waiting || status = .succeeded || status = .failed || status = .blocked

theorem waiting_isResult : resultStatus .waiting = true := rfl

theorem succeeded_isResult : resultStatus .succeeded = true := rfl

theorem failed_isResult : resultStatus .failed = true := rfl

theorem blocked_isResult : resultStatus .blocked = true := rfl

structure Change where
  id : String
  title : String := ""
  riskClass : RiskClass
  changeRequest : Option ChangeRequestRef := none
  deriving DecidableEq, Repr

structure StageRun where
  id : String
  stage : Stage
  status : StageStatus := .pending
  attemptNumber : Nat := 1
  inputRevision : Option String := none
  stateRevision : Nat := 1
  deriving DecidableEq, Repr

def StageRun.active (stageRun : StageRun) : Bool := !stageTerminal stageRun.status

def StageRun.applyStatus (stageRun : StageRun) (target : StageStatus) : Except Failure StageRun :=
  if (stageStatusTransitions stageRun.status).contains target then
    .ok { stageRun with status := target, stateRevision := stageRun.stateRevision + 1 }
  else .error ⟨.invalidStatusTransition,
    s!"Stage transition {stageRun.status.value} -> {target.value} is not allowed"⟩

def StageRun.beginRetry (stageRun : StageRun) (attemptNumber : Nat) : Except Failure StageRun :=
  if !retryableStage stageRun.status then
    .error ⟨.invalidStatusTransition,
      s!"Stage status {stageRun.status.value} does not allow a retry"⟩
  else
    let expected := stageRun.attemptNumber + 1
    if attemptNumber ≠ expected then
      .error ⟨.invalidStatusTransition,
        s!"Retry of attempt {stageRun.attemptNumber} must be attempt {expected}, got {attemptNumber}"⟩
    else .ok { stageRun with attemptNumber := attemptNumber }

structure ChangeRun where
  id : String
  changeId : String
  route : Route
  provider : Provider
  status : RunStatus := .pending
  stateRevision : Nat := 1
  stages : List StageRun := []
  budget : BudgetSnapshot := {}
  implementationContract : Option ImplementationContract := none
  deriving DecidableEq, Repr

def ChangeRun.applyStatus (run : ChangeRun) (target : RunStatus) : Except Failure ChangeRun :=
  if (runStatusTransitions run.status).contains target then
    .ok { run with status := target, stateRevision := run.stateRevision + 1 }
  else .error ⟨.invalidStatusTransition,
    s!"Run transition {run.status.value} -> {target.value} is not allowed"⟩

structure StageResult where
  stage : Stage
  runId : String
  changeId : String
  attemptNumber : Nat := 1
  inputRevision : Option String := none
  status : StageStatus
  nextAction : NextAction
  artifacts : List ArtifactRef := []
  evidence : List Evidence := []
  gateResults : List GateResult := []
  findings : List Finding := []
  escalations : List EscalationViolation := []
  release : Option ReleaseEvidence := none
  usage : Option Usage := none
  phase : Option Phase := none
  producedAt : Timestamp
  statusIsResult : resultStatus status = true := by
    first | exact succeeded_isResult | exact waiting_isResult | exact failed_isResult | exact blocked_isResult | decide
  deriving DecidableEq

def Evidence.missing (item : Evidence) : Bool := item.required && !item.available

def Finding.openBlocker (finding : Finding) : Bool :=
  finding.severity = .blocker && finding.status = .open

def resultViolations (result : StageResult) : List String :=
  (result.evidence.filter Evidence.missing).map (fun item =>
      s!"required evidence {Text.repr item.id} of stage {result.stage.value} is unavailable") ++
    (result.findings.filter Finding.openBlocker).map (fun finding =>
      s!"open blocker finding {Text.repr finding.id} of stage {result.stage.value}")

/-- The invariants that gate a successful terminal status; a run of any other status passes. -/
def completionViolations (run : ChangeRun) (stageResults : List StageResult) : List String :=
  if run.status ≠ .succeeded then [] else stageResults.flatMap resultViolations

def StageResult.clean (result : StageResult) : Bool :=
  !result.evidence.any Evidence.missing && !result.findings.any Finding.openBlocker

theorem resultViolations_empty (result : StageResult) :
    resultViolations result = [] ↔ result.clean = true := by
  simp [resultViolations, StageResult.clean, List.filter_eq_nil_iff]

theorem completionViolations_empty (run : ChangeRun) (results : List StageResult)
    (succeeded : run.status = .succeeded) :
    completionViolations run results = [] ↔ ∀ result ∈ results, result.clean = true := by
  simp only [completionViolations, succeeded, ne_eq, not_true_eq_false, ↓reduceIte,
    List.flatMap_eq_nil_iff, resultViolations_empty]

theorem StageRun.applyStatus_ok {stageRun after : StageRun} {target : StageStatus} :
    stageRun.applyStatus target = .ok after ↔
      target ∈ stageStatusTransitions stageRun.status ∧
        after = { stageRun with status := target, stateRevision := stageRun.stateRevision + 1 } := by
  unfold StageRun.applyStatus
  split
  · rename_i allowed
    simp only [List.contains_iff_mem] at allowed
    simp [allowed, eq_comm]
  · rename_i refused
    simp only [List.contains_iff_mem] at refused
    simp [refused]

theorem ChangeRun.applyStatus_ok {run after : ChangeRun} {target : RunStatus} :
    run.applyStatus target = .ok after ↔
      target ∈ runStatusTransitions run.status ∧
        after = { run with status := target, stateRevision := run.stateRevision + 1 } := by
  unfold ChangeRun.applyStatus
  split
  · rename_i allowed
    simp only [List.contains_iff_mem] at allowed
    simp [allowed, eq_comm]
  · rename_i refused
    simp only [List.contains_iff_mem] at refused
    simp [refused]

theorem StageRun.beginRetry_ok {stageRun after : StageRun} {attempt : Nat} :
    stageRun.beginRetry attempt = .ok after ↔
      retryableStage stageRun.status = true ∧ attempt = stageRun.attemptNumber + 1 ∧
        after = { stageRun with attemptNumber := attempt } := by
  unfold StageRun.beginRetry
  by_cases retryable : retryableStage stageRun.status
  · by_cases next : attempt = stageRun.attemptNumber + 1 <;> simp [retryable, next, eq_comm]
  · simp [retryable]

end DarkFactory
