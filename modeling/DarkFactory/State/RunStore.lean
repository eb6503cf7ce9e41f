import DarkFactory.Flow.Apply
import DarkFactory.State.Lease
import DarkFactory.State.StageResults

namespace DarkFactory

def leaseResourceType : String := "execution"

def stageCompletedConsumers : List String := ["flow", "tracker"]

def stageCompletedType : String := "run.stage_completed"

/-- Five minutes, in microseconds. -/
def defaultLeaseTtl : Int := 300000000

/-- Route position, then creation time, then row id. -/
def rowBefore (route : Route) (left right : StageRow) : Bool :=
  let position (row : StageRow) := (routeProfile route).stages.idxOf row.stage
  position left < position right ||
    (position left = position right &&
      (left.createdAt < right.createdAt ||
        (left.createdAt = right.createdAt && decide (left.id ≤ right.id))))

def StageRow.stageRun (row : StageRow) : StageRun :=
  { id := row.id
    stage := row.stage
    status := row.status
    attemptNumber := max row.attemptCount 1
    inputRevision := some row.inputRevision
    stateRevision := row.stateRevision }

def Store.runRows (store : Store) (executionId : String) (route : Route) : List StageRow :=
  (store.stages.filter (·.executionId = executionId)).insertionSort fun left right =>
    rowBefore route left right = true

def Store.load (store : Store) (executionId : String) : Option ChangeRun :=
  (store.execution executionId).map fun execution =>
    { id := execution.id
      changeId := execution.changeId
      route := execution.route
      provider := execution.provider
      status := execution.status
      stateRevision := execution.stateRevision
      stages := (store.runRows executionId execution.route).map StageRow.stageRun
      budget := execution.budget.getD {}
      implementationContract := execution.implementationContract }

def newStageRow (executionId : String) (stage : Stage) (inputRevision : String) (createdAt : Timestamp) :
    StageRow :=
  { id := operationKey executionId stage inputRevision, executionId, stage, inputRevision, createdAt }

def getOrCreateStage (executionId : String) (stage : Stage) (inputRevision : String)
    (createdAt : Timestamp) : Session StageRow := do
  let row := newStageRow executionId stage inputRevision createdAt
  modify fun store => { store with stages := Table.insertNew StageRow.id row store.stages }
  let store ← get
  pure ((store.stageRow row.id).getD row)

def countAttempt (attemptNumber : Nat) (row : StageRow) : StageRow :=
  { row with attemptCount := max row.attemptCount attemptNumber }

def appendAttempt (row : StageRow) (attemptNumber : Nat) : Session Attempt := do
  let attempt : Attempt := { id := attemptId row.id attemptNumber, stageId := row.id, attemptNumber }
  modify fun store => { store with
    attempts := Table.insertNew Attempt.id attempt store.attempts
    stages := Table.update StageRow.id row.id (countAttempt attemptNumber) store.stages }
  let store ← get
  pure ((Table.find Attempt.id attempt.id store.attempts).getD attempt)

/-- The status walk of a stage, directly or through `in_progress`. -/
def stageStatusPath (current target : StageStatus) : Except Failure (List StageStatus) :=
  if current = target then .ok []
  else if (stageStatusTransitions current).contains target then .ok [target]
  else if (stageStatusTransitions current).contains .inProgress &&
      (stageStatusTransitions .inProgress).contains target then .ok [.inProgress, target]
  else .error ⟨.invalidStatusTransition,
    s!"Stage transition {current.value} -> {target.value} is not allowed"⟩

def StageRow.walk (path : List StageStatus) (row : StageRow) : StageRow :=
  { row with status := path.getLastD row.status, stateRevision := row.stateRevision + path.length }

def advanceStage (stageRowId : String) (target : StageStatus) : Session Unit :=
  Outcome.perform fun store =>
    match store.stageRow stageRowId with
    | none => .error ⟨.state, s!"stage {Text.repr stageRowId} does not exist"⟩
    | some row => do
      let path ← stageStatusPath row.status target
      pure ((), { store with
        stages := Table.update StageRow.id stageRowId (StageRow.walk path) store.stages })

def setAttemptStatus (status : StageStatus) (attempt : Attempt) : Attempt := { attempt with status }

def finishAttempt (attemptId : String) (target : StageStatus) : Session Unit :=
  Outcome.perform fun store =>
    match Table.find Attempt.id attemptId store.attempts with
    | none => .error ⟨.state, s!"attempt {Text.repr attemptId} does not exist"⟩
    | some attempt => do
      let _ ← stageStatusPath attempt.status target
      pure ((), { store with
        attempts := Table.update Attempt.id attemptId (setAttemptStatus target) store.attempts })

structure StagePlacement where
  stage : Stage
  inputRevision : String
  deriving DecidableEq, Repr

structure OpenStage where
  stageRowId : String
  attemptId : String
  attemptNumber : Nat
  inputRevision : String
  deriving DecidableEq, Repr

/-- A parked attempt is opened again; any other finalized attempt is a programming error. -/
def openAttempt (run : ChangeRun) (stage : Stage) (inputRevision : String) (attemptNumber : Nat)
    (createdAt : Timestamp) : Session OpenStage := do
  let row ← getOrCreateStage run.id stage inputRevision createdAt
  let attempt ← appendAttempt row attemptNumber
  if attempt.status = .waiting then
    modify fun store => { store with
      attempts := Table.update Attempt.id attempt.id (setAttemptStatus .inProgress) store.attempts }
    pure { stageRowId := row.id, attemptId := attempt.id, attemptNumber := attempt.attemptNumber, inputRevision }
  else if attempt.status ≠ .inProgress then
    throw ⟨.state, s!"attempt {Text.repr attempt.id} is already finalized ({attempt.status.value}); " ++
      "a committed result must be replayed or a new attempt opened (ADR-006 p.3/p.7)"⟩
  else
    pure { stageRowId := row.id, attemptId := attempt.id, attemptNumber := attempt.attemptNumber, inputRevision }

/-- What the event id digests: the resolution of a checkpoint adds its status. -/
def stageCompletedText (attemptId : String) (supersedeStatus : Option StageStatus) : String :=
  let payload := attemptId ++ ":" ++ stageCompletedType
  match supersedeStatus with
  | some status => payload ++ ":" ++ status.value
  | none => payload

def stageCompletedEventId (attemptId : String) (supersedeStatus : Option StageStatus) : String :=
  "evt_" ++ shortDigest (stageCompletedText attemptId supersedeStatus)

theorem stageStatus_value_colonFree (status : StageStatus) : ColonFree status.value := by
  unfold ColonFree
  cases status <;> decide

theorem stageStatus_value_injective {status other : StageStatus} (same : status.value = other.value) :
    status = other := by
  revert same
  cases status <;> cases other <;> decide

theorem stageCompletedText_none (attemptId : String) :
    (stageCompletedText attemptId none).toList = attemptId.toList ++ ':' :: stageCompletedType.toList := by
  simp [stageCompletedText]

theorem stageCompletedText_some (attemptId : String) (status : StageStatus) :
    (stageCompletedText attemptId (some status)).toList =
      (stageCompletedText attemptId none).toList ++ ':' :: status.value.toList := by
  simp [stageCompletedText]

/-- The attempt and the added status can be read off the text. -/
theorem stageCompletedText_injective {attemptId otherId : String} {status other : Option StageStatus}
    (same : stageCompletedText attemptId status = stageCompletedText otherId other) :
    attemptId = otherId ∧ status = other := by
  have typeFree : ColonFree stageCompletedType := by
    unfold ColonFree
    decide
  have apart (kind : StageStatus) : stageCompletedType ≠ kind.value := by
    cases kind <;> decide
  have outcomes {first second : String}
      (letters : (stageCompletedText first none).toList = (stageCompletedText second none).toList) :
      first = second := by
    rw [stageCompletedText_none, stageCompletedText_none] at letters
    exact String.toList_injective ((Delimited.cut_last typeFree typeFree).mp letters).1
  -- Both texts end in a segment without a colon: the event type for an outcome, the status for a resolution.
  have letters := congrArg String.toList same
  cases status with
  | none =>
    cases other with
    | none => exact ⟨outcomes letters, rfl⟩
    | some kind =>
      rw [stageCompletedText_none, stageCompletedText_some] at letters
      obtain ⟨-, ends⟩ := (Delimited.cut_last typeFree (stageStatus_value_colonFree kind)).mp letters
      exact absurd (String.toList_injective ends) (apart kind)
  | some kind =>
    cases other with
    | none =>
      rw [stageCompletedText_none, stageCompletedText_some] at letters
      obtain ⟨-, ends⟩ := (Delimited.cut_last (stageStatus_value_colonFree kind) typeFree).mp letters
      exact absurd (String.toList_injective ends).symm (apart kind)
    | some second =>
      rw [stageCompletedText_some, stageCompletedText_some] at letters
      obtain ⟨texts, ends⟩ := (Delimited.cut_last (stageStatus_value_colonFree kind)
        (stageStatus_value_colonFree second)).mp letters
      exact ⟨outcomes texts, congrArg some (stageStatus_value_injective (String.toList_injective ends))⟩

def nextSequence (aggregateId : String) (store : Store) : Nat :=
  ((store.outbox.filter (·.aggregateId = aggregateId)).map (·.sequence)).foldl max 0 + 1

def publish (event : OutboxEvent) (consumers : List String) : Session Unit := Outcome.perform fun store =>
  match Table.find OutboxEvent.eventId event.eventId store.outbox with
  | some _ => .error ⟨.integrity, s!"duplicate key value violates the primary key of outbox: {event.eventId}"⟩
  | none => .ok ((), { store with
      outbox := store.outbox ++ [{ event with sequence := nextSequence event.aggregateId store }]
      deliveries := store.deliveries ++
        consumers.map fun consumerId => { eventId := event.eventId, consumerId } })

def placeStages (runId : String) (createdAt : Timestamp) : List StagePlacement → Session Unit
  | [] => pure ()
  | placement :: rest => do
    let _ ← getOrCreateStage runId placement.stage placement.inputRevision createdAt
    placeStages runId createdAt rest

/-- The revision follows the domain run and the spent budget is saved with the decision. -/
def Execution.settled (run : ChangeRun) (execution : Execution) : Execution :=
  { execution with
    stateRevision := max execution.stateRevision run.stateRevision
    budget := some run.budget }

def stageCompletedEvent (run : ChangeRun) (result : StageResult) (decision : FlowDecision)
    (openStage : OpenStage) (outcome : RecordOutcome) (execution : Execution) : OutboxEvent :=
  { eventId := stageCompletedEventId openStage.attemptId
      (if outcome = .superseded then some result.status else none)
    eventType := stageCompletedType
    changeId := run.changeId
    runId := run.id
    stage := some result.stage
    aggregateId := run.id
    aggregateVersion := execution.stateRevision
    causationId := some openStage.attemptId
    payload :=
      { attemptNumber := result.attemptNumber, resultStatus := result.status,
        stageStatus := decision.stageStatus, runStatus := decision.runStatus,
        nextAction := decision.action.type, nextStage := decision.nextStage }
    sequence := 0 }

/-- One flow decision, written as a whole; `false` when the attempt already has its result. -/
def persistDecision (run : ChangeRun) (result : StageResult) (decision : FlowDecision)
    (openStage : OpenStage) (createdStages : List StagePlacement) (expectedRevision fencingToken : Nat)
    (createdAt : Timestamp) : Session Bool := do
  let outcome ← recordOutcome result
  if outcome = .replayed then pure false
  else
    placeStages run.id createdAt createdStages
    advanceStage openStage.stageRowId decision.stageStatus
    finishAttempt openStage.attemptId decision.stageStatus
    let execution ← updateStatus run.id decision.runStatus expectedRevision fencingToken
    let settled := execution.settled run
    modify fun store => { store with
      executions := Table.update Execution.id run.id (fun _ => settled) store.executions }
    publish (stageCompletedEvent run result decision openStage outcome settled) stageCompletedConsumers
    pure true

structure CreateInput where
  changeId : String
  route : Route
  provider : Provider
  budget : BudgetSnapshot
  inputRevision : String
  implementationContract : Option ImplementationContract := none
  initialStageRevision : Option String := none
  createdAt : Timestamp
  deriving DecidableEq, Repr

def CreateInput.runId (input : CreateInput) : String := generatedRunId input.changeId input.inputRevision

/-- Idempotent by the generated id: a repeated call returns the run as it stands. -/
def createRun (input : CreateInput) : Session ChangeRun := do
  let store ← get
  match store.load input.runId with
  | some existing => pure existing
  | none =>
    modify fun store => { store with
      executions := Table.insertNew Execution.id
        { id := input.runId, changeId := input.changeId, route := input.route, provider := input.provider
          budget := some input.budget, implementationContract := input.implementationContract }
        store.executions }
    let _ ← getOrCreateStage input.runId (routeProfile input.route).initialStage
      (input.initialStageRevision.getD input.inputRevision) input.createdAt
    let store ← get
    match store.load input.runId with
    | none => throw ⟨.state, s!"execution {Text.repr input.runId} was not created"⟩
    | some run => pure run

end DarkFactory
