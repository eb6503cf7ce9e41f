import DarkFactory.State.WellFormed

namespace DarkFactory

theorem stageStatusPath_ok {current target : StageStatus} {path : List StageStatus}
    (walked : stageStatusPath current target = .ok path) : path.getLastD current = target := by
  unfold stageStatusPath at walked
  by_cases same : current = target
  · rw [if_pos same] at walked
    cases walked
    exact same
  rw [if_neg same] at walked
  by_cases direct : (stageStatusTransitions current).contains target = true
  · rw [if_pos direct] at walked
    cases walked
    rfl
  rw [if_neg direct] at walked
  by_cases through : ((stageStatusTransitions current).contains .inProgress &&
      (stageStatusTransitions .inProgress).contains target) = true
  · rw [if_pos through] at walked
    cases walked
    rfl
  · rw [if_neg through] at walked
    cases walked

def placed (runId : String) (createdAt : Timestamp) (placements : List StagePlacement)
    (rows : List StageRow) : List StageRow :=
  placements.foldl (fun rows placement => Table.insertNew StageRow.id
    (newStageRow runId placement.stage placement.inputRevision createdAt) rows) rows

theorem countAttempt_id (attemptNumber : Nat) (row : StageRow) :
    (countAttempt attemptNumber row).id = row.id := rfl

theorem setAttemptStatus_id (status : StageStatus) (attempt : Attempt) :
    (setAttemptStatus status attempt).id = attempt.id := rfl

theorem walk_id (path : List StageStatus) (row : StageRow) : (row.walk path).id = row.id := rfl

section Writes

variable {store after : Store}

theorem getOrCreateStage_ok {executionId : String} {stage : Stage} {inputRevision : String}
    {createdAt : Timestamp} {row : StageRow}
    (done : getOrCreateStage executionId stage inputRevision createdAt store = .ok row after) :
    after = { store with stages := placed executionId createdAt [⟨stage, inputRevision⟩] store.stages } ∧
      row = (store.stageRow (operationKey executionId stage inputRevision)).getD
        (newStageRow executionId stage inputRevision createdAt) := by
  rw [getOrCreateStage, Outcome.state_modify_bind, Outcome.state_get_bind] at done
  obtain ⟨found, rfl⟩ := Outcome.state_pure_ok.mp done
  refine ⟨rfl, ?_⟩
  rw [← found, Store.stageRow, Table.find_insertNew_self]
  rfl

theorem placeStages_ok {runId : String} {createdAt : Timestamp} {placements : List StagePlacement} {u : Unit}
    (done : placeStages runId createdAt placements store = .ok u after) :
    after = { store with stages := placed runId createdAt placements store.stages } := by
  induction placements generalizing store with
  | nil =>
    obtain ⟨-, rfl⟩ := Outcome.state_pure_ok.mp done
    rfl
  | cons placement rest ih =>
    obtain ⟨row, created, made, others⟩ := Outcome.state_bind_ok.mp done
    obtain ⟨rfl, -⟩ := getOrCreateStage_ok made
    exact ih others

theorem advanceStage_ok {rowId : String} {target : StageStatus} {u : Unit}
    (done : advanceStage rowId target store = .ok u after) :
    ∃ row path, store.stageRow rowId = some row ∧ path.getLastD row.status = target ∧
      after = { store with stages := Table.update StageRow.id rowId (StageRow.walk path) store.stages } := by
  have computed := Outcome.perform_ok.mp done
  cases found : store.stageRow rowId with
  | none => simp [found] at computed
  | some row =>
    simp only [found] at computed
    obtain ⟨path, walked, written⟩ := Outcome.bind_ok.mp computed
    simp only [Outcome.pure_ok, Prod.mk.injEq] at written
    exact ⟨row, path, rfl, stageStatusPath_ok walked, written.2.symm⟩

theorem finishAttempt_writes {attemptId : String} {target : StageStatus} {u : Unit}
    (done : finishAttempt attemptId target store = .ok u after) :
    after = { store with attempts := Table.update Attempt.id attemptId (setAttemptStatus target) store.attempts } := by
  have computed := Outcome.perform_ok.mp done
  cases found : Table.find Attempt.id attemptId store.attempts with
  | none => simp [found] at computed
  | some attempt =>
    simp only [found] at computed
    obtain ⟨path, -, written⟩ := Outcome.bind_ok.mp computed
    simp only [Outcome.pure_ok, Prod.mk.injEq] at written
    exact written.2.symm

theorem finishAttempt_ok {attemptId : String} {target : StageStatus} {u : Unit}
    (done : finishAttempt attemptId target store = .ok u after) :
    after = { store with attempts := after.attempts } := by
  rw [finishAttempt_writes done]

theorem publish_writes {event : OutboxEvent} {consumers : List String} {u : Unit}
    (done : publish event consumers store = .ok u after) :
    Table.find OutboxEvent.eventId event.eventId store.outbox = none ∧
      after = { store with
        outbox := store.outbox ++ [{ event with sequence := nextSequence event.aggregateId store }]
        deliveries := after.deliveries } := by
  have computed := Outcome.perform_ok.mp done
  cases found : Table.find OutboxEvent.eventId event.eventId store.outbox with
  | some held => simp [found] at computed
  | none =>
    simp only [found, Except.ok.injEq, Prod.mk.injEq] at computed
    rw [← computed.2]
    exact ⟨rfl, rfl⟩

theorem publish_ok {event : OutboxEvent} {consumers : List String} {u : Unit}
    (done : publish event consumers store = .ok u after) :
    after = { store with outbox := after.outbox, deliveries := after.deliveries } := by
  rw [(publish_writes done).2]

def newAttempt (row : StageRow) (attemptNumber : Nat) : Attempt :=
  { id := attemptId row.id attemptNumber, stageId := row.id, attemptNumber }

def heldAttempt (row : StageRow) (attemptNumber : Nat) (attempts : List Attempt) : Attempt :=
  (Table.find Attempt.id (newAttempt row attemptNumber).id attempts).getD (newAttempt row attemptNumber)

theorem heldAttempt_id (row : StageRow) (attemptNumber : Nat) (attempts : List Attempt) :
    (heldAttempt row attemptNumber attempts).id = attemptId row.id attemptNumber := by
  unfold heldAttempt
  cases held : Table.find Attempt.id (newAttempt row attemptNumber).id attempts with
  | none => rfl
  | some old => exact (Table.find_some held).2

theorem find_newAttempt (row : StageRow) (attemptNumber : Nat) (attempts : List Attempt) :
    Table.find Attempt.id (attemptId row.id attemptNumber)
      (Table.insertNew Attempt.id (newAttempt row attemptNumber) attempts) =
        some (heldAttempt row attemptNumber attempts) := by
  rw [show attemptId row.id attemptNumber = (newAttempt row attemptNumber).id from rfl, Table.find_insertNew_self]
  rfl

theorem appendAttempt_eq (row : StageRow) (attemptNumber : Nat) (store : Store) :
    appendAttempt row attemptNumber store = .ok (heldAttempt row attemptNumber store.attempts) { store with
      attempts := Table.insertNew Attempt.id (newAttempt row attemptNumber) store.attempts
      stages := Table.update StageRow.id row.id (countAttempt attemptNumber) store.stages } := by
  rw [appendAttempt, Outcome.state_modify_bind, Outcome.state_get_bind]
  change EStateM.Result.ok (Option.getD (Table.find Attempt.id (attemptId row.id attemptNumber)
    (Table.insertNew Attempt.id (newAttempt row attemptNumber) store.attempts)) _) _ = _
  rw [find_newAttempt]
  rfl

/-- What an opening writes: the row of the operation counts the attempt, and the attempt goes on from a parked one
    or is in progress already. -/
theorem openAttempt_writes {run : ChangeRun} {stage : Stage} {inputRevision : String} {attemptNumber : Nat}
    {createdAt : Timestamp} {opened : OpenStage}
    (done : openAttempt run stage inputRevision attemptNumber createdAt store = .ok opened after) :
    ∃ row created, getOrCreateStage run.id stage inputRevision createdAt store = .ok row created ∧
      opened.stageRowId = row.id ∧ opened.attemptId = attemptId row.id attemptNumber ∧
      after = { created with
        attempts := after.attempts
        stages := Table.update StageRow.id row.id (countAttempt attemptNumber) created.stages } ∧
      (after.attempts = Table.update Attempt.id opened.attemptId (setAttemptStatus .inProgress)
          (Table.insertNew Attempt.id (newAttempt row attemptNumber) created.attempts) ∨
        (heldAttempt row attemptNumber created.attempts).status = .inProgress ∧
          after.attempts = Table.insertNew Attempt.id (newAttempt row attemptNumber) created.attempts) := by
  obtain ⟨row, created, made, finish⟩ := Outcome.state_bind_ok.mp done
  rw [Outcome.state_bind_eq (appendAttempt_eq row attemptNumber created)] at finish
  have named := heldAttempt_id row attemptNumber created.attempts
  refine ⟨row, created, made, ?_⟩
  generalize heldAttempt row attemptNumber created.attempts = attempt at finish named ⊢
  by_cases waiting : attempt.status = .waiting
  · rw [if_pos waiting, Outcome.state_modify_bind] at finish
    obtain ⟨rfl, rfl⟩ := Outcome.state_pure_ok.mp finish
    exact ⟨rfl, named, rfl, Or.inl rfl⟩
  rw [if_neg waiting] at finish
  by_cases finalized : attempt.status ≠ .inProgress
  · rw [if_pos finalized] at finish
    exact absurd finish (by simp [Outcome.state_throw_ok])
  · rw [if_neg finalized] at finish
    obtain ⟨rfl, rfl⟩ := Outcome.state_pure_ok.mp finish
    exact ⟨rfl, named, rfl, Or.inr ⟨not_not.mp finalized, rfl⟩⟩

theorem openAttempt_ok {run : ChangeRun} {stage : Stage} {inputRevision : String} {attemptNumber : Nat}
    {createdAt : Timestamp} {opened : OpenStage} {row : StageRow}
    (unique : Table.Unique StageRow.id store.stages) (member : row ∈ store.stages)
    (own : row.id = operationKey run.id stage inputRevision)
    (done : openAttempt run stage inputRevision attemptNumber createdAt store = .ok opened after) :
    opened.stageRowId = row.id ∧
      after = { store with
        attempts := after.attempts
        stages := Table.update StageRow.id row.id (countAttempt attemptNumber) store.stages } := by
  obtain ⟨known, created, made, rowId, -, written, -⟩ := openAttempt_writes done
  obtain ⟨rfl, rfl⟩ := getOrCreateStage_ok made
  have present : store.stageRow (operationKey run.id stage inputRevision) = some row := by
    rw [← own]
    exact unique.find member
  have kept : placed run.id createdAt [⟨stage, inputRevision⟩] store.stages = store.stages := by
    simp only [placed, List.foldl_cons, List.foldl_nil, Table.insertNew]
    rw [show Table.find StageRow.id (newStageRow run.id stage inputRevision createdAt).id store.stages =
      some row from present]
  rw [present, Option.getD_some] at rowId written
  rw [kept] at written
  exact ⟨rowId, written⟩

theorem openAttempt_attempt {run : ChangeRun} {stage : Stage} {inputRevision : String} {attemptNumber : Nat}
    {createdAt : Timestamp} {opened : OpenStage}
    (done : openAttempt run stage inputRevision attemptNumber createdAt store = .ok opened after) :
    opened.attemptId = attemptId opened.stageRowId attemptNumber ∧
      ∃ attempt, Table.find Attempt.id opened.attemptId after.attempts = some attempt ∧
        attempt.status = .inProgress := by
  obtain ⟨row, created, -, rowId, named, -, attempts⟩ := openAttempt_writes done
  have located := find_newAttempt row attemptNumber created.attempts
  rw [← named] at located
  refine ⟨by rw [named, rowId], ?_⟩
  rcases attempts with resumed | ⟨status, inserted⟩
  · refine ⟨setAttemptStatus .inProgress (heldAttempt row attemptNumber created.attempts), ?_, rfl⟩
    rw [resumed, Table.find_update_self fun held here => (setAttemptStatus_id .inProgress held).trans here, located]
    rfl
  · exact ⟨_, by rw [inserted]; exact located, status⟩

structure DecisionWrites where
  outcome : RecordOutcome
  noted : Store
  laid : Store
  walked : Store
  finished : Store
  moved : Execution
  updated : Store

/-- The writes of a decision that is not a replay, in their order. -/
structure DecisionWrites.Leads (writes : DecisionWrites) (run : ChangeRun) (result : StageResult)
    (decision : FlowDecision) (openStage : OpenStage) (created : List StagePlacement)
    (expectedRevision fencingToken : Nat) (createdAt : Timestamp) (store after : Store) : Prop where
  recording : recordOutcome result store = .ok writes.outcome writes.noted
  kept : writes.outcome ≠ .replayed
  placing : placeStages run.id createdAt created writes.noted = .ok () writes.laid
  advancing : advanceStage openStage.stageRowId decision.stageStatus writes.laid = .ok () writes.walked
  finishing : finishAttempt openStage.attemptId decision.stageStatus writes.walked = .ok () writes.finished
  updating : updateStatus run.id decision.runStatus expectedRevision fencingToken writes.finished =
    .ok writes.moved writes.updated
  publishing : publish (stageCompletedEvent run result decision openStage writes.outcome
      (writes.moved.settled run)) stageCompletedConsumers
    { writes.updated with
      executions := Table.update Execution.id run.id (fun _ => writes.moved.settled run)
        writes.updated.executions } = .ok () after

theorem persistDecision_writes {run : ChangeRun} {result : StageResult} {decision : FlowDecision}
    {openStage : OpenStage} {created : List StagePlacement} {expectedRevision fencingToken : Nat}
    {createdAt : Timestamp} {persisted : Bool}
    (done : persistDecision run result decision openStage created expectedRevision fencingToken createdAt
      store = .ok persisted after) :
    (persisted = false ∧ recordOutcome result store = .ok .replayed after) ∨
      (persisted = true ∧ ∃ writes : DecisionWrites,
        writes.Leads run result decision openStage created expectedRevision fencingToken createdAt store after) := by
  obtain ⟨outcome, noted, recording, rest⟩ := Outcome.state_bind_ok.mp done
  by_cases replayed : outcome = .replayed
  · rw [if_pos replayed] at rest
    obtain ⟨rfl, rfl⟩ := Outcome.state_pure_ok.mp rest
    exact Or.inl ⟨rfl, replayed ▸ recording⟩
  rw [if_neg replayed] at rest
  obtain ⟨_, laid, placing, rest⟩ := Outcome.state_bind_ok.mp rest
  obtain ⟨_, walked, advancing, rest⟩ := Outcome.state_bind_ok.mp rest
  obtain ⟨_, finished, finishing, rest⟩ := Outcome.state_bind_ok.mp rest
  obtain ⟨moved, updated, updating, rest⟩ := Outcome.state_bind_ok.mp rest
  rw [Outcome.state_modify_bind] at rest
  obtain ⟨_, published, publishing, rest⟩ := Outcome.state_bind_ok.mp rest
  obtain ⟨rfl, rfl⟩ := Outcome.state_pure_ok.mp rest
  exact Or.inr ⟨rfl, ⟨outcome, noted, laid, walked, finished, moved, updated⟩, recording, replayed, placing,
    advancing, finishing, updating, publishing⟩

/-- A written decision appends its event, under an id the outbox did not have, and leaves the leases alone. -/
theorem DecisionWrites.Leads.publishes {writes : DecisionWrites} {run : ChangeRun} {result : StageResult}
    {decision : FlowDecision} {openStage : OpenStage} {created : List StagePlacement}
    {expectedRevision fencingToken : Nat} {createdAt : Timestamp}
    (leads : writes.Leads run result decision openStage created expectedRevision fencingToken createdAt store after) :
    after.leases = store.leases ∧ ∃ event, after.outbox = store.outbox ++ [event] ∧
      Table.find OutboxEvent.eventId event.eventId store.outbox = none ∧
      event.eventId = stageCompletedEventId openStage.attemptId
        (if writes.outcome = .superseded then some result.status else none) ∧
      event.causationId = some openStage.attemptId ∧ event.payload.resultStatus = result.status := by
  have notedEq := (recordOutcome_ok leads.recording).1
  have laidEq := placeStages_ok leads.placing
  obtain ⟨row, path, -, -, walkedEq⟩ := advanceStage_ok leads.advancing
  have finishedEq := finishAttempt_ok leads.finishing
  obtain ⟨execution, route, -, -, -, -, -, updatedEq⟩ := updateStatus_ok leads.updating
  have publishedEq := publish_ok leads.publishing
  obtain ⟨absent, written⟩ := publish_writes leads.publishing
  have appended := congrArg Store.outbox written
  have outbox : writes.updated.outbox = store.outbox := by
    rw [updatedEq, finishedEq, walkedEq, laidEq, notedEq]
  dsimp only at absent appended
  rw [outbox] at absent appended
  refine ⟨?_, _, appended, absent, rfl, rfl, rfl⟩
  rw [publishedEq, updatedEq, finishedEq, walkedEq, laidEq, notedEq]

/-- A written decision moves the run row once more than it was moved before, with the budget of the run. -/
theorem DecisionWrites.Leads.execution {writes : DecisionWrites} {run : ChangeRun} {result : StageResult}
    {decision : FlowDecision} {openStage : OpenStage} {created : List StagePlacement}
    {expectedRevision fencingToken : Nat} {createdAt : Timestamp}
    (leads : writes.Leads run result decision openStage created expectedRevision fencingToken createdAt store after) :
    ∃ execution, store.execution run.id = some execution ∧ after.execution run.id = some { execution with
      status := decision.runStatus
      stateRevision := max (execution.stateRevision + 1) run.stateRevision
      budget := some run.budget } := by
  obtain ⟨row, path, -, -, walkedEq⟩ := advanceStage_ok leads.advancing
  obtain ⟨execution, route, present, -, -, -, movedEq, updatedEq⟩ := updateStatus_ok leads.updating
  have executions : writes.finished.executions = store.executions := by
    rw [finishAttempt_ok leads.finishing, walkedEq, placeStages_ok leads.placing, (recordOutcome_ok leads.recording).1]
  have located : execution.id = run.id := (Table.find_some present).2
  rw [Store.execution, executions] at present
  refine ⟨execution, present, ?_⟩
  rw [publish_ok leads.publishing, Store.execution, updatedEq, movedEq, executions]
  dsimp only
  rw [Table.find_replace (by exact located), Table.find_replace (by exact located), present]
  rfl

/-- What a written decision leaves in the three tables the flow reads back. -/
structure Persisted (run : ChangeRun) (result : StageResult) (decision : FlowDecision) (rowId : String)
    (created : List StagePlacement) (createdAt : Timestamp) (store after : Store) : Prop where
  recording : ∃ outcome noted, recordOutcome result store = .ok outcome noted ∧ outcome ≠ .replayed ∧
    after.results = recorded result outcome store.results
  stages : ∃ row path, Table.find StageRow.id rowId (placed run.id createdAt created store.stages) = some row ∧
    path.getLastD row.status = decision.stageStatus ∧
    after.stages = Table.update StageRow.id rowId (StageRow.walk path)
      (placed run.id createdAt created store.stages)
  executions : ∃ execution revision, store.execution run.id = some execution ∧
    after.executions = Table.update Execution.id run.id (fun _ =>
      { execution with status := decision.runStatus, stateRevision := revision, budget := some run.budget })
      store.executions

theorem persistDecision_ok {run : ChangeRun} {result : StageResult} {decision : FlowDecision}
    {openStage : OpenStage} {created : List StagePlacement} {expectedRevision fencingToken : Nat}
    {createdAt : Timestamp} {persisted : Bool}
    (done : persistDecision run result decision openStage created expectedRevision fencingToken createdAt
      store = .ok persisted after) :
    (persisted = false ∧ recordOutcome result store = .ok .replayed after) ∨
      (persisted = true ∧
        Persisted run result decision openStage.stageRowId created createdAt store after) := by
  rcases persistDecision_writes done with replay | ⟨rfl, ⟨outcome, noted, laid, walked, finished, moved, updated⟩,
    recording, replayed, placing, advancing, finishing, updating, publishing⟩
  · exact Or.inl replay
  have notedEq := (recordOutcome_ok recording).1
  have laidEq := placeStages_ok placing
  obtain ⟨row, path, found, target, walkedEq⟩ := advanceStage_ok advancing
  have finishedEq := finishAttempt_ok finishing
  obtain ⟨execution, route, present, -, -, -, movedEq, updatedEq⟩ := updateStatus_ok updating
  have publishedEq := publish_ok publishing
  dsimp only at notedEq laidEq found walkedEq finishedEq present movedEq updatedEq publishedEq
  have laidStages : laid.stages = placed run.id createdAt created store.stages := by rw [laidEq, notedEq]
  have executions : finished.executions = store.executions := by
    rw [finishedEq, walkedEq, laidEq, notedEq]
  have results : finished.results = recorded result outcome store.results := by
    rw [finishedEq, walkedEq, laidEq, notedEq]
  have located : execution.id = run.id := (Table.find_some present).2
  refine Or.inr ⟨rfl, ⟨outcome, noted, recording, replayed, ?_⟩, ⟨row, path, ?_, target, ?_⟩,
    ⟨execution, (moved.settled run).stateRevision, ?_, ?_⟩⟩
  · rw [publishedEq, updatedEq]
    exact results
  · rw [← laidStages]
    exact found
  · rw [publishedEq, updatedEq, finishedEq, walkedEq, ← laidStages]
  · rw [Store.execution, ← executions]
    exact present
  · rw [publishedEq, updatedEq, movedEq, ← executions]
    simp only [Table.update, List.map_map]
    apply List.map_congr_left
    intro item _
    by_cases here : item.id = run.id
    · simp only [Function.comp_apply, here, ↓reduceIte, located]
      rfl
    · simp [here]

end Writes

end DarkFactory
