import DarkFactory.Runner.Events

namespace DarkFactory

section Attempts

variable {store after : Store}

theorem openAttempt_attempts {run : ChangeRun} {stage : Stage} {inputRevision : String} {attemptNumber : Nat}
    {createdAt : Timestamp} {opened : OpenStage}
    (done : openAttempt run stage inputRevision attemptNumber createdAt store = .ok opened after)
    {item : Attempt} (member : item ∈ after.attempts) : item ∈ store.attempts ∨ item.id = opened.attemptId := by
  obtain ⟨row, created, made, -, named, -, attempts⟩ := openAttempt_writes done
  have kept : created.attempts = store.attempts := by rw [(getOrCreateStage_ok made).1]
  rw [kept] at attempts
  have listed (other : Attempt)
      (inserted : other ∈ Table.insertNew Attempt.id (newAttempt row attemptNumber) store.attempts) :
      other ∈ store.attempts ∨ other.id = opened.attemptId := by
    rcases Table.mem_insertNew.mp inserted with old | ⟨-, rfl⟩
    · exact Or.inl old
    · exact Or.inr named.symm
  rcases attempts with resumed | ⟨-, inserted⟩
  · rw [resumed] at member
    rcases Table.mem_update.mp member with ⟨old, -⟩ | ⟨old, -, same, rfl⟩
    · exact listed item old
    · exact Or.inr same
  · rw [inserted] at member
    exact listed item member

theorem finishAttempt_attempts {attemptId : String} {target : StageStatus} {u : Unit}
    (done : finishAttempt attemptId target store = .ok u after) {item : Attempt} (member : item ∈ after.attempts) :
    (item ∈ store.attempts ∧ item.id ≠ attemptId) ∨ (item.id = attemptId ∧ item.status = target) := by
  rw [finishAttempt_writes done] at member
  rcases Table.mem_update.mp member with kept | ⟨old, -, same, rfl⟩
  · exact Or.inl kept
  · exact Or.inr ⟨same, rfl⟩

theorem openAttempt_total {run : ChangeRun} {stage : Stage} {inputRevision : String} {attemptNumber : Nat}
    (createdAt : Timestamp)
    (parked : ∀ held, Table.find Attempt.id (attemptId (operationKey run.id stage inputRevision) attemptNumber)
      store.attempts = some held → held.status = .waiting) :
    ∃ opened after, openAttempt run stage inputRevision attemptNumber createdAt store = .ok opened after := by
  obtain ⟨row, created, made⟩ : ∃ row created,
      getOrCreateStage run.id stage inputRevision createdAt store = .ok row created := ⟨_, _, rfl⟩
  obtain ⟨createdEq, rowEq⟩ := getOrCreateStage_ok made
  have key : row.id = operationKey run.id stage inputRevision := by
    rw [rowEq]
    cases held : store.stageRow (operationKey run.id stage inputRevision) with
    | none => rfl
    | some old => exact (Table.find_some held).2
  have kept : created.attempts = store.attempts := by rw [createdEq]
  have status : (heldAttempt row attemptNumber store.attempts).status = .waiting ∨
      (heldAttempt row attemptNumber store.attempts).status = .inProgress := by
    unfold heldAttempt
    cases held : Table.find Attempt.id (newAttempt row attemptNumber).id store.attempts with
    | none => exact Or.inr rfl
    | some old => exact Or.inl (parked old (by rw [← key]; exact held))
  rw [openAttempt, Outcome.state_bind_eq made, Outcome.state_bind_eq (appendAttempt_eq row attemptNumber created),
    kept]
  by_cases waiting : (heldAttempt row attemptNumber store.attempts).status = .waiting
  · rw [if_pos waiting]
    exact ⟨_, _, rfl⟩
  · rw [if_neg waiting, if_neg (not_not.mpr (status.resolve_left waiting))]
    exact ⟨_, _, rfl⟩

end Attempts

structure Openable (store : Store) : Prop where
  published : Published store
  attempts : ∀ attempt ∈ store.attempts, ∃ row ∈ store.results, row.id = attempt.id ∧
    (row.status = .waiting → attempt.status = .waiting)

theorem Openable.frame {before after : Store} (openable : Openable before) (published : Published after)
    (attempts : after.attempts = before.attempts) (results : after.results = before.results) : Openable after := by
  refine ⟨published, ?_⟩
  rw [attempts, results]
  exact openable.attempts

theorem applyResult_parks {run final : ChangeRun} {result : StageResult} {history : List StageResult}
    {now : Timestamp} {context : Option MergeRequestContext} {decisions : List Decision} {decision : FlowDecision}
    (applied : applyResult result history now context decisions run = .ok decision final)
    (waits : result.status = .waiting) : decision.stageStatus = .waiting := by
  obtain ⟨-, -, paired, index, entered, reached, -, computed, rfl, -⟩ := applyResult_ok applied
  rw [waits] at paired
  unfold verdict at computed
  cases action : result.nextAction with
  | waitForInput | waitForCi | requestApproval =>
    rw [action] at computed
    cases computed
    rfl
  | stop outcome reason =>
    rw [action] at paired
    cases outcome <;> cases paired
  | executeStage | rework | phaseRound | merge | release =>
    rw [action] at paired
    cases paired

section Steps

variable {input : AdvanceInput} {before after : Store} {report : RunAdvance} {attempt : Attempted} {row : StageRow}
  {trace : AdvanceTrace}

/-- The attempts after a decision: that of its result with the status of the stage, the others as they were. -/
theorem AdvanceSteps.attempts (steps : AdvanceSteps input before after report attempt row trace)
    (wf : WellFormed before) {item : Attempt} (member : item ∈ after.attempts) :
    (item ∈ before.attempts ∧ item.id ≠ (resultRow attempt.result).id) ∨
      (item.id = (resultRow attempt.result).id ∧ item.status = trace.decision.stageStatus) := by
  obtain ⟨writes, written, released, leads, releasing⟩ := steps.leads wf
  have kept : after.attempts = writes.finished.attempts := by
    have freed : after.attempts = written.attempts := by
      rcases release_ok releasing with ⟨-, -, rfl⟩ | ⟨-, rfl⟩ <;> rfl
    obtain ⟨execution, route, -, -, -, -, -, updatedEq⟩ := updateStatus_ok leads.updating
    rw [freed, publish_ok leads.publishing, updatedEq]
  have walked : writes.walked.attempts = trace.opening.attempts := by
    obtain ⟨held, path, -, -, walkedEq⟩ := advanceStage_ok leads.advancing
    rw [walkedEq, placeStages_ok leads.placing, (recordOutcome_ok leads.recording).1]
  rw [kept] at member
  rw [← steps.attemptId_eq wf]
  rcases finishAttempt_attempts leads.finishing member with ⟨earlier, apart⟩ | finished
  · rw [walked] at earlier
    obtain ⟨-, -, -, opening⟩ := openIdentity_steps steps.opens
    have leased : trace.leased.attempts = before.attempts := by rw [(acquire_ok steps.acquired).2.2]
    rcases openAttempt_attempts opening earlier with old | own
    · rw [leased] at old
      exact Or.inl ⟨old, apart⟩
    · exact absurd own apart
  · exact Or.inr finished

theorem AdvanceSteps.openable (steps : AdvanceSteps input before after report attempt row trace)
    (openable : Openable before) : Openable after := by
  have wf := openable.published.wellFormed
  obtain ⟨reached, effect, -⟩ := steps.effect wf
  refine ⟨steps.published openable.published, ?_⟩
  intro item member
  rcases steps.attempts wf member with ⟨earlier, apart⟩ | ⟨own, status⟩
  · obtain ⟨held, there, named, parked⟩ := openable.attempts item earlier
    exact ⟨held, (effect.results wf held).mpr (Or.inl ⟨there, by rw [named]; exact apart⟩), named, parked⟩
  · refine ⟨resultRow attempt.result, (effect.results wf _).mpr (Or.inr rfl), own.symm, ?_⟩
    intro waits
    rw [status]
    exact applyResult_parks steps.applied waits

end Steps

theorem afterDrive_openable {before : Store} (drive : Drive) (openable : Openable before)
    (faithful : drive.faithful) : Openable (afterDrive before drive) := by
  have published := afterDrive_published drive openable.published faithful
  cases drive with
  | create input =>
    rcases afterDrive_create input before with same | ⟨run, creating⟩
    · rw [same]
      exact openable
    · have quiet := createRun_quiet creating
      exact openable.frame published (by rw [quiet]) (by rw [quiet])
  | advance input =>
    rcases afterDrive_advance input before with same | ⟨report, advancing⟩
    · rw [same]
      exact openable
    rcases advanceRun_idle openable.published.wellFormed openable.published.idle faithful advancing with
      same | ⟨attempt, row, trace, steps⟩
    · rw [same]
      exact openable
    · exact steps.openable openable

theorem driven_openable {drives : List Drive} (faithful : ∀ drive ∈ drives, drive.faithful) :
    Openable (driven drives) := by
  have along : Trace.Along afterDrive (fun _ drive => drive.faithful) {} drives :=
    Trace.along_of_forall fun drive member _ => faithful drive member
  exact Trace.invariant (fun _ drive held met => afterDrive_openable drive held met)
    ⟨Published.empty, by simp⟩ along

section Walks

theorem stageStatusPath_total {current target : StageStatus} (live : stageTerminal current = false)
    (reachable : target ∈ stageStatusTransitions .inProgress) : ∃ path, stageStatusPath current target = .ok path := by
  revert live reachable
  cases current <;> cases target <;> simp [stageStatusPath, stageStatusTransitions, stageTerminal]

theorem runStatusPath_total {current target : RunStatus} (live : runTerminal current = false)
    (reachable : target = .running ∨ target ∈ runStatusTransitions .running) :
    ∃ path, runStatusPath current target = .ok path := by
  revert live reachable
  cases current <;> cases target <;> simp [runStatusPath, runStatusTransitions, runTerminal]

theorem Reaches.legal {run : ChangeRun} {result : StageResult} {now : Timestamp} {history : List StageResult}
    {context : Option MergeRequestContext} {decisions : List Decision} {reached : Verdict}
    (reaches : Reaches run result now history context decisions reached) :
    reached.stageStatus ∈ stageStatusTransitions .inProgress ∧
      (reached.runStatus = .running ∨ reached.runStatus ∈ runStatusTransitions .running) := by
  cases reaches with
  | blocked | parked | deferred | left | reworked | nextPhase | released =>
    simp [Verdict.blocked, Verdict.parked, Verdict.advanced, phaseRoundVerdict, stageStatusTransitions,
      runStatusTransitions]
  | stopped outcome =>
    cases outcome <;> simp [stopVerdict, stopStatus, stageStatusTransitions, runStatusTransitions]

end Walks

theorem placeStages_eq (runId : String) (createdAt : Timestamp) (placements : List StagePlacement) (store : Store) :
    placeStages runId createdAt placements store =
      .ok () { store with stages := placed runId createdAt placements store.stages } := by
  induction placements generalizing store with
  | nil => rfl
  | cons placement rest ih =>
    obtain ⟨row, created, made⟩ : ∃ row created,
        getOrCreateStage runId placement.stage placement.inputRevision createdAt store = .ok row created :=
      ⟨_, _, rfl⟩
    rw [placeStages, Outcome.state_bind_eq made, ih, (getOrCreateStage_ok made).1]
    rfl

section Writes

variable (store : Store)

theorem advanceStage_eq {rowId : String} {target : StageStatus} {row : StageRow} {path : List StageStatus}
    (found : store.stageRow rowId = some row) (walks : stageStatusPath row.status target = .ok path) :
    advanceStage rowId target store =
      .ok () { store with stages := Table.update StageRow.id rowId (StageRow.walk path) store.stages } := by
  apply Outcome.perform_ok.mpr
  simp only [found, walks]
  rfl

theorem finishAttempt_eq {attemptId : String} {target : StageStatus} {attempt : Attempt} {path : List StageStatus}
    (found : Table.find Attempt.id attemptId store.attempts = some attempt)
    (walks : stageStatusPath attempt.status target = .ok path) :
    finishAttempt attemptId target store =
      .ok () { store with
        attempts := Table.update Attempt.id attemptId (setAttemptStatus target) store.attempts } := by
  apply Outcome.perform_ok.mpr
  simp only [found, walks]
  rfl

theorem updateStatus_eq {executionId : String} {target : RunStatus} {execution : Execution} {token : Nat}
    {path : List RunStatus} (found : store.execution executionId = some execution)
    (leased : (store.lease "execution" executionId).map (·.fencingToken) = some token)
    (moves : runStatusPath execution.status target = .ok path) :
    updateStatus executionId target execution.stateRevision token store =
      .ok { execution with status := target, stateRevision := execution.stateRevision + 1 } { store with
        executions := Table.update Execution.id executionId
          (fun _ => { execution with status := target, stateRevision := execution.stateRevision + 1 })
          store.executions } := by
  apply Outcome.perform_ok.mpr
  simp only [found, leased, moves, ne_eq, not_true_eq_false, ↓reduceIte]
  rfl

theorem publish_total (event : OutboxEvent) (consumers : List String) :
    (∃ after, publish event consumers store = .ok () after) ∨
      (∃ held ∈ store.outbox, held.eventId = event.eventId) ∧
        ∃ failure, publish event consumers store = .error failure store ∧ failure.kind = .integrity := by
  unfold publish Outcome.perform
  dsimp only
  cases found : Table.find OutboxEvent.eventId event.eventId store.outbox with
  | none => exact Or.inl ⟨_, rfl⟩
  | some held => exact Or.inr ⟨⟨held, Table.find_some found⟩, _, rfl, rfl⟩

end Writes

theorem release_total (resourceType resourceId ownerId : String) (token : Nat) (store : Store) :
    ∃ released after, release resourceType resourceId ownerId token store = .ok released after := by
  unfold release Outcome.perform
  dsimp only
  cases store.lease resourceType resourceId with
  | none => exact ⟨_, _, rfl⟩
  | some lease =>
    dsimp only
    split
    · rename_i computed
      split at computed <;> exact ⟨_, _, rfl⟩
    · rename_i computed
      split at computed <;> cases computed

theorem recordOutcome_total (result : StageResult) (store : Store) :
    ∃ outcome after, recordOutcome result store = .ok outcome after := by
  rw [recordOutcome, Outcome.state_get_bind]
  cases Table.find StageResultRow.id (resultRow result).id store.results with
  | none => exact ⟨_, _, rfl⟩
  | some held =>
    dsimp only
    split
    · exact ⟨_, _, rfl⟩
    · split <;> exact ⟨_, _, rfl⟩

theorem recordOutcome_superseded {result : StageResult} {store noted : Store} {outcome : RecordOutcome}
    (recording : recordOutcome result store = .ok outcome noted) (kept : outcome ≠ .replayed) :
    outcome = .superseded ↔
      (Table.find StageResultRow.id (resultRow result).id store.results).isSome = true := by
  have guard := (recordOutcome_ok recording).2
  cases outcome with
  | replayed => exact absurd rfl kept
  | stored =>
    dsimp only at guard
    simp [guard]
  | superseded =>
    obtain ⟨-, held, found, -⟩ := guard
    simp [found]

/-- A decision whose walks are legal is written, unless the outbox already has an event of its id. -/
theorem persistDecision_total {run : ChangeRun} {result : StageResult} {decision : FlowDecision}
    {openStage : OpenStage} {created : List StagePlacement} {expectedRevision fencingToken : Nat}
    {createdAt : Timestamp} {store noted : Store} {outcome : RecordOutcome} {row : StageRow} {attempt : Attempt}
    {execution : Execution} {stagePath attemptPath : List StageStatus} {runPath : List RunStatus}
    (recording : recordOutcome result store = .ok outcome noted) (kept : outcome ≠ .replayed)
    (found : Table.find StageRow.id openStage.stageRowId (placed run.id createdAt created store.stages) = some row)
    (walks : stageStatusPath row.status decision.stageStatus = .ok stagePath)
    (opened : Table.find Attempt.id openStage.attemptId store.attempts = some attempt)
    (finishes : stageStatusPath attempt.status decision.stageStatus = .ok attemptPath)
    (present : store.execution run.id = some execution)
    (leased : (store.lease "execution" run.id).map (·.fencingToken) = some fencingToken)
    (revision : execution.stateRevision = expectedRevision)
    (moves : runStatusPath execution.status decision.runStatus = .ok runPath) :
    (∃ after, persistDecision run result decision openStage created expectedRevision fencingToken createdAt store =
        .ok true after) ∨
      (∃ held ∈ store.outbox, held.eventId = stageCompletedEventId openStage.attemptId
        (if outcome = .superseded then some result.status else none)) ∧
      ∃ failure partway, persistDecision run result decision openStage created expectedRevision fencingToken
        createdAt store = .error failure partway ∧ failure.kind = .integrity := by
  have notedEq := (recordOutcome_ok recording).1
  have laying := placeStages_eq run.id createdAt created noted
  rw [notedEq] at laying
  have walking := advanceStage_eq { store with
    stages := placed run.id createdAt created store.stages
    results := recorded result outcome store.results } found walks
  have finishing := finishAttempt_eq { store with
    stages := Table.update StageRow.id openStage.stageRowId (StageRow.walk stagePath)
      (placed run.id createdAt created store.stages)
    results := recorded result outcome store.results } opened finishes
  have updating := updateStatus_eq { store with
    stages := Table.update StageRow.id openStage.stageRowId (StageRow.walk stagePath)
      (placed run.id createdAt created store.stages)
    attempts := Table.update Attempt.id openStage.attemptId (setAttemptStatus decision.stageStatus) store.attempts
    results := recorded result outcome store.results } present leased moves
  rw [revision] at updating
  rw [persistDecision, Outcome.state_bind_eq recording, if_neg kept, notedEq, Outcome.state_bind_eq laying,
    Outcome.state_bind_eq walking, Outcome.state_bind_eq finishing, Outcome.state_bind_eq updating]
  dsimp only
  rw [Outcome.state_modify_bind]
  rcases publish_total _ (stageCompletedEvent run result decision openStage outcome (Execution.settled run _))
    stageCompletedConsumers with ⟨after, published⟩ | ⟨taken, failure, refused, kind⟩
  · exact Or.inl ⟨after, by rw [Outcome.state_bind_eq published]; rfl⟩
  · exact Or.inr ⟨taken, failure, _, Outcome.state_bind_error refused, kind⟩

theorem ensureRunning_eq {run : ChangeRun} (live : runTerminal run.status = false) (store : Store) :
    ensureRunning run store = .ok (moveRun .running run) store := by
  unfold ensureRunning
  by_cases already : run.status = .running
  · rw [if_neg (not_not.mpr already), moveRun_self _ already]
    rfl
  · have allowed : RunStatus.running ∈ runStatusTransitions run.status := by
      revert live already
      cases run.status <;> decide
    rw [if_pos already, moveRun, if_neg already]
    exact Outcome.lift_ok.mpr ⟨ChangeRun.applyStatus_ok.mpr ⟨allowed, rfl⟩, rfl⟩

/-- The text the id of the next event of the result digests: that of a checkpoint's outcome adds its status. -/
def Store.nextEventText (store : Store) (result : StageResult) : String :=
  stageCompletedText (resultRow result).id
    (if (Table.find StageResultRow.id (resultRow result).id store.results).isSome = true then some result.status
      else none)

/-- An event of the outbox was named by another text than the next event of the result, with the same digest. -/
def Store.EventCollides (store : Store) (result : StageResult) : Prop :=
  ∃ held ∈ store.outbox, ∃ attemptId supersedes, held.NamedBy attemptId supersedes ∧
    stageCompletedText attemptId supersedes ≠ store.nextEventText result ∧
    shortDigest (stageCompletedText attemptId supersedes) = shortDigest (store.nextEventText result)

section Total

variable {input : AdvanceInput} {before : Store} {attempt : Attempted} {row : StageRow} {trace : AdvanceTrace}
  {decision : FlowDecision} {final : ChangeRun}

theorem Planned.checkpoint (planned : Planned input before attempt row) (wf : WellFormed before)
    {held : StageResultRow} (member : held ∈ before.results) (same : held.id = (resultRow attempt.result).id) :
    held.status = .waiting := by
  by_contra final
  have located : Table.find StageResultRow.id (resultRow attempt.result).id before.results = some held := by
    rw [← same]
    exact wf.resultsUnique.find member
  refine planned.fresh before ?_
  rw [recordOutcome, Outcome.state_get_bind, located]
  dsimp only
  rw [if_neg final]
  split <;> rfl

theorem Planned.parked (planned : Planned input before attempt row) (openable : Openable before) {held : Attempt}
    (found : Table.find Attempt.id (resultRow attempt.result).id before.attempts = some held) :
    held.status = .waiting := by
  obtain ⟨member, same⟩ := Table.find_some found
  obtain ⟨result, there, named, parked⟩ := openable.attempts held member
  exact parked (planned.checkpoint openable.published.wellFormed there (named.trans same))

/-- An event that has the id of the next one has it by a collision: the text of the next event is new. -/
theorem Planned.collides (planned : Planned input before attempt row) (published : Published before)
    {held : OutboxEvent} (listed : held ∈ before.outbox)
    (taken : held.eventId = "evt_" ++ shortDigest (before.nextEventText attempt.result)) :
    before.EventCollides attempt.result := by
  obtain ⟨attemptId, supersedes, named⟩ := published.named held listed
  refine ⟨held, listed, attemptId, supersedes, named, ?_, ?_⟩
  · intro same
    obtain ⟨own, status⟩ := stageCompletedText_injective same
    obtain ⟨result, there, causation, final⟩ := published.recorded held listed
    rw [named.causation, Option.some.injEq] at causation
    have here : result.id = (resultRow attempt.result).id := causation.symm.trans own
    have waits := planned.checkpoint published.wellFormed there here
    have located := published.wellFormed.resultsUnique.find there
    rw [here] at located
    rw [located, Option.isSome_some, if_pos rfl] at status
    exact final (named.outcome (by rw [status]; exact Option.some_ne_none _)) waits
  · rw [named.eventId, stageCompletedEventId] at taken
    exact (String.append_right_inj _).mp taken

theorem Planned.ready (planned : Planned input before attempt row) (openable : Openable before)
    (accepted : applyResult attempt.result (before.loadHistory input.runId) input.now attempt.mergeContext
      attempt.humanDecisions (moveRun .running attempt.run) = .ok decision final) :
    ∃ leased opened opening, AdvanceReady input before attempt row ⟨1, leased, opened, opening, decision, final⟩ := by
  have wf := openable.published.wellFormed
  have runId : attempt.run.id = input.runId := (load_some planned.loaded).choose_spec.2.1
  obtain ⟨leased, taken, leasedEq, -⟩ := acquire_idle leaseResourceType attempt.run.id input.ownerId
    openable.published.idle input.leaseTtl input.leasedAt
  obtain ⟨openStage, opening, opens⟩ : ∃ openStage opening, openAttempt (moveRun .running attempt.run) attempt.stage
      (pinnedRevision input attempt.run attempt.stage) (attemptNumberOf attempt.run attempt.stage) input.createdAt
      leased = .ok openStage opening := by
    apply openAttempt_total
    intro held found
    apply planned.parked openable
    rw [planned.answers.rowId, ← found, leasedEq, moveRun_id, runId, planned.number, planned.revision,
      pinnedRevision_row planned.flight]
  refine ⟨leased, ⟨openStage, attempt.run.stateRevision, (moveRun .running attempt.run).stages.length,
    moveRun .running attempt.run⟩, opening, planned, taken, ?_, accepted⟩
  rw [openIdentity]
  dsimp only [leasedIdentity]
  rw [Outcome.state_bind_eq (ensureRunning_eq planned.advanceable leased), Outcome.state_bind_eq opens]
  rfl

/-- The writes of a decision the flow took go through, unless the digest of its event collides with that of another
    event. -/
theorem AdvanceReady.persists_total (ready : AdvanceReady input before attempt row trace)
    (published : Published before) :
    (∃ report after, persistAndReport input (leasedIdentity input attempt.run attempt.stage trace.token) trace.opened
        trace.final attempt.result trace.decision trace.opening = .ok report after ∧
      report.decision = some trace.decision) ∨
    before.EventCollides attempt.result ∧
    ∃ failure partway, persistAndReport input (leasedIdentity input attempt.run attempt.stage trace.token)
        trace.opened trace.final attempt.result trace.decision trace.opening = .error failure partway ∧
      failure.kind = .integrity := by
  have wf := published.wellFormed
  obtain ⟨openedRow, -, openingEq⟩ := ready.opened wf
  obtain ⟨reached, base, index, -, reaches, decided, -⟩ :=
    applied_reaches ready.flight ready.answers.stage_eq ready.applied
  have stageLegal : trace.decision.stageStatus ∈ stageStatusTransitions .inProgress := by
    rw [decided]
    exact reaches.legal.1
  have runLegal : trace.decision.runStatus = .running ∨
      trace.decision.runStatus ∈ runStatusTransitions .running := by
    rw [decided]
    exact reaches.legal.2
  obtain ⟨execution, present, runId, -, status, -⟩ := load_some ready.loaded
  obtain ⟨outcome, noted, recording⟩ := recordOutcome_total attempt.result trace.opening
  have kept : outcome ≠ .replayed := by
    rintro rfl
    exact ready.unreplayed wf noted recording
  have found : Table.find StageRow.id trace.opened.openStage.stageRowId
      (placed (createdStages input trace.opened.knownStageRuns trace.final).2.id input.createdAt
        (createdStages input trace.opened.knownStageRuns trace.final).1 trace.opening.stages) =
        some (countAttempt attempt.attemptNumber row) := by
    have counted : Table.find StageRow.id (countAttempt attempt.attemptNumber row).id trace.opening.stages =
        some (countAttempt attempt.attemptNumber row) := by
      rw [openingEq, countAttempt_id, Table.find_update_self fun held here =>
        (countAttempt_id attempt.attemptNumber held).trans here, wf.stagesUnique.find ready.member]
      rfl
    rw [openedRow]
    exact find_placed _ _ _ counted
  have live : stageTerminal row.status = false := by simpa [StageRow.open] using ready.live
  obtain ⟨stagePath, walks⟩ := stageStatusPath_total live stageLegal
  obtain ⟨-, opened, located, progress⟩ := openIdentity_attempt ready.opens
  have unfinished : stageTerminal opened.status = false := by
    rw [progress]
    rfl
  obtain ⟨attemptPath, finishes⟩ := stageStatusPath_total unfinished stageLegal
  obtain ⟨runPath, moves⟩ := runStatusPath_total ready.advanceable runLegal
  have leased : (trace.opening.lease "execution" input.runId).map (·.fencingToken) = some trace.token := by
    obtain ⟨-, locked, -⟩ := acquire_ok ready.acquired
    obtain ⟨lease, held, owned⟩ := Option.map_eq_some_iff.mp locked
    rw [openingEq, show Store.lease _ "execution" input.runId = trace.leased.lease leaseResourceType attempt.run.id by
      rw [runId]; rfl, held, Option.map_some, (Prod.mk.inj owned).2]
  rw [← ready.final_id] at leased
  have stored : trace.opening.execution (createdStages input trace.opened.knownStageRuns trace.final).2.id =
      some execution := by
    rw [ready.final_id, openingEq, ← present]
    exact congrArg (Table.find Execution.id input.runId) (acquire_frame ready.acquired).executions
  have revision : execution.stateRevision = trace.opened.expectedRevision := by
    rw [(openIdentity_steps ready.opens).2.1]
    exact (load_revision ready.loaded present).symm
  rw [status] at moves
  rcases persistDecision_total recording kept found walks located finishes stored leased revision moves with
    ⟨written, persisted⟩ | ⟨⟨held, listed, taken⟩, failure, partway, refused, kind⟩
  · obtain ⟨released, after, releasing⟩ : ∃ released after, release leaseResourceType
        (createdStages input trace.opened.knownStageRuns trace.final).2.id input.ownerId trace.token written =
          .ok released after := release_total _ _ _ _ _
    refine Or.inl ⟨_, after, (Outcome.state_bind_eq persisted).trans ((Outcome.state_bind_eq releasing).trans rfl), rfl⟩
  · refine Or.inr ⟨?_, failure, partway, Outcome.state_bind_error refused, kind⟩
    rw [openingEq, (acquire_ok ready.acquired).2.2] at listed
    refine ready.collides published listed ?_
    rw [taken, ready.attemptId_eq wf, Store.nextEventText, ← ready.opening_results wf, stageCompletedEventId]
    exact congrArg (fun status => "evt_" ++ shortDigest (stageCompletedText (resultRow attempt.result).id status))
      (if_congr (recordOutcome_superseded recording kept) rfl rfl)

theorem applyTo_eq {run after : ChangeRun} {result : StageResult} {history : List StageResult} {now : Timestamp}
    {context : Option MergeRequestContext} {decisions : List Decision}
    (applied : applyResult result history now context decisions run = .ok decision after) (store : Store) :
    applyTo run result history now context decisions store = .ok (decision, after) store := by
  rw [applyTo, applied]

theorem AdvanceReady.advance_eq (ready : AdvanceReady input before attempt row trace) :
    advanceRun input before = persistAndReport input (leasedIdentity input attempt.run attempt.stage trace.token)
      trace.opened trace.final attempt.result trace.decision trace.opening := by
  obtain ⟨run, stage, loaded, live, current, plans⟩ := attempted_some ready.plan
  have runId : run.id = input.runId := (load_some loaded).choose_spec.2.1
  have leasedEq := (acquire_ok ready.acquired).2.2
  have reloaded : trace.leased.load input.runId = some run := by
    rw [leasedEq]
    exact loaded
  have again (number : Nat) (revision : String) : trace.leased.committedResult run.id stage number revision =
      before.committedResult run.id stage number revision := by
    rw [leasedEq]
    rfl
  obtain ⟨openedRun, results, -⟩ := openIdentity_frame ready.opens
  have history := loadHistory_congr (results.trans (acquire_frame ready.acquired).results) run.id
  rw [advanceRun, Outcome.state_bind_eq (advanceableRun_eq loaded live),
    Outcome.state_bind_eq (nextStageToExecute_eq current), Outcome.state_get_bind]
  rcases plans with ⟨absent, executes⟩ | ⟨checkpoint, committed, resumes⟩
  · obtain ⟨result, answer, rfl⟩ := executed_some executes
    rw [absent, Option.filter_none]
    dsimp only
    rw [advanceLeased, Outcome.state_bind_eq ready.acquired, Outcome.state_bind_eq (advanceableRun_eq reloaded live),
      Outcome.state_bind_eq (nextStageToExecute_eq current), Outcome.state_get_bind, again, absent]
    have answered : input.executor (buildContext input trace.opened.run stage (attemptNumberOf run stage)
        (pinnedRevision input run stage)) = .ok result := by
      rw [openedRun]
      exact answer
    have decided : applyTo trace.opened.run result (trace.opening.loadHistory run.id) input.now input.mergeContext
        input.humanDecisions trace.opening = .ok (trace.decision, trace.final) trace.opening := by
      rw [openedRun, history, runId]
      exact applyTo_eq ready.applied trace.opening
    exact (Outcome.state_bind_eq ready.opens).trans ((Outcome.state_bind_eq (Outcome.lift_ok.mpr
      ⟨answered, rfl⟩)).trans (Outcome.state_bind_eq decided))
  · obtain ⟨first, resolver, resolution, early, waits, resolved, rfl⟩ := resumed_some resumes
    rw [committed, Option.filter_some, early]
    simp only [Option.isNone_some, Bool.false_eq_true, ↓reduceIte]
    rw [advanceLeased, Outcome.state_bind_eq ready.acquired, Outcome.state_bind_eq (advanceableRun_eq reloaded live),
      Outcome.state_bind_eq (nextStageToExecute_eq current), Outcome.state_get_bind, again, committed]
    dsimp only
    rw [waits]
    have resolving : resolver.resolve trace.opened.run stage input.change
        ⟨attemptNumberOf run stage, pinnedRevision input run stage, input.now⟩ (trace.opening.loadHistory run.id) =
          .ok resolution := by
      rw [openedRun, history]
      exact resolved
    have decided : applyTo trace.opened.run resolution.result (trace.opening.loadHistory run.id) input.now
        (resolution.mergeContext.or input.mergeContext) (input.humanDecisions ++ resolution.approvals) trace.opening =
          .ok (trace.decision, trace.final) trace.opening := by
      rw [openedRun, history, runId]
      exact applyTo_eq ready.applied trace.opening
    exact (Outcome.state_bind_eq ready.opens).trans ((Outcome.state_bind_eq (Outcome.lift_ok.mpr
      ⟨resolving, rfl⟩)).trans (Outcome.state_bind_eq decided))

end Total

end DarkFactory
