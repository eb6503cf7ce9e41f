import DarkFactory.Runner.Effect

namespace DarkFactory

theorem activeIndex_of_inFlight {run : ChangeRun} {stage : Stage} {stageRun : StageRun}
    (flight : inFlight run stage = some stageRun) :
    ∃ index, activeIndex run stage = some index ∧ run.stages[index]? = some stageRun := by
  unfold inFlight at flight
  cases found : activeIndex run stage with
  | none => simp [found] at flight
  | some index =>
    rw [found] at flight
    exact ⟨index, rfl, flight⟩

theorem moveRun_inFlight (status : RunStatus) (run : ChangeRun) (stage : Stage) :
    inFlight (moveRun status run) stage = inFlight run stage := by
  simp [inFlight, activeIndex]

/-- A result of the stage in flight, applied: the case it reached and the run before the next stage, where the
    occurrence in flight is settled and the others are as they were. -/
theorem applied_reaches {run after : ChangeRun} {stage : Stage} {stageRun : StageRun} {result : StageResult}
    {history : List StageResult} {now : Timestamp} {context : Option MergeRequestContext}
    {decisions : List Decision} {decision : FlowDecision}
    (flight : inFlight run stage = some stageRun) (own : result.stage = stage)
    (applied : applyResult result history now context decisions (moveRun .running run) = .ok decision after) :
    ∃ reached base index, FlowAccepts result ∧
      Reaches (chargeUsage result (moveRun .running run)) result now history context decisions reached ∧
      decision = reached.decision stage ∧ after = moveRun reached.runStatus (enterNext reached base) ∧
      base.id = run.id ∧ run.stages[index]? = some stageRun ∧
      base.stages = run.stages.set index ((stageRun.enter result.attemptNumber).moved reached.stageStatus) := by
  subst own
  obtain ⟨-, listed, paired, index, entered, reached, ensured, computed, rfl, rfl⟩ := applyResult_ok applied
  obtain ⟨place, active, there⟩ := activeIndex_of_inFlight ((moveRun_inFlight .running run _).trans flight)
  rcases ensureStageRun_ok ensured with ⟨current, found, here, -, rfl⟩ | ⟨absent, -⟩
  · rw [active, Option.some.injEq] at found
    subst found
    rw [there, Option.some.injEq] at here
    subst here
    have same : SameTerms (moveRun .running run) { moveRun .running run with
        stages := (moveRun .running run).stages.set place (stageRun.enter result.attemptNumber) } :=
      ⟨rfl, rfl, rfl, rfl, by simp⟩
    rw [(handled_charged same).verdict] at computed
    rw [moveRun_stages] at there
    refine ⟨reached, _, place, ⟨listed, paired⟩, verdict_reaches paired computed, rfl, rfl, ?_, there, ?_⟩
    · cases reached.spends <;>
        simp only [moveStage, spendRound, handled, chargeUsage, moveRun_id, Bool.false_eq_true, ↓reduceIte]
    · cases reached.spends <;>
        simp [moveStage, spendRound, handled, chargeUsage, List.modify_eq_set_getElem?,
          (List.getElem?_eq_some_iff.mp there).1]
  · rw [active] at absent
    cases absent

theorem persistAndReport_cases {input : AdvanceInput} {identity : AttemptIdentity} {opened : OpenedAttempt}
    {run : ChangeRun} {result : StageResult} {decision : FlowDecision} {store after : Store}
    {report : RunAdvance}
    (done : persistAndReport input identity opened run result decision store = .ok report after) :
    (report.decision = none ∧ Untouched store after ∧ ∃ noted, recordOutcome result store = .ok .replayed noted) ∨
      (report = { outcome := outcomeFor decision, stage := decision.stage, result, decision := some decision } ∧
        ∃ written released, persistDecision (createdStages input opened.knownStageRuns run).2 result decision
            opened.openStage (createdStages input opened.knownStageRuns run).1 opened.expectedRevision
            identity.fencingToken input.createdAt store = .ok true written ∧
          release leaseResourceType (createdStages input opened.knownStageRuns run).2.id identity.ownerId
            identity.fencingToken written = .ok released after) := by
  obtain ⟨persisted, written, persisting, rest⟩ := Outcome.state_bind_ok.mp done
  obtain ⟨released, freed, releasing, closing⟩ := Outcome.state_bind_ok.mp rest
  rcases persistDecision_writes persisting with ⟨rfl, replayed⟩ | ⟨rfl, -⟩
  · left
    have noted : Untouched store written := by
      rw [(recordOutcome_ok replayed).1]
      exact ⟨rfl, rfl, rfl⟩
    simp only [Bool.not_false, ↓reduceIte] at closing
    rw [Outcome.state_get_bind] at closing
    generalize freed.committedResult _ _ _ _ = committed at closing
    cases committed with
    | none => exact absurd closing (by simp [Outcome.state_throw_ok])
    | some held =>
      obtain ⟨rfl, rfl⟩ := Outcome.state_pure_ok.mp closing
      exact ⟨rfl, noted.trans (release_frame releasing), written, replayed⟩
  · right
    simp only [Bool.not_true, Bool.false_eq_true, ↓reduceIte] at closing
    obtain ⟨rfl, rfl⟩ := Outcome.state_pure_ok.mp closing
    exact ⟨rfl, written, released, persisting, releasing⟩

def leasedIdentity (input : AdvanceInput) (run : ChangeRun) (stage : Stage) (token : Nat) : AttemptIdentity :=
  { run, stage, attemptNumber := attemptNumberOf run stage, inputRevision := pinnedRevision input run stage
    ownerId := input.ownerId, fencingToken := token }

structure AdvanceTrace where
  token : Nat
  leased : Store
  opened : OpenedAttempt
  opening : Store
  decision : FlowDecision
  final : ChangeRun

structure Planned (input : AdvanceInput) (before : Store) (attempt : Attempted) (row : StageRow) : Prop where
  plan : attempted input before = some attempt
  loaded : before.load input.runId = some attempt.run
  advanceable : runTerminal attempt.run.status = false
  current : nextStage attempt.run = some attempt.stage
  flight : inFlight attempt.run attempt.stage = some row.stageRun
  member : row ∈ before.stages
  owner : row.executionId = input.runId
  own : row.stage = attempt.stage
  live : row.open = true
  number : attempt.attemptNumber = attemptNumberOf attempt.run attempt.stage
  revision : attempt.inputRevision = row.inputRevision
  answers : Answers input.runId attempt.stage attempt.attemptNumber attempt.inputRevision attempt.result
  fresh : ∀ noted, recordOutcome attempt.result before ≠ .ok .replayed noted

structure AdvanceReady (input : AdvanceInput) (before : Store) (attempt : Attempted) (row : StageRow)
    (trace : AdvanceTrace) : Prop extends Planned input before attempt row where
  acquired : acquire leaseResourceType attempt.run.id input.ownerId input.leaseTtl input.leasedAt before =
    .ok trace.token trace.leased
  opens : openIdentity (leasedIdentity input attempt.run attempt.stage trace.token) input.createdAt trace.leased =
    .ok trace.opened trace.opening
  applied : applyResult attempt.result (before.loadHistory input.runId) input.now attempt.mergeContext
    attempt.humanDecisions (moveRun .running attempt.run) = .ok trace.decision trace.final

structure AdvanceSteps (input : AdvanceInput) (before after : Store) (report : RunAdvance) (attempt : Attempted)
    (row : StageRow) (trace : AdvanceTrace) : Prop extends AdvanceReady input before attempt row trace where
  persists : persistAndReport input (leasedIdentity input attempt.run attempt.stage trace.token) trace.opened
    trace.final attempt.result trace.decision trace.opening = .ok report after

theorem pinnedRevision_row {input : AdvanceInput} {run : ChangeRun} {stage : Stage} {row : StageRow}
    (flight : inFlight run stage = some row.stageRun) : pinnedRevision input run stage = row.inputRevision := by
  simp [pinnedRevision, flight, StageRow.stageRun]

theorem leasedIdentity_opens {input : AdvanceInput} {before leased opening : Store} {run : ChangeRun} {stage : Stage}
    {row : StageRow} {token : Nat} {opened : OpenedAttempt} {createdAt : Timestamp}
    (wf : WellFormed before) (frame : Untouched before leased) (loaded : before.load input.runId = some run)
    (flight : inFlight run stage = some row.stageRun) (member : row ∈ before.stages)
    (owner : row.executionId = input.runId) (own : row.stage = stage)
    (opens : openIdentity (leasedIdentity input run stage token) createdAt leased = .ok opened opening) :
    opened.run = moveRun .running run ∧ opened.openStage.stageRowId = row.id ∧
      opened.knownStageRuns = run.stages.length ∧
      opening = { leased with
        attempts := opening.attempts
        stages := Table.update StageRow.id row.id (countAttempt (attemptNumberOf run stage)) leased.stages } := by
  have runId : run.id = input.runId := (load_some loaded).choose_spec.2.1
  have unique : Table.Unique StageRow.id leased.stages := by
    rw [frame.stages]
    exact wf.stagesUnique
  have present : row ∈ leased.stages := by
    rw [frame.stages]
    exact member
  have revision : pinnedRevision input run stage = row.inputRevision := pinnedRevision_row flight
  have key : row.id = operationKey (leasedIdentity input run stage token).run.id
      (leasedIdentity input run stage token).stage
      (leasedIdentity input run stage token).inputRevision := by
    simp only [leasedIdentity]
    rw [wf.stageKeys row member, owner, own, revision, runId]
  exact openIdentity_ok unique present key opens

section Steps

variable {input : AdvanceInput} {before after : Store} {report : RunAdvance} {attempt : Attempted} {row : StageRow}
  {trace : AdvanceTrace}

theorem AdvanceReady.opened (ready : AdvanceReady input before attempt row trace)
    (wf : WellFormed before) :
    trace.opened.openStage.stageRowId = row.id ∧ trace.opened.knownStageRuns = attempt.run.stages.length ∧
      trace.opening = { trace.leased with
        attempts := trace.opening.attempts
        stages := Table.update StageRow.id row.id (countAttempt attempt.attemptNumber) before.stages } := by
  have frame := acquire_frame ready.acquired
  obtain ⟨-, openedRow, known, opening⟩ := leasedIdentity_opens wf frame ready.loaded ready.flight ready.member
    ready.owner ready.own ready.opens
  rw [← ready.number, frame.stages] at opening
  exact ⟨openedRow, known, opening⟩

theorem AdvanceReady.opening_results (ready : AdvanceReady input before attempt row trace)
    (wf : WellFormed before) : trace.opening.results = before.results := by
  obtain ⟨-, -, opening⟩ := ready.opened wf
  rw [opening]
  exact (acquire_frame ready.acquired).results

theorem AdvanceReady.unreplayed (ready : AdvanceReady input before attempt row trace)
    (wf : WellFormed before) (noted : Store) : recordOutcome attempt.result trace.opening ≠ .ok .replayed noted := by
  intro replayed
  obtain ⟨other, same⟩ := recordOutcome_congr (ready.opening_results wf) replayed
  exact ready.fresh other same

theorem AdvanceSteps.persisted (steps : AdvanceSteps input before after report attempt row trace)
    (wf : WellFormed before) :
    report = { outcome := outcomeFor trace.decision, stage := trace.decision.stage, result := attempt.result
               decision := some trace.decision } ∧
      ∃ written released, persistDecision (createdStages input trace.opened.knownStageRuns trace.final).2
          attempt.result trace.decision trace.opened.openStage
          (createdStages input trace.opened.knownStageRuns trace.final).1 trace.opened.expectedRevision trace.token
          input.createdAt trace.opening = .ok true written ∧
        release leaseResourceType (createdStages input trace.opened.knownStageRuns trace.final).2.id input.ownerId
          trace.token written = .ok released after := by
  rcases persistAndReport_cases steps.persists with ⟨-, -, noted, replayed⟩ | persisted
  · exact absurd replayed (steps.unreplayed wf noted)
  · exact persisted

theorem AdvanceSteps.leads (steps : AdvanceSteps input before after report attempt row trace)
    (wf : WellFormed before) :
    ∃ writes written released, DecisionWrites.Leads writes
        (createdStages input trace.opened.knownStageRuns trace.final).2 attempt.result trace.decision
        trace.opened.openStage (createdStages input trace.opened.knownStageRuns trace.final).1
        trace.opened.expectedRevision trace.token input.createdAt trace.opening written ∧
      release leaseResourceType (createdStages input trace.opened.knownStageRuns trace.final).2.id input.ownerId
        trace.token written = .ok released after := by
  obtain ⟨-, written, released, persisting, releasing⟩ := steps.persisted wf
  rcases persistDecision_writes persisting with ⟨replayed, -⟩ | ⟨-, writes, leads⟩
  · cases replayed
  · exact ⟨writes, written, released, leads, releasing⟩

theorem AdvanceReady.attemptId_eq (ready : AdvanceReady input before attempt row trace)
    (wf : WellFormed before) : trace.opened.openStage.attemptId = (resultRow attempt.result).id := by
  obtain ⟨openedRow, -, -⟩ := ready.opened wf
  obtain ⟨named, -⟩ := openIdentity_attempt ready.opens
  rw [named, openedRow, ready.answers.rowId, wf.stageKeys row ready.member, ready.owner, ready.own, ready.revision,
    ready.number]
  rfl

theorem AdvanceReady.final_id (ready : AdvanceReady input before attempt row trace) :
    (createdStages input trace.opened.knownStageRuns trace.final).2.id = input.runId := by
  obtain ⟨reached, base, index, -, -, -, finalEq, baseId, -⟩ :=
    applied_reaches ready.flight ready.answers.stage_eq ready.applied
  rw [createdStages_id, finalEq, moveRun_id, enterNext_id, baseId]
  exact (load_some ready.loaded).choose_spec.2.1

/-- What an advance with a decision does to the run in memory and to the tables the flow reads back. -/
theorem AdvanceSteps.settles (steps : AdvanceSteps input before after report attempt row trace)
    (wf : WellFormed before) :
    ∃ reached base index, AdvanceEffect input before after attempt row reached ∧
      trace.decision = reached.decision attempt.stage ∧
      trace.final = moveRun reached.runStatus (enterNext reached base) ∧
      attempt.run.stages[index]? = some row.stageRun ∧
      base.stages = attempt.run.stages.set index
        ((row.stageRun.enter attempt.attemptNumber).moved reached.stageStatus) ∧
      (reached.nextStage.filter fun target => reached.fresh || (inFlight base target).isNone) =
        attempt.starts reached ∧
      report = { outcome := outcomeFor trace.decision, stage := attempt.stage, result := attempt.result
                 decision := some trace.decision } := by
  obtain ⟨openedRow, known, openingEq⟩ := steps.opened wf
  have results := steps.opening_results wf
  obtain ⟨rfl, written, released, persisting, releasing⟩ := steps.persisted wf
  obtain ⟨⟨⟨plan, loaded, -, current, flight, member, owner, own, live, number, revision, answers, -⟩, acquired, -,
    applied⟩, -⟩ := steps
  obtain ⟨reached, base, index, accepted, reaches, decided, finalEq, baseId, there, baseStages⟩ :=
    applied_reaches flight answers.stage_eq applied
  have baseLength : base.stages.length = attempt.run.stages.length := by simp [baseStages]
  have frame := acquire_frame acquired
  have stages : trace.opening.stages =
      Table.update StageRow.id row.id (countAttempt attempt.attemptNumber) before.stages := by
    rw [openingEq]
  have executions : trace.opening.executions = before.executions := by
    rw [openingEq]
    exact frame.executions
  have untouched := release_frame releasing
  rcases persistDecision_ok persisting with ⟨replayed, -⟩ | ⟨-, persisted⟩
  · cases replayed
  rw [finalEq, decided] at persisted
  rw [known, ← baseLength] at persisted
  obtain ⟨created, -⟩ := createdStages_enterNext input reached base reached.runStatus
  have runId : attempt.run.id = input.runId := (load_some loaded).choose_spec.2.1
  have started : (reached.nextStage.filter fun target => reached.fresh || (inFlight base target).isNone) =
      attempt.starts reached := by
    unfold Attempted.starts
    cases next : reached.nextStage with
    | none => rfl
    | some target =>
      cases stale : reached.fresh with
      | true => rfl
      | false =>
        have apart := reaches.elsewhere next stale
        rw [answers.stage_eq] at apart
        have flights := inFlight_set
          ((row.stageRun.enter attempt.result.attemptNumber).moved reached.stageStatus) there
          (by rw [show row.stageRun.stage = attempt.stage from own]; exact apart) rfl baseStages
        simp [Option.filter_some, flights]
  rw [started] at created
  have settled := baseStages
  rw [answers.attemptNumber_eq] at settled
  refine ⟨reached, base, index, ?_, decided, finalEq, there, settled, started, by rw [decided]; rfl⟩
  obtain ⟨outcome, noted, recording, kept, resultsAfter⟩ := persisted.recording
  obtain ⟨held, path, found, walked, stagesAfter⟩ := persisted.stages
  obtain ⟨execution, executionRevision, present, executionsAfter⟩ := persisted.executions
  have entryId : (createdStages input base.stages.length
      (moveRun reached.runStatus (enterNext reached base))).2.id = input.runId := by
    rw [createdStages_id, moveRun_id, enterNext_id, baseId, runId]
  rw [entryId, created, stages, openedRow] at stagesAfter found
  have counted : Table.find StageRow.id row.id
      (Table.update StageRow.id row.id (countAttempt attempt.attemptNumber) before.stages) =
        some (countAttempt attempt.attemptNumber row) := by
    rw [Table.find_update_self fun held here => (countAttempt_id attempt.attemptNumber held).trans here, wf.stagesUnique.find member]
    rfl
  have heldEq : held = countAttempt attempt.attemptNumber row := by
    rw [← countAttempt_id attempt.attemptNumber row] at found counted
    rw [find_placed _ _ _ counted] at found
    exact (Option.some.inj found).symm
  subst heldEq
  exact {
    plan, loaded, current, flight, member, owner, own, live, number, revision, answers, accepted, reaches
    recording := by
      obtain ⟨other, same⟩ := recordOutcome_congr results recording
      exact ⟨outcome, other, same, kept, by rw [untouched.results, resultsAfter, results]⟩
    stages := by
      refine ⟨path, walked, ?_⟩
      rw [untouched.stages, stagesAfter,
        update_placed (Table.mem_update.mpr (Or.inr ⟨row, member, rfl, rfl⟩))
          (countAttempt_id attempt.attemptNumber row) (walk_id path),
        Table.update_update (countAttempt_id attempt.attemptNumber)]
    executions := by
      rw [entryId, executions] at executionsAfter
      rw [entryId, Store.execution, executions] at present
      refine ⟨executionRevision, (createdStages input base.stages.length
        (moveRun reached.runStatus (enterNext reached base))).2.budget, ?_⟩
      rw [untouched.executions, executionsAfter]
      simp only [Table.update]
      apply List.map_congr_left
      intro item listed
      by_cases here : item.id = input.runId
      · obtain ⟨stored, same⟩ := Table.find_some present
        rw [if_pos here, if_pos here, wf.executionsUnique.eq listed stored (here.trans same.symm)]
        rfl
      · rw [if_neg here, if_neg here] }

theorem AdvanceSteps.effect (steps : AdvanceSteps input before after report attempt row trace)
    (wf : WellFormed before) :
    ∃ reached, AdvanceEffect input before after attempt row reached ∧
      report.decision = some (reached.decision attempt.stage) ∧ report.stage = attempt.stage := by
  obtain ⟨reached, base, index, effect, decided, -, -, -, -, rfl⟩ := steps.settles wf
  exact ⟨reached, effect, by rw [decided], rfl⟩

end Steps

end DarkFactory
