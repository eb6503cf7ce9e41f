import DarkFactory.Runner.Attempted
import DarkFactory.State.Frame

namespace DarkFactory

def Execution.moved (status : RunStatus) (revision : Nat) (budget : BudgetSnapshot) (execution : Execution) :
    Execution :=
  { execution with status, stateRevision := revision, budget := some budget }

structure AdvanceEffect (input : AdvanceInput) (before after : Store) (attempt : Attempted) (row : StageRow)
    (reached : Verdict) : Prop where
  plan : attempted input before = some attempt
  loaded : before.load input.runId = some attempt.run
  current : nextStage attempt.run = some attempt.stage
  flight : inFlight attempt.run attempt.stage = some row.stageRun
  member : row ∈ before.stages
  owner : row.executionId = input.runId
  own : row.stage = attempt.stage
  live : row.open = true
  number : attempt.attemptNumber = attemptNumberOf attempt.run attempt.stage
  revision : attempt.inputRevision = row.inputRevision
  answers : Answers input.runId attempt.stage attempt.attemptNumber attempt.inputRevision attempt.result
  accepted : FlowAccepts attempt.result
  reaches : Reaches attempt.charged attempt.result input.now (before.loadHistory input.runId)
    attempt.mergeContext attempt.humanDecisions reached
  recording : ∃ outcome noted, recordOutcome attempt.result before = .ok outcome noted ∧
    outcome ≠ .replayed ∧ after.results = recorded attempt.result outcome before.results
  stages : ∃ path, path.getLastD row.status = reached.stageStatus ∧
    after.stages = placed input.runId input.createdAt (placements input (attempt.starts reached))
      (Table.update StageRow.id row.id (fun held => (countAttempt attempt.attemptNumber held).walk path)
        before.stages)
  executions : ∃ revision budget, after.executions = Table.update Execution.id input.runId
    (Execution.moved reached.runStatus revision budget) before.executions

theorem AdvanceEffect.listed {input : AdvanceInput} {before after : Store} {attempt : Attempted} {row : StageRow}
    {reached : Verdict} (effect : AdvanceEffect input before after attempt row reached) :
    (flowTransitions attempt.stage).contains attempt.result.nextAction.type = true := by
  rw [← effect.answers.stage_eq]
  exact effect.accepted.listed

theorem activeIndex_isNone (run : ChangeRun) (stage : Stage) :
    (activeIndex run stage).isNone = (inFlight run stage).isNone := by
  unfold inFlight
  cases found : activeIndex run stage with
  | none => rfl
  | some index =>
    obtain ⟨stageRun, there, -⟩ := activeIndex_some found
    simp [there]

theorem inFlight_set {run other : ChangeRun} {index : Nat} {held : StageRun} {stage : Stage}
    (settled : StageRun) (there : run.stages[index]? = some held) (apart : stage ≠ held.stage) (same : settled.stage = held.stage)
    (stages : other.stages = run.stages.set index settled) :
    (inFlight other stage).isNone = (inFlight run stage).isNone := by
  rw [Bool.eq_iff_iff, Option.isNone_iff_eq_none, Option.isNone_iff_eq_none, inFlight_none, inFlight_none,
    stages]
  constructor
  · intro none item member
    obtain ⟨place, found⟩ := List.mem_iff_getElem?.mp member
    by_cases here : place = index
    · subst here
      rw [there, Option.some.injEq] at found
      simp [activeAt, ← found, Ne.symm apart]
    · refine none item (List.mem_iff_getElem?.mpr ⟨place, ?_⟩)
      rw [List.getElem?_set_ne (Ne.symm here)]
      exact found
  · intro none item member
    rcases List.mem_or_eq_of_mem_set member with present | rfl
    · exact none item present
    · simp [activeAt, same, Ne.symm apart]

structure SameHeader (run other : ChangeRun) : Prop where
  id : other.id = run.id
  status : other.status = run.status
  budget : other.budget = run.budget
  stateRevision : other.stateRevision = run.stateRevision

theorem createdStages_frame (input : AdvanceInput) (known : Nat) (run : ChangeRun) :
    SameHeader run (createdStages input known run).2 := by
  have kept (indices : List Nat) (placed : List StagePlacement × ChangeRun) :
      SameHeader placed.2 (indices.foldl (placeCreated input) placed).2 := by
    induction indices generalizing placed with
    | nil => exact ⟨rfl, rfl, rfl, rfl⟩
    | cons index rest ih =>
      have step : SameHeader placed.2 (placeCreated input placed index).2 := by
        rw [placeCreated]
        split <;> exact ⟨rfl, rfl, rfl, rfl⟩
      have later := ih (placeCreated input placed index)
      exact ⟨later.id.trans step.id, later.status.trans step.status, later.budget.trans step.budget,
        later.stateRevision.trans step.stateRevision⟩
  exact kept (List.range' known (run.stages.length - known)) ([], run)

theorem createdStages_id (input : AdvanceInput) (known : Nat) (run : ChangeRun) :
    (createdStages input known run).2.id = run.id :=
  (createdStages_frame input known run).id

def startedRun (input : AdvanceInput) (run : ChangeRun) (stage : Stage) : StageRun :=
  { id := stageRunId run stage, stage, inputRevision := some (freshRevision input stage) }

section Carried

variable {run : ChangeRun} (input : AdvanceInput)

theorem createdStages_restart (status : RunStatus) (target : Stage) :
    (createdStages input run.stages.length (moveRun status (restart target run))).1 =
        [⟨target, freshRevision input target⟩] ∧
      (createdStages input run.stages.length (moveRun status (restart target run))).2.stages =
        run.stages ++ [startedRun input run target] := by
  have stages : (moveRun status (restart target run)).stages =
      run.stages ++ [{ id := stageRunId run target, stage := target }] := by
    rw [moveRun_stages]
    rfl
  have last : inFlight (moveRun status (restart target run)) target =
      some { id := stageRunId run target, stage := target } := by
    rw [inFlight, activeIndex, stages, Last.lastIndex_append (by simp [activeAt, StageRun.active, stageTerminal,
      stageStatusTransitions])]
    simp
  have pinned : pinnedRevision input (moveRun status (restart target run)) target =
      freshRevision input target := by
    simp [pinnedRevision, last]
  have length : (moveRun status (restart target run)).stages.length - run.stages.length = 1 := by
    rw [stages]
    simp
  have there : (moveRun status (restart target run)).stages[run.stages.length]? =
      some { id := stageRunId run target, stage := target } := by
    rw [stages]
    simp
  simp only [createdStages, length, List.range'_one, List.foldl_cons, List.foldl_nil, placeCreated, there,
    pinned, List.nil_append, true_and]
  rw [stages, List.set_append_right _ _ (Nat.le_refl _), Nat.sub_self]
  rfl

theorem createdStages_known (status : RunStatus) :
    createdStages input run.stages.length (moveRun status run) = ([], moveRun status run) := by
  simp [createdStages]

theorem createdStages_enterNext (reached : Verdict) (run : ChangeRun) (status : RunStatus) :
    (createdStages input run.stages.length (moveRun status (enterNext reached run))).1 =
        placements input (reached.nextStage.filter fun target =>
          reached.fresh || (inFlight run target).isNone) ∧
      (createdStages input run.stages.length (moveRun status (enterNext reached run))).2.stages =
        run.stages ++ ((reached.nextStage.filter fun target =>
          reached.fresh || (inFlight run target).isNone).map (startedRun input run)).toList := by
  have known : (createdStages input run.stages.length (moveRun status run)).1 = [] ∧
      (createdStages input run.stages.length (moveRun status run)).2.stages = run.stages ++ [] := by
    rw [createdStages_known]
    exact ⟨rfl, by simp⟩
  unfold enterNext
  cases reached.nextStage with
  | none => exact known
  | some target =>
    cases fresh : reached.fresh with
    | true =>
      simp only [↓reduceIte, Option.filter_some, Bool.true_or, placements]
      exact createdStages_restart input status target
    | false =>
      simp only [Bool.false_eq_true, ↓reduceIte, Option.filter_some, Bool.false_or]
      rw [← activeIndex_isNone]
      unfold start
      cases activeIndex run target with
      | none =>
        simp only [Option.isNone_none, ↓reduceIte, placements]
        exact createdStages_restart input status target
      | some index => exact known

end Carried

theorem Reaches.elsewhere {run : ChangeRun} {result : StageResult} {now : Timestamp}
    {history : List StageResult} {context : Option MergeRequestContext} {decisions : List Decision}
    {reached : Verdict} {target : Stage} (reaches : Reaches run result now history context decisions reached)
    (next : reached.nextStage = some target) (stale : reached.fresh = false) : target ≠ result.stage := by
  cases reaches with
  | blocked | parked | deferred | released | stopped => cases next
  | left successor leaves =>
    cases next
    intro same
    have := nextStage_some leaves.successor
    subst same
    omega
  | reworked action asked =>
    cases next
    simpa using stale
  | nextPhase => simp [phaseRoundVerdict] at stale

theorem recordOutcome_congr {result : StageResult} {store other noted : Store} {outcome : RecordOutcome}
    (same : other.results = store.results) (done : recordOutcome result other = .ok outcome noted) :
    ∃ noted, recordOutcome result store = .ok outcome noted := by
  rw [recordOutcome, Outcome.state_get_bind, same] at done
  rw [recordOutcome, Outcome.state_get_bind]
  cases found : Table.find StageResultRow.id (resultRow result).id store.results with
  | none =>
    simp only [found] at done
    rw [Outcome.state_modify_bind] at done
    obtain ⟨rfl, -⟩ := Outcome.state_pure_ok.mp done
    exact ⟨_, rfl⟩
  | some held =>
    simp only [found] at done ⊢
    by_cases waiting : result.status = .waiting
    · rw [if_pos waiting] at done
      obtain ⟨rfl, -⟩ := Outcome.state_pure_ok.mp done
      exact ⟨_, by rw [if_pos waiting]; rfl⟩
    · rw [if_neg waiting] at done ⊢
      by_cases checkpoint : held.status = .waiting
      · rw [if_pos checkpoint, Outcome.state_modify_bind] at done
        obtain ⟨rfl, -⟩ := Outcome.state_pure_ok.mp done
        exact ⟨_, by rw [if_pos checkpoint]; rfl⟩
      · rw [if_neg checkpoint] at done
        obtain ⟨rfl, -⟩ := Outcome.state_pure_ok.mp done
        exact ⟨_, by rw [if_neg checkpoint]; rfl⟩

section Placed

variable {runId : String} {createdAt : Timestamp} {placements : List StagePlacement} {rows : List StageRow}
  {row : StageRow} {f : StageRow → StageRow}

theorem placed_cons {placement : StagePlacement} :
    placed runId createdAt (placement :: placements) rows =
      placed runId createdAt placements (Table.insertNew StageRow.id
        (newStageRow runId placement.stage placement.inputRevision createdAt) rows) := rfl

theorem find_placed (runId : String) (createdAt : Timestamp) (placements : List StagePlacement)
    (found : Table.find StageRow.id row.id rows = some row) :
    Table.find StageRow.id row.id (placed runId createdAt placements rows) = some row := by
  induction placements generalizing rows with
  | nil => exact found
  | cons placement rest ih =>
    rw [placed_cons]
    apply ih
    by_cases same : row.id = (newStageRow runId placement.stage placement.inputRevision createdAt).id
    · rw [same] at found ⊢
      rw [Table.find_insertNew_self, found]
      rfl
    · rw [Table.find_insertNew_other same]
      exact found

theorem update_placed {id : String} (member : row ∈ rows) (here : row.id = id)
    (keeps : ∀ row, (f row).id = row.id) :
    Table.update StageRow.id id f (placed runId createdAt placements rows) =
      placed runId createdAt placements (Table.update StageRow.id id f rows) := by
  induction placements generalizing rows with
  | nil => rfl
  | cons placement rest ih =>
    rw [placed_cons, placed_cons, ih (Table.mem_insertNew.mpr (Or.inl member)),
      Table.update_insertNew member here keeps]

end Placed

theorem ensureRunning_ok {run running : ChangeRun} {store after : Store}
    (done : ensureRunning run store = .ok running after) : running = moveRun .running run ∧ after = store := by
  unfold ensureRunning at done
  by_cases already : run.status ≠ .running
  · rw [if_pos already] at done
    obtain ⟨applied, rfl⟩ := Outcome.lift_ok.mp done
    obtain ⟨-, rfl⟩ := ChangeRun.applyStatus_ok.mp applied
    exact ⟨by simp [moveRun, already], rfl⟩
  · rw [if_neg already] at done
    obtain ⟨rfl, rfl⟩ := Outcome.state_pure_ok.mp done
    exact ⟨by simp [moveRun, not_not.mp already], rfl⟩

theorem openIdentity_steps {identity : AttemptIdentity} {createdAt : Timestamp} {store after : Store}
    {opened : OpenedAttempt} (done : openIdentity identity createdAt store = .ok opened after) :
    opened.run = moveRun .running identity.run ∧ opened.expectedRevision = identity.run.stateRevision ∧
      opened.knownStageRuns = identity.run.stages.length ∧
      openAttempt (moveRun .running identity.run) identity.stage identity.inputRevision identity.attemptNumber createdAt
        store = .ok opened.openStage after := by
  obtain ⟨run, started, setting, rest⟩ := Outcome.state_bind_ok.mp done
  obtain ⟨rfl, rfl⟩ := ensureRunning_ok setting
  obtain ⟨openStage, created, opening, finish⟩ := Outcome.state_bind_ok.mp rest
  obtain ⟨rfl, rfl⟩ := Outcome.state_pure_ok.mp finish
  exact ⟨rfl, rfl, by simp, opening⟩

theorem openIdentity_ok {identity : AttemptIdentity} {createdAt : Timestamp} {store after : Store}
    {opened : OpenedAttempt} {row : StageRow}
    (unique : Table.Unique StageRow.id store.stages) (member : row ∈ store.stages)
    (own : row.id = operationKey identity.run.id identity.stage identity.inputRevision)
    (done : openIdentity identity createdAt store = .ok opened after) :
    opened.run = moveRun .running identity.run ∧ opened.openStage.stageRowId = row.id ∧
      opened.knownStageRuns = identity.run.stages.length ∧
      after = { store with
        attempts := after.attempts
        stages := Table.update StageRow.id row.id (countAttempt identity.attemptNumber) store.stages } := by
  obtain ⟨running, -, known, opening⟩ := openIdentity_steps done
  obtain ⟨rowId, written⟩ := openAttempt_ok unique member (by rw [moveRun_id]; exact own) opening
  exact ⟨running, rowId, known, written⟩

theorem openIdentity_frame {identity : AttemptIdentity} {createdAt : Timestamp} {store after : Store}
    {opened : OpenedAttempt} (done : openIdentity identity createdAt store = .ok opened after) :
    opened.run = moveRun .running identity.run ∧ after.results = store.results ∧
      after.executions = store.executions := by
  obtain ⟨running, -, -, opening⟩ := openIdentity_steps done
  refine ⟨running, ?_⟩
  obtain ⟨row, created, made, -, -, written, -⟩ := openAttempt_writes opening
  have kept : created.results = store.results ∧ created.executions = store.executions := by
    rw [(getOrCreateStage_ok made).1]
    exact ⟨rfl, rfl⟩
  rw [written]
  exact kept

theorem openIdentity_attempt {identity : AttemptIdentity} {createdAt : Timestamp} {store after : Store}
    {opened : OpenedAttempt} (done : openIdentity identity createdAt store = .ok opened after) :
    opened.openStage.attemptId = attemptId opened.openStage.stageRowId identity.attemptNumber ∧
      ∃ attempt, Table.find Attempt.id opened.openStage.attemptId after.attempts = some attempt ∧
        attempt.status = .inProgress :=
  openAttempt_attempt (openIdentity_steps done).2.2.2

end DarkFactory
