import DarkFactory.Flow.Reaches
import DarkFactory.Stages.Identity
import DarkFactory.Runner.Drive
import DarkFactory.State.Persist

namespace DarkFactory

/-- What one advance applies to the run: the attempt it executes, or the wait it resolves. -/
structure Attempted where
  run : ChangeRun
  stage : Stage
  attemptNumber : Nat
  inputRevision : String
  result : StageResult
  mergeContext : Option MergeRequestContext
  humanDecisions : List Decision
  checkpoint : Option StageResult

def Attempted.charged (attempt : Attempted) : ChangeRun :=
  chargeUsage attempt.result (moveRun .running attempt.run)

def executed (input : AdvanceInput) (run : ChangeRun) (stage : Stage) : Option Attempted :=
  let attemptNumber := attemptNumberOf run stage
  let inputRevision := pinnedRevision input run stage
  match input.executor (buildContext input (moveRun .running run) stage attemptNumber inputRevision) with
  | .error _ => none
  | .ok result => some
      { run, stage, attemptNumber, inputRevision, result
        mergeContext := input.mergeContext, humanDecisions := input.humanDecisions, checkpoint := none }

def resumed (input : AdvanceInput) (history : List StageResult) (run : ChangeRun) (stage : Stage)
    (checkpoint : StageResult) : Option Attempted :=
  let attemptNumber := attemptNumberOf run stage
  let inputRevision := pinnedRevision input run stage
  match resolvedWait checkpoint run stage input.change input.facts,
      resolvedWait checkpoint run stage input.change input.leasedFacts with
  | some _, some resolver =>
    match resolver.resolve (moveRun .running run) stage input.change
        ⟨attemptNumber, inputRevision, input.now⟩ history with
    | .error _ => none
    | .ok resolution => some
        { run, stage, attemptNumber, inputRevision, result := resolution.result
          mergeContext := resolution.mergeContext.or input.mergeContext
          humanDecisions := input.humanDecisions ++ resolution.approvals, checkpoint := some checkpoint }
  | _, _ => none

/-- Read off the store before the advance; nothing when the advance cannot apply a result. -/
def attempted (input : AdvanceInput) (store : Store) : Option Attempted :=
  match store.load input.runId with
  | none => none
  | some run =>
    if runTerminal run.status then none
    else
      match nextStage run with
      | none => none
      | some stage =>
        match store.committedResult run.id stage (attemptNumberOf run stage) (pinnedRevision input run stage) with
        | none => executed input run stage
        | some checkpoint => resumed input (store.loadHistory run.id) run stage checkpoint

theorem attempted_some {input : AdvanceInput} {store : Store} {attempt : Attempted}
    (planned : attempted input store = some attempt) :
    ∃ run stage, store.load input.runId = some run ∧ runTerminal run.status = false ∧
      nextStage run = some stage ∧
      ((store.committedResult run.id stage (attemptNumberOf run stage) (pinnedRevision input run stage) = none ∧
          executed input run stage = some attempt) ∨
        ∃ checkpoint, store.committedResult run.id stage (attemptNumberOf run stage)
            (pinnedRevision input run stage) = some checkpoint ∧
          resumed input (store.loadHistory run.id) run stage checkpoint = some attempt) := by
  unfold attempted at planned
  cases loaded : store.load input.runId with
  | none => simp [loaded] at planned
  | some run =>
    cases live : runTerminal run.status with
    | true => simp [loaded, live] at planned
    | false =>
      cases next : nextStage run with
      | none => simp [loaded, live, next] at planned
      | some stage =>
        simp only [loaded, live, next, Bool.false_eq_true, ↓reduceIte] at planned
        refine ⟨run, stage, rfl, live, next, ?_⟩
        cases committed : store.committedResult run.id stage (attemptNumberOf run stage)
            (pinnedRevision input run stage) with
        | none =>
          simp only [committed] at planned
          exact Or.inl ⟨rfl, planned⟩
        | some checkpoint =>
          simp only [committed] at planned
          exact Or.inr ⟨checkpoint, rfl, planned⟩

theorem resolvedWait_without_facts (checkpoint : StageResult) (run : ChangeRun) (stage : Stage) (change : Change) :
    resolvedWait checkpoint run stage change {} = none := by
  simp [resolvedWait, releaseResolved, gateResolved]

theorem attempted_without_facts {input : AdvanceInput} {store : Store} {attempt : Attempted}
    (unobserved : input.facts = {}) (planned : attempted input store = some attempt) :
    ∃ run stage, executed input run stage = some attempt := by
  obtain ⟨run, stage, -, -, -, ⟨-, plan⟩ | ⟨checkpoint, -, plan⟩⟩ := attempted_some planned
  · exact ⟨run, stage, plan⟩
  · simp [resumed, unobserved, resolvedWait_without_facts] at plan

theorem executed_some {input : AdvanceInput} {run : ChangeRun} {stage : Stage} {attempt : Attempted}
    (plan : executed input run stage = some attempt) :
    ∃ result, input.executor (buildContext input (moveRun .running run) stage (attemptNumberOf run stage)
        (pinnedRevision input run stage)) = .ok result ∧
      attempt = { run, stage, attemptNumber := attemptNumberOf run stage, inputRevision := pinnedRevision input run stage
                  result, mergeContext := input.mergeContext, humanDecisions := input.humanDecisions
                  checkpoint := none } := by
  unfold executed at plan
  dsimp only at plan
  split at plan
  · cases plan
  · rename_i result answer
    cases plan
    exact ⟨result, answer, rfl⟩

theorem resumed_some {input : AdvanceInput} {history : List StageResult} {run : ChangeRun} {stage : Stage}
    {checkpoint : StageResult} {attempt : Attempted}
    (plan : resumed input history run stage checkpoint = some attempt) :
    ∃ first resolver resolution, resolvedWait checkpoint run stage input.change input.facts = some first ∧
      resolvedWait checkpoint run stage input.change input.leasedFacts = some resolver ∧
      resolver.resolve (moveRun .running run) stage input.change
        ⟨attemptNumberOf run stage, pinnedRevision input run stage, input.now⟩ history = .ok resolution ∧
      attempt = { run, stage, attemptNumber := attemptNumberOf run stage, inputRevision := pinnedRevision input run stage
                  result := resolution.result, mergeContext := resolution.mergeContext.or input.mergeContext
                  humanDecisions := input.humanDecisions ++ resolution.approvals, checkpoint := some checkpoint } := by
  unfold resumed at plan
  dsimp only at plan
  split at plan
  · rename_i first resolver early waits
    split at plan
    · cases plan
    · rename_i resolution resolved
      cases plan
      exact ⟨first, resolver, resolution, early, waits, resolved, rfl⟩
  · cases plan

def Faithful (input : AdvanceInput) : Prop :=
  ∀ context result, input.executor context = .ok result →
    result.runId = context.runId ∧ result.stage = context.stage ∧
      result.attemptNumber = context.attemptNumber ∧ result.inputRevision = context.inputRevision

/-- The stage a new occurrence is started of: always by a fresh round, else when none is in flight. -/
def Attempted.starts (attempt : Attempted) (reached : Verdict) : Option Stage :=
  reached.nextStage.filter fun target => reached.fresh || (inFlight attempt.run target).isNone

theorem starts_next {attempt : Attempted} {reached : Verdict} {target : Stage}
    (starts : attempt.starts reached = some target) : reached.nextStage = some target :=
  (Option.filter_eq_some_iff.mp starts).1

def placements (input : AdvanceInput) (started : Option Stage) : List StagePlacement :=
  (started.map fun stage => ⟨stage, freshRevision input stage⟩).toList

section Loaded

variable {store : Store} {runId : String} {run : ChangeRun} {stage : Stage}

theorem inFlight_getLast : inFlight run stage = (run.stages.filter (activeAt stage)).getLast? :=
  Last.lastIndex_filter run.stages

theorem load_some (loaded : store.load runId = some run) :
    ∃ execution, store.execution runId = some execution ∧ run.id = runId ∧ run.route = execution.route ∧
      run.status = execution.status ∧ run.stages = (store.runRows runId execution.route).map StageRow.stageRun := by
  obtain ⟨execution, found, rfl⟩ := Option.map_eq_some_iff.mp loaded
  exact ⟨execution, found, (Table.find_some found).2, rfl, rfl, rfl⟩

theorem load_revision {execution : Execution} (loaded : store.load runId = some run)
    (found : store.execution runId = some execution) : run.stateRevision = execution.stateRevision := by
  rw [Store.load, found, Option.map_some, Option.some.injEq] at loaded
  rw [← loaded]

theorem mem_runRows {route : Route} {row : StageRow} :
    row ∈ store.runRows runId route ↔ row ∈ store.stages ∧ row.executionId = runId := by
  simp [Store.runRows, List.mem_insertionSort]

def StageRow.open (row : StageRow) : Bool := !stageTerminal row.status

theorem activeAt_stageRun {row : StageRow} :
    activeAt stage row.stageRun = true ↔ row.stage = stage ∧ row.open = true := by
  rw [activeAt_iff]
  rfl

theorem inFlight_row (loaded : store.load runId = some run) {stageRun : StageRun}
    (current : inFlight run stage = some stageRun) :
    ∃ row ∈ store.stages, row.executionId = runId ∧ row.stage = stage ∧ row.open = true ∧
      stageRun = row.stageRun := by
  obtain ⟨execution, -, -, -, -, rows⟩ := load_some loaded
  rw [inFlight_getLast] at current
  have member := List.mem_of_getLast? current
  rw [List.mem_filter, rows, List.mem_map] at member
  obtain ⟨⟨row, listed, rfl⟩, active⟩ := member
  obtain ⟨present, owner⟩ := mem_runRows.mp listed
  obtain ⟨own, live⟩ := activeAt_stageRun.mp active
  exact ⟨row, present, owner, own, live, rfl⟩

theorem inFlight_none : inFlight run stage = none ↔ ∀ item ∈ run.stages, activeAt stage item = false := by
  rw [inFlight_getLast, List.getLast?_eq_none_iff, List.filter_eq_nil_iff]
  simp

theorem nextStage_eq_some :
    nextStage run = some stage ↔
      (∃ item ∈ run.stages, activeAt stage item = true) ∧
        ∀ item ∈ run.stages, item.active = true → stageIndex stage ≤ stageIndex item.stage := by
  rw [nextStage, routeProfile_stages, find_stageSequence]
  simp only [List.any_eq_true]
  constructor
  · rintro ⟨occupied, least⟩
    exact ⟨occupied, fun item member live => least item.stage ⟨item, member, activeAt_iff.mpr ⟨rfl, live⟩⟩⟩
  · rintro ⟨occupied, least⟩
    refine ⟨occupied, ?_⟩
    rintro other ⟨item, member, active⟩
    obtain ⟨rfl, live⟩ := activeAt_iff.mp active
    exact least item member live

theorem inFlight_some (occupied : ∃ item ∈ run.stages, activeAt stage item = true) :
    ∃ stageRun, inFlight run stage = some stageRun := by
  cases found : inFlight run stage with
  | some stageRun => exact ⟨stageRun, rfl⟩
  | none =>
    obtain ⟨item, member, active⟩ := occupied
    simp [inFlight_none.mp found item member] at active

end Loaded

end DarkFactory
