import DarkFactory.Runner.Turns
import Mathlib.Logic.Relation

namespace DarkFactory

/-- What a run does to the stage table: its rows appear, and change in what does not address them. -/
inductive RowStep (runId : String) : List StageRow → List StageRow → Prop
  | opened (rows : List StageRow) (stage : Stage) (inputRevision : String) (createdAt : Timestamp) :
      RowStep runId rows (Table.insertNew StageRow.id (newStageRow runId stage inputRevision createdAt) rows)
  | changed (rows : List StageRow) (stage : Stage) (inputRevision : String) (f : StageRow → StageRow)
      (keeps : ∀ row, (f row).identity = row.identity) :
      RowStep runId rows (Table.update StageRow.id (operationKey runId stage inputRevision) f rows)

abbrev RowSteps (runId : String) : List StageRow → List StageRow → Prop := Relation.ReflTransGen (RowStep runId)

structure Keyed (rows : List StageRow) : Prop where
  unique : Table.Unique StageRow.id rows
  keys : ∀ row ∈ rows, row.id = operationKey row.executionId row.stage row.inputRevision
  free : ∀ row ∈ rows, ColonFree row.executionId

section Steps

variable {runId id : String} {rows next : List StageRow}

theorem Keyed.nil : Keyed [] := ⟨Table.Unique.nil, nofun, nofun⟩

theorem identity_executionId {row other : StageRow} (same : row.identity = other.identity) :
    row.executionId = other.executionId := (Prod.mk.inj (Prod.mk.inj same).2).1

theorem RowStep.keyed (free : ColonFree runId) (step : RowStep runId rows next) (keyed : Keyed rows) : Keyed next := by
  cases step with
  | opened stage inputRevision createdAt =>
    constructor
    · exact keyed.unique.insertNew
    · intro row member
      rcases Table.mem_insertNew.mp member with present | ⟨-, rfl⟩
      · exact keyed.keys row present
      · rfl
    · intro row member
      rcases Table.mem_insertNew.mp member with present | ⟨-, rfl⟩
      · exact keyed.free row present
      · exact free
  | changed stage inputRevision f keeps =>
    have each (row : StageRow) (member : row ∈ Table.update StageRow.id (operationKey runId stage inputRevision) f rows) :
        ∃ old ∈ rows, row.identity = old.identity := by
      rcases Table.mem_update.mp member with ⟨present, -⟩ | ⟨old, present, -, rfl⟩
      · exact ⟨row, present, rfl⟩
      · exact ⟨old, present, keeps old⟩
    constructor
    · exact keyed.unique.update fun row => congrArg Prod.fst (keeps row)
    · intro row member
      obtain ⟨old, present, same⟩ := each row member
      obtain ⟨ids, rest⟩ := Prod.mk.inj same
      obtain ⟨runs, rest⟩ := Prod.mk.inj rest
      obtain ⟨stages, revisions⟩ := Prod.mk.inj rest
      rw [ids, runs, stages, revisions]
      exact keyed.keys old present
    · intro row member
      obtain ⟨old, present, same⟩ := each row member
      rw [identity_executionId same]
      exact keyed.free old present

theorem RowStep.other (free : ColonFree runId) (step : RowStep runId rows next) (keyed : Keyed rows) (apart : id ≠ runId)
    {row : StageRow} (own : row.executionId = id) : row ∈ next ↔ row ∈ rows := by
  cases step with
  | opened stage inputRevision createdAt =>
    rw [Table.mem_insertNew]
    constructor
    · rintro (present | ⟨-, rfl⟩)
      · exact present
      · exact absurd own.symm apart
    · exact Or.inl
  | changed stage inputRevision f keeps =>
    have away (old : StageRow) (present : old ∈ rows) (theirs : old.executionId = id) :
        old.id ≠ operationKey runId stage inputRevision := by
      intro same
      rw [keyed.keys old present] at same
      exact apart (theirs.symm.trans (operationKey_injective (keyed.free old present) free same).1)
    rw [Table.mem_update]
    constructor
    · rintro (⟨present, -⟩ | ⟨old, present, here, rfl⟩)
      · exact present
      · exact absurd here (away old present ((identity_executionId (keeps old)).symm.trans own))
    · intro present
      exact Or.inl ⟨present, away row present own⟩

theorem RowSteps.keyed (free : ColonFree runId) (steps : RowSteps runId rows next) (keyed : Keyed rows) : Keyed next := by
  induction steps with
  | refl => exact keyed
  | tail _ step ih => exact step.keyed free ih

theorem RowSteps.other (free : ColonFree runId) (steps : RowSteps runId rows next) (keyed : Keyed rows) (apart : id ≠ runId)
    {row : StageRow} (own : row.executionId = id) : row ∈ next ↔ row ∈ rows := by
  induction steps with
  | refl => rfl
  | tail before step ih => exact (step.other free (RowSteps.keyed free before keyed) apart own).trans ih

theorem placed_rowSteps (runId : String) (createdAt : Timestamp) (placements : List StagePlacement)
    (rows : List StageRow) : RowSteps runId rows (placed runId createdAt placements rows) := by
  induction placements generalizing rows with
  | nil => exact .refl
  | cons placement rest ih => exact .head (.opened rows placement.stage placement.inputRevision createdAt) (ih _)

end Steps

section Advance

variable {input : AdvanceInput} {before opening after : Store} {identity : AttemptIdentity} {opened : OpenedAttempt}
  {report : RunAdvance}

theorem openIdentity_rows (done : openIdentity identity input.createdAt before = .ok opened after) :
    opened.openStage.stageRowId = operationKey identity.run.id identity.stage identity.inputRevision ∧
      RowSteps identity.run.id before.stages after.stages := by
  obtain ⟨-, -, -, opening⟩ := openIdentity_steps done
  obtain ⟨row, created, made, rowId, -, written, -⟩ := openAttempt_writes opening
  obtain ⟨createdEq, rowEq⟩ := getOrCreateStage_ok made
  rw [moveRun_id] at createdEq rowEq
  have key : row.id = operationKey identity.run.id identity.stage identity.inputRevision := by
    rw [rowEq]
    cases found : before.stageRow (operationKey identity.run.id identity.stage identity.inputRevision) with
    | none => rfl
    | some held => exact (Table.find_some found).2
  refine ⟨rowId.trans key, ?_⟩
  rw [written, createdEq, key]
  exact (placed_rowSteps _ _ _ _).tail (.changed _ _ _ _ fun _ => rfl)

theorem persistAndReport_rows {result : StageResult} {decision : FlowDecision} {final : ChangeRun} {stage : Stage}
    {inputRevision : String} (key : opened.openStage.stageRowId = operationKey final.id stage inputRevision)
    (done : persistAndReport input identity opened final result decision before = .ok report after) :
    RowSteps final.id before.stages after.stages := by
  rcases persistAndReport_cases done with ⟨-, frame, -⟩ | ⟨-, written, released, persisting, releasing⟩
  · rw [frame.stages]
  · rcases persistDecision_ok persisting with ⟨replayed, -⟩ | ⟨-, persisted⟩
    · cases replayed
    obtain ⟨row, path, -, -, stages⟩ := persisted.stages
    rw [(release_frame releasing).stages, stages, createdStages_id, key]
    exact (placed_rowSteps _ _ _ _).tail (.changed _ _ _ _ fun _ => rfl)

theorem advanceLeased_rows (done : advanceLeased input input.runId before = .ok report after) :
    RowSteps input.runId before.stages after.stages := by
  rcases advanceLeased_steps done with ⟨-, frame⟩ |
    ⟨leased, run, identity, opened, opening, result, decision, final, frame, loaded, live, rfl, opens,
      ⟨history, context, decisions, applied⟩, persists⟩
  · rw [frame.stages]
  · have id : identity.run.id = input.runId := (load_some loaded).choose_spec.2.1
    obtain ⟨key, opening⟩ := openIdentity_rows opens
    have finalId : final.id = identity.run.id := by
      rw [applyResult_id applied, (openIdentity_frame opens).1, moveRun_id]
    rw [← finalId] at key opening
    rw [← id, ← finalId, ← frame.stages]
    exact opening.trans (persistAndReport_rows key persists)

end Advance

end DarkFactory
