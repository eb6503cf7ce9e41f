import DarkFactory.Scm.Agent
import DarkFactory.State.Effects
import DarkFactory.State.Persist

namespace DarkFactory

/-- A stage of a run on an input revision: a round of the stage. -/
@[ext] structure Operation where
  runId : String
  stage : Stage
  inputRevision : String
  runFree : ColonFree runId
  revisionFree : ColonFree inputRevision

@[ext] structure OperationEffect where
  effectType : String
  effectTarget : String
  typeFree : ColonFree effectType

namespace Operation

variable (operation other : Operation)

def key : String := operationKey operation.runId operation.stage operation.inputRevision

def attempt (attemptNumber : Nat) : String := attemptId operation.key attemptNumber

def effect (effect : OperationEffect) : String := effectKey operation.key effect.effectType effect.effectTarget

def Reports (result : StageResult) : Prop :=
  result.runId = operation.runId ∧ result.stage = operation.stage ∧
    result.inputRevision.getD "" = operation.inputRevision

/-- Whatever is done for the operation leaves the row, the attempts, the results and the effects of the other alone. -/
structure LeavesAlone : Prop where
  row : ∀ createdAt store made after,
    getOrCreateStage operation.runId operation.stage operation.inputRevision createdAt store = .ok made after →
      made.id = operation.key ∧ after.stageRow other.key = store.stageRow other.key
  attempts : ∀ row attemptNumber store held after, row.id = operation.key →
    appendAttempt row attemptNumber store = .ok held after →
      after.stageRow other.key = store.stageRow other.key ∧
        ∀ number, Table.find Attempt.id (other.attempt number) after.attempts =
          Table.find Attempt.id (other.attempt number) store.attempts
  results : ∀ result store outcome after, operation.Reports result → recordOutcome result store = .ok outcome after →
    ∀ number, Table.find StageResultRow.id (other.attempt number) after.results =
      Table.find StageResultRow.id (other.attempt number) store.results
  effects : ∀ (call : EffectCall) effect world, call.effectKey = operation.effect effect → ∀ otherEffect,
    EffectLedger.entry (other.effect otherEffect) (call.perform world).2.ledger =
        EffectLedger.entry (other.effect otherEffect) world.ledger ∧
      (call.perform world).2.executed (other.effect otherEffect) = world.executed (other.effect otherEffect)

end Operation

section Keys

variable {operation other : Operation}

theorem Operation.key_injective (same : operation.key = other.key) : operation = other := by
  obtain ⟨runs, stages, revisions⟩ := operationKey_injective operation.runFree other.runFree same
  exact Operation.ext runs stages revisions

theorem Operation.attempt_injective {number otherNumber : Nat} (same : operation.attempt number = other.attempt otherNumber) :
    operation = other ∧ number = otherNumber := by
  obtain ⟨keys, numbers⟩ := attemptId_injective same
  exact ⟨Operation.key_injective keys, numbers⟩

/-- The key of an effect is cut at its colons: three parts of the operation, the type, and the rest is the target. -/
theorem Operation.effect_injective {effect otherEffect : OperationEffect}
    (same : operation.effect effect = other.effect otherEffect) : operation = other ∧ effect = otherEffect := by
  have letters := congrArg String.toList same
  simp only [Operation.effect, effectKey, Operation.key, operationKey, String.toList_append, List.append_assoc] at letters
  obtain ⟨runs, rest⟩ := (Delimited.cut_first operation.runFree other.runFree).mp letters
  obtain ⟨stages, rest⟩ :=
    (Delimited.cut_first (stage_value_colonFree operation.stage) (stage_value_colonFree other.stage)).mp rest
  obtain ⟨revisions, rest⟩ := (Delimited.cut_first operation.revisionFree other.revisionFree).mp rest
  obtain ⟨types, targets⟩ := (Delimited.cut_first effect.typeFree otherEffect.typeFree).mp rest
  exact ⟨Operation.ext (String.toList_injective runs) (stage_value_injective (String.toList_injective stages))
      (String.toList_injective revisions),
    OperationEffect.ext (String.toList_injective types) (String.toList_injective targets)⟩

theorem Operation.resultRow_id {result : StageResult} (reports : operation.Reports result) :
    (resultRow result).id = operation.attempt result.attemptNumber := by
  obtain ⟨run, stage, revision⟩ := reports
  simp only [resultRow, resultOperation, run, stage, revision, Operation.attempt, Operation.key]

end Keys

section Frames

variable {operation other : Operation} {store after : Store}

theorem recordOutcome_other {result : StageResult} {outcome : RecordOutcome} {id : String}
    (recorded : recordOutcome result store = .ok outcome after) (apart : id ≠ (resultRow result).id) :
    Table.find StageResultRow.id id after.results = Table.find StageResultRow.id id store.results := by
  obtain ⟨rfl, -⟩ := recordOutcome_ok recorded
  cases outcome with
  | stored => exact Table.find_insertNew_other apart
  | superseded => exact Table.find_update_other (fun _ here => here) apart
  | replayed => rfl

theorem getOrCreateStage_other {runId : String} {stage : Stage} {inputRevision : String} {createdAt : Timestamp}
    {made : StageRow} {id : String} (done : getOrCreateStage runId stage inputRevision createdAt store = .ok made after)
    (apart : id ≠ operationKey runId stage inputRevision) :
    made.id = operationKey runId stage inputRevision ∧ after.stageRow id = store.stageRow id := by
  obtain ⟨rfl, rfl⟩ := getOrCreateStage_ok done
  constructor
  · cases held : store.stageRow (operationKey runId stage inputRevision) with
    | none => rfl
    | some row => exact (Table.find_some held).2
  · exact Table.find_insertNew_other apart

theorem appendAttempt_other {row : StageRow} {attemptNumber : Nat} {held : Attempt} {rowId attemptKey : String}
    (done : appendAttempt row attemptNumber store = .ok held after) (rowApart : rowId ≠ row.id)
    (apart : attemptKey ≠ attemptId row.id attemptNumber) : after.stageRow rowId = store.stageRow rowId ∧
      Table.find Attempt.id attemptKey after.attempts = Table.find Attempt.id attemptKey store.attempts := by
  rw [appendAttempt_eq] at done
  obtain ⟨-, rfl⟩ := EStateM.Result.ok.inj done
  exact ⟨Table.find_update_other (fun _ here => here) rowApart, Table.find_insertNew_other apart⟩

theorem runOperation_other {call : EffectCall} {world : EffectWorld} {key : String} (apart : key ≠ call.effectKey) :
    EffectLedger.entry key (call.perform world).2.ledger = EffectLedger.entry key world.ledger ∧
      (call.perform world).2.executed key = world.executed key := by
  have happens := perform_happens call world
  refine ⟨happens.others key apart, ?_⟩
  unfold EffectWorld.executed
  rcases happens.external with same | ⟨reference, appended, -⟩
  · rw [same]
  · rw [appended, List.filter_append]
    simp [Ne.symm apart]

theorem Operation.leavesAlone (apart : operation ≠ other) : operation.LeavesAlone other := by
  have keys : other.key ≠ operation.key := fun same => apart (Operation.key_injective same).symm
  have attempts (number own : Nat) : other.attempt number ≠ operation.attempt own :=
    fun same => apart (Operation.attempt_injective same).1.symm
  constructor
  · intro createdAt store made after done
    exact getOrCreateStage_other done keys
  · intro row attemptNumber store held after own done
    have rowApart : other.key ≠ row.id := by rwa [own]
    have each (number : Nat) : other.attempt number ≠ attemptId row.id attemptNumber := by
      rw [own]
      exact attempts number attemptNumber
    exact ⟨(appendAttempt_other done rowApart (each 0)).1, fun number => (appendAttempt_other done rowApart (each number)).2⟩
  · intro result store outcome after reports recorded number
    apply recordOutcome_other recorded
    rw [Operation.resultRow_id reports]
    exact attempts number result.attemptNumber
  · intro call effect world own otherEffect
    apply runOperation_other
    rw [own]
    exact fun same => apart (Operation.effect_injective same).1.symm

end Frames

/-- Operations, their attempts and their effects have keys of their own, and nothing done for one operation reaches the rows,
    results or effects of another. -/
theorem operation_keys_apart (operation other : Operation) :
    (operation.key = other.key ↔ operation = other) ∧
    (∀ number otherNumber,
      operation.attempt number = other.attempt otherNumber ↔ operation = other ∧ number = otherNumber) ∧
    (∀ effect otherEffect,
      operation.effect effect = other.effect otherEffect ↔ operation = other ∧ effect = otherEffect) ∧
    (operation = other ∨ operation.LeavesAlone other) := by
  refine ⟨⟨Operation.key_injective, fun same => by rw [same]⟩, fun number otherNumber => ⟨Operation.attempt_injective, ?_⟩,
    fun effect otherEffect => ⟨Operation.effect_injective, ?_⟩, ?_⟩
  · rintro ⟨rfl, rfl⟩
    rfl
  · rintro ⟨rfl, rfl⟩
    rfl
  · by_cases same : operation = other
    · exact Or.inl same
    · exact Or.inr (Operation.leavesAlone same)

/-- A colon in the type of an effect shifts its target. -/
theorem colon_in_type_collides : ¬ ∀ (runId inputRevision effectType effectTarget otherType otherTarget : String) (stage : Stage),
    ColonFree runId → ColonFree inputRevision →
      effectKey (operationKey runId stage inputRevision) effectType effectTarget =
        effectKey (operationKey runId stage inputRevision) otherType otherTarget →
      effectType = otherType ∧ effectTarget = otherTarget := by
  intro injective
  have free : ColonFree "run_1" ∧ ColonFree "r1" := by
    unfold ColonFree
    decide
  have collides := injective "run_1" "r1" "commit:main" "x" "commit" "main:x" .construction free.1 free.2 (by decide)
  exact absurd collides.1 (by decide)

end DarkFactory
