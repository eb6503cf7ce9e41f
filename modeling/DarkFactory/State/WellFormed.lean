import DarkFactory.State.RunStore

namespace DarkFactory

/-- The columns of a result row repeat its payload, which names a revision. -/
structure StageResultRow.Sound (row : StageResultRow) : Prop where
  columns : row = resultRow row.payload
  revision : row.payload.inputRevision ≠ none
  free : ColonFree row.payload.runId

structure WellFormed (store : Store) : Prop where
  executionsUnique : Table.Unique Execution.id store.executions
  executionIds : ∀ execution ∈ store.executions, ColonFree execution.id
  stagesUnique : Table.Unique StageRow.id store.stages
  stageKeys : ∀ row ∈ store.stages, row.id = operationKey row.executionId row.stage row.inputRevision
  stageOwners : ∀ row ∈ store.stages, store.execution row.executionId ≠ none
  resultsUnique : Table.Unique StageResultRow.id store.results
  resultsSound : ∀ row ∈ store.results, row.Sound

theorem WellFormed.empty : WellFormed {} :=
  ⟨Table.Unique.nil, by simp, Table.Unique.nil, by simp, by simp, Table.Unique.nil, by simp⟩

structure Answers (runId : String) (stage : Stage) (attemptNumber : Nat) (inputRevision : String)
    (result : StageResult) : Prop where
  runId_eq : result.runId = runId
  stage_eq : result.stage = stage
  attemptNumber_eq : result.attemptNumber = attemptNumber
  inputRevision_eq : result.inputRevision = some inputRevision

section Results

variable {store : Store} {runId : String} {stage : Stage} {attemptNumber : Nat} {inputRevision : String}
  {result : StageResult} {row : StageResultRow}

theorem Answers.rowId (answers : Answers runId stage attemptNumber inputRevision result) :
    (resultRow result).id = attemptId (operationKey runId stage inputRevision) attemptNumber := by
  simp [resultRow, resultOperation, answers.runId_eq, answers.stage_eq, answers.attemptNumber_eq,
    answers.inputRevision_eq]

theorem StageResultRow.Sound.answers (sound : row.Sound) (free : ColonFree runId)
    (same : row.id = attemptId (operationKey runId stage inputRevision) attemptNumber) :
    Answers runId stage attemptNumber inputRevision row.payload := by
  obtain ⟨revision, named⟩ := Option.ne_none_iff_exists'.mp sound.revision
  rw [sound.columns] at same
  simp only [resultRow, resultOperation, named, Option.getD_some] at same
  obtain ⟨keys, numbers⟩ := attemptId_injective same
  obtain ⟨runs, stages, revisions⟩ := operationKey_injective sound.free free keys
  exact ⟨runs, stages, numbers, by rw [named, revisions]⟩

theorem WellFormed.row_answers (wf : WellFormed store)
    (listed : row ∈ store.attemptRows runId stage attemptNumber inputRevision) :
    row ∈ store.results ∧ Answers runId stage attemptNumber inputRevision row.payload := by
  obtain ⟨member, runs, stages, numbers, revisions⟩ := mem_attemptRows.mp listed
  have columns := (wf.resultsSound row member).columns
  rw [columns] at runs stages numbers revisions
  exact ⟨member, runs, stages, numbers, revisions⟩

theorem WellFormed.committed_row (wf : WellFormed store)
    (committed : store.committedResult runId stage attemptNumber inputRevision = some result) :
    ∃ row ∈ store.results, row.payload = result ∧ row.Sound ∧
      Answers runId stage attemptNumber inputRevision result := by
  unfold Store.committedResult at committed
  cases first : (store.attemptRows runId stage attemptNumber inputRevision).head? with
  | none => simp [first] at committed
  | some row =>
    obtain ⟨member, answers⟩ := wf.row_answers (List.mem_of_mem_head? first)
    simp only [first, answers.inputRevision_eq, ne_eq, not_true_eq_false, ↓reduceIte,
      Option.some.injEq] at committed
    subst committed
    exact ⟨row, member, rfl, wf.resultsSound row member, answers⟩

theorem WellFormed.committed_of_row (wf : WellFormed store) (member : row ∈ store.results)
    (answers : Answers runId stage attemptNumber inputRevision row.payload) :
    store.committedResult runId stage attemptNumber inputRevision = some row.payload := by
  have columns := (wf.resultsSound row member).columns
  have listed : row ∈ store.attemptRows runId stage attemptNumber inputRevision := by
    refine mem_attemptRows.mpr ⟨member, ?_⟩
    rw [columns]
    exact ⟨answers.runId_eq, answers.stage_eq, answers.attemptNumber_eq, answers.inputRevision_eq⟩
  unfold Store.committedResult
  cases first : (store.attemptRows runId stage attemptNumber inputRevision).head? with
  | none =>
    rw [List.head?_eq_none_iff] at first
    rw [first] at listed
    simp at listed
  | some other =>
    obtain ⟨present, otherAnswers⟩ := wf.row_answers (List.mem_of_mem_head? first)
    have same : other = row := by
      refine wf.resultsUnique.eq present member ?_
      rw [(wf.resultsSound other present).columns, columns, otherAnswers.rowId, answers.rowId]
    subst same
    simp [answers.inputRevision_eq]

theorem WellFormed.uncommitted (wf : WellFormed store) (free : ColonFree runId)
    (absent : store.committedResult runId stage attemptNumber inputRevision = none) :
    Table.find StageResultRow.id (attemptId (operationKey runId stage inputRevision) attemptNumber)
      store.results = none := by
  cases found : Table.find StageResultRow.id
      (attemptId (operationKey runId stage inputRevision) attemptNumber) store.results with
  | none => rfl
  | some row =>
    obtain ⟨member, same⟩ := Table.find_some found
    have answers := (wf.resultsSound row member).answers free same
    rw [wf.committed_of_row member answers] at absent
    cases absent

theorem Answers.sound (answers : Answers runId stage attemptNumber inputRevision result)
    (free : ColonFree runId) : (resultRow result).Sound :=
  ⟨rfl, by simp [resultRow, answers.inputRevision_eq], by
    rw [show (resultRow result).payload = result from rfl, answers.runId_eq]
    exact free⟩

theorem StageResultRow.Sound.superseded (sound : row.Sound) (free : ColonFree runId)
    (same : row.id = (resultRow result).id)
    (answers : Answers runId stage attemptNumber inputRevision result) :
    StageResultRow.superseded result row = resultRow result := by
  have held := sound.answers free (same.trans answers.rowId)
  rw [sound.columns]
  simp [StageResultRow.superseded, resultRow, resultOperation, held.runId_eq, held.stage_eq,
    held.attemptNumber_eq, held.inputRevision_eq, answers.runId_eq, answers.stage_eq,
    answers.attemptNumber_eq, answers.inputRevision_eq]

theorem WellFormed.mem_recorded (wf : WellFormed store) (free : ColonFree runId)
    (answers : Answers runId stage attemptNumber inputRevision result) {outcome : RecordOutcome}
    {after : Store} (done : recordOutcome result store = .ok outcome after) (written : outcome ≠ .replayed) :
    row ∈ recorded result outcome store.results ↔
      (row ∈ store.results ∧ row.id ≠ (resultRow result).id) ∨ row = resultRow result := by
  have guard := (recordOutcome_ok done).2
  cases outcome with
  | replayed => exact absurd rfl written
  | stored =>
    dsimp only at guard
    simp only [recorded, Table.mem_insertNew, guard, true_and]
    constructor
    · rintro (present | rfl)
      · exact Or.inl ⟨present, Table.find_none.mp guard row present⟩
      · exact Or.inr rfl
    · rintro (⟨present, -⟩ | rfl)
      · exact Or.inl present
      · exact Or.inr rfl
  | superseded =>
    obtain ⟨-, held, found, -⟩ := guard
    obtain ⟨member, same⟩ := Table.find_some found
    have renewed := (wf.resultsSound held member).superseded free same answers
    simp only [recorded, Table.mem_update]
    constructor
    · rintro (⟨present, away⟩ | ⟨old, present, here, rfl⟩)
      · exact Or.inl ⟨present, away⟩
      · rw [wf.resultsUnique.eq present member (here.trans same.symm), renewed]
        exact Or.inr rfl
    · rintro (⟨present, away⟩ | rfl)
      · exact Or.inl ⟨present, away⟩
      · exact Or.inr ⟨held, member, same, renewed.symm⟩

theorem recorded_unique {rows : List StageResultRow} (unique : Table.Unique StageResultRow.id rows)
    (outcome : RecordOutcome) : Table.Unique StageResultRow.id (recorded result outcome rows) := by
  cases outcome with
  | stored => exact unique.insertNew
  | superseded => exact unique.update fun _ => rfl
  | replayed => exact unique

end Results

end DarkFactory
