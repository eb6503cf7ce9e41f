import DarkFactory.Changes.Keys
import DarkFactory.State.Rows
import Mathlib.Data.List.Sort

namespace DarkFactory

inductive RecordOutcome | stored | superseded | replayed
  deriving DecidableEq, Repr

def resultOperation (result : StageResult) : String :=
  operationKey result.runId result.stage (result.inputRevision.getD "")

def resultRow (result : StageResult) : StageResultRow :=
  { id := attemptId (resultOperation result) result.attemptNumber
    runId := result.runId
    stage := result.stage
    attemptNumber := result.attemptNumber
    inputRevision := result.inputRevision
    status := result.status
    producedAt := result.producedAt
    payload := result }

/-- The checkpoint keeps its row; payload, status and time move to the final outcome. -/
def StageResultRow.superseded (result : StageResult) (row : StageResultRow) : StageResultRow :=
  { row with payload := result, status := result.status, producedAt := result.producedAt }

/-- A waiting checkpoint gives way to the outcome of its own attempt; nothing else is rewritten. -/
def recordOutcome (result : StageResult) : Session RecordOutcome := do
  let row := resultRow result
  let store ← get
  match Table.find StageResultRow.id row.id store.results with
  | none => do
    modify fun store => { store with results := Table.insertNew StageResultRow.id row store.results }
    pure .stored
  | some held =>
    if result.status = .waiting then pure .replayed
    else if held.status = .waiting then do
      modify fun store =>
        { store with results := Table.update StageResultRow.id row.id (.superseded result) store.results }
      pure .superseded
    else pure .replayed

def producedBefore (left right : StageResultRow) : Bool := left.producedAt ≤ right.producedAt

def Store.attemptRows (store : Store) (runId : String) (stage : Stage) (attemptNumber : Nat)
    (inputRevision : String) : List StageResultRow :=
  (store.results.filter fun row => row.runId = runId && row.stage = stage &&
    row.attemptNumber = attemptNumber && row.inputRevision = some inputRevision).insertionSort
      fun left right => producedBefore left right = true

def Store.committedResult (store : Store) (runId : String) (stage : Stage) (attemptNumber : Nat)
    (inputRevision : String) : Option StageResult :=
  match (store.attemptRows runId stage attemptNumber inputRevision).head? with
  | none => none
  | some row => if row.payload.inputRevision ≠ some inputRevision then none else some row.payload

theorem mem_attemptRows {store : Store} {runId : String} {stage : Stage} {attemptNumber : Nat}
    {inputRevision : String} {row : StageResultRow} :
    row ∈ store.attemptRows runId stage attemptNumber inputRevision ↔
      row ∈ store.results ∧ row.runId = runId ∧ row.stage = stage ∧ row.attemptNumber = attemptNumber ∧
        row.inputRevision = some inputRevision := by
  simp [Store.attemptRows, List.mem_insertionSort, and_assoc]

/-- The order of the history: production time, then stage value, then attempt. -/
def listedBefore (left right : StageResultRow) : Bool :=
  left.producedAt < right.producedAt ||
    (left.producedAt = right.producedAt &&
      (decide (left.stage.value < right.stage.value) ||
        (left.stage = right.stage && left.attemptNumber ≤ right.attemptNumber)))

def Store.loadHistory (store : Store) (runId : String) : List StageResult :=
  ((store.results.filter (·.runId = runId)).insertionSort fun left right => listedBefore left right = true).map
    (·.payload)

theorem mem_loadHistory {store : Store} {runId : String} {result : StageResult} :
    result ∈ store.loadHistory runId ↔ ∃ row ∈ store.results, row.runId = runId ∧ row.payload = result := by
  simp [Store.loadHistory, List.mem_insertionSort, and_assoc]

def recorded (result : StageResult) (outcome : RecordOutcome) (rows : List StageResultRow) :
    List StageResultRow :=
  match outcome with
  | .stored => Table.insertNew StageResultRow.id (resultRow result) rows
  | .superseded => Table.update StageResultRow.id (resultRow result).id (.superseded result) rows
  | .replayed => rows

theorem recordOutcome_ok {result : StageResult} {store after : Store} {outcome : RecordOutcome}
    (done : recordOutcome result store = .ok outcome after) :
    after = { store with results := recorded result outcome store.results } ∧
      match outcome with
      | .stored => Table.find StageResultRow.id (resultRow result).id store.results = none
      | .superseded => result.status ≠ .waiting ∧
          ∃ held, Table.find StageResultRow.id (resultRow result).id store.results = some held ∧
            held.status = .waiting
      | .replayed => ∃ held, Table.find StageResultRow.id (resultRow result).id store.results = some held ∧
          (result.status = .waiting ∨ held.status ≠ .waiting) := by
  rw [recordOutcome, Outcome.state_get_bind] at done
  cases found : Table.find StageResultRow.id (resultRow result).id store.results with
  | none =>
    simp only [found] at done
    rw [Outcome.state_modify_bind] at done
    obtain ⟨rfl, rfl⟩ := Outcome.state_pure_ok.mp done
    exact ⟨rfl, rfl⟩
  | some held =>
    simp only [found] at done
    by_cases waiting : result.status = .waiting
    · rw [if_pos waiting] at done
      obtain ⟨rfl, rfl⟩ := Outcome.state_pure_ok.mp done
      exact ⟨rfl, held, rfl, Or.inl waiting⟩
    · rw [if_neg waiting] at done
      by_cases checkpoint : held.status = .waiting
      · rw [if_pos checkpoint, Outcome.state_modify_bind] at done
        obtain ⟨rfl, rfl⟩ := Outcome.state_pure_ok.mp done
        exact ⟨rfl, waiting, held, rfl, checkpoint⟩
      · rw [if_neg checkpoint] at done
        obtain ⟨rfl, rfl⟩ := Outcome.state_pure_ok.mp done
        exact ⟨rfl, held, rfl, Or.inr checkpoint⟩

end DarkFactory
