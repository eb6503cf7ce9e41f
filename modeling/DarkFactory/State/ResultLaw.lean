import DarkFactory.Lib.Latch
import DarkFactory.State.StageResults
import Mathlib.Data.List.Induction

namespace DarkFactory

/-- A run of recordings: the store they leave and what each one answered, under its attempt id. -/
structure Recordings where
  store : Store := {}
  log : List (String × RecordOutcome) := []

def record (state : Recordings) (result : StageResult) : Recordings :=
  match recordOutcome result state.store with
  | .ok outcome after => { store := after, log := state.log ++ [((resultRow result).id, outcome)] }
  | .error _ _ => state

def recordAll (calls : List StageResult) : Recordings := calls.foldl record {}

def callsFor (id : String) (calls : List StageResult) : List StageResult :=
  calls.filter fun call => (resultRow call).id = id

def Recordings.row (state : Recordings) (id : String) : Option StageResultRow :=
  Table.find StageResultRow.id id state.store.results

def Recordings.outcomes (state : Recordings) (id : String) : List RecordOutcome :=
  (state.log.filter (·.1 = id)).map (·.2)

def awaits (result : StageResult) : Bool := result.status = .waiting

theorem recordAll_snoc (calls : List StageResult) (result : StageResult) :
    recordAll (calls ++ [result]) = record (recordAll calls) result := by
  rw [recordAll, List.foldl_append]
  rfl

def answer (held : Option StageResultRow) (result : StageResult) : RecordOutcome :=
  match held with
  | none => .stored
  | some row => if row.status = .waiting ∧ result.status ≠ .waiting then .superseded else .replayed

def rowAfter (held : Option StageResultRow) (result : StageResult) : StageResultRow :=
  match held with
  | none => resultRow result
  | some row => if row.status = .waiting ∧ result.status ≠ .waiting then row.superseded result else row

section Step

variable (state : Recordings) (result : StageResult)

theorem recordOutcome_answers : ∃ after, recordOutcome result state.store =
    .ok (answer (state.row (resultRow result).id) result) after := by
  rw [recordOutcome, Outcome.state_get_bind]
  unfold answer Recordings.row
  cases Table.find StageResultRow.id (resultRow result).id state.store.results with
  | none => exact ⟨_, rfl⟩
  | some held =>
    dsimp only
    by_cases waiting : result.status = .waiting
    · rw [if_pos waiting, if_neg (by simp [waiting])]
      exact ⟨_, rfl⟩
    · rw [if_neg waiting]
      by_cases checkpoint : held.status = .waiting
      · rw [if_pos checkpoint, if_pos ⟨checkpoint, waiting⟩]
        exact ⟨_, rfl⟩
      · rw [if_neg checkpoint, if_neg (by simp [checkpoint])]
        exact ⟨_, rfl⟩

theorem record_log : (record state result).log =
    state.log ++ [((resultRow result).id, answer (state.row (resultRow result).id) result)] := by
  obtain ⟨after, done⟩ := recordOutcome_answers state result
  rw [record, done]

theorem record_results : (record state result).store.results =
    recorded result (answer (state.row (resultRow result).id) result) state.store.results := by
  obtain ⟨after, done⟩ := recordOutcome_answers state result
  have effect := (recordOutcome_ok done).1
  rw [record, done, effect]

theorem record_row_self : (record state result).row (resultRow result).id =
    some (rowAfter (state.row (resultRow result).id) result) := by
  rw [Recordings.row, record_results]
  unfold answer rowAfter
  cases found : state.row (resultRow result).id with
  | none =>
    rw [Recordings.row] at found
    simp [recorded, Table.find_insertNew_self, found]
  | some held =>
    dsimp only
    rw [Recordings.row] at found
    split
    · have kept : ∀ row : StageResultRow, row.id = (resultRow result).id →
          (row.superseded result).id = (resultRow result).id := fun row here => here
      rw [recorded, Table.find_update_self kept, found, Option.map_some]
    · rw [recorded, found]

theorem record_row_other {id : String} (other : (resultRow result).id ≠ id) :
    (record state result).row id = state.row id := by
  rw [Recordings.row, record_results, Recordings.row]
  unfold recorded
  split
  · exact Table.find_insertNew_other other.symm
  · exact Table.find_update_other (fun row here => here) other.symm
  · rfl

theorem record_outcomes (id : String) : (record state result).outcomes id =
    state.outcomes id ++ if (resultRow result).id = id then [answer (state.row id) result] else [] := by
  rw [Recordings.outcomes, record_log, List.filter_append, List.map_append, Recordings.outcomes]
  by_cases own : (resultRow result).id = id
  · subst own
    simp
  · simp [own]

end Step

/-- The row of an attempt after the calls: its payload is the settled result, its outcomes say how it got
    there. -/
structure Holds (calls : List StageResult) (id : String) : Prop where
  payload : ((recordAll calls).row id).map (·.payload) = Latch.settled awaits (callsFor id calls)
  status : ∀ row, (recordAll calls).row id = some row → row.status = row.payload.status
  stored : (recordAll calls).outcomes id = [] ∧ (recordAll calls).row id = none ∨
    ∃ rest, (recordAll calls).outcomes id = .stored :: rest ∧ .stored ∉ rest ∧
      (recordAll calls).row id ≠ none
  superseded : ((recordAll calls).outcomes id).count .superseded = 0 ∨
    ((recordAll calls).outcomes id).count .superseded = 1 ∧
      ∀ row, (recordAll calls).row id = some row → row.status ≠ .waiting

theorem rowAfter_payload {held : Option StageResultRow} {result : StageResult}
    (status : ∀ row, held = some row → row.status = row.payload.status) :
    some (rowAfter held result).payload = Latch.take awaits (held.map (·.payload)) result := by
  cases held with
  | none => rfl
  | some row =>
    have same := status row rfl
    simp only [rowAfter, Option.map_some, Latch.take, awaits, ← same]
    by_cases checkpoint : row.status = .waiting
    · by_cases waiting : result.status = .waiting
      · simp [checkpoint, waiting]
      · simp [checkpoint, waiting, StageResultRow.superseded]
    · simp [checkpoint]

theorem rowAfter_status {held : Option StageResultRow} {result : StageResult}
    (status : ∀ row, held = some row → row.status = row.payload.status) :
    (rowAfter held result).status = (rowAfter held result).payload.status := by
  cases held with
  | none => rfl
  | some row =>
    unfold rowAfter
    dsimp only
    split
    · rfl
    · exact status row rfl

theorem holds_snoc_own {calls : List StageResult} {result : StageResult}
    (before : Holds calls (resultRow result).id) : Holds (calls ++ [result]) (resultRow result).id := by
  have row := record_row_self (recordAll calls) result
  have outcomes := record_outcomes (recordAll calls) result (resultRow result).id
  rw [if_pos rfl] at outcomes
  rw [← recordAll_snoc] at row outcomes
  refine ⟨?_, ?_, ?_, ?_⟩
  · have own : callsFor (resultRow result).id (calls ++ [result]) =
        callsFor (resultRow result).id calls ++ [result] := by
      simp [callsFor]
    rw [own, Latch.settled_snoc, ← before.payload, row, Option.map_some]
    exact rowAfter_payload before.status
  · intro held found
    rw [row, Option.some.injEq] at found
    rw [← found]
    exact rowAfter_status before.status
  · right
    rcases before.stored with ⟨empty, absent⟩ | ⟨rest, stored, others, present⟩
    · refine ⟨[], ?_, by simp, by simp [row]⟩
      rw [outcomes, empty, absent]
      rfl
    · refine ⟨rest ++ [answer ((recordAll calls).row (resultRow result).id) result], ?_, ?_, by simp [row]⟩
      · rw [outcomes, stored, List.cons_append]
      · obtain ⟨held, found⟩ := Option.ne_none_iff_exists'.mp present
        rw [found, List.mem_append, not_or]
        refine ⟨others, ?_⟩
        simp only [answer]
        split <;> simp
  · rw [outcomes, List.count_append]
    cases found : (recordAll calls).row (resultRow result).id with
    | none =>
      rcases before.stored with ⟨empty, -⟩ | ⟨rest, -, -, present⟩
      · left
        rw [empty]
        rfl
      · exact absurd found present
    | some held =>
      rw [found] at row
      simp only [answer, rowAfter] at row ⊢
      by_cases moves : held.status = .waiting ∧ result.status ≠ .waiting
      · rw [if_pos moves]
        rw [if_pos moves] at row
        right
        rcases before.superseded with fresh | ⟨-, final⟩
        · refine ⟨by rw [fresh]; rfl, ?_⟩
          intro now there
          rw [row, Option.some.injEq] at there
          rw [← there]
          exact moves.2
        · exact absurd moves.1 (final held found)
      · rw [if_neg moves]
        rw [if_neg moves] at row
        rcases before.superseded with fresh | ⟨once, final⟩
        · left
          rw [fresh]
          rfl
        · right
          refine ⟨by rw [once]; rfl, ?_⟩
          intro now there
          rw [row, Option.some.injEq] at there
          rw [← there]
          exact final held found

theorem holds_snoc_other {calls : List StageResult} {result : StageResult} {id : String}
    (other : (resultRow result).id ≠ id) (before : Holds calls id) : Holds (calls ++ [result]) id := by
  have row := record_row_other (recordAll calls) result other
  have outcomes := record_outcomes (recordAll calls) result id
  rw [if_neg other, List.append_nil] at outcomes
  rw [← recordAll_snoc] at row outcomes
  have own : callsFor id (calls ++ [result]) = callsFor id calls := by
    simp [callsFor, other]
  refine ⟨?_, ?_, ?_, ?_⟩
  · rw [row, own]
    exact before.payload
  · rw [row]
    exact before.status
  · rw [row, outcomes]
    exact before.stored
  · rw [row, outcomes]
    exact before.superseded

theorem holds (calls : List StageResult) (id : String) : Holds calls id := by
  induction calls using List.reverseRecOn with
  | nil => exact ⟨rfl, by simp [recordAll, Recordings.row, Table.find], Or.inl ⟨rfl, rfl⟩, Or.inl rfl⟩
  | append_singleton calls result before =>
    by_cases own : (resultRow result).id = id
    · subst own
      exact holds_snoc_own before
    · exact holds_snoc_other own before

theorem row_final {calls : List StageResult} {id : String} {row : StageResultRow}
    (found : (recordAll calls).row id = some row) (final : row.status ≠ .waiting) (later : List StageResult) :
    (recordAll (calls ++ later)).row id = some row := by
  induction later using List.reverseRecOn with
  | nil => rwa [List.append_nil]
  | append_singleton later result before =>
    rw [← List.append_assoc, recordAll_snoc]
    by_cases own : (resultRow result).id = id
    · subst own
      rw [record_row_self, before]
      simp [rowAfter, final]
    · rw [record_row_other _ _ own, before]

/-- The law of the result store, for every history of calls and every attempt id. -/
structure ResultLaw (calls : List StageResult) (id : String) : Prop where
  /-- Every call is answered. -/
  answered : (recordAll calls).log.map Prod.fst = calls.map fun call => (resultRow call).id
  /-- The stored result is the first final one recorded for the attempt, else its first checkpoint. -/
  settles : ((recordAll calls).row id).map (·.payload) = Latch.settled awaits (callsFor id calls)
  /-- The first call for the attempt stores, and no later one does. -/
  storedFirst : callsFor id calls ≠ [] →
    ∃ rest, (recordAll calls).outcomes id = .stored :: rest ∧ .stored ∉ rest
  supersededOnce : ((recordAll calls).outcomes id).count .superseded ≤ 1
  /-- A final result stays as it is under any later calls. -/
  finalStays : ∀ row, (recordAll calls).row id = some row → row.status ≠ .waiting →
    ∀ later, (recordAll (calls ++ later)).row id = some row
  /-- A call for another attempt leaves the row alone. -/
  othersStay : ∀ result, (resultRow result).id ≠ id →
    (recordAll (calls ++ [result])).row id = (recordAll calls).row id

theorem log_ids (calls : List StageResult) :
    (recordAll calls).log.map Prod.fst = calls.map fun call => (resultRow call).id := by
  induction calls using List.reverseRecOn with
  | nil => rfl
  | append_singleton calls result before =>
    rw [recordAll_snoc, record_log, List.map_append, List.map_append, before]
    rfl

theorem result_store_latches (calls : List StageResult) (id : String) : ResultLaw calls id where
  answered := log_ids calls
  settles := (holds calls id).payload
  storedFirst := by
    intro called
    rcases (holds calls id).stored with ⟨-, absent⟩ | ⟨rest, stored, others, -⟩
    · have settles := (holds calls id).payload
      rw [absent] at settles
      exact absurd (Latch.settled_eq_none.mp settles.symm) called
    · exact ⟨rest, stored, others⟩
  supersededOnce := by
    rcases (holds calls id).superseded with fresh | ⟨once, -⟩ <;> omega
  finalStays := fun _ found final later => row_final found final later
  othersStay := fun result other => by
    rw [recordAll_snoc]
    exact record_row_other _ _ other

end DarkFactory
