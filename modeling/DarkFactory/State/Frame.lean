import DarkFactory.State.Persist
import DarkFactory.State.WellFormed

namespace DarkFactory

def StageRow.identity (row : StageRow) : String × String × Stage × String :=
  (row.id, row.executionId, row.stage, row.inputRevision)

structure Keeps (before after : Store) : Prop where
  executions : after.executions.map Execution.id = before.executions.map Execution.id
  stages : after.stages.map StageRow.identity = before.stages.map StageRow.identity
  results : after.results = before.results

/-- Nothing the flow reads back was written. -/
structure Untouched (before after : Store) : Prop where
  executions : after.executions = before.executions
  stages : after.stages = before.stages
  results : after.results = before.results

def Store.runStatus (store : Store) (id : String) : Option RunStatus := (store.execution id).map (·.status)

theorem load_congr {store other : Store} (executions : other.executions = store.executions)
    (stages : other.stages = store.stages) (runId : String) : other.load runId = store.load runId := by
  simp only [Store.load, Store.execution, Store.runRows, executions, stages]

theorem runStatus_congr {store other : Store} (executions : other.executions = store.executions) {id : String} :
    other.runStatus id = store.runStatus id := by
  rw [Store.runStatus, Store.execution, executions]
  rfl

section Keeps

variable {before middle after : Store}

theorem Keeps.refl (store : Store) : Keeps store store := ⟨rfl, rfl, rfl⟩

theorem Keeps.trans (first : Keeps before middle) (second : Keeps middle after) : Keeps before after :=
  ⟨second.executions.trans first.executions, second.stages.trans first.stages, second.results.trans first.results⟩

theorem Keeps.execution (keeps : Keeps before after) {id : String} (present : before.execution id ≠ none) :
    after.execution id ≠ none := by
  obtain ⟨execution, found⟩ := Option.ne_none_iff_exists'.mp present
  obtain ⟨member, rfl⟩ := Table.find_some found
  have listed : execution.id ∈ after.executions.map Execution.id := by
    rw [keeps.executions]
    exact List.mem_map_of_mem member
  obtain ⟨held, there, same⟩ := List.mem_map.mp listed
  intro absent
  exact Table.find_none.mp absent held there same

theorem Keeps.stage (keeps : Keeps before after) {row : StageRow} (member : row ∈ after.stages) :
    ∃ old ∈ before.stages, old.identity = row.identity := by
  have listed : row.identity ∈ before.stages.map StageRow.identity := by
    rw [← keeps.stages]
    exact List.mem_map_of_mem member
  exact List.mem_map.mp listed

theorem Keeps.wellFormed (keeps : Keeps before after) (wf : WellFormed before) : WellFormed after := by
  have ids (store : Store) : store.stages.map StageRow.id = (store.stages.map StageRow.identity).map Prod.fst := by
    rw [List.map_map]
    rfl
  constructor
  · rw [Table.Unique, keeps.executions]
    exact wf.executionsUnique
  · intro execution member
    have listed : execution.id ∈ before.executions.map Execution.id := by
      rw [← keeps.executions]
      exact List.mem_map_of_mem member
    obtain ⟨old, there, same⟩ := List.mem_map.mp listed
    rw [← same]
    exact wf.executionIds old there
  · rw [Table.Unique, ids, keeps.stages, ← ids]
    exact wf.stagesUnique
  · intro row member
    obtain ⟨old, there, same⟩ := keeps.stage member
    simp only [StageRow.identity, Prod.mk.injEq] at same
    obtain ⟨id, owner, stage, revision⟩ := same
    rw [← id, ← owner, ← stage, ← revision]
    exact wf.stageKeys old there
  · intro row member
    obtain ⟨old, there, same⟩ := keeps.stage member
    simp only [StageRow.identity, Prod.mk.injEq] at same
    rw [← same.2.1]
    exact keeps.execution (wf.stageOwners old there)
  · rw [keeps.results]
    exact wf.resultsUnique
  · rw [keeps.results]
    exact wf.resultsSound

end Keeps

section Untouched

variable {before middle after : Store}

theorem Untouched.refl (store : Store) : Untouched store store := ⟨rfl, rfl, rfl⟩

theorem Untouched.trans (first : Untouched before middle) (second : Untouched middle after) : Untouched before after :=
  ⟨second.executions.trans first.executions, second.stages.trans first.stages, second.results.trans first.results⟩

theorem Untouched.keeps (frame : Untouched before after) : Keeps before after :=
  ⟨by rw [frame.executions], by rw [frame.stages], frame.results⟩

theorem Untouched.wellFormed (frame : Untouched before after) (wf : WellFormed before) : WellFormed after :=
  frame.keeps.wellFormed wf

end Untouched

section Operations

variable {store after : Store}

theorem acquire_frame {resourceType resourceId ownerId : String} {ttl : Int} {now : Timestamp} {token : Nat}
    (done : acquire resourceType resourceId ownerId ttl now store = .ok token after) : Untouched store after := by
  rw [(acquire_ok done).2.2]
  exact ⟨rfl, rfl, rfl⟩

theorem release_frame {resourceType resourceId ownerId : String} {token : Nat} {released : Bool}
    (done : release resourceType resourceId ownerId token store = .ok released after) : Untouched store after := by
  rcases release_ok done with ⟨-, -, rfl⟩ | ⟨-, rfl⟩ <;> exact ⟨rfl, rfl, rfl⟩

theorem advanceStage_keeps {rowId : String} {target : StageStatus} {u : Unit}
    (done : advanceStage rowId target store = .ok u after) :
    Keeps store after ∧ after.executions = store.executions := by
  obtain ⟨row, path, -, -, rfl⟩ := advanceStage_ok done
  exact ⟨⟨rfl, Table.map_update fun _ _ => rfl, rfl⟩, rfl⟩

theorem updateStatus_keeps {runId : String} {target : RunStatus} {expectedRevision token : Nat}
    {moved : Execution} (done : updateStatus runId target expectedRevision token store = .ok moved after) :
    Keeps store after ∧ after.stages = store.stages ∧ after.runStatus runId = some target ∧
      ∀ id, id ≠ runId → after.runStatus id = store.runStatus id := by
  obtain ⟨execution, path, found, -, -, -, movedEq, written⟩ := updateStatus_ok done
  have executions : after.executions = Table.update Execution.id runId (fun _ => moved) store.executions := by
    rw [written]
  have same : moved.id = runId := by
    rw [movedEq]
    exact (Table.find_some found).2
  have status : moved.status = target := by rw [movedEq]
  refine ⟨⟨?_, by rw [written], by rw [written]⟩, by rw [written], ?_, ?_⟩
  · rw [executions]
    exact Table.map_update fun row here => same.trans here.symm
  · rw [Store.runStatus, Store.execution, executions, Table.find_update_self fun _ _ => same]
    rw [show Table.find Execution.id runId store.executions = some execution from found]
    simp [status]
  · intro id other
    rw [Store.runStatus, Store.execution, executions, Table.find_update_other (fun _ _ => same) other]
    rfl

end Operations

end DarkFactory
