import DarkFactory.Runner.Paths

namespace DarkFactory

structure Settles (row settled : StageRow) (status : StageStatus) (attemptNumber : Nat) : Prop where
  id_eq : settled.id = row.id
  executionId_eq : settled.executionId = row.executionId
  stage_eq : settled.stage = row.stage
  inputRevision_eq : settled.inputRevision = row.inputRevision
  createdAt_eq : settled.createdAt = row.createdAt
  status_eq : settled.status = status
  attemptCount_eq : settled.attemptCount = max row.attemptCount attemptNumber

def startedRow (input : AdvanceInput) (stage : Stage) : StageRow :=
  newStageRow input.runId stage (freshRevision input stage) input.createdAt

section Effect

variable {input : AdvanceInput} {before after : Store} {attempt : Attempted} {row : StageRow} {reached : Verdict}

theorem mem_placements {started : Option Stage} {rows : List StageRow} {item : StageRow} :
    item ∈ placed input.runId input.createdAt (placements input started) rows ↔
      item ∈ rows ∨ ∃ stage, started = some stage ∧
        Table.find StageRow.id (startedRow input stage).id rows = none ∧ item = startedRow input stage := by
  cases started with
  | none => simp [placements, placed]
  | some stage =>
    simp only [placements, Option.map_some, Option.toList_some, placed, List.foldl_cons, List.foldl_nil,
      Table.mem_insertNew, Option.some.injEq]
    constructor
    · rintro (present | ⟨absent, rfl⟩)
      · exact Or.inl present
      · exact Or.inr ⟨stage, rfl, absent, rfl⟩
    · rintro (present | ⟨other, rfl, absent, rfl⟩)
      · exact Or.inl present
      · exact Or.inr ⟨absent, rfl⟩

/-- The rows after a decision: the settled one in its place, the others as they were, and the new one. -/
theorem AdvanceEffect.rows (effect : AdvanceEffect input before after attempt row reached)
    (wf : WellFormed before) :
    ∃ settled, Settles row settled reached.stageStatus attempt.attemptNumber ∧
      ∀ item, item ∈ after.stages ↔
        (item ∈ before.stages ∧ item.id ≠ row.id) ∨ item = settled ∨
          ∃ stage, attempt.starts reached = some stage ∧
            (∀ old ∈ before.stages, old.id ≠ (startedRow input stage).id) ∧ item = startedRow input stage := by
  obtain ⟨path, walked, stages⟩ := effect.stages
  refine ⟨(countAttempt attempt.attemptNumber row).walk path, ⟨rfl, rfl, rfl, rfl, rfl, walked, rfl⟩, ?_⟩
  intro item
  have keys : (Table.update StageRow.id row.id
      (fun held => (countAttempt attempt.attemptNumber held).walk path) before.stages).map StageRow.id =
        before.stages.map StageRow.id := Table.map_update fun _ _ => rfl
  have absent (id : String) : Table.find StageRow.id id (Table.update StageRow.id row.id
      (fun held => (countAttempt attempt.attemptNumber held).walk path) before.stages) = none ↔
        ∀ old ∈ before.stages, old.id ≠ id := by
    rw [Table.find_none]
    constructor
    · intro none old member same
      have listed : old.id ∈ before.stages.map StageRow.id := List.mem_map_of_mem member
      rw [← keys] at listed
      obtain ⟨held, present, equal⟩ := List.mem_map.mp listed
      exact none held present (equal.trans same)
    · intro none held present same
      have listed : held.id ∈ (Table.update StageRow.id row.id
        (fun held => (countAttempt attempt.attemptNumber held).walk path) before.stages).map StageRow.id :=
        List.mem_map_of_mem present
      rw [keys] at listed
      obtain ⟨old, member, equal⟩ := List.mem_map.mp listed
      exact none old member (equal.trans same)
  rw [stages, mem_placements, Table.mem_update, or_assoc]
  simp only [absent]
  constructor
  · rintro (kept | ⟨old, member, same, rfl⟩ | started)
    · exact Or.inl kept
    · rw [wf.stagesUnique.eq member effect.member same]
      exact Or.inr (Or.inl rfl)
    · exact Or.inr (Or.inr started)
  · rintro (kept | rfl | started)
    · exact Or.inl kept
    · exact Or.inr (Or.inl ⟨row, effect.member, rfl, rfl⟩)
    · exact Or.inr (Or.inr started)

theorem AdvanceEffect.rows_other (effect : AdvanceEffect input before after attempt row reached)
    (wf : WellFormed before) {id : String} {item : StageRow} (owner : item.executionId = id) (apart : id ≠ input.runId) :
    item ∈ after.stages ↔ item ∈ before.stages := by
  obtain ⟨settled, settles, rows⟩ := effect.rows wf
  rw [rows item]
  constructor
  · rintro (⟨old, -⟩ | rfl | ⟨started, -, -, rfl⟩)
    · exact old
    · rw [settles.executionId_eq, effect.owner] at owner
      exact absurd owner.symm apart
    · exact absurd owner.symm apart
  · intro old
    refine Or.inl ⟨old, fun same => apart ?_⟩
    rw [← owner, wf.stagesUnique.eq old effect.member same, effect.owner]

theorem AdvanceEffect.execution_self (effect : AdvanceEffect input before after attempt row reached) :
    ∃ revision budget, after.execution input.runId =
      (before.execution input.runId).map (Execution.moved reached.runStatus revision budget) := by
  obtain ⟨revision, budget, executions⟩ := effect.executions
  refine ⟨revision, budget, ?_⟩
  rw [Store.execution, executions]
  exact Table.find_update_self fun _ here => here

theorem AdvanceEffect.execution_other (effect : AdvanceEffect input before after attempt row reached)
    {id : String} (other : id ≠ input.runId) : after.execution id = before.execution id := by
  obtain ⟨revision, budget, executions⟩ := effect.executions
  rw [Store.execution, executions]
  exact Table.find_update_other (fun _ here => here) other

theorem AdvanceEffect.execution_cases (effect : AdvanceEffect input before after attempt row reached) {id : String}
    {execution : Execution} (found : after.execution id = some execution) :
    (id = input.runId ∧ execution.status = reached.runStatus) ∨
      (id ≠ input.runId ∧ before.execution id = some execution) := by
  by_cases own : id = input.runId
  · subst own
    obtain ⟨revision, budget, moved⟩ := effect.execution_self
    rw [moved] at found
    obtain ⟨old, -, rfl⟩ := Option.map_eq_some_iff.mp found
    exact Or.inl ⟨rfl, rfl⟩
  · rw [effect.execution_other own] at found
    exact Or.inr ⟨own, found⟩

theorem AdvanceEffect.execution_kept (effect : AdvanceEffect input before after attempt row reached)
    {id : String} (present : before.execution id ≠ none) : after.execution id ≠ none := by
  by_cases own : id = input.runId
  · obtain ⟨revision, budget, moved⟩ := effect.execution_self
    rw [own] at present ⊢
    rw [moved]
    simpa using present
  · rw [effect.execution_other own]
    exact present

theorem AdvanceEffect.runId_free (effect : AdvanceEffect input before after attempt row reached)
    (wf : WellFormed before) : ColonFree input.runId := wf.runId_free effect.loaded

theorem AdvanceEffect.started_key (effect : AdvanceEffect input before after attempt row reached)
    (wf : WellFormed before) {old : StageRow} {target : Stage} (member : old ∈ before.stages)
    (same : old.id = (startedRow input target).id) :
    old.executionId = input.runId ∧ old.stage = target ∧ old.inputRevision = freshRevision input target := by
  rw [wf.stageKeys old member] at same
  obtain ⟨execution, found⟩ := Option.ne_none_iff_exists'.mp (wf.stageOwners old member)
  obtain ⟨listed, held⟩ := Table.find_some found
  have free : ColonFree old.executionId := by
    rw [← held]
    exact wf.executionIds execution listed
  exact operationKey_injective free (effect.runId_free wf) same

theorem AdvanceEffect.results (effect : AdvanceEffect input before after attempt row reached)
    (wf : WellFormed before) (item : StageResultRow) :
    item ∈ after.results ↔ (item ∈ before.results ∧ item.id ≠ (resultRow attempt.result).id) ∨
      item = resultRow attempt.result := by
  obtain ⟨outcome, noted, recording, kept, results⟩ := effect.recording
  rw [results]
  exact wf.mem_recorded (effect.runId_free wf) effect.answers recording kept

theorem AdvanceEffect.wellFormed (effect : AdvanceEffect input before after attempt row reached)
    (wf : WellFormed before) : WellFormed after := by
  obtain ⟨settled, settles, rows⟩ := effect.rows wf
  obtain ⟨revision, budget, executions⟩ := effect.executions
  obtain ⟨path, -, stages⟩ := effect.stages
  have present : before.execution input.runId ≠ none := by
    obtain ⟨execution, found, -⟩ := load_some effect.loaded
    simp [found]
  constructor
  · rw [executions]
    exact wf.executionsUnique.update fun _ => rfl
  · intro execution member
    rw [executions, Table.mem_update] at member
    rcases member with ⟨listed, -⟩ | ⟨old, listed, -, rfl⟩
    · exact wf.executionIds execution listed
    · exact wf.executionIds old listed
  · rw [stages]
    have updated : Table.Unique StageRow.id (Table.update StageRow.id row.id
        (fun held => (countAttempt attempt.attemptNumber held).walk path) before.stages) :=
      wf.stagesUnique.update fun _ => rfl
    cases attempt.starts reached with
    | none => exact updated
    | some stage => exact updated.insertNew
  · intro item member
    rcases (rows item).mp member with ⟨listed, -⟩ | rfl | ⟨stage, -, -, rfl⟩
    · exact wf.stageKeys item listed
    · rw [settles.id_eq, settles.executionId_eq, settles.stage_eq, settles.inputRevision_eq]
      exact wf.stageKeys row effect.member
    · rfl
  · intro item member
    rcases (rows item).mp member with ⟨listed, -⟩ | rfl | ⟨stage, -, -, rfl⟩
    · exact effect.execution_kept (wf.stageOwners item listed)
    · rw [settles.executionId_eq]
      exact effect.execution_kept (wf.stageOwners row effect.member)
    · exact effect.execution_kept present
  · obtain ⟨outcome, noted, -, -, results⟩ := effect.recording
    rw [results]
    exact recorded_unique wf.resultsUnique outcome
  · intro item member
    rcases (effect.results wf item).mp member with ⟨listed, -⟩ | rfl
    · exact wf.resultsSound item listed
    · exact effect.answers.sound (effect.runId_free wf)

end Effect

structure CreateEffect (input : CreateInput) (before after : Store) : Prop where
  fresh : before.execution input.runId = none
  execution_self : ∃ execution, after.execution input.runId = some execution ∧ execution.status = .pending ∧
    execution.route = input.route
  execution_other : ∀ id, id ≠ input.runId → after.execution id = before.execution id
  rows : ∃ first, first = newStageRow input.runId .specification
      (input.initialStageRevision.getD input.inputRevision) input.createdAt ∧
    ∀ item, item ∈ after.stages ↔ item ∈ before.stages ∨ item = first
  results : after.results = before.results
  wellFormed : WellFormed after

theorem CreateEffect.rows_other {input : CreateInput} {before after : Store} (effect : CreateEffect input before after)
    {id : String} {item : StageRow} (owner : item.executionId = id) (apart : id ≠ input.runId) :
    item ∈ after.stages ↔ item ∈ before.stages := by
  obtain ⟨first, made, rows⟩ := effect.rows
  rw [rows item]
  refine ⟨fun listed => listed.resolve_right ?_, Or.inl⟩
  rintro rfl
  rw [made] at owner
  exact apart owner.symm

theorem CreateEffect.execution_cases {input : CreateInput} {before after : Store} {id : String}
    {execution : Execution} (effect : CreateEffect input before after) (found : after.execution id = some execution) :
    execution.status = .pending ∨ before.execution id = some execution := by
  by_cases own : id = input.runId
  · obtain ⟨created, there, pending, -⟩ := effect.execution_self
    rw [own, there, Option.some.injEq] at found
    exact Or.inl (found ▸ pending)
  · rw [effect.execution_other id own] at found
    exact Or.inr found

theorem createRun_writes {input : CreateInput} {before after : Store} {run : ChangeRun}
    (done : createRun input before = .ok run after) : after = before ∨
      before.execution input.runId = none ∧ ∃ row, getOrCreateStage input.runId (routeProfile input.route).initialStage
        (input.initialStageRevision.getD input.inputRevision) input.createdAt { before with
          executions := Table.insertNew Execution.id
            { id := input.runId, changeId := input.changeId, route := input.route, provider := input.provider
              budget := some input.budget, implementationContract := input.implementationContract }
            before.executions } = .ok row after := by
  rw [createRun, Outcome.state_get_bind] at done
  cases existing : before.load input.runId with
  | some held =>
    simp only [existing] at done
    exact Or.inl (Outcome.state_pure_ok.mp done).2.symm
  | none =>
    simp only [existing] at done
    have fresh : before.execution input.runId = none := by simpa [Store.load] using existing
    rw [Outcome.state_modify_bind] at done
    obtain ⟨row, placedStore, creating, reloading⟩ := Outcome.state_bind_ok.mp done
    rw [Outcome.state_get_bind] at reloading
    cases loaded : placedStore.load input.runId with
    | none =>
      simp only [loaded] at reloading
      exact absurd reloading (by simp [Outcome.state_throw_ok])
    | some made =>
      simp only [loaded] at reloading
      obtain ⟨-, rfl⟩ := Outcome.state_pure_ok.mp reloading
      exact Or.inr ⟨fresh, row, creating⟩

theorem createRun_ok {input : CreateInput} {before after : Store} {run : ChangeRun} (wf : WellFormed before)
    (done : createRun input before = .ok run after) : after = before ∨ CreateEffect input before after := by
  rcases createRun_writes done with same | ⟨fresh, row, creating⟩
  · exact Or.inl same
  · right
    have written := (getOrCreateStage_ok creating).1
    rw [initialStage_specification] at written
    let execution : Execution :=
      { id := input.runId, changeId := input.changeId, route := input.route, provider := input.provider
        budget := some input.budget, implementationContract := input.implementationContract }
    let first := newStageRow input.runId .specification
      (input.initialStageRevision.getD input.inputRevision) input.createdAt
    have executions : after.executions = Table.insertNew Execution.id execution before.executions := by
      rw [written]
    have stages : after.stages = Table.insertNew StageRow.id first before.stages := by
      rw [written]
      rfl
    have results : after.results = before.results := by rw [written]
    have self : after.execution input.runId = some execution := by
      rw [Store.execution, executions, show input.runId = execution.id from rfl, Table.find_insertNew_self]
      rw [show Table.find Execution.id execution.id before.executions = none from fresh]
      rfl
    have others (id : String) (other : id ≠ input.runId) : after.execution id = before.execution id := by
      rw [Store.execution, executions]
      exact Table.find_insertNew_other other
    have free : ColonFree input.runId := generatedRunId_colonFree _ _
    have unclaimed : Table.find StageRow.id first.id before.stages = none := by
      rw [Table.find_none]
      intro old member same
      have owner := wf.stageOwners old member
      rw [wf.stageKeys old member] at same
      have oldFree : ColonFree old.executionId := by
        obtain ⟨held, found⟩ := Option.ne_none_iff_exists'.mp owner
        obtain ⟨listed, equal⟩ := Table.find_some found
        rw [← equal]
        exact wf.executionIds held listed
      obtain ⟨ids, -, -⟩ := operationKey_injective oldFree free same
      rw [ids] at owner
      exact owner fresh
    have rows (item : StageRow) : item ∈ after.stages ↔ item ∈ before.stages ∨ item = first := by
      rw [stages, Table.mem_insertNew]
      simp [unclaimed]
    refine ⟨fresh, ⟨execution, self, rfl, rfl⟩, others, ⟨first, rfl, rows⟩, results, ?_⟩
    constructor
    · rw [executions]
      exact wf.executionsUnique.insertNew
    · intro item member
      rw [executions, Table.mem_insertNew] at member
      rcases member with listed | ⟨-, rfl⟩
      · exact wf.executionIds item listed
      · exact free
    · rw [stages]
      exact wf.stagesUnique.insertNew
    · intro item member
      rcases (rows item).mp member with listed | rfl
      · exact wf.stageKeys item listed
      · rfl
    · intro item member
      rcases (rows item).mp member with listed | rfl
      · by_cases own : item.executionId = input.runId
        · rw [own, self]
          simp
        · rw [others _ own]
          exact wf.stageOwners item listed
      · rw [show first.executionId = input.runId from rfl, self]
        simp
    · rw [results]
      exact wf.resultsUnique
    · rw [results]
      exact wf.resultsSound

/-- Every executor answers for the attempt it was handed. -/
def Drive.faithful : Drive → Prop
  | .create _ => True
  | .advance input => Faithful input

theorem afterDrive_cases {before : Store} (wf : WellFormed before) (drive : Drive) (faithful : drive.faithful) :
    Untouched before (afterDrive before drive) ∨
      (∃ input, drive = .create input ∧ CreateEffect input before (afterDrive before drive)) ∨
      ∃ input report attempt row reached, drive = .advance input ∧
        advanceRun input before = .ok report (afterDrive before drive) ∧
        AdvanceEffect input before (afterDrive before drive) attempt row reached ∧
        report.decision = some (reached.decision attempt.stage) := by
  cases drive with
  | create input =>
    rcases afterDrive_create input before with same | ⟨run, creating⟩
    · rw [same]
      exact Or.inl ⟨rfl, rfl, rfl⟩
    · rcases createRun_ok wf creating with same | effect
      · rw [same]
        exact Or.inl ⟨rfl, rfl, rfl⟩
      · exact Or.inr (Or.inl ⟨input, rfl, effect⟩)
  | advance input =>
    rcases afterDrive_advance input before with same | ⟨report, advancing⟩
    · rw [same]
      exact Or.inl ⟨rfl, rfl, rfl⟩
    · rcases advanceRun_ok wf faithful advancing with ⟨-, frame⟩ | ⟨attempt, row, reached, effect, decided, -⟩
      · exact Or.inl frame
      · exact Or.inr (Or.inr ⟨input, report, attempt, row, reached, rfl, advancing, effect, decided⟩)

theorem afterDrive_wellFormed {before : Store} (wf : WellFormed before) (drive : Drive)
    (faithful : drive.faithful) : WellFormed (afterDrive before drive) := by
  rcases afterDrive_cases wf drive faithful with frame | ⟨input, -, effect⟩ |
    ⟨input, report, attempt, row, reached, -, -, effect, -⟩
  · exact frame.wellFormed wf
  · exact effect.wellFormed
  · exact effect.wellFormed wf

theorem driven_wellFormed {drives : List Drive} (faithful : ∀ drive ∈ drives, drive.faithful) :
    WellFormed (driven drives) := by
  have along : Trace.Along afterDrive (fun _ drive => drive.faithful) {} drives :=
    Trace.along_of_forall fun drive member _ => faithful drive member
  exact Trace.invariant (fun _ drive held met => afterDrive_wellFormed held drive met) WellFormed.empty along

end DarkFactory
