import DarkFactory.Reconcile.Converge
import DarkFactory.Lib.Trace

namespace DarkFactory

def Store.activeRuns (store : Store) (changeId : String) : List Execution :=
  store.executions.filter fun execution => activeRunStatus execution.status && execution.changeId = changeId

def activeSiblings (scanned : List Execution) (execution : Execution) : List String :=
  ((activeOfChange scanned execution.changeId).filter (· ≠ execution.id)).insertionSort (· ≤ ·)

/-- The active run that the rule spares, whichever run of the change it is asked about. -/
structure Survivor (store : Store) (changeId : String) (execution : Execution) : Prop where
  active : execution ∈ store.activeRuns changeId
  canonical : ∀ other ∈ store.activeRuns changeId,
    canonicalRun other.id (activeSiblings store.scanned other) = execution.id

/-- A pass that gets the leases it asks for, and finds nothing wrong with the change but its duplicates. -/
structure DuplicatesOnly (changeId : String) (store : Store) (input : PassInput) : Prop where
  globalFree : store.leasable globalLeaseResourceType globalLeaseResourceId input.ownerId input.globalLeasedAt
  free : ∀ execution ∈ store.activeRuns changeId,
    store.leasable "execution" execution.id input.ownerId (input.leasedAt execution.id)
  single : ∀ execution ∈ store.scanned, execution.changeId = changeId →
    ∀ action, input.plan store.scanned execution store = some action → action.anomaly = .duplicateRuns

def afterPass (store : Store) (input : PassInput) : Store := commit (runPass input) store

section Plan

variable {input : PassInput} {facts : RunFacts} {now : Timestamp} {policy : MergePolicy} {action : ReconcileAction}

theorem detectRepeatedError_anomaly (found : detectRepeatedError facts = some action) :
    action.anomaly = .repeatedError := by
  unfold detectRepeatedError at found
  split at found
  · cases found
  · cases found
    rfl

theorem detectExpiredLease_anomaly (found : detectExpiredLease facts now = some action) :
    action.anomaly = .expiredLease := by
  unfold detectExpiredLease at found
  split at found
  · cases found
  · split at found
    · cases found
    · cases found
      rfl

theorem detectMergedChangeRequest_anomaly (found : detectMergedChangeRequest facts = some action) :
    action.anomaly = .mergedCrWithoutRun := by
  unfold detectMergedChangeRequest at found
  split at found
  · cases found
  · split at found
    · cases found
    · split at found
      · cases found
      · cases found
        rfl

theorem detectApprovedPassed_anomaly (found : detectApprovedPassed facts policy = some action) :
    action.anomaly = .approvedPassedWithoutMerge ∧ action.kind ≠ .supersede := by
  unfold detectApprovedPassed at found
  split at found
  · split at found
    · cases found
    · dsimp only at found
      split at found <;> cases found <;> simp
  · cases found

theorem detectBranchBehind_anomaly (found : detectBranchBehind facts = some action) :
    action.anomaly = .branchBehind := by
  unfold detectBranchBehind at found
  split at found
  · cases found
  · split at found
    · cases found
    · cases found
      rfl

theorem planAction_duplicates (planned : planAction facts now policy = some action)
    (ofRule : action.anomaly = .duplicateRuns ∨ action.kind = .supersede) :
    detectDuplicateRuns facts = some action := by
  rcases planAction_found planned with found | found | found | found | found | found
  · simp [detectRepeatedError_anomaly found, detectRepeatedError_kind found] at ofRule
  · simp [detectExpiredLease_anomaly found, detectExpiredLease_kind found] at ofRule
  · exact found
  · simp [detectMergedChangeRequest_anomaly found, detectMergedChangeRequest_kind found] at ofRule
  · simp [detectApprovedPassed_anomaly found] at ofRule
  · simp [detectBranchBehind_anomaly found, detectBranchBehind_kind found] at ofRule

theorem planAction_some_of_duplicate (live : skippedRunStatus facts.desiredStatus = false)
    (duplicate : detectDuplicateRuns facts = some action) : ∃ planned, planAction facts now policy = some planned := by
  rw [planAction_eq live, duplicate]
  cases detectRepeatedError facts with
  | some other => exact ⟨other, rfl⟩
  | none =>
    cases detectExpiredLease facts now with
    | some other => exact ⟨other, rfl⟩
    | none => exact ⟨action, rfl⟩

theorem canonicalRun_le_sibling {runId id : String} {siblings : List String} (member : id ∈ siblings) :
    canonicalRun runId siblings ≤ id := by
  unfold canonicalRun
  induction siblings generalizing runId with
  | nil => cases member
  | cons head rest ih =>
    rw [List.foldl_cons]
    rcases List.mem_cons.mp member with rfl | inside
    · have bound : canonicalRun (if id < runId then id else runId) rest ≤ if id < runId then id else runId :=
        canonicalRun_le _ _
      refine bound.trans ?_
      split
      · exact le_refl id
      · rename_i larger
        exact not_lt.mp larger
    · exact ih inside

theorem canonicalRun_mem {runId : String} {siblings : List String} :
    canonicalRun runId siblings ∈ runId :: siblings := by
  unfold canonicalRun
  induction siblings generalizing runId with
  | nil => exact List.mem_singleton_self runId
  | cons head rest ih =>
    rw [List.foldl_cons]
    have member := @ih (if head < runId then head else runId)
    rcases List.mem_cons.mp member with start | inside
    · rw [start]
      split <;> simp
    · exact List.mem_cons_of_mem runId (List.mem_cons_of_mem head inside)

end Plan

section Pass

variable {input : PassInput} {store : Store} {execution survivor : Execution} {changeId : String}

theorem mem_activeRuns : execution ∈ store.activeRuns changeId ↔
    execution ∈ store.executions ∧ activeRunStatus execution.status = true ∧ execution.changeId = changeId := by
  simp [Store.activeRuns]

theorem activeRuns_scanned (active : execution ∈ store.activeRuns changeId) : execution ∈ store.scanned := by
  obtain ⟨present, active, -⟩ := mem_activeRuns.mp active
  exact mem_scanned.mpr ⟨present, by simp [scannedRunStatus, active]⟩

theorem mem_activeSiblings {id : String} : id ∈ activeSiblings store.scanned execution ↔
    id ≠ execution.id ∧ ∃ sibling ∈ store.activeRuns execution.changeId, sibling.id = id := by
  simp only [activeSiblings, activeOfChange, List.mem_insertionSort, List.mem_filter, List.mem_map, mem_activeRuns,
    decide_eq_true_eq, Bool.and_eq_true, mem_scanned]
  constructor
  · rintro ⟨⟨sibling, ⟨⟨present, -⟩, active, same⟩, rfl⟩, other⟩
    exact ⟨other, sibling, ⟨present, active, same⟩, rfl⟩
  · rintro ⟨other, sibling, ⟨present, active, same⟩, rfl⟩
    exact ⟨⟨sibling, ⟨⟨present, by simp [scannedRunStatus, active]⟩, active, same⟩, rfl⟩, other⟩

theorem pass_turn (unique : Table.Unique Execution.id store.executions)
    (free : store.leasable globalLeaseResourceType globalLeaseResourceId input.ownerId input.globalLeasedAt)
    (member : execution ∈ store.scanned) :
    ∃ reached outcome left,
      applyPlanned input execution (input.plan store.scanned execution store) reached = .ok outcome left ∧
      reached.execution execution.id = some execution ∧
      reached.lease "execution" execution.id = store.lease "execution" execution.id ∧
      (afterPass store input).execution execution.id = left.execution execution.id ∧
      (afterPass store input).lease "execution" execution.id = left.lease "execution" execution.id := by
  obtain ⟨leased, entries, settled, report, same, scan, -, done, -⟩ := runPass_leasable unique free
  have uniqueLeased : Table.Unique Execution.id leased.executions := same.executions ▸ unique
  obtain ⟨reached, entry, left, turn, -, found, lease, plan, kept, keptLease⟩ :=
    reconcileAll_turn (scanned_listed uniqueLeased) (same.scanned ▸ member) scan
  rw [reconcileOne, Outcome.state_get_bind] at turn
  obtain ⟨outcome, applied, applying, finish⟩ := Outcome.state_bind_ok.mp turn
  obtain ⟨-, rfl⟩ := Outcome.state_pure_ok.mp finish
  rw [← PassInput.plan, plan, same.plan, same.scanned] at applying
  refine ⟨reached, outcome, applied, applying, found, lease.trans (same.leases _), ?_, ?_⟩
  · rw [afterPass, commit, done]
    exact kept
  · rw [afterPass, commit, done, ← keptLease]
    exact dropLease_other (by simp [globalLeaseResourceType])

/-- A pass leaves alone what it does not scan, and in any case the stage rows, the attempts and the ids of the runs. -/
theorem pass_frame (unique : Table.Unique Execution.id store.executions) :
    (afterPass store input).executions.map Execution.id = store.executions.map Execution.id ∧
      (afterPass store input).stages = store.stages ∧ (afterPass store input).attempts = store.attempts ∧
      ∀ id, id ∉ store.scanned.map Execution.id →
        (afterPass store input).execution id = store.execution id ∧
        (afterPass store input).lease "execution" id = store.lease "execution" id := by
  by_cases free : store.leasable globalLeaseResourceType globalLeaseResourceId input.ownerId input.globalLeasedAt
  · obtain ⟨leased, entries, settled, report, same, -, only, done, -⟩ := runPass_leasable unique free
    rw [afterPass, commit, done]
    refine ⟨only.ids.trans (by rw [same.executions]), only.stages.trans same.stages,
      only.attempts.trans same.attempts, fun id unscanned => ?_⟩
    rw [← same.scanned] at unscanned
    have lease := only.leases "execution" id fun _ => unscanned
    refine ⟨(only.executions id unscanned).trans (by rw [Store.execution, same.executions]; rfl), ?_⟩
    rw [dropLease_other (by simp [globalLeaseResourceType]), lease, same.leases]
  · obtain ⟨report, done, -⟩ := @runPass_unleasable input store free
    rw [afterPass, commit, done]
    exact ⟨rfl, rfl, rfl, fun id _ => ⟨rfl, rfl⟩⟩

theorem pass_unique (unique : Table.Unique Execution.id store.executions) :
    Table.Unique Execution.id (afterPass store input).executions := by
  rw [Table.Unique, (pass_frame unique).1]
  exact unique

theorem unscanned_kept (unique : Table.Unique Execution.id store.executions) (present : execution ∈ store.executions)
    (unscanned : execution ∉ store.scanned) :
    (afterPass store input).execution execution.id = store.execution execution.id ∧
      (afterPass store input).lease "execution" execution.id = store.lease "execution" execution.id := by
  refine (pass_frame unique).2.2.2 execution.id fun listed => ?_
  obtain ⟨row, member, same⟩ := List.mem_map.mp listed
  have found := unique.find (mem_scanned.mp member).1
  rw [same, unique.find present, Option.some.injEq] at found
  exact unscanned (found ▸ member)

/-- A pass leaves a run alone, or moves it where its plan aims and the table allows. -/
theorem pass_row (unique : Table.Unique Execution.id store.executions) (present : execution ∈ store.executions) :
    (afterPass store input).execution execution.id = some execution ∨
      ∃ action target, input.plan store.scanned execution store = some action ∧
        actionTarget action.kind = some target ∧ (runStatusTransitions execution.status).contains target = true ∧
        (afterPass store input).execution execution.id =
          some { execution with status := target, stateRevision := execution.stateRevision + 1 } := by
  by_cases free : store.leasable globalLeaseResourceType globalLeaseResourceId input.ownerId input.globalLeasedAt
  swap
  · obtain ⟨report, done, -⟩ := @runPass_unleasable input store free
    left
    rw [afterPass, commit, done]
    exact unique.find present
  by_cases scanned : execution ∈ store.scanned
  swap
  · left
    rw [(unscanned_kept unique present scanned).1]
    exact unique.find present
  obtain ⟨reached, outcome, left, applying, found, -, kept, -⟩ := pass_turn unique free scanned
  rw [kept]
  by_cases idle : Idle execution (input.plan store.scanned execution store)
  · obtain ⟨note, same⟩ := @applyPlanned_idle input execution _ idle reached
    rw [applying, EStateM.Result.ok.injEq] at same
    rw [same.2]
    exact Or.inl found
  obtain ⟨action, planned, acts⟩ := not_idle idle
  rw [planned, applyPlanned] at applying
  by_cases leasable : reached.leasable "execution" execution.id input.ownerId (input.leasedAt execution.id)
  swap
  · obtain ⟨note, same⟩ := @applyAction_unleasable input execution action reached leasable
    rw [applying, EStateM.Result.ok.injEq] at same
    rw [same.2]
    exact Or.inl found
  rcases acts with takeover | ⟨target, mutates, aimed, allowed⟩
  · obtain ⟨note, after, same, -, row, -⟩ := takeover_applied takeover leasable
    rw [applying, EStateM.Result.ok.injEq] at same
    rw [same.2, row]
    exact Or.inl found
  · obtain ⟨note, after, same, -, row, -⟩ := target_applied found mutates aimed allowed leasable
    rw [applying, EStateM.Result.ok.injEq] at same
    rw [same.2]
    exact Or.inr ⟨action, target, planned, aimed, allowed, row⟩

/-- A run is closed as superseded only where the rule asked about it spares another. -/
theorem pass_supersedes (unique : Table.Unique Execution.id store.executions) (present : execution ∈ store.executions)
    (active : activeRunStatus execution.status = true)
    (closed : (afterPass store input).runStatus execution.id = some .superseded) :
    canonicalRun execution.id (activeSiblings store.scanned execution) ≠ execution.id := by
  rw [Store.runStatus] at closed
  rcases @pass_row input store execution unique present with same | ⟨action, target, planned, aimed, -, row⟩
  · rw [same, Option.map_some, Option.some.injEq] at closed
    rw [closed] at active
    cases active
  · rw [row, Option.map_some, Option.some.injEq] at closed
    have kind : action.kind = .supersede := by
      revert aimed
      rw [show target = .superseded from closed]
      cases action.kind <;> simp [actionTarget]
    have duplicate := planAction_duplicates planned (Or.inr kind)
    intro canonical
    rw [canonicalRun_eq_iff] at canonical
    have single : detectDuplicateRuns (assembleFacts input store.scanned execution store) = none :=
      (detectDuplicateRuns_none active).mpr canonical
    rw [single] at duplicate
    cases duplicate

theorem finished_kept (unique : Table.Unique Execution.id store.executions) (present : execution ∈ store.executions)
    (finished : activeRunStatus execution.status = false) :
    (afterPass store input).execution execution.id = some execution := by
  rcases @pass_row input store execution unique present with same | ⟨action, target, -, -, allowed, -⟩
  · exact same
  · revert allowed finished
    cases execution.status <;> simp [activeRunStatus, runStatusTransitions]

/-- The run with the least id is spared by the rule, whichever run of the change it is asked about. -/
theorem survivor_of_least (active : survivor ∈ store.activeRuns changeId)
    (least : ∀ other ∈ store.activeRuns changeId, survivor.id ≤ other.id) : Survivor store changeId survivor := by
  refine ⟨active, fun other member => ?_⟩
  obtain ⟨listed, ofChange⟩ : other ∈ store.activeRuns other.changeId ∧ other.changeId = changeId :=
    ⟨(mem_activeRuns.mp member).2.2 ▸ member, (mem_activeRuns.mp member).2.2⟩
  have candidates : canonicalRun other.id (activeSiblings store.scanned other) ∈
      other.id :: activeSiblings store.scanned other := canonicalRun_mem
  have bound : survivor.id ≤ canonicalRun other.id (activeSiblings store.scanned other) := by
    rcases List.mem_cons.mp candidates with own | sibling
    · rw [own]
      exact least other member
    · obtain ⟨-, row, activeRow, same⟩ := mem_activeSiblings.mp sibling
      rw [← same]
      exact least row (ofChange ▸ activeRow)
  refine le_antisymm ?_ bound
  by_cases same : survivor.id = other.id
  · rw [same]
    exact canonicalRun_le _ _
  · exact canonicalRun_le_sibling (mem_activeSiblings.mpr ⟨same, survivor, ofChange.symm ▸ active, rfl⟩)

/-- A pass that finds duplicates alone leaves a run and its lease as they were, or closes it for the canonical run. -/
theorem duplicates_row (unique : Table.Unique Execution.id store.executions)
    (only : DuplicatesOnly changeId store input) (present : execution ∈ store.executions)
    (ofChange : execution.changeId = changeId) :
    if activeRunStatus execution.status = true ∧
        canonicalRun execution.id (activeSiblings store.scanned execution) ≠ execution.id then
      (afterPass store input).runStatus execution.id = some .superseded
    else
      (afterPass store input).execution execution.id = some execution ∧
        (afterPass store input).lease "execution" execution.id = store.lease "execution" execution.id := by
  have ofRule (action : ReconcileAction) (scanned : execution ∈ store.scanned)
      (planned : input.plan store.scanned execution store = some action) :
      detectDuplicateRuns (assembleFacts input store.scanned execution store) = some action :=
    planAction_duplicates planned (Or.inl (only.single execution scanned ofChange action planned))
  have rule (active : activeRunStatus execution.status = true) :
      detectDuplicateRuns (assembleFacts input store.scanned execution store) = none ↔
        canonicalRun execution.id (activeSiblings store.scanned execution) = execution.id := by
    rw [canonicalRun_eq_iff]
    exact detectDuplicateRuns_none active
  split
  · rename_i duplicate
    obtain ⟨active, apart⟩ := duplicate
    have listed : execution ∈ store.activeRuns changeId := mem_activeRuns.mpr ⟨present, active, ofChange⟩
    have scanned := activeRuns_scanned listed
    obtain ⟨found, detected⟩ : ∃ action,
        detectDuplicateRuns (assembleFacts input store.scanned execution store) = some action :=
      Option.ne_none_iff_exists'.mp fun single => apart ((rule active).mp single)
    obtain ⟨action, planned⟩ : ∃ action, input.plan store.scanned execution store = some action :=
      planAction_some_of_duplicate (scanned_live (mem_scanned.mp scanned).2) detected
    have kind := detectDuplicateRuns_kind (ofRule action scanned planned)
    obtain ⟨reached, outcome, after, applying, row, lease, kept, -⟩ := pass_turn unique only.globalFree scanned
    have free : reached.leasable "execution" execution.id input.ownerId (input.leasedAt execution.id) := by
      intro held holds
      exact only.free execution listed held (lease ▸ holds)
    have mutates : action.kind ≠ .leaseTakeover := by simp [kind]
    have aimed : actionTarget action.kind = some .superseded := by
      rw [kind]
      rfl
    obtain ⟨note, moved, done, -, closed, -⟩ := target_applied row mutates aimed (superseded_allowed active) free
    rw [planned, applyPlanned, done, EStateM.Result.ok.injEq] at applying
    rw [Store.runStatus, kept, ← applying.2, closed]
    rfl
  · rename_i spared
    by_cases scanned : execution ∈ store.scanned
    swap
    · obtain ⟨row, lease⟩ := @unscanned_kept input store execution unique present scanned
      exact ⟨row.trans (unique.find present), lease⟩
    have unplanned : input.plan store.scanned execution store = none := by
      cases planned : input.plan store.scanned execution store with
      | none => rfl
      | some action =>
        have detected := ofRule action scanned planned
        have active : activeRunStatus execution.status = true := detectDuplicateRuns_active detected
        refine absurd ⟨active, fun canonical => ?_⟩ spared
        rw [(rule active).mpr canonical] at detected
        cases detected
    obtain ⟨reached, outcome, after, applying, row, lease, kept, keptLease⟩ := pass_turn unique only.globalFree scanned
    rw [unplanned] at applying
    obtain ⟨-, rfl⟩ := Outcome.state_pure_ok.mp applying
    exact ⟨kept.trans row, keptLease.trans lease⟩

theorem duplicates_active (unique : Table.Unique Execution.id store.executions)
    (only : DuplicatesOnly changeId store input) (member : execution ∈ (afterPass store input).activeRuns changeId) :
    execution ∈ store.activeRuns changeId ∧
      canonicalRun execution.id (activeSiblings store.scanned execution) = execution.id := by
  obtain ⟨there, active, ofChange⟩ := mem_activeRuns.mp member
  have found : (afterPass store input).execution execution.id = some execution := (pass_unique unique).find there
  obtain ⟨before, listed, same⟩ : ∃ before ∈ store.executions, before.id = execution.id := by
    have known : execution.id ∈ (afterPass store input).executions.map Execution.id := List.mem_map_of_mem there
    rw [(pass_frame unique).1] at known
    exact List.mem_map.mp known
  rw [← same] at found
  have own : before.changeId = changeId := by
    rcases @pass_row input store before unique listed with row | ⟨action, target, -, -, -, row⟩
    · rw [found, Option.some.injEq] at row
      rw [← row]
      exact ofChange
    · rw [found, Option.some.injEq] at row
      rw [row] at ofChange
      exact ofChange
  have row := duplicates_row unique only listed own
  split at row
  · rw [Store.runStatus, found, Option.map_some, Option.some.injEq] at row
    rw [row] at active
    cases active
  · rename_i spared
    obtain ⟨row, -⟩ := row
    rw [found, Option.some.injEq] at row
    subst row
    have canonical := not_not.mp fun apart => spared ⟨active, apart⟩
    exact ⟨mem_activeRuns.mpr ⟨listed, active, own⟩, canonical⟩

theorem duplicates_pass (unique : Table.Unique Execution.id store.executions)
    (only : DuplicatesOnly changeId store input) (spared : Survivor store changeId survivor) :
    (afterPass store input).activeRuns changeId = [survivor] := by
  have uniqueAfter : Table.Unique Execution.id (afterPass store input).executions := pass_unique unique
  have nodup : ((afterPass store input).activeRuns changeId).Nodup := (uniqueAfter.of_map Execution.id).filter _
  refine List.perm_singleton.mp ((List.perm_ext_iff_of_nodup nodup (List.nodup_singleton survivor)).mpr ?_)
  obtain ⟨present, active, ofChange⟩ := mem_activeRuns.mp spared.active
  intro execution
  rw [List.mem_singleton]
  constructor
  · intro member
    obtain ⟨before, canonical⟩ := duplicates_active unique only member
    have same : execution.id = survivor.id := canonical.symm.trans (spared.canonical execution before)
    have found := unique.find (mem_activeRuns.mp before).1
    rw [same, unique.find present, Option.some.injEq] at found
    exact found.symm
  · rintro rfl
    have row := duplicates_row unique only present ofChange
    rw [if_neg (fun duplicate => duplicate.2 (spared.canonical execution spared.active))] at row
    exact mem_activeRuns.mpr ⟨(Table.find_some row.1).1, active, ofChange⟩

theorem survivor_alone (alone : store.activeRuns changeId = [survivor]) : Survivor store changeId survivor := by
  refine survivor_of_least (by simp [alone]) ?_
  intro other member
  rw [alone, List.mem_singleton] at member
  rw [member]

theorem survivor_exists (occupied : store.activeRuns changeId ≠ []) : ∃ survivor, Survivor store changeId survivor := by
  obtain ⟨head, rest, runs⟩ := List.exists_cons_of_ne_nil occupied
  have listed : canonicalRun head.id (rest.map Execution.id) ∈ (head :: rest).map Execution.id := canonicalRun_mem
  obtain ⟨least, member, same⟩ := List.mem_map.mp listed
  refine ⟨least, survivor_of_least (runs ▸ member) ?_⟩
  intro other inside
  rw [same]
  rw [runs] at inside
  rcases List.mem_cons.mp inside with rfl | inside
  · exact canonicalRun_le _ _
  · exact canonicalRun_le_sibling (List.mem_map_of_mem inside)

/-- The rows of finished runs are the same after any passes, and so are all stage rows and attempts. -/
theorem finished_passes (unique : Table.Unique Execution.id store.executions) (present : execution ∈ store.executions)
    (finished : activeRunStatus execution.status = false) (passes : List PassInput) :
    (passes.foldl afterPass store).execution execution.id = some execution ∧
      (passes.foldl afterPass store).stages = store.stages ∧
      (passes.foldl afterPass store).attempts = store.attempts := by
  induction passes generalizing store with
  | nil => exact ⟨unique.find present, rfl, rfl⟩
  | cons input rest ih =>
    have kept := @finished_kept input store execution unique present finished
    obtain ⟨row, stages, attempts⟩ := ih (pass_unique unique) (Table.find_some kept).1
    obtain ⟨-, sameStages, sameAttempts, -⟩ := @pass_frame input store unique
    exact ⟨row, stages.trans sameStages, attempts.trans sameAttempts⟩

theorem finished_lease (unique : Table.Unique Execution.id store.executions) (present : execution ∈ store.executions)
    (ofChange : execution.changeId = changeId) (finished : activeRunStatus execution.status = false)
    {passes : List PassInput} (along : Trace.Along afterPass (DuplicatesOnly changeId) store passes) :
    (passes.foldl afterPass store).lease "execution" execution.id = store.lease "execution" execution.id := by
  induction passes generalizing store with
  | nil => rfl
  | cons input rest ih =>
    have row := duplicates_row unique along.1 present ofChange
    rw [if_neg (fun duplicate => by simp [finished] at duplicate)] at row
    exact (ih (pass_unique unique) (Table.find_some row.1).1 along.2).trans row.2

/-- After at least one pass the active runs of the change are its survivor, or none where there were none. -/
theorem duplicates_passes (unique : Table.Unique Execution.id store.executions) {passes : List PassInput}
    (some_ : passes ≠ []) (along : Trace.Along afterPass (DuplicatesOnly changeId) store passes) :
    (store.activeRuns changeId = [] → (passes.foldl afterPass store).activeRuns changeId = []) ∧
      ∀ survivor, Survivor store changeId survivor → (passes.foldl afterPass store).activeRuns changeId = [survivor] := by
  obtain ⟨input, rest, rfl⟩ := List.exists_cons_of_ne_nil some_
  have uniqueAfter : Table.Unique Execution.id (afterPass store input).executions := pass_unique unique
  constructor
  · intro none_
    have step (store : Store) (input : PassInput)
        (kept : Table.Unique Execution.id store.executions ∧ store.activeRuns changeId = [])
        (only : DuplicatesOnly changeId store input) :
        Table.Unique Execution.id (afterPass store input).executions ∧
          (afterPass store input).activeRuns changeId = [] := by
      refine ⟨pass_unique kept.1, List.eq_nil_iff_forall_not_mem.mpr fun execution member => ?_⟩
      have before := (duplicates_active kept.1 only member).1
      rw [kept.2] at before
      cases before
    exact (Trace.invariant step ⟨unique, none_⟩ along).2
  · intro survivor spared
    have step (store : Store) (input : PassInput)
        (kept : Table.Unique Execution.id store.executions ∧ store.activeRuns changeId = [survivor])
        (only : DuplicatesOnly changeId store input) :
        Table.Unique Execution.id (afterPass store input).executions ∧
          (afterPass store input).activeRuns changeId = [survivor] :=
      ⟨pass_unique kept.1, duplicates_pass kept.1 only (survivor_alone kept.2)⟩
    exact (Trace.invariant step ⟨uniqueAfter, duplicates_pass unique along.1 spared⟩ along.2).2

end Pass

/-- The rule spares one active run of each change, and no pass closes it; passes that find nothing but duplicates
    leave it as the only active run; and no pass touches the row of a finished run. -/
theorem duplicates_leave_survivor {store : Store} (unique : Table.Unique Execution.id store.executions)
    (changeId : String) :
    (store.activeRuns changeId ≠ [] → ∃ survivor, Survivor store changeId survivor) ∧
      (∀ survivor, Survivor store changeId survivor →
        ∀ input, (afterPass store input).runStatus survivor.id ≠ some .superseded) ∧
      (∀ execution ∈ store.executions, activeRunStatus execution.status = false → ∀ passes : List PassInput,
        (passes.foldl afterPass store).execution execution.id = some execution ∧
          (passes.foldl afterPass store).stages = store.stages ∧
          (passes.foldl afterPass store).attempts = store.attempts) ∧
      ∀ passes : List PassInput, passes ≠ [] → Trace.Along afterPass (DuplicatesOnly changeId) store passes →
        ((passes.foldl afterPass store).activeRuns changeId).length ≤ 1 ∧
          (∀ survivor, Survivor store changeId survivor →
            (passes.foldl afterPass store).activeRuns changeId = [survivor]) ∧
          ∀ execution ∈ store.executions, execution.changeId = changeId → activeRunStatus execution.status = false →
            (passes.foldl afterPass store).lease "execution" execution.id =
              store.lease "execution" execution.id := by
  refine ⟨survivor_exists, ?_, ?_, ?_⟩
  · intro survivor spared input closed
    obtain ⟨present, active, -⟩ := mem_activeRuns.mp spared.active
    exact pass_supersedes unique present active closed (spared.canonical survivor spared.active)
  · intro execution present finished passes
    exact finished_passes unique present finished passes
  · intro passes some_ along
    obtain ⟨none_, one⟩ := duplicates_passes unique some_ along
    refine ⟨?_, one, fun execution present ofChange finished => finished_lease unique present ofChange finished along⟩
    by_cases occupied : store.activeRuns changeId = []
    · rw [none_ occupied]
      exact Nat.zero_le 1
    · obtain ⟨survivor, spared⟩ := survivor_exists occupied
      rw [one survivor spared]
      exact Nat.le_refl 1

/-- Of the two runs of the change a pass leaves the first. -/
theorem duplicated_leaves_first :
    (afterPass duplicated barePass).activeRuns "change-1" = [runningRow "run-1"] := by
  have unique : (duplicated.executions.map Execution.id).Nodup := by decide
  have only : DuplicatesOnly "change-1" duplicated barePass := by
    refine ⟨fun lease held => ?_, fun execution member lease held => ?_, ?_⟩
    · cases held
    · cases held
    · have checked : ∀ execution ∈ duplicated.scanned,
          (barePass.plan duplicated.scanned execution duplicated).all (·.anomaly = .duplicateRuns) = true := by
        decide +kernel
      intro execution member _ action planned
      have rule := checked execution member
      rw [planned, Option.all_some, decide_eq_true_eq] at rule
      exact rule
  have spared : Survivor duplicated "change-1" (runningRow "run-1") :=
    survivor_of_least (by decide) (by decide +kernel)
  have passes := (duplicates_leave_survivor unique "change-1").2.2.2 [barePass] (by simp) ⟨only, trivial⟩
  exact passes.2.1 _ spared

end DarkFactory
