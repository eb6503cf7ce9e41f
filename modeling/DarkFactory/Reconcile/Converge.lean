import DarkFactory.Reconcile.Apply

namespace DarkFactory

structure PassTurn where
  ownerId : String
  now : Timestamp
  globalLeasedAt : Timestamp
  leasedAt : String → Timestamp

def PassInput.taking (input : PassInput) (turn : PassTurn) : PassInput :=
  { input with
    ownerId := turn.ownerId
    now := turn.now
    globalLeasedAt := turn.globalLeasedAt
    leasedAt := turn.leasedAt }

structure Chronological (turns : Nat → PassTurn) : Prop where
  started : ∀ k, (turns k).now ≤ (turns k).globalLeasedAt
  leased : ∀ k runId, (turns k).globalLeasedAt ≤ (turns k).leasedAt runId
  next : ∀ k runId, (turns k).leasedAt runId ≤ (turns (k + 1)).now

def afterPasses (input : PassInput) (turns : Nat → PassTurn) (store : Store) : Nat → Store
  | 0 => store
  | k + 1 => commit (runPass (input.taking (turns k))) (afterPasses input turns store k)

def Quiet (input : PassInput) (store : Store) : Prop :=
  ∃ report, runPass input store = .ok report store ∧ ∀ entry ∈ report.entries, entry.applied = false

def Converges (input : PassInput) (store : Store) : Prop :=
  ∀ turns, Chronological turns → ∃ n, ∀ k, n ≤ k → Quiet (input.taking (turns k)) (afterPasses input turns store k)

/-- The run has no lease row, neither of a worker nor of a former pass, and is not due to be escalated. -/
structure Recoverable (input : PassInput) (store : Store) (execution : Execution) : Prop where
  unleased : store.lease "execution" execution.id = none
  unescalated : (input.plan store.scanned execution store).map (·.kind) ≠ some .escalate

structure Quiescent (input : PassInput) (store : Store) : Prop where
  free : store.lease globalLeaseResourceType globalLeaseResourceId = none
  unleased : ∀ execution ∈ store.scanned, store.lease "execution" execution.id = none
  idle : ∀ execution ∈ store.scanned, Idle execution (input.plan store.scanned execution store)

structure Leased (store leased : Store) : Prop where
  executions : leased.executions = store.executions
  stages : leased.stages = store.stages
  attempts : leased.attempts = store.attempts
  leases : ∀ runId, leased.lease "execution" runId = store.lease "execution" runId

section Pass

variable {input : PassInput} {store : Store} {execution : Execution}

theorem mem_scanned : execution ∈ store.scanned ↔
    execution ∈ store.executions ∧ scannedRunStatus execution.status = true := by
  rw [Store.scanned, List.mem_insertionSort, List.mem_filter]

theorem scanned_listed (unique : Table.Unique Execution.id store.executions) : Listed store.scanned store := by
  constructor
  · have sorted := List.perm_insertionSort (fun left right : Execution => left.id ≤ right.id)
      (store.executions.filter fun execution => scannedRunStatus execution.status)
    exact (sorted.map Execution.id).nodup_iff.mpr (unique.sublist (List.filter_sublist.map _))
  · intro execution member
    exact unique.find (mem_scanned.mp member).1

theorem scanned_live {status : RunStatus} (scanned : scannedRunStatus status = true) : skippedRunStatus status = false := by
  revert scanned
  cases status <;> decide

theorem plan_taking (turn : PassTurn) (unleased : store.lease "execution" execution.id = none)
    (scanned : List Execution) :
    (input.taking turn).plan scanned execution store = input.plan scanned execution store := by
  have none_ : (assembleFacts input scanned execution store).lease = none := by
    simp only [assembleFacts, unleased, Option.map_none]
  exact planAction_timeless none_ _

theorem runPass_unleasable
    (taken : ¬ store.leasable globalLeaseResourceType globalLeaseResourceId input.ownerId input.globalLeasedAt) :
    Quiet input store := by
  obtain ⟨failure, refused, lost⟩ := @acquire_unleasable globalLeaseResourceType globalLeaseResourceId input.ownerId
    store input.leaseTtl input.globalLeasedAt taken
  rw [Quiet, runPass, Outcome.state_bind_eq (Outcome.caught_expected refused (by simp [leaseLost, lost]))]
  exact ⟨_, rfl, fun entry member => absurd member List.not_mem_nil⟩

theorem acquire_leased {token : Nat} {leased : Store}
    (acquired : acquire globalLeaseResourceType globalLeaseResourceId input.ownerId input.leaseTtl
      input.globalLeasedAt store = .ok token leased) : Leased store leased := by
  have same := (acquire_ok acquired).2.2
  refine ⟨by rw [same], by rw [same], by rw [same], ?_⟩
  intro runId
  exact acquire_other acquired (by simp [globalLeaseResourceType])

theorem Leased.scanned {leased : Store} (same : Leased store leased) : leased.scanned = store.scanned := by
  rw [Store.scanned, Store.scanned, same.executions]

theorem Leased.plan {leased : Store} (same : Leased store leased) (scanned : List Execution) :
    input.plan scanned execution leased = input.plan scanned execution store :=
  PassInput.plan_congr (same.leases execution.id) same.stages same.attempts

theorem runPass_eq {token : Nat} {leased settled after : Store} {entries : List RunReconciliation} {released : Bool}
    (acquired : acquire globalLeaseResourceType globalLeaseResourceId input.ownerId input.leaseTtl
      input.globalLeasedAt store = .ok token leased)
    (scan : reconcileAll input leased.scanned leased.scanned leased = .ok entries settled)
    (releasing : release globalLeaseResourceType globalLeaseResourceId input.ownerId token settled =
      .ok released after) :
    ∃ report, runPass input store = .ok report after ∧ report.entries = entries := by
  rw [runPass, Outcome.state_bind_eq (Outcome.caught_ok.mpr acquired)]
  dsimp only
  rw [runScopedPass, Outcome.state_get_bind, Outcome.state_bind_eq scan, Outcome.state_bind_eq releasing]
  exact ⟨_, rfl, rfl⟩

theorem runPass_leasable (unique : Table.Unique Execution.id store.executions)
    (free : store.leasable globalLeaseResourceType globalLeaseResourceId input.ownerId input.globalLeasedAt) :
    ∃ leased entries settled report, Leased store leased ∧
      reconcileAll input leased.scanned leased.scanned leased = .ok entries settled ∧
      OnlyRuns (leased.scanned.map Execution.id) leased settled ∧
      runPass input store = .ok report (settled.dropLease globalLeaseResourceType globalLeaseResourceId) ∧
      report.entries = entries := by
  obtain ⟨token, leased, acquired, -⟩ := @acquire_leasable globalLeaseResourceType globalLeaseResourceId
    input.ownerId store input.leaseTtl input.globalLeasedAt free
  have same := acquire_leased acquired
  obtain ⟨entries, settled, scan, only⟩ :=
    @reconcileAll_onlyRuns input leased.scanned leased.scanned leased (scanned_listed (same.executions ▸ unique))
  have own : settled.lease globalLeaseResourceType globalLeaseResourceId =
      leased.lease globalLeaseResourceType globalLeaseResourceId :=
    only.leases _ _ fun execution => absurd execution (by decide)
  obtain ⟨report, done, listed⟩ := runPass_eq acquired scan
    (release_own (by rw [own]; exact (acquire_ok acquired).2.1))
  exact ⟨leased, entries, settled, report, same, scan, only, done, listed⟩

theorem quiescent_quiet (settled : Quiescent input store) (turn : PassTurn) : Quiet (input.taking turn) store := by
  by_cases free : store.leasable globalLeaseResourceType globalLeaseResourceId (input.taking turn).ownerId
      (input.taking turn).globalLeasedAt
  · obtain ⟨token, leased, acquired, -⟩ := @acquire_leasable globalLeaseResourceType globalLeaseResourceId
      (input.taking turn).ownerId store (input.taking turn).leaseTtl _ free
    have same := acquire_leased acquired
    have idle : ∀ execution ∈ leased.scanned,
        Idle execution ((input.taking turn).plan leased.scanned execution leased) := by
      intro execution member
      rw [same.scanned] at member ⊢
      rw [same.plan, plan_taking turn (settled.unleased execution member)]
      exact settled.idle execution member
    obtain ⟨entries, scan, unapplied⟩ := reconcileAll_idle idle
    obtain ⟨report, done, listed⟩ := runPass_eq acquired scan (release_acquired settled.free acquired)
    exact ⟨report, done, listed ▸ unapplied⟩
  · exact runPass_unleasable free

theorem target_unscanned {kind : ReconcileActionKind} {target : RunStatus} (aimed : actionTarget kind = some target)
    (recovers : kind ≠ .escalate) : scannedRunStatus target = false := by
  revert aimed recovers
  cases kind <;> cases target <;> decide

theorem recoverable_plan (recoverable : Recoverable input store execution) :
    Idle execution (input.plan store.scanned execution store) ∨
      ∃ action target, input.plan store.scanned execution store = some action ∧ action.kind ≠ .leaseTakeover ∧
        actionTarget action.kind = some target ∧ (runStatusTransitions execution.status).contains target = true ∧
        scannedRunStatus target = false := by
  by_cases idle : Idle execution (input.plan store.scanned execution store)
  · exact Or.inl idle
  right
  obtain ⟨action, planned, takeover | ⟨target, mutates, aimed, allowed⟩⟩ := not_idle idle
  · refine absurd ?_ (planAction_takeover planned takeover)
    simp only [assembleFacts, recoverable.unleased, Option.map_none]
  · refine ⟨action, target, planned, mutates, aimed, allowed, target_unscanned aimed ?_⟩
    intro escalates
    apply recoverable.unescalated
    rw [planned, Option.map_some, escalates]

theorem superseded_allowed {status : RunStatus} (active : activeRunStatus status = true) :
    (runStatusTransitions status).contains .superseded = true := by
  revert active
  cases status <;> decide

theorem idle_single (scanned : scannedRunStatus execution.status = true)
    (recoverable : Recoverable input store execution)
    (idle : Idle execution (input.plan store.scanned execution store)) :
    detectDuplicateRuns (assembleFacts input store.scanned execution store) = none := by
  cases duplicate : detectDuplicateRuns (assembleFacts input store.scanned execution store) with
  | none => rfl
  | some action =>
    have unleased : (assembleFacts input store.scanned execution store).lease = none := by
      simp only [assembleFacts, recoverable.unleased, Option.map_none]
    have planned : input.plan store.scanned execution store = some action :=
      planAction_duplicate (scanned_live scanned) unleased recoverable.unescalated duplicate
    have kind := detectDuplicateRuns_kind duplicate
    have forbidden := (idle action planned).2 .superseded (by rw [kind]; rfl)
    have active : activeRunStatus execution.status = true := detectDuplicateRuns_active duplicate
    rw [superseded_allowed active] at forbidden
    cases forbidden

/-- After a scan of recoverable runs, each is as it was and left to others, or it is not scanned any more. -/
theorem recoverable_turn {reached left : Store} {entry : RunReconciliation}
    (recoverable : Recoverable input store execution)
    (found : reached.execution execution.id = some execution)
    (lease : reached.lease "execution" execution.id = store.lease "execution" execution.id)
    (plan : input.plan store.scanned execution reached = input.plan store.scanned execution store)
    (turn : reconcileOne input store.scanned execution reached = .ok entry left) :
    (Idle execution (input.plan store.scanned execution store) ∧ left.execution execution.id = some execution ∧
        left.lease "execution" execution.id = none) ∨
      ∃ moved, left.execution execution.id = some moved ∧ scannedRunStatus moved.status = false := by
  rcases recoverable_plan recoverable with idle | ⟨action, target, planned, mutates, aimed, allowed, unscanned⟩
  · left
    obtain ⟨note, applying⟩ := @applyPlanned_idle input execution _ (plan ▸ idle) reached
    obtain ⟨other, same, -⟩ := reconcileOne_eq applying
    rw [turn, EStateM.Result.ok.injEq] at same
    rw [same.2]
    exact ⟨idle, found, lease.trans recoverable.unleased⟩
  · right
    have free : reached.leasable "execution" execution.id input.ownerId (input.leasedAt execution.id) := by
      intro held holds
      rw [lease, recoverable.unleased] at holds
      cases holds
    obtain ⟨note, after, applying, -, moved, -⟩ := target_applied found mutates aimed allowed free
    have planning : applyPlanned input execution (input.plan store.scanned execution reached) reached =
        .ok (true, note) after := by
      rw [plan, planned]
      exact applying
    obtain ⟨other, same, -⟩ := reconcileOne_eq planning
    rw [turn, EStateM.Result.ok.injEq] at same
    rw [same.2]
    exact ⟨_, moved, unscanned⟩

theorem scan_survivor {after : Store} {entries : List RunReconciliation}
    (unique : Table.Unique Execution.id store.executions)
    (recoverable : ∀ execution ∈ store.scanned, Recoverable input store execution)
    (scan : reconcileAll input store.scanned store.scanned store = .ok entries after)
    (only : OnlyRuns (store.scanned.map Execution.id) store after) (member : execution ∈ after.scanned) :
    execution ∈ store.scanned ∧ Idle execution (input.plan store.scanned execution store) ∧
      after.lease "execution" execution.id = none := by
  obtain ⟨present, scanned⟩ := mem_scanned.mp member
  have uniqueAfter : Table.Unique Execution.id after.executions := by
    rw [Table.Unique, only.ids]
    exact unique
  have found : after.execution execution.id = some execution := uniqueAfter.find present
  by_cases known : execution.id ∈ store.scanned.map Execution.id
  · obtain ⟨row, listed, same⟩ := List.mem_map.mp known
    obtain ⟨reached, entry, left, turn, -, there, lease, plan, kept, leased⟩ :=
      reconcileAll_turn (scanned_listed unique) listed scan
    rw [← same, kept] at found
    rcases recoverable_turn (recoverable row listed) there lease plan turn with ⟨idle, unmoved, unleased⟩ |
      ⟨moved, own, unscanned⟩
    · rw [found, Option.some.injEq] at unmoved
      subst unmoved
      exact ⟨listed, idle, leased.trans unleased⟩
    · rw [found, Option.some.injEq] at own
      rw [← own, scanned] at unscanned
      cases unscanned
  · rw [only.executions execution.id known] at found
    exact absurd (List.mem_map_of_mem (mem_scanned.mpr ⟨(Table.find_some found).1, scanned⟩)) known

theorem survivor_idle {after : Store} (scanned : scannedRunStatus execution.status = true)
    (recoverable : Recoverable input store execution)
    (idle : Idle execution (input.plan store.scanned execution store))
    (unleased : after.lease "execution" execution.id = none) (stages : after.stages = store.stages)
    (attempts : after.attempts = store.attempts) (fewer : after.scanned ⊆ store.scanned) :
    Idle execution (input.plan after.scanned execution after) := by
  have single := idle_single scanned recoverable idle
  have repeated : after.repeatedError execution.id = store.repeatedError execution.id := by
    simp only [Store.repeatedError, Store.attemptsOf, stages, attempts]
  have shrunk : assembleFacts input after.scanned execution after =
      { assembleFacts input store.scanned execution store with
        activeSiblingIds := (assembleFacts input after.scanned execution after).activeSiblingIds } := by
    simp only [assembleFacts, unleased, recoverable.unleased, repeated]
  have siblings : (assembleFacts input after.scanned execution after).activeSiblingIds ⊆
      (assembleFacts input store.scanned execution store).activeSiblingIds := by
    intro id member
    simp only [assembleFacts, activeOfChange, List.mem_insertionSort, List.mem_filter, List.mem_map] at member ⊢
    obtain ⟨⟨sibling, ⟨listed, active⟩, same⟩, other⟩ := member
    exact ⟨⟨sibling, ⟨fewer listed, active⟩, same⟩, other⟩
  rw [PassInput.plan, planAction_shrunk shrunk single (detectDuplicateRuns_fewer shrunk siblings single)]
  exact idle

theorem recoverable_pass (unique : Table.Unique Execution.id store.executions)
    (recoverable : ∀ execution ∈ store.scanned, Recoverable input store execution) (turn : PassTurn) :
    Quiet (input.taking turn) store ∨ Quiescent input (commit (runPass (input.taking turn)) store) := by
  by_cases free : store.leasable globalLeaseResourceType globalLeaseResourceId (input.taking turn).ownerId
      (input.taking turn).globalLeasedAt
  swap
  · exact Or.inl (runPass_unleasable free)
  right
  obtain ⟨leased, entries, settled, report, same, scan, only, done, -⟩ := runPass_leasable unique free
  have uniqueLeased : Table.Unique Execution.id leased.executions := same.executions ▸ unique
  have recoverableLeased : ∀ execution ∈ leased.scanned, Recoverable (input.taking turn) leased execution := by
    intro execution member
    rw [same.scanned] at member
    obtain ⟨unleased, unescalated⟩ := recoverable execution member
    refine ⟨(same.leases execution.id).trans unleased, ?_⟩
    rw [same.scanned, same.plan, plan_taking turn unleased]
    exact unescalated
  have survivors (execution : Execution) (member : execution ∈ settled.scanned) :=
    scan_survivor uniqueLeased recoverableLeased scan only member
  have unleased (execution : Execution) (member : execution ∈ settled.scanned) :
      (settled.dropLease globalLeaseResourceType globalLeaseResourceId).lease "execution" execution.id = none := by
    rw [dropLease_other (by simp [globalLeaseResourceType])]
    exact (survivors execution member).2.2
  rw [commit, done]
  refine ⟨dropLease_self, unleased, ?_⟩
  intro execution member
  obtain ⟨before, idle, -⟩ := survivors execution member
  rw [← plan_taking turn (unleased execution member)]
  exact survivor_idle (mem_scanned.mp before).2 (recoverableLeased execution before) idle (unleased execution member)
    only.stages only.attempts fun other listed => (survivors other listed).1

theorem quiet_commit (quiet : Quiet input store) : commit (runPass input) store = store := by
  obtain ⟨report, done, -⟩ := quiet
  rw [commit, done]

theorem converges_of_recoverable (unique : Table.Unique Execution.id store.executions)
    (recoverable : ∀ execution ∈ store.scanned, Recoverable input store execution) : Converges input store := by
  intro turns _
  by_cases settles : ∃ m, Quiescent input (afterPasses input turns store m)
  · obtain ⟨m, settled⟩ := settles
    have stays (j : Nat) : Quiescent input (afterPasses input turns store (m + j)) := by
      induction j with
      | zero => exact settled
      | succ j ih =>
        rw [← Nat.add_assoc, afterPasses, quiet_commit (quiescent_quiet ih _)]
        exact ih
    refine ⟨m, fun k later => ?_⟩
    obtain ⟨j, rfl⟩ := Nat.exists_eq_add_of_le later
    exact quiescent_quiet (stays j) _
  · have quiet (k : Nat) (same : afterPasses input turns store k = store) : Quiet (input.taking (turns k)) store := by
      rcases recoverable_pass unique recoverable (turns k) with quiet | settled
      · exact quiet
      · exact absurd ⟨k + 1, by rw [afterPasses, same]; exact settled⟩ settles
    have stays (k : Nat) : afterPasses input turns store k = store := by
      induction k with
      | zero => rfl
      | succ k ih => rw [afterPasses, ih, quiet_commit (quiet k ih)]
    exact ⟨0, fun k _ => (stays k).symm ▸ quiet k (stays k)⟩

end Pass

def turnAt (ownerId : String) (moment : Timestamp) : PassTurn :=
  { ownerId, now := moment, globalLeasedAt := moment, leasedAt := fun _ => moment }

/-- From the moment on a run is due for a takeover or an escalation, and the global lease is free. -/
structure Stuck (input : PassInput) (runId : String) (moment : Timestamp) (store : Store) : Prop where
  unique : Table.Unique Execution.id store.executions
  free : ∀ lease, store.lease globalLeaseResourceType globalLeaseResourceId = some lease → lease.expiresAt ≤ moment
  run : ∃ execution, store.execution runId = some execution ∧ scannedRunStatus execution.status = true ∧
    ((∃ lease, store.lease "execution" runId = some lease ∧ lease.expiresAt ≤ moment) ∨
      (store.lease "execution" runId = none ∧
        (input.plan store.scanned execution store).map (·.kind) = some .escalate))

section Stuck

variable {input : PassInput} {store : Store} {execution : Execution} {runId : String} {moment : Timestamp}

theorem blocked_allowed {status : RunStatus} (working : waitingOnWork status = true) :
    (runStatusTransitions status).contains .blocked = true := by
  revert working
  cases status <;> decide

theorem due_applied {action : ReconcileAction} {scanned : List Execution} {plan : Store}
    (found : store.execution execution.id = some execution) (live : scannedRunStatus execution.status = true)
    (planned : input.plan scanned execution plan = some action)
    (due : action.kind = .leaseTakeover ∨ action.kind = .escalate)
    (free : store.leasable "execution" execution.id input.ownerId (input.leasedAt execution.id)) :
    ∃ note after held, applyPlanned input execution (some action) store = .ok (true, note) after ∧
      after.execution execution.id = some held ∧ scannedRunStatus held.status = true ∧
      (after.lease "execution" execution.id).map (·.expiresAt) = some (input.leasedAt execution.id + input.leaseTtl) := by
  rcases due with takeover | escalates
  · obtain ⟨note, after, done, -, same, expires⟩ := takeover_applied takeover free
    exact ⟨note, after, execution, done, same.trans found, live, expires⟩
  · have working : waitingOnWork execution.status = true := planAction_escalate planned escalates
    have mutates : action.kind ≠ .leaseTakeover := by
      rw [escalates]
      decide
    obtain ⟨note, after, done, -, moved, expires⟩ :=
      target_applied found mutates (by rw [escalates]; rfl) (blocked_allowed working) free
    exact ⟨note, after, _, done, moved, rfl, expires⟩

theorem stuck_pass (stuck : Stuck input runId moment store) :
    ∃ report after, runPass (input.taking (turnAt input.ownerId moment)) store = .ok report after ∧
      (∃ entry ∈ report.entries, entry.applied = true) ∧
      Stuck input runId (moment + max 0 input.leaseTtl) after := by
  obtain ⟨unique, free, execution, found, live, due⟩ := stuck
  obtain ⟨present, rfl⟩ := Table.find_some found
  have leasable : store.leasable globalLeaseResourceType globalLeaseResourceId
      (input.taking (turnAt input.ownerId moment)).ownerId
      (input.taking (turnAt input.ownerId moment)).globalLeasedAt := fun lease held => Or.inl (free lease held)
  obtain ⟨leased, entries, settled, report, same, scan, only, done, listed⟩ := runPass_leasable unique leasable
  have uniqueLeased : Table.Unique Execution.id leased.executions := same.executions ▸ unique
  have scanned : execution ∈ leased.scanned := by
    rw [same.scanned]
    exact mem_scanned.mpr ⟨present, live⟩
  obtain ⟨reached, entry, left, turn, member, there, lease, plan, kept, keptLease⟩ :=
    reconcileAll_turn (scanned_listed uniqueLeased) scanned scan
  have held : reached.leasable "execution" execution.id input.ownerId moment := by
    intro row holds
    rw [lease, same.leases] at holds
    rcases due with ⟨expired, own, ended⟩ | ⟨unleased, -⟩
    · rw [own, Option.some.injEq] at holds
      exact Or.inl (holds ▸ ended)
    · rw [unleased] at holds
      cases holds
  obtain ⟨action, planned, kind⟩ : ∃ action,
      (input.taking (turnAt input.ownerId moment)).plan leased.scanned execution leased = some action ∧
        (action.kind = .leaseTakeover ∨ action.kind = .escalate) := by
    rw [same.plan, same.scanned]
    rcases due with ⟨expired, own, ended⟩ | ⟨unleased, escalates⟩
    · exact planAction_expired (scanned_live live) (by simp only [assembleFacts, own, Option.map_some]; rfl) ended
    · rw [plan_taking _ unleased]
      obtain ⟨action, planned, kind⟩ := Option.map_eq_some_iff.mp escalates
      exact ⟨action, planned, Or.inr kind⟩
  obtain ⟨note, after, row, applying, own, rescanned, expires⟩ := due_applied there live planned kind held
  obtain ⟨acted, one, applied⟩ := reconcileOne_eq (by rw [plan, planned]; exact applying)
  rw [turn, EStateM.Result.ok.injEq] at one
  obtain ⟨rfl, rfl⟩ := one
  refine ⟨report, _, done, ⟨entry, listed ▸ member, applied⟩, ?_, ?_, row, ?_, rescanned, Or.inl ?_⟩
  · rw [Table.Unique, show (settled.dropLease globalLeaseResourceType globalLeaseResourceId).executions =
      settled.executions from rfl, only.ids]
    exact uniqueLeased
  · intro row holds
    rw [dropLease_self] at holds
    cases holds
  · exact kept.trans own
  · rw [← keptLease] at expires
    obtain ⟨lease, holds, ended⟩ := Option.map_eq_some_iff.mp expires
    refine ⟨lease, ?_, ?_⟩
    · rw [dropLease_other (by simp [globalLeaseResourceType])]
      exact holds
    · rw [ended]
      exact Int.add_le_add_left (le_max_right 0 input.leaseTtl) moment

theorem stuck_acts (stuck : Stuck input runId moment store) : ¬ Converges input store := by
  intro converges
  have chronological : Chronological fun k : Nat => turnAt input.ownerId (moment + (k : Int) * max 0 input.leaseTtl) := by
    refine ⟨fun k => le_refl _, fun k runId => le_refl _, ?_⟩
    intro k runId
    apply Int.add_le_add_left
    exact Int.mul_le_mul_of_nonneg_right (by omega) (le_max_left 0 input.leaseTtl)
  obtain ⟨n, quiet⟩ := converges _ chronological
  have stays (k : Nat) : Stuck input runId (moment + (k : Int) * max 0 input.leaseTtl)
      (afterPasses input (fun k : Nat => turnAt input.ownerId (moment + (k : Int) * max 0 input.leaseTtl)) store k) := by
    induction k with
    | zero =>
      rw [Int.natCast_zero, Int.zero_mul, Int.add_zero]
      exact stuck
    | succ k ih =>
      obtain ⟨report, after, done, -, next⟩ := stuck_pass ih
      rw [afterPasses, commit, done]
      rw [Int.natCast_succ, Int.add_mul, Int.one_mul, ← Int.add_assoc]
      exact next
  obtain ⟨report, after, done, ⟨entry, member, applied⟩, -⟩ := stuck_pass (stays n)
  obtain ⟨other, again, unapplied⟩ := quiet n (Nat.le_refl n)
  rw [done, EStateM.Result.ok.injEq] at again
  rw [unapplied entry (again.1 ▸ member)] at applied
  cases applied

theorem recoverable_of_converges (unique : Table.Unique Execution.id store.executions)
    (converges : Converges input store) : ∀ execution ∈ store.scanned, Recoverable input store execution := by
  intro execution member
  obtain ⟨present, live⟩ := mem_scanned.mp member
  by_contra unrecoverable
  -- late enough for the global lease and the lease of the run
  obtain ⟨moment, global, own⟩ : ∃ moment : Timestamp,
      (∀ lease, store.lease globalLeaseResourceType globalLeaseResourceId = some lease → lease.expiresAt ≤ moment) ∧
        ∀ lease, store.lease "execution" execution.id = some lease → lease.expiresAt ≤ moment := by
    refine ⟨max (((store.lease globalLeaseResourceType globalLeaseResourceId).map (·.expiresAt)).getD 0)
      (((store.lease "execution" execution.id).map (·.expiresAt)).getD 0), ?_, ?_⟩
    · intro lease held
      rw [held]
      exact le_max_left _ _
    · intro lease held
      rw [held]
      exact le_max_right _ _
  refine stuck_acts ⟨unique, global, execution, unique.find present, live, ?_⟩ converges
  cases held : store.lease "execution" execution.id with
  | some lease => exact Or.inl ⟨lease, rfl, own lease held⟩
  | none =>
    refine Or.inr ⟨rfl, ?_⟩
    by_contra unescalated
    exact unrecoverable ⟨held, unescalated⟩

end Stuck

/-- Passes over the same observations come to rest exactly when no run they scan has a lease row, and the table
    escalates none of them. -/
theorem reconciler_converges_iff (input : PassInput) {store : Store}
    (unique : Table.Unique Execution.id store.executions) :
    Converges input store ↔ ∀ execution ∈ store.scanned, Recoverable input store execution :=
  ⟨recoverable_of_converges unique, converges_of_recoverable unique⟩

def runningRow (id : String) : Execution :=
  { id, changeId := "change-1", route := .standard, provider := .gitlab, status := .running }

def barePass : PassInput := { ownerId := "reconciler-1", now := 0, globalLeasedAt := 0, leasedAt := fun _ => 0 }

def duplicated : Store := { executions := [runningRow "run-1", runningRow "run-2"] }

/-- Two runs of one change come to rest: the pass closes the second. -/
theorem duplicates_converge : Converges barePass duplicated := by
  have unique : (duplicated.executions.map Execution.id).Nodup := by decide
  have checked : ∀ execution ∈ duplicated.scanned, duplicated.lease "execution" execution.id = none ∧
      (barePass.plan duplicated.scanned execution duplicated).map (·.kind) ≠ some .escalate := by decide +kernel
  refine (reconciler_converges_iff barePass unique).mpr ?_
  exact fun execution member => ⟨(checked execution member).1, (checked execution member).2⟩

def orphaned : Store :=
  { executions := [runningRow "run-1"]
    leases := [{ resourceType := "execution", resourceId := "run-1", ownerId := "worker-1", fencingToken := 1
                 acquiredAt := 0, expiresAt := 1, heartbeatAt := 0 }] }

/-- Its lease is taken over again whenever the takeover is over. -/
theorem lease_retaken_forever :
    ¬ ∀ input store, Table.Unique Execution.id store.executions → Converges input store := by
  intro converges
  have unique : Table.Unique Execution.id orphaned.executions := List.nodup_singleton _
  have stuck : Stuck barePass "run-1" 1 orphaned := by
    refine ⟨unique, fun lease held => ?_, runningRow "run-1", rfl, rfl, Or.inl ⟨_, rfl, Int.le_refl 1⟩⟩
    cases held
  exact stuck_acts stuck (converges barePass orphaned unique)

end DarkFactory
