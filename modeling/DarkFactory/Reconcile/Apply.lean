import DarkFactory.Reconcile.Service

namespace DarkFactory

structure OnlyRuns (runs : List String) (before after : Store) : Prop where
  executions : ∀ other, other ∉ runs → after.execution other = before.execution other
  leases : ∀ resourceType resourceId, (resourceType = "execution" → resourceId ∉ runs) →
    after.lease resourceType resourceId = before.lease resourceType resourceId
  stages : after.stages = before.stages
  attempts : after.attempts = before.attempts
  ids : after.executions.map Execution.id = before.executions.map Execution.id

structure Listed (executions : List Execution) (store : Store) : Prop where
  distinct : (executions.map Execution.id).Nodup
  found : ∀ execution ∈ executions, store.execution execution.id = some execution

def PassInput.plan (input : PassInput) (scanned : List Execution) (execution : Execution) (store : Store) :
    Option ReconcileAction :=
  planAction (assembleFacts input scanned execution store) input.now input.mergePolicy

/-- The pass does nothing about the plan: it is for an executor, or for a transition the table forbids. -/
def Idle (execution : Execution) (planned : Option ReconcileAction) : Prop :=
  ∀ action, planned = some action → action.kind ≠ .leaseTakeover ∧
    ∀ target, actionTarget action.kind = some target → (runStatusTransitions execution.status).contains target = false

section Apply

variable {input : PassInput} {execution : Execution} {action : ReconcileAction} {store after : Store} {id : String}

theorem OnlyRuns.refl (runs : List String) (store : Store) : OnlyRuns runs store store :=
  ⟨fun _ _ => rfl, fun _ _ _ => rfl, rfl, rfl, rfl⟩

theorem OnlyRuns.trans {first second : List String} {middle : Store} (one : OnlyRuns first store middle)
    (two : OnlyRuns second middle after) : OnlyRuns (first ++ second) store after := by
  refine ⟨?_, ?_, two.stages.trans one.stages, two.attempts.trans one.attempts, two.ids.trans one.ids⟩
  · intro other outside
    rw [List.mem_append, not_or] at outside
    exact (two.executions other outside.2).trans (one.executions other outside.1)
  · intro resourceType resourceId outside
    simp only [List.mem_append, not_or] at outside
    exact (two.leases resourceType resourceId fun own => (outside own).2).trans
      (one.leases resourceType resourceId fun own => (outside own).1)

theorem acquire_onlyRuns {ownerId : String} {ttl : Int} {now : Timestamp} {token : Nat}
    (done : acquire "execution" id ownerId ttl now store = .ok token after) : OnlyRuns [id] store after := by
  obtain ⟨-, -, same⟩ := acquire_ok done
  refine ⟨?_, ?_, by rw [same], by rw [same], by rw [same]⟩
  · intro other _
    rw [same]
    rfl
  · intro resourceType resourceId outside
    refine acquire_other done ?_
    rintro ⟨⟩
    exact outside rfl List.mem_cons_self

theorem acquireExecution_leasable
    (free : store.leasable "execution" execution.id input.ownerId (input.leasedAt execution.id)) :
    ∃ token after, acquireExecution input execution store = .ok (.ok token) after ∧
      acquire "execution" execution.id input.ownerId input.leaseTtl (input.leasedAt execution.id) store =
        .ok token after ∧
      (after.lease "execution" execution.id).map (·.expiresAt) = some (input.leasedAt execution.id + input.leaseTtl) := by
  obtain ⟨token, after, acquired, expires⟩ := @acquire_leasable "execution" execution.id input.ownerId store
    input.leaseTtl (input.leasedAt execution.id) free
  exact ⟨token, after, Outcome.caught_ok.mpr acquired, acquired, expires⟩

theorem acquireExecution_unleasable
    (taken : ¬ store.leasable "execution" execution.id input.ownerId (input.leasedAt execution.id)) :
    ∃ failure, acquireExecution input execution store = .ok (.error failure) store := by
  obtain ⟨failure, refused, lost⟩ := @acquire_unleasable "execution" execution.id input.ownerId store
    input.leaseTtl (input.leasedAt execution.id) taken
  exact ⟨failure, Outcome.caught_expected refused (by simp [leaseLost, lost])⟩

theorem takeover_applied (takeover : action.kind = .leaseTakeover)
    (free : store.leasable "execution" execution.id input.ownerId (input.leasedAt execution.id)) :
    ∃ note after, applyAction input execution action store = .ok (true, note) after ∧
      OnlyRuns [execution.id] store after ∧ after.execution execution.id = store.execution execution.id ∧
      (after.lease "execution" execution.id).map (·.expiresAt) = some (input.leasedAt execution.id + input.leaseTtl) := by
  obtain ⟨token, after, leasing, acquired, expires⟩ := acquireExecution_leasable free
  obtain ⟨note, done⟩ : ∃ note, applyAction input execution action store = .ok (true, note) after := by
    unfold applyAction
    rw [if_pos takeover, Outcome.state_bind_eq leasing]
    exact ⟨_, rfl⟩
  refine ⟨note, after, done, acquire_onlyRuns acquired, ?_, expires⟩
  rw [(acquire_ok acquired).2.2]
  rfl

theorem target_applied {target : RunStatus} (found : store.execution execution.id = some execution)
    (mutates : action.kind ≠ .leaseTakeover) (aimed : actionTarget action.kind = some target)
    (allowed : (runStatusTransitions execution.status).contains target = true)
    (free : store.leasable "execution" execution.id input.ownerId (input.leasedAt execution.id)) :
    ∃ note after, applyAction input execution action store = .ok (true, note) after ∧
      OnlyRuns [execution.id] store after ∧
      after.execution execution.id =
        some { execution with status := target, stateRevision := execution.stateRevision + 1 } ∧
      (after.lease "execution" execution.id).map (·.expiresAt) = some (input.leasedAt execution.id + input.leaseTtl) := by
  obtain ⟨token, leased, leasing, acquired, expires⟩ := acquireExecution_leasable free
  obtain ⟨-, own, same⟩ := acquire_ok acquired
  have there : leased.execution execution.id = some execution := by
    rw [same]
    exact found
  have fenced : (leased.lease "execution" execution.id).map (·.fencingToken) = some token := by
    obtain ⟨lease, held, pair⟩ := Option.map_eq_some_iff.mp own
    rw [held, Option.map_some, (Prod.mk.inj pair).2]
  have updating := updateStatus_direct there fenced allowed
  obtain ⟨leasedOnly, kept⟩ : OnlyRuns [execution.id] store leased ∧ Keeps store leased :=
    ⟨acquire_onlyRuns acquired, (acquire_frame acquired).keeps⟩
  obtain ⟨keeps, stages, -, -⟩ := updateStatus_keeps updating
  obtain ⟨note, done⟩ : ∃ note, applyAction input execution action store = .ok (true, note) _ := by
    unfold applyAction
    simp only [if_neg mutates, aimed, allowed, Bool.not_true, Bool.false_eq_true, ↓reduceIte]
    rw [Outcome.state_bind_eq leasing]
    dsimp only
    rw [Outcome.state_bind_eq (Outcome.caught_ok.mpr updating)]
    exact ⟨_, rfl⟩
  refine ⟨note, _, done, ⟨?_, ?_, ?_, ?_, ?_⟩, ?_, expires⟩
  · intro other outside
    rw [← leasedOnly.executions other outside]
    exact Table.find_update_other (fun _ _ => rfl) fun same => outside (same ▸ List.mem_cons_self)
  · exact leasedOnly.leases
  · exact leasedOnly.stages
  · exact leasedOnly.attempts
  · exact keeps.executions.trans kept.executions
  · exact execution_moved there rfl

theorem applyPlanned_idle {planned : Option ReconcileAction} (idle : Idle execution planned) (store : Store) :
    ∃ note, applyPlanned input execution planned store = .ok (false, note) store := by
  cases planned with
  | none => exact ⟨none, rfl⟩
  | some action =>
    obtain ⟨mutates, forbidden⟩ := idle action rfl
    rw [applyPlanned]
    unfold applyAction
    rw [if_neg mutates]
    cases aimed : actionTarget action.kind with
    | none => exact ⟨_, rfl⟩
    | some target =>
      simp only [forbidden target aimed, Bool.not_false, ↓reduceIte]
      exact ⟨_, rfl⟩

theorem applyAction_unleasable
    (taken : ¬ store.leasable "execution" execution.id input.ownerId (input.leasedAt execution.id)) :
    ∃ note, applyAction input execution action store = .ok (false, note) store := by
  obtain ⟨failure, refused⟩ := acquireExecution_unleasable taken
  unfold applyAction
  by_cases takeover : action.kind = .leaseTakeover
  · rw [if_pos takeover, Outcome.state_bind_eq refused]
    exact ⟨_, rfl⟩
  rw [if_neg takeover]
  cases actionTarget action.kind with
  | none => exact ⟨_, rfl⟩
  | some target =>
    dsimp only
    split
    · exact ⟨_, rfl⟩
    · rw [Outcome.state_bind_eq refused]
      exact ⟨_, rfl⟩

theorem not_idle {planned : Option ReconcileAction} (acts : ¬ Idle execution planned) :
    ∃ action, planned = some action ∧ (action.kind = .leaseTakeover ∨
      ∃ target, action.kind ≠ .leaseTakeover ∧ actionTarget action.kind = some target ∧
        (runStatusTransitions execution.status).contains target = true) := by
  by_contra nothing
  apply acts
  rintro action rfl
  have mutates : action.kind ≠ .leaseTakeover := fun takeover => nothing ⟨action, rfl, Or.inl takeover⟩
  refine ⟨mutates, fun target aimed => ?_⟩
  cases allowed : (runStatusTransitions execution.status).contains target with
  | false => rfl
  | true => exact absurd ⟨action, rfl, Or.inr ⟨target, mutates, aimed, allowed⟩⟩ nothing

/-- The recovery of one run never raises, and leaves the others alone. -/
theorem applyPlanned_onlyRuns (planned : Option ReconcileAction)
    (found : store.execution execution.id = some execution) :
    ∃ outcome after, applyPlanned input execution planned store = .ok outcome after ∧
      OnlyRuns [execution.id] store after := by
  by_cases idle : Idle execution planned
  · obtain ⟨note, done⟩ := @applyPlanned_idle input execution planned idle store
    exact ⟨_, _, done, OnlyRuns.refl _ _⟩
  obtain ⟨action, rfl, acts⟩ := not_idle idle
  rw [applyPlanned]
  by_cases free : store.leasable "execution" execution.id input.ownerId (input.leasedAt execution.id)
  · rcases acts with takeover | ⟨target, mutates, aimed, allowed⟩
    · obtain ⟨note, after, done, only, -⟩ := takeover_applied takeover free
      exact ⟨_, _, done, only⟩
    · obtain ⟨note, after, done, only, -⟩ := target_applied found mutates aimed allowed free
      exact ⟨_, _, done, only⟩
  · obtain ⟨note, done⟩ := applyAction_unleasable free
    exact ⟨_, _, done, OnlyRuns.refl _ _⟩

end Apply

section Scan

variable {input : PassInput} {scanned executions rest : List Execution} {head execution : Execution}
  {store after : Store}

theorem Listed.tail (listed : Listed (head :: rest) store) (only : OnlyRuns [head.id] store after) :
    Listed rest after := by
  obtain ⟨distinct, found⟩ := listed
  rw [List.map_cons, List.nodup_cons] at distinct
  refine ⟨distinct.2, ?_⟩
  intro execution member
  rw [only.executions execution.id]
  · exact found execution (List.mem_cons_of_mem head member)
  · rw [List.mem_singleton]
    intro same
    exact distinct.1 (same ▸ List.mem_map_of_mem member)

theorem PassInput.plan_congr (lease : after.lease "execution" execution.id = store.lease "execution" execution.id)
    (stages : after.stages = store.stages) (attempts : after.attempts = store.attempts) :
    input.plan scanned execution after = input.plan scanned execution store := by
  have repeated : after.repeatedError execution.id = store.repeatedError execution.id := by
    simp only [Store.repeatedError, Store.attemptsOf, stages, attempts]
  simp only [PassInput.plan, assembleFacts, lease, repeated]

theorem PassInput.plan_other (only : OnlyRuns [head.id] store after) (apart : execution.id ≠ head.id) :
    input.plan scanned execution after = input.plan scanned execution store := by
  refine PassInput.plan_congr ?_ only.stages only.attempts
  exact only.leases "execution" execution.id fun _ => by rwa [List.mem_singleton]

theorem reconcileOne_eq {applied : Bool} {note : Option String}
    (applying : applyPlanned input execution (input.plan scanned execution store) store = .ok (applied, note) after) :
    ∃ entry, reconcileOne input scanned execution store = .ok entry after ∧ entry.applied = applied := by
  rw [reconcileOne, Outcome.state_get_bind]
  rw [PassInput.plan] at applying
  rw [Outcome.state_bind_eq applying]
  exact ⟨_, rfl, rfl⟩

theorem reconcileOne_onlyRuns (found : store.execution execution.id = some execution) :
    ∃ entry after, reconcileOne input scanned execution store = .ok entry after ∧
      OnlyRuns [execution.id] store after := by
  obtain ⟨⟨applied, note⟩, after, done, only⟩ :=
    @applyPlanned_onlyRuns input execution store (input.plan scanned execution store) found
  obtain ⟨entry, one, -⟩ := reconcileOne_eq done
  exact ⟨entry, after, one, only⟩

theorem reconcileAll_cons {entry : RunReconciliation} {entries : List RunReconciliation} {middle : Store}
    (one : reconcileOne input scanned head store = .ok entry middle)
    (others : reconcileAll input scanned rest middle = .ok entries after) :
    reconcileAll input scanned (head :: rest) store = .ok (entry :: entries) after := by
  rw [reconcileAll, Outcome.state_bind_eq one, Outcome.state_bind_eq others]
  rfl

theorem reconcileAll_idle (idle : ∀ execution ∈ executions, Idle execution (input.plan scanned execution store)) :
    ∃ entries, reconcileAll input scanned executions store = .ok entries store ∧
      ∀ entry ∈ entries, entry.applied = false := by
  induction executions with
  | nil => exact ⟨[], rfl, fun entry member => absurd member List.not_mem_nil⟩
  | cons head rest ih =>
    rw [List.forall_mem_cons] at idle
    obtain ⟨note, applying⟩ := @applyPlanned_idle input head _ idle.1 store
    obtain ⟨entry, one, unapplied⟩ := reconcileOne_eq applying
    obtain ⟨entries, others, all⟩ := ih idle.2
    exact ⟨entry :: entries, reconcileAll_cons one others, List.forall_mem_cons.mpr ⟨unapplied, all⟩⟩

theorem reconcileAll_onlyRuns (listed : Listed executions store) :
    ∃ entries after, reconcileAll input scanned executions store = .ok entries after ∧
      OnlyRuns (executions.map Execution.id) store after := by
  induction executions generalizing store with
  | nil => exact ⟨[], store, rfl, OnlyRuns.refl _ _⟩
  | cons head rest ih =>
    obtain ⟨entry, middle, one, only⟩ :=
      @reconcileOne_onlyRuns input scanned head store (listed.found head List.mem_cons_self)
    obtain ⟨entries, after, others, onlyRest⟩ := ih (listed.tail only)
    exact ⟨entry :: entries, after, reconcileAll_cons one others, only.trans onlyRest⟩

theorem reconcileAll_turn {entries : List RunReconciliation} (listed : Listed executions store)
    (member : execution ∈ executions) (done : reconcileAll input scanned executions store = .ok entries after) :
    ∃ reached entry left, reconcileOne input scanned execution reached = .ok entry left ∧ entry ∈ entries ∧
      reached.execution execution.id = some execution ∧
      reached.lease "execution" execution.id = store.lease "execution" execution.id ∧
      input.plan scanned execution reached = input.plan scanned execution store ∧
      after.execution execution.id = left.execution execution.id ∧
      after.lease "execution" execution.id = left.lease "execution" execution.id := by
  induction executions generalizing store entries with
  | nil => cases member
  | cons head rest ih =>
    obtain ⟨entry, middle, one, later⟩ := Outcome.state_bind_ok.mp done
    obtain ⟨others, final, remaining, finish⟩ := Outcome.state_bind_ok.mp later
    obtain ⟨rfl, rfl⟩ := Outcome.state_pure_ok.mp finish
    obtain ⟨entry', middle', one', only⟩ :=
      @reconcileOne_onlyRuns input scanned head store (listed.found head List.mem_cons_self)
    rw [one, EStateM.Result.ok.injEq] at one'
    obtain ⟨rfl, rfl⟩ := one'
    have apart := (List.nodup_cons.mp listed.distinct).1
    rcases List.mem_cons.mp member with rfl | inside
    · obtain ⟨others', final', remaining', onlyRest⟩ :=
        @reconcileAll_onlyRuns input scanned rest middle (listed.tail only)
      rw [remaining, EStateM.Result.ok.injEq] at remaining'
      obtain ⟨rfl, rfl⟩ := remaining'
      exact ⟨store, entry, middle, one, List.mem_cons_self, listed.found execution List.mem_cons_self, rfl, rfl,
        onlyRest.executions _ apart, onlyRest.leases _ _ fun _ => apart⟩
    · have other : execution.id ≠ head.id := fun same => apart (same ▸ List.mem_map_of_mem inside)
      obtain ⟨reached, own, left, turn, present, found, lease, plan, kept, leased⟩ :=
        ih (listed.tail only) inside remaining
      refine ⟨reached, own, left, turn, List.mem_cons_of_mem entry present, found, ?_, ?_, kept, leased⟩
      · rw [lease]
        exact only.leases _ _ fun _ => by rwa [List.mem_singleton]
      · rw [plan]
        exact PassInput.plan_other only other

end Scan

end DarkFactory
