import DarkFactory.State.Rows

namespace DarkFactory

def ExecutionLease.retaken (ownerId : String) (ttl : Int) (now : Timestamp) (lease : ExecutionLease) :
    ExecutionLease :=
  { lease with
    ownerId
    fencingToken := lease.fencingToken + 1
    acquiredAt := now
    expiresAt := now + ttl
    heartbeatAt := now }

def ExecutionLease.extended (ttl : Int) (now : Timestamp) (lease : ExecutionLease) : ExecutionLease :=
  { lease with expiresAt := now + ttl, heartbeatAt := now }

def ExecutionLease.first (resourceType resourceId ownerId : String) (ttl : Int) (now : Timestamp) : ExecutionLease :=
  { resourceType, resourceId, ownerId, fencingToken := 1, acquiredAt := now, expiresAt := now + ttl,
    heartbeatAt := now }

def Store.layLease (lease : ExecutionLease) (store : Store) : Store :=
  { store with leases := Table.insertNew ExecutionLease.key lease store.leases }

def Store.updateLease (resourceType resourceId : String) (f : ExecutionLease → ExecutionLease)
    (store : Store) : Store :=
  { store with leases := Table.update ExecutionLease.key (resourceType, resourceId) f store.leases }

def Store.dropLease (resourceType resourceId : String) (store : Store) : Store :=
  { store with leases := Table.delete ExecutionLease.key (resourceType, resourceId) store.leases }

section Leases

variable (resourceType resourceId ownerId : String)

/-- Takes the lease: first holder, the holder again, or a thief of an expired lease. -/
def acquire (ttl : Int) (now : Timestamp) : Session Nat := Outcome.perform fun store =>
  match store.lease resourceType resourceId with
  | none =>
    let first : ExecutionLease :=
      { resourceType, resourceId, ownerId, fencingToken := 1, acquiredAt := now, expiresAt := now + ttl,
        heartbeatAt := now }
    .ok (1, { store with leases := Table.insertNew ExecutionLease.key first store.leases })
  | some lease =>
    if lease.expiresAt ≤ now ∨ lease.ownerId = ownerId then
      .ok (lease.fencingToken + 1,
        store.updateLease resourceType resourceId (ExecutionLease.retaken ownerId ttl now))
    else .error ⟨.leaseLost, s!"lease {resourceType}/{resourceId} is held by another owner"⟩

def renew (fencingToken : Nat) (ttl : Int) (now : Timestamp) : Session Nat := Outcome.perform fun store =>
  let refused : Except Failure (Nat × Store) := .error ⟨.leaseLost,
    s!"lease {resourceType}/{resourceId} is not held by {Text.repr ownerId} with token {fencingToken}"⟩
  match store.lease resourceType resourceId with
  | none => refused
  | some lease =>
    if lease.ownerId = ownerId ∧ lease.fencingToken = fencingToken then
      .ok (fencingToken, store.updateLease resourceType resourceId (ExecutionLease.extended ttl now))
    else refused

def release (fencingToken : Nat) : Session Bool := Outcome.perform fun store =>
  match store.lease resourceType resourceId with
  | none => .ok (false, store)
  | some lease =>
    if lease.ownerId = ownerId ∧ lease.fencingToken = fencingToken then
      .ok (true, { store with
        leases := Table.delete ExecutionLease.key (resourceType, resourceId) store.leases })
    else .ok (false, store)

end Leases

/-- The status walk of a run, directly or through `running`. -/
def runStatusPath (current target : RunStatus) : Except Failure (List RunStatus) :=
  if current = target then .ok []
  else if (runStatusTransitions current).contains target then .ok [target]
  else if (runStatusTransitions current).contains .running &&
      (runStatusTransitions .running).contains target then .ok [.running, target]
  else .error ⟨.invalidStatusTransition,
    s!"Run transition {current.value} -> {target.value} is not allowed"⟩

/-- The fenced status change: lease token first, then the revision, then the transition table. -/
def updateStatus (executionId : String) (target : RunStatus) (expectedRevision fencingToken : Nat) :
    Session Execution := Outcome.perform fun store =>
  match store.execution executionId with
  | none => .error ⟨.stateConflict, s!"execution {Text.repr executionId} does not exist"⟩
  | some execution =>
    let held := (store.lease "execution" executionId).map (·.fencingToken)
    if held ≠ some fencingToken then
      .error ⟨.staleFencingToken, s!"execution {Text.repr executionId} expects fencing_token " ++
        s!"{Text.shown (held.map toString)}, got {fencingToken}"⟩
    else if execution.stateRevision ≠ expectedRevision then
      .error ⟨.stateConflict, s!"execution {Text.repr executionId} is at revision " ++
        s!"{execution.stateRevision}, expected {expectedRevision}"⟩
    else do
      let _ ← runStatusPath execution.status target
      let moved := { execution with status := target, stateRevision := execution.stateRevision + 1 }
      pure (moved, { store with
        executions := Table.update Execution.id executionId (fun _ => moved) store.executions })

section Leases

variable {resourceType resourceId ownerId otherType otherId : String} {store after : Store} {token : Nat}

theorem updateLease_self {f : ExecutionLease → ExecutionLease} (keeps : ∀ row, (f row).key = row.key) :
    (store.updateLease resourceType resourceId f).lease resourceType resourceId =
      (store.lease resourceType resourceId).map f :=
  Table.find_update_self fun row here => (keeps row).trans here

theorem updateLease_other {f : ExecutionLease → ExecutionLease} (keeps : ∀ row, (f row).key = row.key)
    (other : (otherType, otherId) ≠ (resourceType, resourceId)) :
    (store.updateLease resourceType resourceId f).lease otherType otherId = store.lease otherType otherId :=
  Table.find_update_other (fun row here => (keeps row).trans here) other

theorem layLease_self {lease : ExecutionLease} (own : lease.key = (resourceType, resourceId))
    (absent : store.lease resourceType resourceId = none) :
    (store.layLease lease).lease resourceType resourceId = some lease :=
  Table.find_insertNew_absent own absent

theorem layLease_other {lease : ExecutionLease} (own : lease.key = (resourceType, resourceId))
    (other : (otherType, otherId) ≠ (resourceType, resourceId)) :
    (store.layLease lease).lease otherType otherId = store.lease otherType otherId :=
  Table.find_insertNew_other (own ▸ other)

theorem dropLease_self : (store.dropLease resourceType resourceId).lease resourceType resourceId = none :=
  Table.find_delete_self

theorem dropLease_other (other : (otherType, otherId) ≠ (resourceType, resourceId)) :
    (store.dropLease resourceType resourceId).lease otherType otherId = store.lease otherType otherId :=
  Table.find_delete_other other

theorem first_key (ttl : Int) (now : Timestamp) :
    (ExecutionLease.first resourceType resourceId ownerId ttl now).key = (resourceType, resourceId) := rfl

theorem retaken_key (ttl : Int) (now : Timestamp) (lease : ExecutionLease) :
    (lease.retaken ownerId ttl now).key = lease.key := rfl

theorem extended_key (ttl : Int) (now : Timestamp) (lease : ExecutionLease) :
    (lease.extended ttl now).key = lease.key := rfl

/-- An acquisition lays the row where none is, and takes a present row over. -/
theorem acquire_cases {ttl : Int} {now : Timestamp}
    (acquired : acquire resourceType resourceId ownerId ttl now store = .ok token after) :
    (store.lease resourceType resourceId = none ∧ token = 1 ∧
      after = store.layLease (.first resourceType resourceId ownerId ttl now)) ∨
    ∃ lease, store.lease resourceType resourceId = some lease ∧ token = lease.fencingToken + 1 ∧
      after = store.updateLease resourceType resourceId (ExecutionLease.retaken ownerId ttl now) := by
  have computed := Outcome.perform_ok.mp acquired
  cases held : store.lease resourceType resourceId with
  | none =>
    simp only [held, Except.ok.injEq, Prod.mk.injEq] at computed
    obtain ⟨rfl, rfl⟩ := computed
    exact Or.inl ⟨rfl, rfl, rfl⟩
  | some lease =>
    by_cases free : lease.expiresAt ≤ now ∨ lease.ownerId = ownerId
    · simp only [held, free, ↓reduceIte, Except.ok.injEq, Prod.mk.injEq] at computed
      obtain ⟨rfl, rfl⟩ := computed
      exact Or.inr ⟨lease, rfl, rfl, rfl⟩
    · simp [held, free] at computed

theorem acquire_ok {ttl : Int} {now : Timestamp}
    (acquired : acquire resourceType resourceId ownerId ttl now store = .ok token after) :
    token = ((store.lease resourceType resourceId).map (·.fencingToken)).getD 0 + 1 ∧
      ((after.lease resourceType resourceId).map fun lease => (lease.ownerId, lease.fencingToken)) =
        some (ownerId, token) ∧
      after = { store with leases := after.leases } := by
  rcases acquire_cases acquired with ⟨absent, rfl, rfl⟩ | ⟨lease, held, rfl, rfl⟩
  · rw [absent, layLease_self (first_key ttl now) absent]
    exact ⟨rfl, rfl, rfl⟩
  · rw [held, updateLease_self (retaken_key ttl now), held]
    exact ⟨rfl, rfl, rfl⟩

theorem acquire_other {ttl : Int} {now : Timestamp}
    (acquired : acquire resourceType resourceId ownerId ttl now store = .ok token after)
    (other : (otherType, otherId) ≠ (resourceType, resourceId)) :
    after.lease otherType otherId = store.lease otherType otherId := by
  rcases acquire_cases acquired with ⟨-, -, rfl⟩ | ⟨lease, -, -, rfl⟩
  · exact layLease_other (first_key ttl now) other
  · exact updateLease_other (retaken_key ttl now) other

/-- The lease is there to be taken: nobody holds it, or the owner does, or its holder's time is over. -/
def Store.leasable (store : Store) (resourceType resourceId ownerId : String) (now : Timestamp) : Prop :=
  ∀ lease, store.lease resourceType resourceId = some lease → lease.expiresAt ≤ now ∨ lease.ownerId = ownerId

theorem acquire_leasable {ttl : Int} {now : Timestamp} (free : store.leasable resourceType resourceId ownerId now) :
    ∃ token after, acquire resourceType resourceId ownerId ttl now store = .ok token after ∧
      (after.lease resourceType resourceId).map (·.expiresAt) = some (now + ttl) := by
  cases held : store.lease resourceType resourceId with
  | none =>
    refine ⟨1, store.layLease (.first resourceType resourceId ownerId ttl now), ?_, ?_⟩
    · exact Outcome.perform_ok.mpr (by simp only [held]; rfl)
    · rw [layLease_self (first_key ttl now) held]
      rfl
  | some lease =>
    refine ⟨lease.fencingToken + 1, _, Outcome.perform_ok.mpr (by simp only [held, free lease held, ↓reduceIte]; rfl), ?_⟩
    rw [updateLease_self (retaken_key ttl now), held]
    rfl

theorem acquire_unleasable {ttl : Int} {now : Timestamp}
    (taken : ¬ store.leasable resourceType resourceId ownerId now) :
    ∃ failure, acquire resourceType resourceId ownerId ttl now store = .error failure store ∧
      failure.kind = .leaseLost := by
  obtain ⟨lease, held, live⟩ : ∃ lease, store.lease resourceType resourceId = some lease ∧
      ¬ (lease.expiresAt ≤ now ∨ lease.ownerId = ownerId) := by
    by_contra nobody
    exact taken fun lease held => by_contra fun live => nobody ⟨lease, held, live⟩
  refine ⟨⟨.leaseLost, s!"lease {resourceType}/{resourceId} is held by another owner"⟩, ?_, rfl⟩
  unfold acquire Outcome.perform
  simp only [held, if_neg live]

theorem release_own {fencingToken : Nat}
    (held : ((store.lease resourceType resourceId).map fun lease => (lease.ownerId, lease.fencingToken)) =
      some (ownerId, fencingToken)) :
    release resourceType resourceId ownerId fencingToken store = .ok true (store.dropLease resourceType resourceId) := by
  obtain ⟨lease, found, same⟩ := Option.map_eq_some_iff.mp held
  obtain ⟨owner, fencing⟩ := Prod.mk.inj same
  refine Outcome.perform_ok.mpr ?_
  rw [found]
  simp only [owner, fencing, and_self, ↓reduceIte]
  rfl

theorem dropLease_layLease {lease : ExecutionLease} (own : lease.key = (resourceType, resourceId))
    (absent : store.lease resourceType resourceId = none) :
    (store.layLease lease).dropLease resourceType resourceId = store := by
  unfold Store.dropLease Store.layLease
  rw [Table.delete_insertNew own absent]

theorem release_acquired {ttl : Int} {now : Timestamp} (absent : store.lease resourceType resourceId = none)
    (acquired : acquire resourceType resourceId ownerId ttl now store = .ok token after) :
    release resourceType resourceId ownerId token after = .ok true store := by
  rw [release_own (acquire_ok acquired).2.1]
  rcases acquire_cases acquired with ⟨-, -, rfl⟩ | ⟨lease, held, -, -⟩
  · rw [dropLease_layLease (first_key ttl now) absent]
  · rw [absent] at held
    cases held

theorem renew_ok {fencingToken : Nat} {ttl : Int} {now : Timestamp}
    (renewed : renew resourceType resourceId ownerId fencingToken ttl now store = .ok token after) :
    ∃ lease, store.lease resourceType resourceId = some lease ∧ lease.ownerId = ownerId ∧
      lease.fencingToken = fencingToken ∧
      after = store.updateLease resourceType resourceId (ExecutionLease.extended ttl now) := by
  have computed := Outcome.perform_ok.mp renewed
  cases held : store.lease resourceType resourceId with
  | none => simp [held] at computed
  | some lease =>
    by_cases mine : lease.ownerId = ownerId ∧ lease.fencingToken = fencingToken
    · simp only [held, mine, and_self, ↓reduceIte, Except.ok.injEq, Prod.mk.injEq] at computed
      exact ⟨lease, rfl, mine.1, mine.2, computed.2.symm⟩
    · simp [held, mine] at computed

theorem release_ok {fencingToken : Nat} {released : Bool}
    (done : release resourceType resourceId ownerId fencingToken store = .ok released after) :
    (released = true ∧ (∃ lease, store.lease resourceType resourceId = some lease ∧
        lease.ownerId = ownerId ∧ lease.fencingToken = fencingToken) ∧
      after = { store with
        leases := Table.delete ExecutionLease.key (resourceType, resourceId) store.leases }) ∨
      (released = false ∧ after = store) := by
  have computed := Outcome.perform_ok.mp done
  cases held : store.lease resourceType resourceId with
  | none =>
    simp only [held, Except.ok.injEq, Prod.mk.injEq] at computed
    exact Or.inr ⟨computed.1.symm, computed.2.symm⟩
  | some lease =>
    by_cases mine : lease.ownerId = ownerId ∧ lease.fencingToken = fencingToken
    · simp only [held, mine, and_self, ↓reduceIte, Except.ok.injEq, Prod.mk.injEq] at computed
      exact Or.inl ⟨computed.1.symm, ⟨lease, rfl, mine⟩, computed.2.symm⟩
    · simp only [held, mine, ↓reduceIte, Except.ok.injEq, Prod.mk.injEq] at computed
      exact Or.inr ⟨computed.1.symm, computed.2.symm⟩

theorem execution_moved {executionId : String} {execution moved : Execution}
    (found : store.execution executionId = some execution) (same : moved.id = executionId) :
    ({ store with executions := Table.update Execution.id executionId (fun _ => moved) store.executions } :
      Store).execution executionId = some moved := by
  have written : Table.find Execution.id executionId
      (Table.update Execution.id executionId (fun _ => moved) store.executions) =
        (store.execution executionId).map fun _ => moved := Table.find_update_self fun _ _ => same
  rw [found] at written
  exact written

/-- The holder of the lease moves the run along one edge of the table. -/
theorem updateStatus_direct {executionId : String} {execution : Execution} {target : RunStatus} {fencingToken : Nat}
    (found : store.execution executionId = some execution)
    (held : (store.lease "execution" executionId).map (·.fencingToken) = some fencingToken)
    (allowed : (runStatusTransitions execution.status).contains target = true) :
    updateStatus executionId target execution.stateRevision fencingToken store =
      .ok { execution with status := target, stateRevision := execution.stateRevision + 1 }
        { store with
          executions := Table.update Execution.id executionId
            (fun _ => { execution with status := target, stateRevision := execution.stateRevision + 1 })
            store.executions } := by
  obtain ⟨path, walked⟩ : ∃ path, runStatusPath execution.status target = .ok path := by
    unfold runStatusPath
    split
    · exact ⟨_, rfl⟩
    · exact ⟨_, rfl⟩
  refine Outcome.perform_ok.mpr ?_
  simp only [found, held, ne_eq, not_true_eq_false, ↓reduceIte, walked]
  rfl

theorem updateStatus_ok {executionId : String} {target : RunStatus} {expectedRevision fencingToken : Nat}
    {moved : Execution}
    (updated : updateStatus executionId target expectedRevision fencingToken store = .ok moved after) :
    ∃ execution path, store.execution executionId = some execution ∧
      (store.lease "execution" executionId).map (·.fencingToken) = some fencingToken ∧
      execution.stateRevision = expectedRevision ∧ runStatusPath execution.status target = .ok path ∧
      moved = { execution with status := target, stateRevision := execution.stateRevision + 1 } ∧
      after = { store with
        executions := Table.update Execution.id executionId (fun _ => moved) store.executions } := by
  have computed := Outcome.perform_ok.mp updated
  cases found : store.execution executionId with
  | none => simp [found] at computed
  | some execution =>
    simp only [found] at computed
    by_cases stale : (store.lease "execution" executionId).map (·.fencingToken) ≠ some fencingToken
    · rw [if_pos stale] at computed
      simp at computed
    rw [if_neg stale] at computed
    by_cases drifted : execution.stateRevision ≠ expectedRevision
    · rw [if_pos drifted] at computed
      simp at computed
    rw [if_neg drifted] at computed
    obtain ⟨path, walked, written⟩ := Outcome.bind_ok.mp computed
    simp only [Outcome.pure_ok, Prod.mk.injEq] at written
    obtain ⟨rfl, rfl⟩ := written
    exact ⟨execution, path, rfl, not_not.mp stale, not_not.mp drifted, walked, rfl, rfl⟩

end Leases

end DarkFactory
