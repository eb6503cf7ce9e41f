import DarkFactory.Reconcile.Rules
import DarkFactory.State.Frame

namespace DarkFactory

/-- Five minutes, in microseconds. -/
def globalLeaseTtl : Int := 300000000

def globalLeaseResourceType : String := "reconciler"

def globalLeaseResourceId : String := "global"

def scannedRunStatus (status : RunStatus) : Bool := activeRunStatus status || status = .failed

def actionTarget : ReconcileActionKind → Option RunStatus
  | .supersede => some .superseded
  | .recordMerge => some .succeeded
  | .escalate => some .blocked
  | _ => none

/-- One pass with its observations and the readings of the clock it takes. The engine knows a run or
    not; the observer sees something of it or not. -/
structure PassInput where
  ownerId : String
  engine : Option (String → Option RunStatus) := none
  observer : Option (String → String → Option ExternalFacts) := none
  leaseTtl : Int := globalLeaseTtl
  mergePolicy : MergePolicy := defaultMergePolicy
  now : Timestamp
  globalLeasedAt : Timestamp
  leasedAt : String → Timestamp

structure RunReconciliation where
  runId : String
  changeId : String
  desiredStatus : RunStatus
  desiredRevision : Nat
  observedStatus : Option RunStatus := none
  inSync : Option Bool := none
  action : Option ReconcileAction := none
  applied : Bool := false
  note : Option String := none
  deriving DecidableEq, Repr

structure ReconcileReport where
  leaseAcquired : Bool
  ownerId : String
  scanned : Nat
  entries : List RunReconciliation := []
  deriving DecidableEq, Repr

def PassInput.observed (input : PassInput) (runId : String) : Option RunStatus :=
  input.engine.bind fun status => status runId

def PassInput.external (input : PassInput) (execution : Execution) : Option ExternalFacts :=
  input.observer.bind fun observe => observe execution.id execution.changeId

def Store.attemptsOf (store : Store) (stageId : String) : List Attempt :=
  (store.attempts.filter (·.stageId = stageId)).insertionSort fun left right =>
    left.attemptNumber ≤ right.attemptNumber

def failedTwice (attempts : List Attempt) : Bool :=
  match attempts.reverse with
  | last :: previous :: _ => last.status = .failed && previous.status = .failed
  | _ => false

/-- The first stage row, by id, whose two latest attempts both failed. -/
def Store.repeatedError (store : Store) (executionId : String) : Option Stage :=
  let rows := (store.stages.filter (·.executionId = executionId)).insertionSort fun left right =>
    left.id ≤ right.id
  (rows.find? fun row => failedTwice (store.attemptsOf row.id)).map (·.stage)

def Store.scanned (store : Store) : List Execution :=
  (store.executions.filter fun execution => scannedRunStatus execution.status).insertionSort
    fun left right => left.id ≤ right.id

def activeOfChange (scanned : List Execution) (changeId : String) : List String :=
  (scanned.filter fun execution => activeRunStatus execution.status && execution.changeId = changeId).map (·.id)

def assembleFacts (input : PassInput) (scanned : List Execution) (execution : Execution) (store : Store) :
    RunFacts :=
  let siblings := ((activeOfChange scanned execution.changeId).filter (· ≠ execution.id)).insertionSort (· ≤ ·)
  let facts := (input.external execution).getD {}
  { runId := execution.id
    changeId := execution.changeId
    desiredStatus := execution.status
    desiredRevision := execution.stateRevision
    observedStatus := input.observed execution.id
    lease := (store.lease "execution" execution.id).map fun lease =>
      ⟨lease.ownerId, lease.fencingToken, lease.expiresAt⟩
    activeSiblingIds := siblings
    changeRequest := facts.changeRequest
    branch := facts.branch
    merge := facts.merge
    repeatedError := (store.repeatedError execution.id).isSome
    repeatedErrorStage := (store.repeatedError execution.id).map Stage.value }

def errorText (failure : Failure) : String :=
  let text := Text.join " " (Text.words failure.message)
  if text = "" then failure.kind.className else text

def leaseLost (failure : Failure) : Bool := failure.kind = .leaseLost

def acquireExecution (input : PassInput) (execution : Execution) : Session (Except Failure Nat) :=
  Outcome.caught leaseLost
    (acquire "execution" execution.id input.ownerId input.leaseTtl (input.leasedAt execution.id))

/-- Lease first, then the fenced status; a transition the table forbids is never forced. -/
def applyAction (input : PassInput) (execution : Execution) (action : ReconcileAction) :
    Session (Bool × Option String) :=
  let held := "skipped: a live execution lease is held by another owner"
  if action.kind = .leaseTakeover then do
    let leased ← acquireExecution input execution
    match leased with
    | .error _ => pure (false, some held)
    | .ok token => pure (true, some s!"execution lease taken over with fencing token {token}")
  else
    match actionTarget action.kind with
    | none =>
      pure (false, some s!"{action.kind.value} is planned for its executor, not applied by the pass")
    | some target =>
      if !(runStatusTransitions execution.status).contains target then
        pure (false, some (s!"transition {execution.status.value} -> {target.value} is not allowed; " ++
          "left to the next pass and its executor"))
      else do
        let leased ← acquireExecution input execution
        match leased with
        | .error _ => pure (false, some held)
        | .ok token =>
          let updated ← Outcome.caught (fun failure => failure.kind.isState)
            (updateStatus execution.id target execution.stateRevision token)
          match updated with
          | .error failure => pure (false, some s!"skipped: {errorText failure}")
          | .ok _ => pure (true, some s!"status set to {target.value} under fencing token {token}")

def applyPlanned (input : PassInput) (execution : Execution) (action : Option ReconcileAction) :
    Session (Bool × Option String) :=
  match action with
  | none => pure (false, none)
  | some action => applyAction input execution action

def reconcileOne (input : PassInput) (scanned : List Execution) (execution : Execution) :
    Session RunReconciliation := do
  let store ← get
  let action := planAction (assembleFacts input scanned execution store) input.now input.mergePolicy
  let (applied, note) ← applyPlanned input execution action
  let observed := input.observed execution.id
  pure
    { runId := execution.id, changeId := execution.changeId, desiredStatus := execution.status
      desiredRevision := execution.stateRevision, observedStatus := observed
      inSync := observed.map fun status => decide (execution.status = status)
      action, applied, note }

def reconcileAll (input : PassInput) (scanned : List Execution) : List Execution → Session (List RunReconciliation)
  | [] => pure []
  | execution :: rest => do
    let entry ← reconcileOne input scanned execution
    let entries ← reconcileAll input scanned rest
    pure (entry :: entries)

def runScopedPass (input : PassInput) (globalToken : Nat) : Session ReconcileReport := do
  let store ← get
  let entries ← reconcileAll input store.scanned store.scanned
  let _ ← release globalLeaseResourceType globalLeaseResourceId input.ownerId globalToken
  pure { leaseAcquired := true, ownerId := input.ownerId, scanned := entries.length, entries }

/-- A pass that does not get the global lease changes nothing. -/
def runPass (input : PassInput) : Session ReconcileReport := do
  let leased ← Outcome.caught leaseLost
    (acquire globalLeaseResourceType globalLeaseResourceId input.ownerId input.leaseTtl input.globalLeasedAt)
  match leased with
  | .error _ => pure { leaseAcquired := false, ownerId := input.ownerId, scanned := 0 }
  | .ok globalToken => runScopedPass input globalToken

/-- The run was scanned running, and the observer saw its change request merged. -/
def PassInput.sawMerge (input : PassInput) (execution : Execution) : Prop :=
  execution.status = .running ∧ ∃ facts request, input.external execution = some facts ∧
    facts.changeRequest = some request ∧ request.status = .merged

section Effect

variable {input : PassInput} {execution : Execution} {action : ReconcileAction} {store after : Store}

theorem acquireExecution_keeps {leased : Except Failure Nat}
    (done : acquireExecution input execution store = .ok leased after) :
    Keeps store after ∧ after.executions = store.executions := by
  cases leased with
  | ok token =>
    have frame := acquire_frame (Outcome.caught_ok.mp done)
    exact ⟨frame.keeps, frame.executions⟩
  | error failure =>
    rw [Outcome.caught_error done]
    exact ⟨Keeps.refl _, rfl⟩

theorem succeeded_of_running {status : RunStatus} (allowed : (runStatusTransitions status).contains .succeeded = true) :
    status = .running := by
  revert allowed
  cases status <;> decide

theorem actionTarget_succeeded {kind : ReconcileActionKind} (target : actionTarget kind = some .succeeded) :
    kind = .recordMerge := by
  cases kind <;> simp [actionTarget] at target ⊢

theorem applyAction_ok {outcome : Bool × Option String}
    (done : applyAction input execution action store = .ok outcome after) :
    Keeps store after ∧
      ((∀ id, after.runStatus id = store.runStatus id) ∨
        ∃ target, actionTarget action.kind = some target ∧
          (runStatusTransitions execution.status).contains target = true ∧
          after.runStatus execution.id = some target ∧
          ∀ id, id ≠ execution.id → after.runStatus id = store.runStatus id) := by
  unfold applyAction at done
  by_cases takeover : action.kind = .leaseTakeover
  · rw [if_pos takeover] at done
    obtain ⟨leased, taken, leasing, rest⟩ := Outcome.state_bind_ok.mp done
    obtain ⟨keeps, same⟩ := acquireExecution_keeps leasing
    have final : after = taken := by
      cases leased with
      | ok token => exact (Outcome.state_pure_ok.mp rest).2.symm
      | error failure => exact (Outcome.state_pure_ok.mp rest).2.symm
    rw [final]
    exact ⟨keeps, Or.inl fun id => runStatus_congr same⟩
  rw [if_neg takeover] at done
  cases aimed : actionTarget action.kind with
  | none =>
    simp only [aimed] at done
    obtain ⟨-, rfl⟩ := Outcome.state_pure_ok.mp done
    exact ⟨Keeps.refl _, Or.inl fun id => rfl⟩
  | some target =>
    simp only [aimed] at done
    cases allowed : (runStatusTransitions execution.status).contains target with
    | false =>
      simp only [allowed, Bool.not_false, ↓reduceIte] at done
      obtain ⟨-, rfl⟩ := Outcome.state_pure_ok.mp done
      exact ⟨Keeps.refl _, Or.inl fun id => rfl⟩
    | true =>
      simp only [allowed, Bool.not_true, Bool.false_eq_true, ↓reduceIte] at done
      obtain ⟨leased, taken, leasing, rest⟩ := Outcome.state_bind_ok.mp done
      obtain ⟨keeps, same⟩ := acquireExecution_keeps leasing
      cases leased with
      | error failure =>
        obtain ⟨-, rfl⟩ := Outcome.state_pure_ok.mp rest
        exact ⟨keeps, Or.inl fun id => runStatus_congr same⟩
      | ok token =>
        obtain ⟨updated, moved, updating, finish⟩ := Outcome.state_bind_ok.mp rest
        cases updated with
        | error failure =>
          obtain ⟨-, rfl⟩ := Outcome.state_pure_ok.mp finish
          rw [Outcome.caught_error updating]
          exact ⟨keeps, Or.inl fun id => runStatus_congr same⟩
        | ok written =>
          obtain ⟨-, rfl⟩ := Outcome.state_pure_ok.mp finish
          obtain ⟨moves, -, own, others⟩ := updateStatus_keeps (Outcome.caught_ok.mp updating)
          refine ⟨keeps.trans moves, Or.inr ⟨target, rfl, allowed, own, ?_⟩⟩
          intro id other
          rw [others id other]
          exact runStatus_congr same

theorem reconcileOne_ok {scanned : List Execution} {entry : RunReconciliation}
    (done : reconcileOne input scanned execution store = .ok entry after) :
    Keeps store after ∧ ∀ id, after.runStatus id = some .succeeded →
      store.runStatus id = some .succeeded ∨ (execution.id = id ∧ input.sawMerge execution) := by
  rw [reconcileOne, Outcome.state_get_bind] at done
  obtain ⟨outcome, applied, applying, finish⟩ := Outcome.state_bind_ok.mp done
  obtain ⟨-, rfl⟩ := Outcome.state_pure_ok.mp finish
  cases planned : planAction (assembleFacts input scanned execution store) input.now input.mergePolicy with
  | none =>
    rw [planned] at applying
    obtain ⟨-, rfl⟩ := Outcome.state_pure_ok.mp applying
    exact ⟨Keeps.refl _, fun id succeeded => Or.inl succeeded⟩
  | some action =>
    rw [planned] at applying
    obtain ⟨keeps, unmoved | ⟨target, aimed, allowed, own, others⟩⟩ := applyAction_ok applying
    · refine ⟨keeps, fun id succeeded => Or.inl ?_⟩
      rw [← unmoved id]
      exact succeeded
    · refine ⟨keeps, ?_⟩
      intro id succeeded
      by_cases here : id = execution.id
      · rw [here, own, Option.some.injEq] at succeeded
        rw [succeeded] at aimed allowed
        obtain ⟨request, observed, merged⟩ := planAction_recordMerge planned (actionTarget_succeeded aimed)
        refine Or.inr ⟨here.symm, succeeded_of_running allowed, ?_⟩
        cases seen : input.external execution with
        | none => simp [assembleFacts, seen] at observed
        | some facts =>
          simp only [assembleFacts, seen, Option.getD_some] at observed
          exact ⟨facts, request, rfl, observed, merged⟩
      · rw [others id here] at succeeded
        exact Or.inl succeeded

theorem reconcileAll_ok {scanned executions : List Execution} {entries : List RunReconciliation}
    (done : reconcileAll input scanned executions store = .ok entries after) :
    Keeps store after ∧ ∀ id, after.runStatus id = some .succeeded →
      store.runStatus id = some .succeeded ∨
        ∃ execution ∈ executions, execution.id = id ∧ input.sawMerge execution := by
  induction executions generalizing store entries with
  | nil =>
    obtain ⟨-, rfl⟩ := Outcome.state_pure_ok.mp done
    exact ⟨Keeps.refl _, fun id succeeded => Or.inl succeeded⟩
  | cons execution rest ih =>
    obtain ⟨entry, middle, first, later⟩ := Outcome.state_bind_ok.mp done
    obtain ⟨others, final, remaining, finish⟩ := Outcome.state_bind_ok.mp later
    obtain ⟨-, rfl⟩ := Outcome.state_pure_ok.mp finish
    obtain ⟨keeps, one⟩ := reconcileOne_ok first
    obtain ⟨keepsAll, all⟩ := ih remaining
    refine ⟨keeps.trans keepsAll, ?_⟩
    intro id succeeded
    rcases all id succeeded with before | ⟨held, listed, same, saw⟩
    · rcases one id before with earlier | ⟨same, saw⟩
      · exact Or.inl earlier
      · exact Or.inr ⟨execution, by simp, same, saw⟩
    · exact Or.inr ⟨held, by simp [listed], same, saw⟩

/-- A pass makes a run succeed on an observed merge of a running run alone. -/
theorem runPass_ok {report : ReconcileReport} (wf : WellFormed store)
    (done : runPass input store = .ok report after) :
    Keeps store after ∧ ∀ id, after.runStatus id = some .succeeded →
      store.runStatus id = some .succeeded ∨
        ∃ execution, store.execution id = some execution ∧ input.sawMerge execution := by
  obtain ⟨leased, taken, leasing, rest⟩ := Outcome.state_bind_ok.mp done
  cases leased with
  | error failure =>
    obtain ⟨-, rfl⟩ := Outcome.state_pure_ok.mp rest
    rw [Outcome.caught_error leasing]
    exact ⟨Keeps.refl _, fun id succeeded => Or.inl succeeded⟩
  | ok token =>
    have leased := acquire_frame (Outcome.caught_ok.mp leasing)
    have same := leased.executions
    rw [show (match (Except.ok token : Except Failure Nat) with
      | .error _ => pure { leaseAcquired := false, ownerId := input.ownerId, scanned := 0 }
      | .ok globalToken => runScopedPass input globalToken) = runScopedPass input token from rfl,
      runScopedPass, Outcome.state_get_bind] at rest
    obtain ⟨entries, scanned, scanning, closing⟩ := Outcome.state_bind_ok.mp rest
    obtain ⟨released, freed, freeing, finish⟩ := Outcome.state_bind_ok.mp closing
    obtain ⟨-, rfl⟩ := Outcome.state_pure_ok.mp finish
    obtain ⟨scanKeeps, all⟩ := reconcileAll_ok scanning
    have freed := release_frame freeing
    refine ⟨(leased.keeps.trans scanKeeps).trans freed.keeps, ?_⟩
    intro id succeeded
    rw [runStatus_congr freed.executions] at succeeded
    rcases all id succeeded with before | ⟨execution, listed, rfl, saw⟩
    · rw [runStatus_congr same] at before
      exact Or.inl before
    · refine Or.inr ⟨execution, ?_, saw⟩
      simp only [Store.scanned, List.mem_insertionSort, List.mem_filter, same] at listed
      exact wf.executionsUnique.find listed.1

end Effect

end DarkFactory
