import DarkFactory.Runner.Events
import DarkFactory.Runner.StageRows
import DarkFactory.State.Withdraw

namespace DarkFactory

/-- What commits on runs: turns and withdrawals, also those whose first look others have overtaken. -/
inductive RunStep
  | turn (turn : Turn)
  | withdraw (input : WithdrawInput)
  | overtakenWithdraw (input : WithdrawInput)

def afterRunStep (store : Store) : RunStep → Store
  | .turn turn => afterTurn store turn
  | .withdraw input => commit (withdrawRun input) store
  | .overtakenWithdraw input => commit (withdrawLeased input) store

def stepped (store : Store) (steps : List RunStep) : Store := steps.foldl afterRunStep store

/-- Stage rows have the keys of their operations, and runs ids that cannot be taken for the front of another key. -/
structure Formed (store : Store) : Prop where
  keyed : Keyed store.stages
  runs : ∀ id, store.runStatus id ≠ none → ColonFree id

structure Closed (runId : String) (store : Store) : Prop where
  canceled : store.runStatus runId = some .canceled
  stages : ∀ row ∈ store.stages, row.executionId = runId → stageTerminal row.status = true

structure Writes (runId : String) (before after : Store) : Prop where
  live : ∀ status, before.runStatus runId = some status → runTerminal status = false
  rows : RowSteps runId before.stages after.stages
  others : ∀ id, id ≠ runId → after.runStatus id = before.runStatus id
  free : ColonFree runId

section Steps

variable {store after : Store} {runId : String}

theorem runStatus_load {status : RunStatus} (held : store.runStatus runId = some status) :
    ∃ run, store.load runId = some run ∧ run.status = status := by
  obtain ⟨execution, found, same⟩ := Option.map_eq_some_iff.mp held
  rw [Store.load, found]
  exact ⟨_, rfl, same⟩

theorem load_runStatus {run : ChangeRun} (loaded : store.load runId = some run) :
    store.runStatus runId = some run.status := by
  obtain ⟨execution, found, -, -, status, -⟩ := load_some loaded
  rw [Store.runStatus, found, status]
  rfl

theorem load_live {run : ChangeRun} (loaded : store.load runId = some run) (live : runTerminal run.status = false)
    (status : RunStatus) (held : store.runStatus runId = some status) : runTerminal status = false := by
  rw [load_runStatus loaded, Option.some.injEq] at held
  rw [← held]
  exact live

theorem Formed.empty : Formed {} := ⟨Keyed.nil, fun _ present => absurd rfl present⟩

theorem Formed.free (formed : Formed store) {run : ChangeRun} (loaded : store.load runId = some run) :
    ColonFree runId := by
  apply formed.runs
  rw [load_runStatus loaded]
  exact Option.some_ne_none _

theorem Writes.formed (writes : Writes runId store after) (formed : Formed store) : Formed after := by
  constructor
  · exact writes.rows.keyed writes.free formed.keyed
  · intro id present
    by_cases own : id = runId
    · rw [own]
      exact writes.free
    · apply formed.runs
      rwa [← writes.others id own]

theorem Writes.closed {id : String} (writes : Writes runId store after) (formed : Formed store)
    (closed : Closed id store) : Closed id after := by
  have apart : id ≠ runId := by
    rintro rfl
    cases writes.live _ closed.canceled
  constructor
  · rw [writes.others id apart]
    exact closed.canceled
  · intro row member own
    exact closed.stages row ((writes.rows.other writes.free formed.keyed apart own).mp member) own

theorem createRun_step {input : CreateInput} {run : ChangeRun} (done : createRun input store = .ok run after) :
    after = store ∨ Writes input.runId store after := by
  rcases createRun_writes done with same | ⟨fresh, row, creating⟩
  · exact Or.inl same
  · right
    rw [(getOrCreateStage_ok creating).1]
    refine ⟨?_, placed_rowSteps _ _ _ _, ?_, generatedRunId_colonFree _ _⟩
    · intro status held
      rw [Store.runStatus, fresh] at held
      cases held
    intro id other
    exact congrArg (Option.map Execution.status) (Table.find_insertNew_other other)

theorem advanceLeased_step {input : AdvanceInput} {report : RunAdvance} (formed : Formed store)
    (done : advanceLeased input input.runId store = .ok report after) : Writes input.runId store after := by
  obtain ⟨token, leased, acquired, held⟩ := Outcome.state_bind_ok.mp done
  obtain ⟨run, second, loading, -⟩ := Outcome.state_bind_ok.mp held
  have frame := acquire_frame acquired
  obtain ⟨-, loaded, live⟩ := advanceableRun_ok loading
  rw [load_congr frame.executions frame.stages] at loaded
  refine ⟨load_live loaded live, advanceLeased_rows done, ?_, formed.free loaded⟩
  intro id other
  rcases advanceLeased_decides done with ⟨-, same⟩ | ⟨decision, run, final, decided⟩
  · exact runStatus_congr same
  · rw [Store.runStatus, decided.others id other]
    rfl

theorem cancelStages_rowSteps {stages : List StageRun} {u : Unit}
    (keys : ∀ item ∈ stages, ∃ stage inputRevision, item.id = operationKey runId stage inputRevision)
    (done : cancelStages stages store = .ok u after) : RowSteps runId store.stages after.stages := by
  induction stages generalizing store with
  | nil =>
    obtain ⟨-, rfl⟩ := Outcome.state_pure_ok.mp done
    exact .refl
  | cons stageRun rest ih =>
    rw [List.forall_mem_cons] at keys
    rw [cancelStages] at done
    by_cases finished : stageTerminal stageRun.status = true
    · rw [if_pos finished] at done
      exact ih keys.2 done
    · rw [if_neg finished] at done
      obtain ⟨v, moved, moving, later⟩ := Outcome.state_bind_ok.mp done
      obtain ⟨held, path, -, -, rfl⟩ := advanceStage_ok moving
      obtain ⟨stage, inputRevision, key⟩ := keys.1
      refine .head ?_ (ih keys.2 later)
      rw [key]
      exact .changed _ _ _ _ fun _ => rfl

theorem load_keys (formed : Formed store) {run : ChangeRun} (loaded : store.load runId = some run) :
    ∀ item ∈ run.stages, ∃ stage inputRevision, item.id = operationKey runId stage inputRevision := by
  obtain ⟨execution, -, -, -, -, stages⟩ := load_some loaded
  intro item member
  rw [stages] at member
  obtain ⟨row, listed, rfl⟩ := List.mem_map.mp member
  obtain ⟨present, rfl⟩ := mem_runRows.mp listed
  exact ⟨row.stage, row.inputRevision, formed.keyed.keys row present⟩

theorem cancelStages_closes (formed : Formed store) {run : ChangeRun} (loaded : store.load runId = some run)
    {leased : Store} (same : leased.stages = store.stages) {u : Unit} (done : cancelStages run.stages leased = .ok u after)
    {row : StageRow} (member : row ∈ after.stages) (own : row.executionId = runId) : stageTerminal row.status = true := by
  obtain ⟨execution, -, -, -, -, stages⟩ := load_some loaded
  have unique : Table.Unique StageRow.id leased.stages := by
    rw [same]
    exact formed.keyed.unique
  obtain ⟨old, present, address, cases, closed⟩ := cancelStages_rows unique done member
  rw [same] at present
  rcases cases with rfl | canceled
  · cases terminal : stageTerminal row.status with
    | true => rfl
    | false =>
      have listed : row.stageRun ∈ run.stages := by
        rw [stages]
        exact List.mem_map_of_mem (mem_runRows.mpr ⟨present, own⟩)
      have canceled := closed row.stageRun listed rfl terminal
      rw [canceled] at terminal
      cases terminal
  · rw [canceled]
    rfl

theorem withdrawLeased_step {input : WithdrawInput} {withdrawal : RunWithdrawal} (formed : Formed store)
    (done : withdrawLeased input store = .ok withdrawal after) :
    (withdrawal.outcome = .replayed ∧ Untouched store after) ∨
      (withdrawal.outcome = .withdrawn ∧ Writes input.runId store after ∧ Closed input.runId after ∧
        after.results = store.results) := by
  rcases withdrawLeased_ok done with replayed |
    ⟨withdrawn, keeps, own, others, run, leased, canceled, u, loaded, live, same, canceling, written⟩
  · exact Or.inl replayed
  · have rows := cancelStages_rowSteps (load_keys formed loaded) canceling
    rw [same, ← written] at rows
    refine Or.inr ⟨withdrawn, ⟨load_live loaded live, rows, others, formed.free loaded⟩, ⟨own, ?_⟩, keeps.results⟩
    intro row member mine
    rw [written] at member
    exact cancelStages_closes formed loaded same canceling member mine

theorem afterRunStep_writes (formed : Formed store) (step : RunStep) :
    ((afterRunStep store step).stages = store.stages ∧ (afterRunStep store step).executions = store.executions) ∨
      ∃ runId, Writes runId store (afterRunStep store step) := by
  have leased (input : AdvanceInput) {report : RunAdvance} {next : Store}
      (done : advanceLeased input input.runId store = .ok report next) : ∃ runId, Writes runId store next :=
    ⟨_, advanceLeased_step formed done⟩
  have withdrawn (input : WithdrawInput) {withdrawal : RunWithdrawal} {next : Store}
      (done : withdrawLeased input store = .ok withdrawal next) :
      (next.stages = store.stages ∧ next.executions = store.executions) ∨ ∃ runId, Writes runId store next := by
    rcases withdrawLeased_step formed done with ⟨-, frame⟩ | ⟨-, writes, -⟩
    · exact Or.inl ⟨frame.stages, frame.executions⟩
    · exact Or.inr ⟨_, writes⟩
  cases step with
  | turn turn =>
    cases turn with
    | drive drive =>
      cases drive with
      | create input =>
        rcases afterDrive_create input store with same | ⟨run, creating⟩
        · rw [afterRunStep, afterTurn, same]
          exact Or.inl ⟨rfl, rfl⟩
        · rcases createRun_step creating with same | writes
          · rw [afterRunStep, afterTurn, same]
            exact Or.inl ⟨rfl, rfl⟩
          · exact Or.inr ⟨_, writes⟩
      | advance input =>
        rw [afterRunStep, afterTurn, afterDrive_advance_eq]
        rcases commit_cases (advanceRun input) store with same | ⟨report, done⟩
        · rw [same]
          exact Or.inl ⟨rfl, rfl⟩
        · rcases advanceRun_leased done with ⟨-, same⟩ | rest
          · rw [same]
            exact Or.inl ⟨rfl, rfl⟩
          · exact Or.inr (leased input rest)
    | overtaken input =>
      rw [afterRunStep, afterTurn]
      rcases commit_cases (advanceLeased input input.runId) store with same | ⟨report, done⟩
      · rw [same]
        exact Or.inl ⟨rfl, rfl⟩
      · exact Or.inr (leased input done)
  | withdraw input =>
    rw [afterRunStep]
    rcases commit_cases (withdrawRun input) store with same | ⟨withdrawal, done⟩
    · rw [same]
      exact Or.inl ⟨rfl, rfl⟩
    · rcases withdrawRun_leased done with ⟨-, frame⟩ | rest
      · exact Or.inl ⟨frame.stages, frame.executions⟩
      · exact withdrawn input rest
  | overtakenWithdraw input =>
    rw [afterRunStep]
    rcases commit_cases (withdrawLeased input) store with same | ⟨withdrawal, done⟩
    · rw [same]
      exact Or.inl ⟨rfl, rfl⟩
    · exact withdrawn input done

theorem afterRunStep_formed (formed : Formed store) (step : RunStep) : Formed (afterRunStep store step) := by
  rcases afterRunStep_writes formed step with ⟨stages, executions⟩ | ⟨runId, writes⟩
  · refine ⟨?_, fun id => ?_⟩
    · rw [stages]
      exact formed.keyed
    · rw [runStatus_congr executions]
      exact formed.runs id
  · exact writes.formed formed

/-- A withdrawn run stays withdrawn, whatever step follows. -/
theorem afterRunStep_closed (formed : Formed store) (closed : Closed runId store) (step : RunStep) :
    Closed runId (afterRunStep store step) := by
  rcases afterRunStep_writes formed step with ⟨stages, executions⟩ | ⟨other, writes⟩
  · constructor
    · rw [runStatus_congr executions]
      exact closed.canceled
    · rw [stages]
      exact closed.stages
  · exact writes.closed formed closed

theorem stepped_formed (formed : Formed store) (steps : List RunStep) : Formed (stepped store steps) := by
  induction steps generalizing store with
  | nil => exact formed
  | cons step rest ih => exact ih (afterRunStep_formed formed step)

theorem stepped_closed (formed : Formed store) (closed : Closed runId store) (steps : List RunStep) :
    Closed runId (stepped store steps) := by
  induction steps generalizing store with
  | nil => exact closed
  | cons step rest ih => exact ih (afterRunStep_formed formed step) (afterRunStep_closed formed closed step)

end Steps

section Terminal

variable {store : Store} {runId : String} {run : ChangeRun}

theorem advanceableRun_refuses (loaded : store.load runId = some run) (terminal : runTerminal run.status = true) :
    ∃ failure, advanceableRun runId store = .error failure store := by
  rw [advanceableRun, Outcome.state_get_bind, loaded]
  simp only [terminal, ↓reduceIte]
  exact ⟨_, rfl⟩

/-- Every advance of a terminal run raises; one that overtakes raises under its lease, which is rolled back. -/
theorem advance_refuses {input : AdvanceInput} (loaded : store.load input.runId = some run)
    (terminal : runTerminal run.status = true) :
    (∃ failure, advanceRun input store = .error failure store) ∧
      commit (advanceLeased input input.runId) store = store := by
  constructor
  · obtain ⟨failure, refused⟩ := advanceableRun_refuses loaded terminal
    exact ⟨failure, Outcome.state_bind_error refused⟩
  · rcases commit_cases (advanceLeased input input.runId) store with same | ⟨report, done⟩
    · exact same
    · obtain ⟨token, leased, acquired, held⟩ := Outcome.state_bind_ok.mp done
      obtain ⟨found, second, loading, -⟩ := Outcome.state_bind_ok.mp held
      have frame := acquire_frame acquired
      obtain ⟨-, reloaded, live⟩ := advanceableRun_ok loading
      rw [load_congr frame.executions frame.stages, loaded, Option.some.injEq] at reloaded
      rw [← reloaded, terminal] at live
      cases live

theorem withdrawableRun_refuses (loaded : store.load runId = some run) (terminal : runTerminal run.status = true)
    (other : run.status ≠ .canceled) : ∃ failure, withdrawableRun runId store = .error failure store := by
  rw [withdrawableRun, Outcome.state_get_bind, loaded]
  simp only [other, terminal, ↓reduceIte]
  exact ⟨_, rfl⟩

theorem withdraw_refuses {input : WithdrawInput} (loaded : store.load input.runId = some run)
    (terminal : runTerminal run.status = true) (other : run.status ≠ .canceled) :
    (∃ failure, withdrawRun input store = .error failure store) ∧ commit (withdrawLeased input) store = store := by
  constructor
  · obtain ⟨failure, refused⟩ := withdrawableRun_refuses loaded terminal other
    exact ⟨failure, Outcome.state_bind_error refused⟩
  · rcases commit_cases (withdrawLeased input) store with same | ⟨withdrawal, done⟩
    · exact same
    · obtain ⟨token, leased, acquired, held⟩ := Outcome.state_bind_ok.mp done
      obtain ⟨found, second, loading, -⟩ := Outcome.state_bind_ok.mp held
      have frame := acquire_frame acquired
      obtain ⟨failure, refused⟩ := withdrawableRun_refuses
        ((load_congr frame.executions frame.stages input.runId).trans loaded) terminal other
      rw [refused] at loading
      cases loading

theorem reloaded_eq (loaded : store.load runId = some run) : reloaded runId store = .ok run store := by
  rw [reloaded, Outcome.state_get_bind, loaded]
  rfl

theorem replayWithdrawal_eq (input : WithdrawInput) (loaded : store.load input.runId = some run) :
    ∃ next, replayWithdrawal input store = .ok { outcome := .replayed, run } next := by
  rw [replayWithdrawal, auditWithdrawal, Outcome.state_modify_bind]
  generalize same : ({ store with audit := _ } : Store) = audited
  have kept : audited.load input.runId = some run := by
    rw [← same, ← loaded]
    rfl
  rw [Outcome.state_bind_eq (reloaded_eq kept)]
  exact ⟨_, rfl⟩

theorem withdraw_replays {input : WithdrawInput} (closed : Closed input.runId store) :
    (∃ withdrawal, withdrawRun input store = .ok withdrawal (commit (withdrawRun input) store) ∧
      withdrawal.outcome = .replayed) ∧
    Untouched store (commit (withdrawRun input) store) ∧ Untouched store (commit (withdrawLeased input) store) := by
  obtain ⟨run, loaded, canceled⟩ := runStatus_load closed.canceled
  have found : withdrawableRun input.runId store = .ok none store := by
    rw [withdrawableRun, Outcome.state_get_bind, loaded]
    simp only [canceled, ↓reduceIte]
    rfl
  obtain ⟨next, replaying⟩ := replayWithdrawal_eq input loaded
  have done : withdrawRun input store = .ok { outcome := .replayed, run } next := by
    rw [withdrawRun, Outcome.state_bind_eq found]
    exact replaying
  have committed : commit (withdrawRun input) store = next := by rw [commit, done]
  rw [committed]
  refine ⟨⟨_, done, rfl⟩, (replayWithdrawal_frame replaying).2, ?_⟩
  rcases commit_cases (withdrawLeased input) store with same | ⟨withdrawal, leased⟩
  · rw [same]
    exact Untouched.refl store
  · rcases withdrawLeased_ok leased with ⟨-, frame⟩ | ⟨-, -, -, -, held, -, -, -, reloaded, live, -⟩
    · exact frame
    · rw [loaded, Option.some.injEq] at reloaded
      rw [← reloaded, canceled] at live
      cases live

end Terminal

structure WithdrawnForGood (runId : String) (store : Store) : Prop where
  closed : Closed runId store
  advances : ∀ advance : AdvanceInput, advance.runId = runId →
    (∃ failure, advanceRun advance store = .error failure store) ∧
      commit (advanceLeased advance advance.runId) store = store
  withdraws : ∀ again : WithdrawInput, again.runId = runId →
    (∃ withdrawal, withdrawRun again store = .ok withdrawal (commit (withdrawRun again) store) ∧
      withdrawal.outcome = .replayed) ∧
    Untouched store (commit (withdrawRun again) store) ∧ Untouched store (commit (withdrawLeased again) store)

theorem Closed.forGood {runId : String} {store : Store} (closed : Closed runId store) :
    WithdrawnForGood runId store := by
  obtain ⟨run, loaded, canceled⟩ := runStatus_load closed.canceled
  refine ⟨closed, ?_, ?_⟩
  · rintro advance rfl
    exact advance_refuses loaded (by rw [canceled]; rfl)
  · rintro again rfl
    exact withdraw_replays closed

/-- Withdrawal is terminal and keeps the history: from any reachable store, a run that was withdrawn is canceled with
    its stages closed and its results as they were, after any further steps too, and a finished run is not changed. -/
theorem withdrawal_is_final (steps : List RunStep) (input : WithdrawInput) :
    (∀ work ∈ [withdrawRun input, withdrawLeased input], ∀ withdrawal after,
      work (stepped {} steps) = .ok withdrawal after → withdrawal.outcome = .withdrawn →
        after.results = (stepped {} steps).results ∧ ∀ later, WithdrawnForGood input.runId (stepped after later)) ∧
    ∀ status ∈ [RunStatus.succeeded, .failed, .superseded],
      (stepped {} steps).runStatus input.runId = some status →
        (∃ failure, withdrawRun input (stepped {} steps) = .error failure (stepped {} steps)) ∧
          commit (withdrawLeased input) (stepped {} steps) = stepped {} steps := by
  have formed := stepped_formed Formed.empty steps
  generalize stepped {} steps = store at formed ⊢
  constructor
  · intro work either withdrawal after done withdrawn
    have leased : withdrawLeased input store = .ok withdrawal after := by
      simp only [List.mem_cons, List.not_mem_nil, or_false] at either
      rcases either with rfl | rfl
      · rcases withdrawRun_leased done with ⟨replayed, -⟩ | leased
        · rw [withdrawn] at replayed
          cases replayed
        · exact leased
      · exact done
    rcases withdrawLeased_step formed leased with ⟨replayed, -⟩ | ⟨-, writes, closed, results⟩
    · rw [withdrawn] at replayed
      cases replayed
    · exact ⟨results, fun later => (stepped_closed (writes.formed formed) closed later).forGood⟩
  · intro status listed held
    obtain ⟨run, loaded, same⟩ := runStatus_load held
    simp only [List.mem_cons, List.not_mem_nil, or_false] at listed
    apply withdraw_refuses loaded
    · rcases listed with rfl | rfl | rfl <;> rw [same] <;> rfl
    · rcases listed with rfl | rfl | rfl <;> rw [same] <;> decide

def operatorWithdrawal (at_ : Timestamp) : WithdrawInput :=
  { runId := quickRun.runId, actor := "operator", ownerId := "cli", leasedAt := at_ }

/-- The parked quick run is withdrawn, and neither its resumption nor a second withdrawal brings it back. -/
theorem parked_run_withdrawn : ∃ withdrawal after,
    withdrawRun (operatorWithdrawal 2) (stepped {} [.turn (.drive (.create quickRun)),
      .turn (.drive (.advance (specificationParked 1)))]) = .ok withdrawal after ∧
    WithdrawnForGood quickRun.runId
      (stepped after [.turn (.drive (.advance (specificationParked 3))), .withdraw (operatorWithdrawal 4)]) := by
  have computed : (match withdrawRun (operatorWithdrawal 2) (stepped {} [.turn (.drive (.create quickRun)),
      .turn (.drive (.advance (specificationParked 1)))]) with
    | .ok withdrawal _ => some withdrawal.outcome
    | .error _ _ => none) = some .withdrawn := by decide +kernel
  have final := (withdrawal_is_final [.turn (.drive (.create quickRun)),
    .turn (.drive (.advance (specificationParked 1)))] (operatorWithdrawal 2)).1
  generalize stepped {} _ = store at computed final ⊢
  cases done : withdrawRun (operatorWithdrawal 2) store with
  | error failure partway => simp [done] at computed
  | ok withdrawal after =>
    simp only [done, Option.some.injEq] at computed
    exact ⟨withdrawal, after, rfl, (final _ List.mem_cons_self withdrawal after done computed).2 _⟩

end DarkFactory
