import DarkFactory.State.Frame

namespace DarkFactory

def withdrawAction : String := "run.withdraw"

def withdrawResourceType : String := "run"

inductive WithdrawOutcome | withdrawn | replayed
  deriving DecidableEq, Repr

structure RunWithdrawal where
  outcome : WithdrawOutcome
  run : ChangeRun
  deriving DecidableEq, Repr

structure WithdrawInput where
  runId : String
  actor : String
  ownerId : String
  role : Option String := none
  reason : Option String := none
  idempotencyKey : Option String := none
  leaseTtl : Int := defaultLeaseTtl
  leasedAt : Timestamp
  deriving DecidableEq, Repr

/-- Nothing when the run is already canceled. -/
def withdrawableRun (runId : String) : Session (Option ChangeRun) := do
  let store ← get
  match store.load runId with
  | none => throw ⟨.unknownRun, s!"run {Text.repr runId} does not exist"⟩
  | some run =>
    if run.status = .canceled then pure none
    else if runTerminal run.status then
      throw ⟨.runNotWithdrawable, s!"run {Text.repr runId} is terminal ({run.status.value}); " ++
        "a finished run is never withdrawn"⟩
    else pure (some run)

def auditWithdrawal (input : WithdrawInput) (outcome : String) : Session Unit :=
  modify fun store => { store with
    audit := store.audit ++
      [{ actor := input.actor, role := input.role, action := withdrawAction
         resourceType := withdrawResourceType, resourceId := input.runId
         idempotencyKey := input.idempotencyKey, outcome, reason := input.reason }] }

def reloaded (runId : String) : Session ChangeRun := do
  let store ← get
  match store.load runId with
  | none => throw ⟨.unknownRun, s!"run {Text.repr runId} disappeared"⟩
  | some run => pure run

def replayWithdrawal (input : WithdrawInput) : Session RunWithdrawal := do
  auditWithdrawal input "replayed"
  let run ← reloaded input.runId
  pure { outcome := .replayed, run }

def cancelStages : List StageRun → Session Unit
  | [] => pure ()
  | stageRun :: rest => do
    if stageTerminal stageRun.status then cancelStages rest
    else
      advanceStage stageRun.id .canceled
      cancelStages rest

/-- The part of a withdrawal under the lease: what it saw before is derived anew. -/
def withdrawLeased (input : WithdrawInput) : Session RunWithdrawal := do
  let fencingToken ← acquire leaseResourceType input.runId input.ownerId input.leaseTtl input.leasedAt
  let second ← withdrawableRun input.runId
  match second with
  | none =>
    let _ ← release leaseResourceType input.runId input.ownerId fencingToken
    replayWithdrawal input
  | some run =>
    cancelStages run.stages
    let _ ← updateStatus input.runId .canceled run.stateRevision fencingToken
    let _ ← release leaseResourceType input.runId input.ownerId fencingToken
    auditWithdrawal input "created"
    let withdrawn ← reloaded input.runId
    pure { outcome := .withdrawn, run := withdrawn }

/-- Cancels the run and its open stages under the lease; the flow is not asked and no result is written. -/
def withdrawRun (input : WithdrawInput) : Session RunWithdrawal := do
  let first ← withdrawableRun input.runId
  match first with
  | none => replayWithdrawal input
  | some _ => withdrawLeased input

section Effect

variable {store after : Store}

theorem withdrawableRun_ok {runId : String} {found : Option ChangeRun}
    (done : withdrawableRun runId store = .ok found after) : after = store ∧ ∃ run, store.load runId = some run ∧
      (found = none ∧ run.status = .canceled ∨ found = some run ∧ runTerminal run.status = false) := by
  rw [withdrawableRun, Outcome.state_get_bind] at done
  cases loaded : store.load runId with
  | none => simp [loaded, Outcome.state_throw_ok] at done
  | some run =>
    simp only [loaded] at done
    by_cases canceled : run.status = .canceled
    · rw [if_pos canceled] at done
      obtain ⟨rfl, rfl⟩ := Outcome.state_pure_ok.mp done
      exact ⟨rfl, run, rfl, Or.inl ⟨rfl, canceled⟩⟩
    rw [if_neg canceled] at done
    by_cases terminal : runTerminal run.status = true
    · rw [if_pos terminal] at done
      exact absurd done (by simp [Outcome.state_throw_ok])
    · rw [if_neg terminal] at done
      obtain ⟨rfl, rfl⟩ := Outcome.state_pure_ok.mp done
      exact ⟨rfl, run, rfl, Or.inr ⟨rfl, by simpa using terminal⟩⟩

theorem reloaded_ok {runId : String} {run : ChangeRun} (done : reloaded runId store = .ok run after) :
    after = store := by
  rw [reloaded, Outcome.state_get_bind] at done
  cases loaded : store.load runId with
  | none => simp [loaded, Outcome.state_throw_ok] at done
  | some held =>
    simp only [loaded] at done
    exact (Outcome.state_pure_ok.mp done).2.symm

theorem auditWithdrawal_frame {input : WithdrawInput} {outcome : String} {u : Unit}
    (done : auditWithdrawal input outcome store = .ok u after) : Untouched store after := by
  rw [Outcome.state_modify_ok.mp done]
  exact ⟨rfl, rfl, rfl⟩

theorem replayWithdrawal_frame {input : WithdrawInput} {withdrawal : RunWithdrawal}
    (done : replayWithdrawal input store = .ok withdrawal after) :
    withdrawal.outcome = .replayed ∧ Untouched store after := by
  obtain ⟨u, audited, auditing, rest⟩ := Outcome.state_bind_ok.mp done
  obtain ⟨run, read, reading, finish⟩ := Outcome.state_bind_ok.mp rest
  obtain ⟨rfl, rfl⟩ := Outcome.state_pure_ok.mp finish
  rw [reloaded_ok reading]
  exact ⟨rfl, auditWithdrawal_frame auditing⟩

theorem cancelStages_keeps {stages : List StageRun} {u : Unit}
    (done : cancelStages stages store = .ok u after) :
    Keeps store after ∧ after.executions = store.executions := by
  induction stages generalizing store with
  | nil =>
    obtain ⟨-, rfl⟩ := Outcome.state_pure_ok.mp done
    exact ⟨Keeps.refl _, rfl⟩
  | cons stageRun rest ih =>
    rw [cancelStages] at done
    by_cases finished : stageTerminal stageRun.status = true
    · rw [if_pos finished] at done
      exact ih done
    · rw [if_neg finished] at done
      obtain ⟨u, moved, moving, later⟩ := Outcome.state_bind_ok.mp done
      obtain ⟨keeps, executions⟩ := advanceStage_keeps moving
      obtain ⟨others, same⟩ := ih later
      exact ⟨keeps.trans others, same.trans executions⟩

theorem cancelStages_rows {stages : List StageRun} {u : Unit} (unique : Table.Unique StageRow.id store.stages)
    (done : cancelStages stages store = .ok u after) {row : StageRow} (member : row ∈ after.stages) :
    ∃ old ∈ store.stages, old.identity = row.identity ∧ (row = old ∨ row.status = .canceled) ∧
      ∀ item ∈ stages, item.id = row.id → stageTerminal item.status = false → row.status = .canceled := by
  induction stages generalizing store with
  | nil =>
    obtain ⟨-, rfl⟩ := Outcome.state_pure_ok.mp done
    exact ⟨row, member, rfl, Or.inl rfl, nofun⟩
  | cons stageRun rest ih =>
    rw [cancelStages] at done
    by_cases finished : stageTerminal stageRun.status = true
    · rw [if_pos finished] at done
      obtain ⟨old, present, same, cases, closed⟩ := ih unique done
      refine ⟨old, present, same, cases, ?_⟩
      intro item listed here live
      rcases List.mem_cons.mp listed with rfl | later
      · rw [finished] at live
        cases live
      · exact closed item later here live
    rw [if_neg finished] at done
    obtain ⟨v, moved, moving, later⟩ := Outcome.state_bind_ok.mp done
    obtain ⟨held, path, found, target, rfl⟩ := advanceStage_ok moving
    obtain ⟨middle, present, same, cases, closed⟩ := ih (unique.update fun held => walk_id path held) later
    rcases Table.mem_update.mp present with ⟨there, away⟩ | ⟨old, there, here, rfl⟩
    · refine ⟨middle, there, same, cases, ?_⟩
      intro item listed own live
      rcases List.mem_cons.mp listed with rfl | rest
      · exact absurd ((congrArg Prod.fst same).trans own.symm) away
      · exact closed item rest own live
    · obtain ⟨located, heldId⟩ := Table.find_some found
      have known : held = old := unique.eq located there (heldId.trans here.symm)
      subst known
      have canceled : row.status = .canceled := by
        rcases cases with rfl | canceled
        · exact target
        · exact canceled
      exact ⟨held, there, same, Or.inr canceled, fun _ _ _ _ => canceled⟩

theorem withdrawLeased_steps {input : WithdrawInput} {withdrawal : RunWithdrawal}
    (done : withdrawLeased input store = .ok withdrawal after) :
    (withdrawal.outcome = .replayed ∧ Untouched store after) ∨
      (withdrawal.outcome = .withdrawn ∧ ∃ run token leased canceled u moved updated, store.load input.runId = some run ∧
        runTerminal run.status = false ∧ Untouched store leased ∧ cancelStages run.stages leased = .ok u canceled ∧
        updateStatus input.runId .canceled run.stateRevision token canceled = .ok moved updated ∧
        Untouched updated after) := by
  obtain ⟨token, leased, leasing, underLease⟩ := Outcome.state_bind_ok.mp done
  have leaseFrame := acquire_frame leasing
  obtain ⟨second, again, rereading, decided⟩ := Outcome.state_bind_ok.mp underLease
  obtain ⟨rfl, run, loaded, ⟨rfl, -⟩ | ⟨rfl, live⟩⟩ := withdrawableRun_ok rereading
  · left
    obtain ⟨released, freed, freeing, replaying⟩ := Outcome.state_bind_ok.mp decided
    obtain ⟨replayed, frame⟩ := replayWithdrawal_frame replaying
    exact ⟨replayed, (leaseFrame.trans (release_frame freeing)).trans frame⟩
  · right
    obtain ⟨u, canceled, canceling, settling⟩ := Outcome.state_bind_ok.mp decided
    obtain ⟨moved, updated, updating, closing⟩ := Outcome.state_bind_ok.mp settling
    obtain ⟨released, freed, freeing, recording⟩ := Outcome.state_bind_ok.mp closing
    obtain ⟨v, audited, auditing, reporting⟩ := Outcome.state_bind_ok.mp recording
    obtain ⟨reread, last, finishing, finish⟩ := Outcome.state_bind_ok.mp reporting
    obtain ⟨rfl, rfl⟩ := Outcome.state_pure_ok.mp finish
    rw [load_congr leaseFrame.executions leaseFrame.stages] at loaded
    rw [reloaded_ok finishing]
    exact ⟨rfl, run, token, again, canceled, u, moved, updated, loaded, live, leaseFrame, canceling, updating,
      (release_frame freeing).trans (auditWithdrawal_frame auditing)⟩

theorem withdrawLeased_ok {input : WithdrawInput} {withdrawal : RunWithdrawal}
    (done : withdrawLeased input store = .ok withdrawal after) :
    (withdrawal.outcome = .replayed ∧ Untouched store after) ∨
      (withdrawal.outcome = .withdrawn ∧ Keeps store after ∧ after.runStatus input.runId = some .canceled ∧
        (∀ id, id ≠ input.runId → after.runStatus id = store.runStatus id) ∧
        ∃ run leased canceled u, store.load input.runId = some run ∧ runTerminal run.status = false ∧
          leased.stages = store.stages ∧ cancelStages run.stages leased = .ok u canceled ∧
          after.stages = canceled.stages) := by
  rcases withdrawLeased_steps done with replayed |
    ⟨withdrawn, run, token, leased, canceled, u, moved, updated, loaded, live, leaseFrame, canceling, updating, frame⟩
  · exact Or.inl replayed
  right
  obtain ⟨cancelKeeps, cancelSame⟩ := cancelStages_keeps canceling
  obtain ⟨updateKeeps, updateStages, own, others⟩ := updateStatus_keeps updating
  refine ⟨withdrawn, ((leaseFrame.keeps.trans cancelKeeps).trans updateKeeps).trans frame.keeps,
    (runStatus_congr frame.executions).trans own, ?_, run, leased, canceled, u, loaded, live, leaseFrame.stages,
    canceling, frame.stages.trans updateStages⟩
  intro id other
  calc after.runStatus id
      _ = updated.runStatus id := runStatus_congr frame.executions
      _ = canceled.runStatus id := others id other
      _ = store.runStatus id := runStatus_congr (cancelSame.trans leaseFrame.executions)

theorem withdrawRun_leased {input : WithdrawInput} {withdrawal : RunWithdrawal}
    (done : withdrawRun input store = .ok withdrawal after) :
    (withdrawal.outcome = .replayed ∧ Untouched store after) ∨
      withdrawLeased input store = .ok withdrawal after := by
  unfold withdrawRun at done
  obtain ⟨first, read, reading, rest⟩ := Outcome.state_bind_ok.mp done
  obtain ⟨rfl, run, -, ⟨rfl, -⟩ | ⟨rfl, -⟩⟩ := withdrawableRun_ok reading
  · exact Or.inl (replayWithdrawal_frame rest)
  · exact Or.inr rest

theorem withdrawRun_ok {input : WithdrawInput} {withdrawal : RunWithdrawal}
    (done : withdrawRun input store = .ok withdrawal after) :
    Keeps store after ∧ ∀ id, after.runStatus id = store.runStatus id ∨
      (id = input.runId ∧ after.runStatus id = some .canceled) := by
  rcases withdrawRun_leased done with ⟨-, frame⟩ | leased
  · exact ⟨frame.keeps, fun id => Or.inl (runStatus_congr frame.executions)⟩
  rcases withdrawLeased_ok leased with ⟨-, frame⟩ | ⟨-, keeps, own, others, -⟩
  · exact ⟨frame.keeps, fun id => Or.inl (runStatus_congr frame.executions)⟩
  · refine ⟨keeps, fun id => ?_⟩
    by_cases here : id = input.runId
    · rw [here]
      exact Or.inr ⟨rfl, own⟩
    · exact Or.inl (others id here)

end Effect

end DarkFactory
