import DarkFactory.Runner.Rows

namespace DarkFactory

/-- What commits on runs: a whole transaction, or the part under the lease of an advance whose first look
    others have overtaken. -/
inductive Turn
  | drive (drive : Drive)
  | overtaken (input : AdvanceInput)

def afterTurn (store : Store) : Turn → Store
  | .drive drive => afterDrive store drive
  | .overtaken input => commit (advanceLeased input input.runId) store

def turned (store : Store) (turns : List Turn) : Store := turns.foldl afterTurn store

def committedReport (work : Session RunAdvance) (store : Store) : Option RunAdvance :=
  match work store with
  | .ok report _ => some report
  | .error _ _ => none

def Turn.report (runId : String) (store : Store) : Turn → Option RunAdvance
  | .drive (.create _) => none
  | .drive (.advance input) => if input.runId = runId then reportOf input store else none
  | .overtaken input => if input.runId = runId then committedReport (advanceLeased input input.runId) store else none

def decidedReports (runId : String) : Store → List Turn → List (RunAdvance × FlowDecision)
  | _, [] => []
  | store, turn :: rest =>
    ((turn.report runId store).bind fun report => report.decision.map fun decision => (report, decision)).toList ++
      decidedReports runId (afterTurn store turn) rest

structure Decides (input : AdvanceInput) (before after : Store) (report : RunAdvance) (decision : FlowDecision)
    (run final : ChangeRun) : Prop where
  loaded : before.load input.runId = some run
  live : runTerminal run.status = false
  applied : ∃ history context decisions,
    applyResult report.result history input.now context decisions (moveRun .running run) = .ok decision final
  decided : report.decision = some decision
  self : ∃ execution revision, before.execution input.runId = some execution ∧
    after.execution input.runId = some { execution with
      status := decision.runStatus, stateRevision := revision, budget := some final.budget }
  others : ∀ id, id ≠ input.runId → after.execution id = before.execution id

section Persist

variable {input : AdvanceInput} {identity : AttemptIdentity} {opened : OpenedAttempt} {run : ChangeRun}
  {result : StageResult} {decision : FlowDecision} {store after : Store} {report : RunAdvance}

theorem persistAndReport_executions
    (done : persistAndReport input identity opened run result decision store = .ok report after) :
    (report.decision = none ∧ after.executions = store.executions) ∨
      (report.result = result ∧ report.decision = some decision ∧
        ∃ execution revision, store.execution run.id = some execution ∧
          after.executions = Table.update Execution.id run.id (fun _ => { execution with
            status := decision.runStatus, stateRevision := revision, budget := some run.budget })
            store.executions) := by
  rcases persistAndReport_cases done with ⟨replayed, frame, -⟩ | ⟨rfl, written, released, persisting, releasing⟩
  · exact Or.inl ⟨replayed, frame.executions⟩
  · right
    rcases persistDecision_ok persisting with ⟨replayed, -⟩ | ⟨-, persisted⟩
    · cases replayed
    obtain ⟨execution, revision, present, executions⟩ := persisted.executions
    rw [createdStages_id] at present executions
    rw [(createdStages_frame input _ _).budget] at executions
    exact ⟨rfl, rfl, execution, revision, present, (release_frame releasing).executions.trans executions⟩

end Persist

section Leased

variable {input : AdvanceInput} {before leased after : Store} {run : ChangeRun} {stage : Stage}
  {report : RunAdvance} {runId : String} {token : Nat}

theorem applyResult_id {result : StageResult} {history : List StageResult} {now : Timestamp}
    {context : Option MergeRequestContext} {decisions : List Decision} {decision : FlowDecision} {final : ChangeRun}
    (applied : applyResult result history now context decisions run = .ok decision final) : final.id = run.id := by
  obtain ⟨-, -, -, index, entered, reached, ensured, -, -, rfl⟩ := applyResult_ok applied
  have same : entered.id = run.id := by
    rcases ensureStageRun_ok ensured with ⟨stageRun, -, -, -, rfl⟩ | ⟨-, -, -, rfl⟩ <;> rfl
  rw [Verdict.carry, moveRun_id, enterNext_id]
  cases reached.spends <;> exact (moveRun_id .running entered).trans same

theorem opened_decides {identity : AttemptIdentity} {opened : OpenedAttempt} {opening : Store} {result : StageResult}
    {decision : FlowDecision} {final : ChangeRun} (loaded : before.load input.runId = some run)
    (live : runTerminal run.status = false) (own : identity.run = run) (same : leased.executions = before.executions)
    (opens : openIdentity identity input.createdAt leased = .ok opened opening)
    (applied : ∃ history context decisions,
      applyResult result history input.now context decisions opened.run = .ok decision final)
    (done : persistAndReport input identity opened final result decision opening = .ok report after) :
    (report.decision = none ∧ after.executions = before.executions) ∨
      ∃ decision run final, Decides input before after report decision run final := by
  obtain ⟨running, -, executions⟩ := openIdentity_frame opens
  rw [running, own] at applied
  rw [same] at executions
  rcases persistAndReport_executions done with ⟨replayed, kept⟩ | ⟨rfl, decided, execution, revision, present, written⟩
  · exact Or.inl ⟨replayed, kept.trans executions⟩
  · right
    obtain ⟨history, context, decisions, flow⟩ := applied
    have finalId : final.id = input.runId := by
      rw [applyResult_id flow, moveRun_id]
      exact (load_some loaded).choose_spec.2.1
    rw [executions, finalId] at written
    rw [Store.execution, executions, finalId] at present
    have held : execution.id = input.runId := (Table.find_some present).2
    refine ⟨decision, run, final, loaded, live, ⟨history, context, decisions, flow⟩, decided,
      ⟨execution, revision, present, ?_⟩, ?_⟩
    · rw [Store.execution, written, Table.find_replace (by exact held), present]
      rfl
    · intro id other
      rw [Store.execution, written, Table.find_update_other (fun _ _ => by exact held) other]
      rfl

/-- What runs under the lease changes no row the flow reads, or opens one attempt and persists its decision. -/
theorem advanceLeased_steps (done : advanceLeased input input.runId before = .ok report after) :
    (report.decision = none ∧ Untouched before after) ∨
      ∃ leased run identity opened opening result decision final, Untouched before leased ∧
        before.load input.runId = some run ∧ runTerminal run.status = false ∧ identity.run = run ∧
        openIdentity identity input.createdAt leased = .ok opened opening ∧
        (∃ history context decisions,
          applyResult result history input.now context decisions opened.run = .ok decision final) ∧
        persistAndReport input identity opened final result decision opening = .ok report after := by
  obtain ⟨token, leased, acquired, held⟩ := Outcome.state_bind_ok.mp done
  have frame := acquire_frame acquired
  obtain ⟨run, second, loading, derived⟩ := Outcome.state_bind_ok.mp held
  obtain ⟨rfl, reloaded, live⟩ := advanceableRun_ok loading
  have loaded : before.load input.runId = some run := by
    rw [← load_congr frame.executions frame.stages, reloaded]
  obtain ⟨stage, third, choosing, attempts⟩ := Outcome.state_bind_ok.mp derived
  obtain ⟨rfl, -⟩ := nextStageToExecute_ok choosing
  rw [Outcome.state_get_bind] at attempts
  dsimp only at attempts
  generalize Store.committedResult _ _ _ _ _ = committed at attempts
  cases committed with
  | none =>
    obtain ⟨opened, opening, opens, executes⟩ := Outcome.state_bind_ok.mp attempts
    obtain ⟨result, fourth, executing, rest⟩ := Outcome.state_bind_ok.mp executes
    obtain ⟨-, rfl⟩ := Outcome.lift_ok.mp executing
    rw [Outcome.state_get_bind] at rest
    obtain ⟨⟨decision, final⟩, fifth, applying, persists⟩ := Outcome.state_bind_ok.mp rest
    obtain ⟨applied, rfl⟩ := applyTo_ok applying
    exact Or.inr ⟨_, run, _, opened, _, result, decision, final, frame, loaded, live, rfl, opens,
      ⟨_, _, _, applied⟩, persists⟩
  | some checkpoint =>
    dsimp only at attempts
    generalize resolvedWait _ _ _ _ _ = waits at attempts
    cases waits with
    | some resolver =>
      obtain ⟨opened, opening, opens, resolves⟩ := Outcome.state_bind_ok.mp attempts
      rw [Outcome.state_get_bind] at resolves
      obtain ⟨resolution, fourth, resolving, rest⟩ := Outcome.state_bind_ok.mp resolves
      obtain ⟨-, rfl⟩ := Outcome.lift_ok.mp resolving
      obtain ⟨⟨decision, final⟩, fifth, applying, persists⟩ := Outcome.state_bind_ok.mp rest
      obtain ⟨applied, rfl⟩ := applyTo_ok applying
      exact Or.inr ⟨_, run, _, opened, _, _, decision, final, frame, loaded, live, rfl, opens,
        ⟨_, _, _, applied⟩, persists⟩
    | none =>
      obtain ⟨released, freed, releasing, returned⟩ := Outcome.state_bind_ok.mp attempts
      obtain ⟨rfl, rfl⟩ := Outcome.state_pure_ok.mp returned
      exact Or.inl ⟨rfl, frame.trans (release_frame releasing)⟩

theorem advanceLeased_decides (done : advanceLeased input input.runId before = .ok report after) :
    (report.decision = none ∧ after.executions = before.executions) ∨
      ∃ decision run final, Decides input before after report decision run final := by
  rcases advanceLeased_steps done with ⟨replayed, frame⟩ |
    ⟨leased, run, identity, opened, opening, result, decision, final, frame, loaded, live, own, opens, applied,
      persists⟩
  · exact Or.inl ⟨replayed, frame.executions⟩
  · exact opened_decides loaded live own frame.executions opens applied persists

theorem advanceRun_leased (done : advanceRun input before = .ok report after) :
    (report.decision = none ∧ after = before) ∨ advanceLeased input input.runId before = .ok report after := by
  unfold advanceRun at done
  obtain ⟨run, first, loading, chosen⟩ := Outcome.state_bind_ok.mp done
  obtain ⟨rfl, loaded, -⟩ := advanceableRun_ok loading
  obtain ⟨stage, second, choosing, rest⟩ := Outcome.state_bind_ok.mp chosen
  obtain ⟨rfl, -⟩ := nextStageToExecute_ok choosing
  rw [Outcome.state_get_bind, (load_some loaded).choose_spec.2.1] at rest
  generalize Option.filter _ _ = early at rest
  cases early with
  | some result =>
    obtain ⟨rfl, rfl⟩ := Outcome.state_pure_ok.mp rest
    exact Or.inl ⟨rfl, rfl⟩
  | none => exact Or.inr rest

theorem advanceRun_decides (done : advanceRun input before = .ok report after) :
    (report.decision = none ∧ after.executions = before.executions) ∨
      ∃ decision run final, Decides input before after report decision run final := by
  rcases advanceRun_leased done with ⟨replayed, rfl⟩ | leased
  · exact Or.inl ⟨replayed, rfl⟩
  · exact advanceLeased_decides leased

end Leased

theorem committedReport_cases (work : Session RunAdvance) (store : Store) :
    (committedReport work store = none ∧ commit work store = store) ∨
      ∃ report, committedReport work store = some report ∧ work store = .ok report (commit work store) := by
  unfold committedReport commit
  cases work store with
  | ok report after => exact Or.inr ⟨report, rfl, rfl⟩
  | error failure partway => exact Or.inl ⟨rfl, rfl⟩

theorem afterDrive_advance_eq (input : AdvanceInput) (store : Store) :
    afterDrive store (.advance input) = commit (advanceRun input) store := by
  rw [afterDrive, Drive.perform, commit, commit, map_eq_pure_bind]
  cases advancing : advanceRun input store with
  | ok report after =>
    rw [Outcome.state_bind_eq advancing]
    rfl
  | error failure partway => rw [Outcome.state_bind_error advancing]

section Turns

variable {store : Store} {runId : String}

theorem createRun_execution {input : CreateInput} {run : ChangeRun} {after : Store}
    (done : createRun input store = .ok run after) (present : store.execution runId ≠ none) :
    after.execution runId = store.execution runId := by
  rcases createRun_writes done with rfl | ⟨fresh, row, creating⟩
  · rfl
  · rw [(getOrCreateStage_ok creating).1]
    have apart : runId ≠ input.runId := by
      rintro rfl
      exact present fresh
    exact Table.find_insertNew_other apart

theorem committed_cases {work : Session RunAdvance} {input : AdvanceInput}
    (decides : ∀ report after, work store = .ok report after →
      (report.decision = none ∧ after.executions = store.executions) ∨
        ∃ decision run final, Decides input store after report decision run final) :
    (((if input.runId = runId then committedReport work store else none).bind (·.decision) = none) ∧
        (commit work store).execution runId = store.execution runId) ∨
      ∃ report decision run final, (if input.runId = runId then committedReport work store else none) = some report ∧
        input.runId = runId ∧ Decides input store (commit work store) report decision run final := by
  rcases committedReport_cases work store with ⟨silent, same⟩ | ⟨report, reported, done⟩
  · left
    rw [same, silent]
    simp
  · rcases decides report _ done with ⟨replayed, kept⟩ | ⟨decision, run, final, decided⟩
    · left
      rw [reported, Store.execution, kept]
      split <;> simp [replayed, Store.execution]
    · by_cases own : input.runId = runId
      · exact Or.inr ⟨report, decision, run, final, (if_pos own).trans reported, own, decided⟩
      · left
        rw [if_neg own]
        exact ⟨rfl, decided.others runId (Ne.symm own)⟩

theorem afterTurn_cases (turn : Turn) (present : store.execution runId ≠ none) :
    ((turn.report runId store).bind (·.decision) = none ∧
        (afterTurn store turn).execution runId = store.execution runId) ∨
      ∃ input report decision run final, turn.report runId store = some report ∧ input.runId = runId ∧
        Decides input store (afterTurn store turn) report decision run final := by
  cases turn with
  | drive drive =>
    cases drive with
    | create input =>
      left
      refine ⟨rfl, ?_⟩
      rcases afterDrive_create input store with same | ⟨run, creating⟩
      · rw [afterTurn, same]
      · exact createRun_execution creating present
    | advance input =>
      rw [afterTurn, afterDrive_advance_eq]
      have cases := @committed_cases store runId (advanceRun input) input fun _ _ done => advanceRun_decides done
      rcases cases with quiet | decided
      · exact Or.inl quiet
      · exact Or.inr ⟨input, decided⟩
  | overtaken input =>
    have cases := @committed_cases store runId (advanceLeased input input.runId) input
      fun _ _ done => advanceLeased_decides done
    rcases cases with quiet | decided
    · exact Or.inl quiet
    · exact Or.inr ⟨input, decided⟩

end Turns

end DarkFactory
