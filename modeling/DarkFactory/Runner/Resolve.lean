import DarkFactory.Runner.Scripts
import DarkFactory.Runner.Turns
import DarkFactory.State.Withdraw

namespace DarkFactory

structure IntakeBrief where
  problem : Option String := none
  goal : Option String := none
  constraints : List String := []
  outOfScope : List String := []
  sourceText : Option String := none
  error : Option String := none
  deriving DecidableEq, Repr

structure SpendLimit where
  costBudgetUsd : Decimal
  tokenBudget : Option Nat := none
  positive : 0 < costBudgetUsd.unscaled := by decide
  deriving DecidableEq

def SpendLimit.toBudget (limit : SpendLimit) : BudgetSnapshot :=
  { costBudget := some limit.costBudgetUsd, tokenBudget := limit.tokenBudget }

/-- The stored document of a change; what no edit touches is left to its text. -/
structure IntakeDocument where
  change : Change
  product : RepositoryRef
  brief : Option IntakeBrief := none
  spendLimit : Option SpendLimit := none
  deriving DecidableEq

def IntakeDocument.id (document : IntakeDocument) : String := document.change.id

/-- A run without a contract takes the given one; another contract is refused. -/
def attachContract (runId : String) (contract : ImplementationContract) : Session Unit := Outcome.perform fun store =>
  match store.execution runId with
  | none => .error ⟨.state, s!"unknown execution {Text.repr runId}"⟩
  | some execution =>
    match execution.implementationContract with
    | some existing =>
      if existing ≠ contract then
        .error ⟨.contractConflict, s!"run {Text.repr runId} already carries a different implementation contract"⟩
      else .ok ((), store)
    | none =>
      let attach (row : Execution) : Execution := { row with implementationContract := some contract }
      .ok ((), { store with executions := Table.update Execution.id runId attach store.executions })

def defaultRunRoute : Route := .standard

/-- `run advance --change-id`: the input of the advance but for the run and the snapshot it resolves to. -/
structure AdvanceCommand where
  changeId : String
  contract : Option ImplementationContract := none
  input : AdvanceInput

section Command

variable (toJson : IntakeDocument → String)

def AdvanceCommand.creation (command : AdvanceCommand) (document : IntakeDocument) : CreateInput :=
  { changeId := document.id
    route := defaultRunRoute
    provider := document.product.provider
    budget := (document.spendLimit.map SpendLimit.toBudget).getD {}
    inputRevision := stageInputRevision (toJson document)
    implementationContract := command.contract
    initialStageRevision := command.input.revisionOf.map fun revisionOf =>
      revisionOf document.change (routeProfile defaultRunRoute).initialStage
    createdAt := command.input.createdAt }

def resolveRun (command : AdvanceCommand) (document : IntakeDocument) : Session String := do
  let created ← createRun (command.creation toJson document)
  match command.contract with
  | some contract => attachContract created.id contract
  | none => pure ()
  return created.id

def advanceChange (command : AdvanceCommand) (document : IntakeDocument) : Session RunAdvance := do
  let runId ← resolveRun toJson command document
  advanceRun { command.input with runId, change := document.change, changeJson := toJson document }

end Command

structure Site where
  store : Store := {}
  documents : List IntakeDocument

inductive Command
  | advance (command : AdvanceCommand)
  | updateBrief (changeId : String) (brief : IntakeBrief)
  | withdraw (input : WithdrawInput)

def Site.document (site : Site) (changeId : String) : Option IntakeDocument :=
  Table.find IntakeDocument.id changeId site.documents

def IntakeDocument.withBrief (brief : IntakeBrief) (document : IntakeDocument) : IntakeDocument :=
  { document with brief := some brief }

def afterCommand (toJson : IntakeDocument → String) (site : Site) : Command → Site
  | .advance command =>
    match site.document command.changeId with
    | some document => { site with store := commit (advanceChange toJson command document) site.store }
    | none => site
  | .updateBrief changeId brief =>
    { site with documents := Table.update IntakeDocument.id changeId (IntakeDocument.withBrief brief) site.documents }
  | .withdraw input => { site with store := commit (withdrawRun input) site.store }

def ActiveRun (store : Store) (changeId id : String) : Prop :=
  ∃ execution, store.execution id = some execution ∧ execution.changeId = changeId ∧
    runTerminal execution.status = false

def OneActive (store : Store) (changeId : String) : Prop :=
  ∀ first second, ActiveRun store changeId first → ActiveRun store changeId second → first = second

/-- A command that starts a run finds no run of its change still active. -/
def StartsAlone (toJson : IntakeDocument → String) (site : Site) : Command → Prop
  | .advance command => ∀ document, site.document command.changeId = some document →
      site.store.execution (command.creation toJson document).runId = none → ∀ id, ¬ ActiveRun site.store document.id id
  | .updateBrief _ _ | .withdraw _ => True

/-- Every run was there before, of the same change, and none came back from its end. -/
def RunsKept (before after : Store) : Prop :=
  ∀ id moved, after.execution id = some moved → ∃ old, before.execution id = some old ∧
    moved.changeId = old.changeId ∧ (runTerminal moved.status = false → runTerminal old.status = false)

section RunsKept

variable {store before middle after : Store}

theorem RunsKept.refl (store : Store) : RunsKept store store :=
  fun _ execution found => ⟨execution, found, rfl, id⟩

theorem RunsKept.trans (first : RunsKept before middle) (second : RunsKept middle after) : RunsKept before after := by
  intro id moved found
  obtain ⟨between, there, change, live⟩ := second id moved found
  obtain ⟨old, held, change', live'⟩ := first id between there
  exact ⟨old, held, change.trans change', fun open_ => live' (live open_)⟩

theorem RunsKept.of_eq (same : after.executions = before.executions) : RunsKept before after := by
  intro id moved found
  rw [Store.execution, same] at found
  exact ⟨moved, found, rfl, fun live => live⟩

theorem RunsKept.of_update {runId : String} {f : Execution → Execution}
    (written : after.executions = Table.update Execution.id runId f before.executions)
    (keeps : ∀ row, row.id = runId → (f row).id = runId)
    (own : ∀ old, before.execution runId = some old → (f old).changeId = old.changeId ∧
      (runTerminal (f old).status = false → runTerminal old.status = false)) : RunsKept before after := by
  intro id moved found
  rw [Store.execution, written] at found
  by_cases here : id = runId
  · subst here
    rw [Table.find_update_self keeps] at found
    obtain ⟨old, there, rfl⟩ := Option.map_eq_some_iff.mp found
    exact ⟨old, there, own old there⟩
  · rw [Table.find_update_other keeps here] at found
    exact ⟨moved, found, rfl, fun live => live⟩

theorem RunsKept.active {changeId id : String} (kept : RunsKept before after) (active : ActiveRun after changeId id) :
    ActiveRun before changeId id := by
  obtain ⟨moved, found, owner, live⟩ := active
  obtain ⟨old, there, same, back⟩ := kept id moved found
  exact ⟨old, there, same.symm.trans owner, back live⟩

theorem RunsKept.oneActive {changeId : String} (kept : RunsKept before after) (one : OneActive before changeId) :
    OneActive after changeId :=
  fun first second left right => one first second (kept.active left) (kept.active right)

theorem runStatusPath_terminal {current target : RunStatus} {path : List RunStatus}
    (moves : runStatusPath current target = .ok path) (live : runTerminal target = false) :
    runTerminal current = false := by
  cases current <;> cases target <;>
    simp_all [runStatusPath, runStatusTransitions, runTerminal]

theorem updateStatus_kept {runId : String} {target : RunStatus} {expectedRevision token : Nat} {moved : Execution}
    (done : updateStatus runId target expectedRevision token store = .ok moved after) : RunsKept store after := by
  obtain ⟨execution, path, found, -, -, moves, movedEq, written⟩ := updateStatus_ok done
  have named : moved.id = runId := by
    rw [movedEq]
    exact (Table.find_some found).2
  have executions : after.executions = Table.update Execution.id runId (fun _ => moved) store.executions := by
    rw [written]
  refine RunsKept.of_update executions (fun _ _ => named) ?_
  intro old there
  rw [found, Option.some.injEq] at there
  subst there
  rw [movedEq]
  exact ⟨rfl, fun live => runStatusPath_terminal moves live⟩

end RunsKept

theorem Decides.kept {input : AdvanceInput} {before after : Store} {report : RunAdvance} {decision : FlowDecision}
    {run final : ChangeRun} (decides : Decides input before after report decision run final) :
    RunsKept before after := by
  obtain ⟨execution, revision, present, written⟩ := decides.self
  intro id moved found
  by_cases own : id = input.runId
  · subst own
    rw [written, Option.some.injEq] at found
    subst found
    obtain ⟨held, there, -, -, same, -⟩ := load_some decides.loaded
    rw [present, Option.some.injEq] at there
    refine ⟨execution, present, rfl, fun _ => ?_⟩
    rw [there, ← same]
    exact decides.live
  · rw [decides.others id own] at found
    exact ⟨moved, found, rfl, fun live => live⟩

theorem advanceRun_kept {input : AdvanceInput} {store after : Store} {report : RunAdvance}
    (done : advanceRun input store = .ok report after) : RunsKept store after := by
  rcases advanceRun_decides done with ⟨-, same⟩ | ⟨decision, run, final, decides⟩
  · exact RunsKept.of_eq same
  · exact decides.kept

section Commands

variable {store after : Store}

theorem withdrawRun_kept {input : WithdrawInput} {withdrawal : RunWithdrawal}
    (done : withdrawRun input store = .ok withdrawal after) : RunsKept store after := by
  rcases withdrawRun_leased done with ⟨-, frame⟩ | leased
  · exact RunsKept.of_eq frame.executions
  rcases withdrawLeased_steps leased with ⟨-, frame⟩ |
    ⟨-, run, token, leased, canceled, u, moved, updated, -, -, leaseFrame, canceling, updating, frame⟩
  · exact RunsKept.of_eq frame.executions
  · have opened : RunsKept store canceled :=
      RunsKept.of_eq ((cancelStages_keeps canceling).2.trans leaseFrame.executions)
    exact (opened.trans (updateStatus_kept updating)).trans (RunsKept.of_eq frame.executions)

theorem attachContract_kept {runId : String} {contract : ImplementationContract} {u : Unit}
    (done : attachContract runId contract store = .ok u after) : RunsKept store after := by
  have computed := Outcome.perform_ok.mp done
  cases found : store.execution runId with
  | none => simp [found] at computed
  | some execution =>
    simp only [found] at computed
    cases held : execution.implementationContract with
    | some existing =>
      simp only [held] at computed
      split at computed
      · cases computed
      · cases computed
        exact RunsKept.refl _
    | none =>
      simp only [held, Except.ok.injEq, Prod.mk.injEq, true_and] at computed
      subst computed
      exact RunsKept.of_update rfl (fun _ here => here) fun _ _ => ⟨rfl, fun live => live⟩

theorem createRun_brings {input : CreateInput} {run : ChangeRun} (done : createRun input store = .ok run after) :
    (RunsKept store after) ∨
      (store.execution input.runId = none ∧ ∀ id moved, after.execution id = some moved →
        store.execution id = some moved ∨ (id = input.runId ∧ moved.changeId = input.changeId)) := by
  rcases createRun_writes done with rfl | ⟨fresh, row, laying⟩
  · exact Or.inl (RunsKept.refl _)
  · refine Or.inr ⟨fresh, ?_⟩
    intro id moved found
    rw [Store.execution, (getOrCreateStage_ok laying).1] at found
    rcases Table.find_insertNew_some found with old | ⟨rfl, rfl⟩
    · exact Or.inl old
    · exact Or.inr ⟨rfl, rfl⟩

theorem advanceChange_brings {toJson : IntakeDocument → String} {command : AdvanceCommand}
    {document : IntakeDocument} {report : RunAdvance}
    (done : advanceChange toJson command document store = .ok report after) :
    (RunsKept store after) ∨
      (store.execution (command.creation toJson document).runId = none ∧ ∃ middle, RunsKept middle after ∧
        ∀ id moved, middle.execution id = some moved → store.execution id = some moved ∨
          (id = (command.creation toJson document).runId ∧ moved.changeId = document.id)) := by
  obtain ⟨runId, resolved, resolving, advancing⟩ := Outcome.state_bind_ok.mp done
  obtain ⟨run, created, creating, attaching⟩ := Outcome.state_bind_ok.mp resolving
  have attached : RunsKept created resolved := by
    cases given : command.contract with
    | none =>
      rw [given] at attaching
      rw [← (Outcome.state_pure_ok.mp attaching).2]
      exact RunsKept.refl _
    | some contract =>
      simp only [given] at attaching
      obtain ⟨u, written, writing, finish⟩ := Outcome.state_bind_ok.mp attaching
      rw [← (Outcome.state_pure_ok.mp finish).2]
      exact attachContract_kept writing
  have later : RunsKept created after := attached.trans (advanceRun_kept advancing)
  rcases createRun_brings creating with kept | ⟨fresh, brought⟩
  · exact Or.inl (kept.trans later)
  · exact Or.inr ⟨fresh, created, later, brought⟩

end Commands

/-- Every run of the change after the step was there before it. -/
def StartsNone (before after : Store) (changeId : String) : Prop :=
  ∀ id moved, after.execution id = some moved → moved.changeId = changeId → before.execution id ≠ none

theorem RunsKept.startsNone {before after : Store} (kept : RunsKept before after) (changeId : String) :
    StartsNone before after changeId := by
  intro id moved found _
  obtain ⟨old, there, -⟩ := kept id moved found
  simp [there]

section Step

variable {toJson : IntakeDocument → String} {site : Site} {command : Command}

theorem afterCommand_brings (alone : StartsAlone toJson site command) :
    (RunsKept site.store (afterCommand toJson site command).store) ∨
      ∃ changeId runId, (∀ id, ¬ ActiveRun site.store changeId id) ∧
        ∃ middle, RunsKept middle (afterCommand toJson site command).store ∧
          ∀ id moved, middle.execution id = some moved → site.store.execution id = some moved ∨
            (id = runId ∧ moved.changeId = changeId) := by
  cases command with
  | updateBrief changeId brief => exact Or.inl (RunsKept.refl _)
  | withdraw input =>
    left
    show RunsKept site.store (commit (withdrawRun input) site.store)
    rcases commit_cases (withdrawRun input) site.store with same | ⟨withdrawal, done⟩
    · rw [same]
      exact RunsKept.refl _
    · exact withdrawRun_kept done
  | advance command =>
    cases known : site.document command.changeId with
    | none =>
      simp only [afterCommand, known]
      exact Or.inl (RunsKept.refl _)
    | some document =>
      simp only [afterCommand, known]
      rcases commit_cases (advanceChange toJson command document) site.store with same | ⟨report, done⟩
      · rw [same]
        exact Or.inl (RunsKept.refl _)
      · rcases advanceChange_brings done with kept | ⟨fresh, middle, later, brought⟩
        · exact Or.inl kept
        · exact Or.inr ⟨document.id, _, alone document known fresh, middle, later, brought⟩

theorem afterCommand_oneActive (alone : StartsAlone toJson site command) {changeId : String}
    (one : OneActive site.store changeId) : OneActive (afterCommand toJson site command).store changeId := by
  rcases afterCommand_brings alone with kept | ⟨owner, runId, idle, middle, later, brought⟩
  · exact kept.oneActive one
  · apply later.oneActive
    intro first second left right
    obtain ⟨firstRun, firstFound, firstOwner, firstLive⟩ := left
    obtain ⟨secondRun, secondFound, secondOwner, secondLive⟩ := right
    rcases brought first firstRun firstFound with firstOld | ⟨rfl, firstNew⟩
    · rcases brought second secondRun secondFound with secondOld | ⟨rfl, secondNew⟩
      · exact one first second ⟨firstRun, firstOld, firstOwner, firstLive⟩ ⟨secondRun, secondOld, secondOwner, secondLive⟩
      · rw [← secondNew, secondOwner] at idle
        exact absurd ⟨firstRun, firstOld, firstOwner, firstLive⟩ (idle first)
    · rcases brought second secondRun secondFound with secondOld | ⟨rfl, -⟩
      · rw [← firstNew, firstOwner] at idle
        exact absurd ⟨secondRun, secondOld, secondOwner, secondLive⟩ (idle second)
      · rfl

theorem afterCommand_startsNone (alone : StartsAlone toJson site command) {changeId id : String}
    (active : ActiveRun site.store changeId id) :
    StartsNone site.store (afterCommand toJson site command).store changeId := by
  rcases afterCommand_brings alone with kept | ⟨owner, runId, idle, middle, later, brought⟩
  · exact kept.startsNone changeId
  · intro other moved found own
    obtain ⟨between, there, same, -⟩ := later other moved found
    rcases brought other between there with old | ⟨-, new⟩
    · simp [old]
    · rw [← new, ← same, own] at idle
      exact absurd active (idle id)

end Step

/-- As long as a run is started only when no run of its change is active, a change never has two active
    runs, and while one is active no command starts another with a budget of its own. -/
theorem one_active_run (toJson : IntakeDocument → String) (documents : List IntakeDocument)
    (commands : List Command)
    (alone : Trace.Along (afterCommand toJson) (StartsAlone toJson) { documents := documents } commands)
    (changeId : String) :
    (∀ before after, commands = before ++ after →
      OneActive (before.foldl (afterCommand toJson) { documents := documents }).store changeId) ∧
    (∀ before command after, commands = before ++ command :: after → ∀ id,
      ActiveRun (before.foldl (afterCommand toJson) { documents := documents }).store changeId id →
      StartsNone (before.foldl (afterCommand toJson) { documents := documents }).store
        (afterCommand toJson (before.foldl (afterCommand toJson) { documents := documents }) command).store
        changeId) := by
  constructor
  · rintro before after rfl
    have empty : OneActive (Site.store { documents := documents }) changeId := by
      rintro first second ⟨run, found, -⟩
      cases found
    have step (site : Site) (command : Command) (one : OneActive site.store changeId)
        (met : StartsAlone toJson site command) : OneActive (afterCommand toJson site command).store changeId :=
      afterCommand_oneActive met one
    have held := Trace.invariant step empty (Trace.along_append.mp alone).1
    exact held
  · rintro before command after rfl id active
    exact afterCommand_startsNone (Trace.along_at alone).2 active

/-- The serialized text of a document without spend limit, change request or further fields. -/
def intakeJson (document : IntakeDocument) : String :=
  let quoted (text : Option String) : String := (text.map fun text => "\"" ++ text ++ "\"").getD "null"
  let brief := match document.brief with
    | none => "null"
    | some brief =>
      "\x7b\n    \"problem\": " ++ quoted brief.problem ++ ",\n    \"goal\": " ++ quoted brief.goal ++
        ",\n    \"constraints\": [],\n    \"out_of_scope\": [],\n    \"source_text\": " ++ quoted brief.sourceText ++
        ",\n    \"status\": " ++
        (if brief.problem.isSome && brief.goal.isSome then "\"complete\"" else "\"draft\"") ++
        ",\n    \"formulated_by\": null,\n    \"error\": " ++ quoted brief.error ++ "\n  \x7d"
  "\x7b\n  \"id\": \"" ++ document.id ++ "\",\n  \"title\": \"" ++ document.change.title ++
    "\",\n  \"description\": null,\n  \"source\": \"cli\",\n  \"external_ref\": null,\n  \"product\": \x7b\n" ++
    "    \"provider\": \"github\",\n    \"slug\": \"" ++ document.product.slug ++ "\"\n  \x7d,\n" ++
    "  \"product_id\": null,\n  \"risk_class\": \"" ++ document.change.riskClass.value ++ "\",\n  \"brief\": " ++ brief ++
    ",\n  \"scenario\": \"full\",\n  \"spend_limit\": null,\n  \"change_request\": null,\n" ++
    "  \"created_at\": \"2026-01-01T00:00:00Z\"\n\x7d"

def exportChange : IntakeDocument :=
  { change := { id := "change-1", title := "Export", riskClass := .r1 }, product := ⟨.github, "org/repo"⟩ }

def parkingAdvance (at_ : Timestamp) : AdvanceCommand where
  changeId := "change-1"
  input := scripted "" at_ "c0" { status := .waiting, nextAction := .requestApproval .specification none none }

def briefEdit : Command := .updateBrief "change-1" { problem := some "No export" }

/-- The first run of a change, and an edit of its brief while the run is parked. -/
theorem first_run_is_alone :
    OneActive ([Command.advance (parkingAdvance 1), briefEdit].foldl (afterCommand intakeJson)
      { documents := [exportChange] }).store "change-1" := by
  have alone : Trace.Along (afterCommand intakeJson) (StartsAlone intakeJson) { documents := [exportChange] }
      [.advance (parkingAdvance 1), briefEdit] := by
    refine ⟨?_, trivial, trivial⟩
    rintro document - - id ⟨execution, found, -⟩
    cases found
  exact (one_active_run intakeJson [exportChange] _ alone "change-1").1 _ [] (List.append_nil _).symm

/-- An edit of the brief between two advances gives the change a second active run. -/
theorem edit_in_flight_starts_second_run :
    ¬ ∀ (toJson : IntakeDocument → String) (documents : List IntakeDocument) (commands : List Command)
      (changeId : String),
      OneActive (commands.foldl (afterCommand toJson) { documents := documents }).store changeId := by
  intro always
  let commands : List Command := [.advance (parkingAdvance 1), briefEdit, .advance (parkingAdvance 2)]
  let reached : Store := (commands.foldl (afterCommand intakeJson) { documents := [exportChange] }).store
  have runs : reached.executions.map (fun run => (run.id, run.changeId, run.status)) =
      [("run_0829a1de621e9868adca6a9cf1008815", "change-1", .waiting),
        ("run_7edf6301e9996ab2b6801832131dfd7e", "change-1", .waiting)] := by decide +kernel
  have active (id : String) (listed : (id, "change-1", RunStatus.waiting) ∈
      reached.executions.map fun run => (run.id, run.changeId, run.status)) : ActiveRun reached "change-1" id := by
    obtain ⟨run, member, same⟩ := List.mem_map.mp listed
    simp only [Prod.mk.injEq] at same
    obtain ⟨rfl, owner, status⟩ := same
    have unique : Table.Unique Execution.id reached.executions := by
      have ids := congrArg (List.map Prod.fst) runs
      rw [List.map_map] at ids
      unfold Table.Unique
      rw [show List.map Execution.id reached.executions = _ from ids]
      decide
    exact ⟨run, unique.find member, owner, by rw [status]; rfl⟩
  have one := always intakeJson [exportChange] commands "change-1"
  have same := one _ _ (active "run_0829a1de621e9868adca6a9cf1008815" (by rw [runs]; decide))
    (active "run_7edf6301e9996ab2b6801832131dfd7e" (by rw [runs]; decide))
  exact absurd same (by decide)

end DarkFactory
