import DarkFactory.Conversations.Discussion
import DarkFactory.Runner.PhaseView
import DarkFactory.Stages.Design
import DarkFactory.State.Withdraw

namespace DarkFactory

structure Database where
  runs : Store := {}
  discussion : Discussion := {}

/-- The arguments of one advance command with what its ports answer. The attempt sees the discussion it was loaded
    with; `report` reads the questions and the summary off a result. -/
structure SessionInput where
  change : Change
  changeJson : String
  runId : String
  ownerId : String
  respond : Option ConversationInputs → StageContext → Except Failure StageResult
  report : StageResult → AttemptReport := fun _ => {}
  revisionOf : Option (Change → Stage → String) := none
  facts : WaitFacts := {}
  leasedFacts : WaitFacts := {}
  artifacts : Option (Phase → Option String) := none
  now : Timestamp
  leasedAt : Timestamp
  createdAt : Timestamp

structure Flight where
  session : SessionInput
  inputs : Option ConversationInputs
  phase : Option Phase

namespace SessionInput

variable (session : SessionInput) (db : Database)

def phaseFacts : PhaseFacts where
  decisions := db.discussion.view.listForChange session.change.id
  revisions := session.artifacts.getD fun _ => none

def joinedGate (observe : ChangeRun → Stage → Change → Option GateObservation) (run : ChangeRun) (stage : Stage)
    (change : Change) : Option GateObservation :=
  (observe run stage change).map fun observation =>
    withStoreFacts observation (session.phaseFacts db) session.artifacts.isSome stage run.route
      (db.runs.loadHistory run.id) (db.discussion.store.listReworkOrders session.change.id)

def joined (facts : WaitFacts) : WaitFacts := { facts with gate := facts.gate.map (session.joinedGate db) }

def advanceInput (inputs : Option ConversationInputs) (phase : Option Phase) : AdvanceInput where
  change := session.change
  changeJson := session.changeJson
  runId := session.runId
  ownerId := session.ownerId
  executor := session.respond inputs
  revisionOf := session.revisionOf
  facts := session.joined db session.facts
  leasedFacts := session.joined db session.leasedFacts
  phase
  now := session.now
  leasedAt := session.leasedAt
  createdAt := session.createdAt

def attemptPhase (run : ChangeRun) : Option Phase :=
  if nextStage run = some .specification then
    let facts := session.phaseFacts db
    (some (currentPhase (some run) facts.decisions facts.revisions)).filter fun phase => designPhases.contains phase
  else none

def load : Except Failure Flight :=
  match db.runs.load session.runId with
  | none => .error ⟨.runner, s!"unknown run {Text.repr session.runId}"⟩
  | some run =>
    if run.changeId ≠ session.change.id then
      .error ⟨.runner, s!"run {Text.repr run.id} references change {Text.repr run.changeId}, " ++
        "which is not in intake"⟩
    else
      let phase := session.attemptPhase db run
      .ok { session, phase
            inputs := (nextStage run).map fun stage =>
              db.discussion.loadConversationInputs session.change.id stage phase }

end SessionInput

namespace Flight

variable (flight : Flight) (db : Database)

def advanceInput : AdvanceInput := flight.session.advanceInput db flight.inputs flight.phase

def finish : Except Failure (RunAdvance × Database) :=
  match advanceRun (flight.advanceInput db) db.runs with
  | .error failure _ => .error failure
  | .ok advance runs => do
    let discussion ← recordStageOutcome advance (flight.session.report advance.result) flight.session.change.id
      db.discussion
    return (advance, { runs, discussion })

def commit : Database :=
  match flight.finish db with
  | .ok (_, after) => after
  | .error _ => db

end Flight

structure Service where
  db : Database := {}
  flights : List Flight := []

def freshService (store : ChangeStore) : Service := { db := { discussion := { store } } }

/-- What commits on the service, in any order. An advance takes two steps: it loads its inputs, and later it ends. -/
inductive ServiceStep
  | create (input : CreateInput)
  | withdraw (input : WithdrawInput)
  | operate (call : Surroundings × OperatorCall)
  | answer (request : AnswerRequest)
  | load (session : SessionInput)
  | finish (index : Nat)

def afterService (service : Service) : ServiceStep → Service
  | .create input => { service with db := { service.db with runs := afterDrive service.db.runs (.create input) } }
  | .withdraw input => { service with db := { service.db with runs := DarkFactory.commit (withdrawRun input) service.db.runs } }
  | .operate call => { service with db := { service.db with discussion := service.db.discussion.operate call } }
  | .answer request => { service with db := { service.db with discussion := service.db.discussion.answered request } }
  | .load session =>
    match session.load service.db with
    | .ok flight => { service with flights := service.flights ++ [flight] }
    | .error _ => service
  | .finish index =>
    match service.flights[index]? with
    | some flight => { db := flight.commit service.db, flights := service.flights.eraseIdx index }
    | none => service

def served (service : Service) (steps : List ServiceStep) : Service := steps.foldl afterService service

/-- The attempt answers for itself, whatever the discussion it was given. -/
def SessionInput.Faithful (session : SessionInput) : Prop :=
  ∀ inputs context result, session.respond inputs context = .ok result →
    result.runId = context.runId ∧ result.stage = context.stage ∧
      result.attemptNumber = context.attemptNumber ∧ result.inputRevision = context.inputRevision

section Finish

variable {flight : Flight} {db : Database}

theorem Flight.commit_cases (flight : Flight) (db : Database) : flight.commit db = db ∨
    ∃ advance, advanceRun (flight.advanceInput db) db.runs = .ok advance (flight.commit db).runs ∧
      recordStageOutcome advance (flight.session.report advance.result) flight.session.change.id db.discussion =
        .ok (flight.commit db).discussion := by
  unfold Flight.commit Flight.finish
  cases advanced : advanceRun (flight.advanceInput db) db.runs with
  | error failure partway => exact Or.inl rfl
  | ok advance runs =>
    dsimp only
    cases recorded : recordStageOutcome advance (flight.session.report advance.result) flight.session.change.id
        db.discussion with
    | error failure => exact Or.inl rfl
    | ok discussion => exact Or.inr ⟨advance, rfl, recorded⟩

theorem outcomeFor_fresh (decision : FlowDecision) : outcomeFor decision ≠ .replayed := by
  unfold outcomeFor
  split
  · split <;> nofun
  · split
    · nofun
    · split <;> nofun

theorem advanceRun_reports {input : AdvanceInput} {before after : Store} {report : RunAdvance}
    (wf : WellFormed before) (faithful : Faithful input) (done : advanceRun input before = .ok report after) :
    (report.decision = none ∧ Untouched before after) ∨
      ∃ attempt row reached, AdvanceEffect input before after attempt row reached ∧ report.outcome ≠ .replayed ∧
        report.result = attempt.result ∧ report.decision = some (reached.decision attempt.stage) := by
  rcases advanceRun_steps wf faithful done with ⟨replayed, frame⟩ | ⟨attempt, row, trace, steps⟩
  · rcases advanceRun_ok wf faithful done with untouched | ⟨attempt, row, reached, effect, decided, -⟩
    · exact Or.inl untouched
    · rw [replayed] at decided
      cases decided
  · obtain ⟨reached, effect, decided, -⟩ := steps.effect wf
    obtain ⟨made, -⟩ := steps.persisted wf
    refine Or.inr ⟨attempt, row, reached, effect, ?_, ?_, decided⟩
    · rw [made]
      exact outcomeFor_fresh _
    · rw [made]

end Finish

end DarkFactory
