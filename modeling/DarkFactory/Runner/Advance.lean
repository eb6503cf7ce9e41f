import DarkFactory.Stages.Gates
import DarkFactory.Stages.Release
import DarkFactory.State.RunStore

namespace DarkFactory

structure StageContext where
  change : Change
  stage : Stage
  route : Route
  runId : String
  inputRevision : Option String
  requiredGates : Finset Gate
  humanGates : Finset Gate
  budget : BudgetSnapshot
  attemptNumber : Nat := 1
  implementationContract : Option ImplementationContract := none
  phase : Option Phase := none
  enforceContractEntry : Bool := true

/-- Observations of the facts a parked attempt waits for; an absent provider observes nothing. -/
structure WaitFacts where
  gate : Option (ChangeRun → Stage → Change → Option GateObservation) := none
  release : Option (ChangeRun → Stage → Change → Option ReleaseObservation) := none

/-- The arguments of one advance, with the readings of the clock it takes. The facts are observed
    twice, before the lease and under it; `changeJson` is the canonical text of the snapshot. -/
structure AdvanceInput where
  change : Change
  changeJson : String
  runId : String
  ownerId : String
  executor : StageContext → Except Failure StageResult
  revisionOf : Option (Change → Stage → String) := none
  mergeContext : Option MergeRequestContext := none
  humanDecisions : List Decision := []
  facts : WaitFacts := {}
  leasedFacts : WaitFacts := {}
  leaseTtl : Int := defaultLeaseTtl
  phase : Option Phase := none
  now : Timestamp
  leasedAt : Timestamp
  createdAt : Timestamp

inductive RunAdvanceOutcome | advanced | waiting | blocked | completed | failed | replayed
  deriving DecidableEq, Repr

structure RunAdvance where
  outcome : RunAdvanceOutcome
  stage : Stage
  result : StageResult
  decision : Option FlowDecision
  deriving DecidableEq

structure AttemptIdentity where
  run : ChangeRun
  stage : Stage
  attemptNumber : Nat
  inputRevision : String
  ownerId : String
  fencingToken : Nat

structure OpenedAttempt where
  openStage : OpenStage
  expectedRevision : Nat
  knownStageRuns : Nat
  run : ChangeRun

structure WaitResolution where
  result : StageResult
  mergeContext : Option MergeRequestContext := none
  approvals : List Decision := []

inductive WaitResolver
  | gate (checkpoint : StageResult) (observation : GateObservation)
  | release (checkpoint : StageResult) (observation : ReleaseObservation)

def nextStage (run : ChangeRun) : Option Stage :=
  (routeProfile run.route).stages.find? fun stage => run.stages.any (activeAt stage)

def outcomeFor (decision : FlowDecision) : RunAdvanceOutcome :=
  if runTerminal decision.runStatus then
    if decision.runStatus = .succeeded then .completed else .failed
  else if decision.runStatus = .waiting then .waiting
  else if decision.runStatus = .blocked then .blocked
  else .advanced

/-- `active[-1]` of the stage. -/
def inFlight (run : ChangeRun) (stage : Stage) : Option StageRun :=
  (activeIndex run stage).bind fun index => run.stages[index]?

def attemptNumberOf (run : ChangeRun) (stage : Stage) : Nat :=
  match inFlight run stage with
  | none => 1
  | some current =>
    if retryableStage current.status then current.attemptNumber + 1 else current.attemptNumber

def stageInputRevision (changeJson : String) : String := Sha256.hexdigest changeJson

def freshRevision (input : AdvanceInput) (stage : Stage) : String :=
  match input.revisionOf with
  | some revisionOf => revisionOf input.change stage
  | none => stageInputRevision input.changeJson

def pinnedRevision (input : AdvanceInput) (run : ChangeRun) (stage : Stage) : String :=
  ((inFlight run stage).bind (·.inputRevision)).getD (freshRevision input stage)

def advanceableRun (runId : String) : Session ChangeRun := do
  let store ← get
  match store.load runId with
  | none => throw ⟨.runNotFound, s!"run {Text.repr runId} does not exist"⟩
  | some run =>
    if runTerminal run.status then
      throw ⟨.runNotAdvanceable, s!"run {Text.repr runId} is terminal ({run.status.value})"⟩
    else pure run

def nextStageToExecute (run : ChangeRun) : Session Stage :=
  match nextStage run with
  | some stage => pure stage
  | none => throw ⟨.runNotAdvanceable, s!"run {Text.repr run.id} has no stage left to execute"⟩

def replay (committed : StageResult) (stage : Stage) : RunAdvance :=
  { outcome := .replayed, stage, result := committed, decision := none }

/-- Only a waiting checkpoint resolves: release through release facts, any other stage through the gates. -/
def resolvedWait (checkpoint : StageResult) (run : ChangeRun) (stage : Stage) (change : Change)
    (facts : WaitFacts) : Option WaitResolver :=
  if checkpoint.status ≠ .waiting then none
  else if stage = .release then
    let observation := facts.release.bind fun observe => observe run stage change
    if releaseResolved observation then observation.map (.release checkpoint) else none
  else
    let observation := facts.gate.bind fun observe => observe run stage change
    if gateResolved observation stage run.route (riskClassOf run) then observation.map (.gate checkpoint)
    else none

def WaitResolver.resolve (resolver : WaitResolver) (run : ChangeRun) (stage : Stage) (change : Change)
    (attempt : WaitingAttempt) (history : List StageResult) : Except Failure WaitResolution :=
  match resolver with
  | .gate checkpoint observation => do
    let resolution ← buildGateResolution run stage change checkpoint observation attempt history
    pure { result := resolution.result, mergeContext := resolution.mergeContext
           approvals := observation.approvals }
  | .release checkpoint observation => do
    let result ← buildReleaseResolution checkpoint observation attempt.now
    pure { result }

def buildContext (input : AdvanceInput) (run : ChangeRun) (stage : Stage) (attemptNumber : Nat)
    (inputRevision : String) : StageContext :=
  { change := input.change
    stage
    route := run.route
    runId := run.id
    inputRevision := some inputRevision
    requiredGates := requiredGates run.route stage
    humanGates := requiredHumanGates run.route stage (riskClassOf run)
    budget := run.budget
    attemptNumber
    implementationContract := run.implementationContract
    phase := input.phase }

def ensureRunning (run : ChangeRun) : Session ChangeRun :=
  if run.status ≠ .running then Outcome.lift (run.applyStatus .running) else pure run

/-- The run is set running in memory; its revision before that guards the write. -/
def openIdentity (identity : AttemptIdentity) (createdAt : Timestamp) : Session OpenedAttempt := do
  let run ← ensureRunning identity.run
  let openStage ← openAttempt run identity.stage identity.inputRevision identity.attemptNumber createdAt
  pure { openStage, expectedRevision := identity.run.stateRevision, knownStageRuns := run.stages.length, run }

def placeCreated (input : AdvanceInput) (placed : List StagePlacement × ChangeRun) (index : Nat) :
    List StagePlacement × ChangeRun :=
  match placed.2.stages[index]? with
  | none => placed
  | some stageRun =>
    let revision := pinnedRevision input placed.2 stageRun.stage
    (placed.1 ++ [⟨stageRun.stage, revision⟩],
      { placed.2 with stages := placed.2.stages.set index { stageRun with inputRevision := some revision } })

def createdStages (input : AdvanceInput) (known : Nat) (run : ChangeRun) : List StagePlacement × ChangeRun :=
  (List.range' known (run.stages.length - known)).foldl (placeCreated input) ([], run)

def persistAndReport (input : AdvanceInput) (identity : AttemptIdentity) (opened : OpenedAttempt)
    (run : ChangeRun) (result : StageResult) (decision : FlowDecision) : Session RunAdvance := do
  let (created, run) := createdStages input opened.knownStageRuns run
  let persisted ← persistDecision run result decision opened.openStage created opened.expectedRevision
    identity.fencingToken input.createdAt
  let _ ← release leaseResourceType run.id identity.ownerId identity.fencingToken
  if !persisted then
    let store ← get
    match store.committedResult run.id identity.stage result.attemptNumber (result.inputRevision.getD "") with
    | none => throw ⟨.runner, s!"stage {identity.stage.value} of run {Text.repr run.id} was not persisted " ++
        "and has no committed result"⟩
    | some committed => pure (replay committed identity.stage)
  else pure { outcome := outcomeFor decision, stage := decision.stage, result, decision := some decision }

def applyTo (run : ChangeRun) (result : StageResult) (history : List StageResult) (now : Timestamp)
    (mergeContext : Option MergeRequestContext) (humanDecisions : List Decision) :
    Session (FlowDecision × ChangeRun) := fun store =>
  match applyResult result history now mergeContext humanDecisions run with
  | .ok decision after => .ok (decision, after) store
  | .error failure _ => .error failure store

def resume (input : AdvanceInput) (identity : AttemptIdentity) (resolver : WaitResolver) :
    Session RunAdvance := do
  let opened ← openIdentity identity input.createdAt
  let store ← get
  let history := store.loadHistory identity.run.id
  let resolution ← Outcome.lift (resolver.resolve opened.run identity.stage input.change
    ⟨identity.attemptNumber, identity.inputRevision, input.now⟩ history)
  let (decision, run) ← applyTo opened.run resolution.result history input.now
    (resolution.mergeContext.or input.mergeContext) (input.humanDecisions ++ resolution.approvals)
  persistAndReport input identity opened run resolution.result decision

def execute (input : AdvanceInput) (identity : AttemptIdentity) : Session RunAdvance := do
  let opened ← openIdentity identity input.createdAt
  let context := buildContext input opened.run identity.stage identity.attemptNumber identity.inputRevision
  let result ← Outcome.lift (input.executor context)
  let store ← get
  let (decision, run) ← applyTo opened.run result (store.loadHistory identity.run.id) input.now
    input.mergeContext input.humanDecisions
  persistAndReport input identity opened run result decision

/-- The part of an advance under the lease: what it saw before is derived anew. -/
def advanceLeased (input : AdvanceInput) (runId : String) : Session RunAdvance := do
  let fencingToken ← acquire leaseResourceType runId input.ownerId input.leaseTtl input.leasedAt
  let run ← advanceableRun input.runId
  let stage ← nextStageToExecute run
  let identity : AttemptIdentity :=
    { run, stage, attemptNumber := attemptNumberOf run stage, inputRevision := pinnedRevision input run stage
      ownerId := input.ownerId, fencingToken }
  let store ← get
  match store.committedResult run.id stage identity.attemptNumber identity.inputRevision with
  | none => execute input identity
  | some result =>
    match resolvedWait result run stage input.change input.leasedFacts with
    | some resolver => resume input identity resolver
    | none =>
      let _ ← release leaseResourceType run.id input.ownerId fencingToken
      pure (replay result stage)

/-- One stage decision of a run, inside the caller's transaction. -/
def advanceRun (input : AdvanceInput) : Session RunAdvance := do
  let run ← advanceableRun input.runId
  let stage ← nextStageToExecute run
  let store ← get
  let committed := store.committedResult run.id stage (attemptNumberOf run stage) (pinnedRevision input run stage)
  match committed.filter fun result => (resolvedWait result run stage input.change input.facts).isNone with
  | some result => pure (replay result stage)
  | none => advanceLeased input run.id

end DarkFactory
