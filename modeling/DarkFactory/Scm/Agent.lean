import DarkFactory.Runner.Advance
import DarkFactory.Scm.Ports

namespace DarkFactory

def effectKey (key effectType effectTarget : String) : String := key ++ ":" ++ effectType ++ ":" ++ effectTarget

def Role.value : Role → String
  | .product => "product"
  | .design => "design"
  | .architect => "architect"
  | .infrastructure => "infrastructure"
  | .security => "security"
  | .develop => "develop"
  | .quality => "quality"
  | .ciCd => "ci_cd"
  | .operation => "operation"

def stageRole : Stage → Role
  | .specification => .product
  | .planning => .product
  | .construction => .develop
  | .reviewVerification => .quality
  | .release => .ciCd

def phaseRole : Phase → Option Role
  | .architecture => some .architect
  | .interface => some .design
  | _ => none

def stageSkill : Stage → Option String
  | .specification => some "spec-authoring"
  | .planning => some "change-request"
  | .construction => some "implementation"
  | .reviewVerification => some "code-review"
  | .release => none

def phaseSkill : Phase → Option String
  | .architecture => some "solution-design"
  | .interface => some "ui-spec"
  | _ => none

def roleOf (stage : Stage) (phase : Option Phase) : Role := (phase.bind phaseRole).getD (stageRole stage)

def skillOf (stage : Stage) (phase : Option Phase) : Option String := (phase.bind phaseSkill).or (stageSkill stage)

def branchName (isalnum : Char → Bool) (id head : String) : String :=
  let edge (c : Char) : Bool := c = '-' || c = '.'
  let chars := id.toList.map fun c => if isalnum c || c = '.' || c = '_' || c = '-' then c else '-'
  let slug := ((chars.dropWhile edge).reverse.dropWhile edge).reverse
  head ++ "/" ++ (if slug.isEmpty then "change" else String.ofList slug)

def contractEntryReason : Option ImplementationContract → Option String
  | none => some ("no implementation contract attached to the run; " ++
      "implementation must not start without one (ADR-018 p.3)")
  | some contract =>
    if contract.approval.isNone then
      some ("implementation contract " ++ Text.repr contract.id ++ " is not approved; " ++
        "implementation must not start before a human approves it (ADR-018 p.3)")
    else none

def constructionEntryReason (context : StageContext) : Option String :=
  if context.stage ≠ .construction || !context.enforceContractEntry then none
  else contractEntryReason context.implementationContract

def pendingGateResults (gates : Finset Gate) : List GateResult :=
  (sortedGates gates).map fun gate => { gate, status := .pending }

structure AgentStageExecutor where
  targetBranch : String := "main"
  branchPrefix : String := "factory"
  isalnum : Char → Bool := Char.isAlphanum

/-- The port calls of one attempt that a provider may fail, and the parser of the agent's output, which may raise too. -/
inductive AgentBoundary
  | prepareWorkspace | harness | collectChanges | ensureBranch | publishCommit | findExisting | openRequest | parseOutput
  deriving DecidableEq, Repr

structure AgentAttempt where
  context : StageContext
  product : RepositoryRef
  missingProfile : Option String := none
  harnessOk : Bool := true
  usage : Option Usage := none
  collected : FileSet
  raises : AgentBoundary → Option String := fun _ => none
  now : Timestamp := 0

namespace AgentAttempt

variable (executor : AgentStageExecutor) (attempt : AgentAttempt)

def revision : String := attempt.context.inputRevision.getD ""

def identity : String := operationKey attempt.context.runId attempt.context.stage attempt.revision

def branch : String := branchName executor.isalnum attempt.context.change.id executor.branchPrefix

def commitKey : String := effectKey attempt.identity "commit" (attempt.branch executor)

def role : Role := roleOf attempt.context.stage attempt.context.phase

def message : String :=
  let round := (attempt.context.phase.map fun phase => "/" ++ phase.value).getD ""
  "factory: " ++ attempt.context.change.id ++ " (" ++ attempt.context.stage.value ++ round ++ ")"

def blocked (reason : String) (usage : Option Usage) : StageResult :=
  { stage := attempt.context.stage
    runId := attempt.context.runId
    changeId := attempt.context.change.id
    attemptNumber := attempt.context.attemptNumber
    inputRevision := attempt.context.inputRevision
    status := .blocked
    nextAction := .stop .blocked reason
    gateResults := pendingGateResults attempt.context.requiredGates
    usage
    phase := attempt.context.phase
    producedAt := attempt.now }

def waiting (artifacts : List ArtifactRef) (request : ChangeRequestRef) : StageResult :=
  let produced := "stage " ++ attempt.context.stage.value ++ " produced " ++ request.repository.slug ++ "#" ++
    toString request.number ++ " at " ++ attempt.branch executor
  { stage := attempt.context.stage
    runId := attempt.context.runId
    changeId := attempt.context.change.id
    attemptNumber := attempt.context.attemptNumber
    inputRevision := attempt.context.inputRevision
    status := .waiting
    nextAction :=
      if attempt.context.requiredGates \ attempt.context.humanGates ≠ ∅ then
        .waitForCi (produced ++ "; machine gates run on the final SHA in CI (FR-009)") (some request)
      else .waitForInput (produced ++ "; the stage's gates are human decisions (ADR-018)")
    artifacts
    gateResults := pendingGateResults attempt.context.requiredGates
    usage := attempt.usage
    phase := attempt.context.phase
    producedAt := attempt.now }

def artifact (request : ChangeRequestRef) (revision : Option String) (producer : Role) : ArtifactRef :=
  { artifactType := "change_request"
    uri := (request.url.filter (· ≠ "")).getD (attempt.product.slug ++ "#" ++ toString request.number)
    revision
    producer := some producer.value }

def existing : Ports (Option ChangeRequestRef) :=
  askExisting (attempt.raises .findExisting) attempt.product attempt.context.change.id

/-- The request a review stage judges when its agent changed nothing. -/
def publishedUnderReview : Ports (Option (List ArtifactRef × ChangeRequestRef)) := do
  if attempt.context.stage ≠ .reviewVerification then return none
  match ← attempt.existing with
  | some request =>
    if request.status = .open then
      return some ([attempt.artifact request attempt.context.inputRevision (stageRole attempt.context.stage)], request)
    else return none
  | none => return none

def ensureBranch : Ports Unit :=
  askBranch (attempt.raises .ensureBranch) attempt.product (attempt.branch executor) attempt.revision
    (effectKey attempt.identity "branch" (attempt.branch executor))

def publishCommit : Ports String :=
  askCommit (attempt.raises .publishCommit) attempt.product (attempt.branch executor) attempt.collected attempt.message
    (attempt.commitKey executor)

def openRequest (sha : String) : Ports ChangeRequestRef :=
  askOpen (attempt.raises .openRequest)
    { repository := attempt.product, changeId := attempt.context.change.id, sourceBranch := attempt.branch executor
      targetBranch := executor.targetBranch, title := attempt.context.change.title, headSha := sha }
    (effectKey attempt.identity "change_request" (attempt.branch executor))

/-- The open request of the change, else a new one with the commit as its head. -/
def changeRequest (sha : String) : Ports ChangeRequestRef := do
  match (← attempt.existing).filter fun request => request.status = .open with
  | some request => return request
  | none => attempt.openRequest executor sha

def publish : Ports (Option (List ArtifactRef × ChangeRequestRef)) := do
  boundary (attempt.raises .collectChanges)
  if attempt.collected.keys.isEmpty then attempt.publishedUnderReview
  else
    attempt.ensureBranch executor
    let sha ← attempt.publishCommit executor
    let request ← attempt.changeRequest executor sha
    return some ([attempt.artifact request (some sha) attempt.role], request)

def run : Ports StageResult := do
  boundary (attempt.raises .prepareWorkspace)
  boundary (attempt.raises .harness)
  if !attempt.harnessOk then
    return attempt.blocked ("stage " ++ attempt.context.stage.value ++ ": harness did not produce a result" ++
      " (see harness health for the missing configuration)") attempt.usage
  match ← attempt.publish executor with
  | none => return attempt.blocked ("stage " ++ attempt.context.stage.value ++
      ": the attempt produced no changes to publish") attempt.usage
  | some (artifacts, request) =>
    -- What the agent said is read once its work is published.
    boundary (attempt.raises .parseOutput)
    return attempt.waiting executor artifacts request

def refusal : Option String :=
  match constructionEntryReason attempt.context, attempt.missingProfile,
      skillOf attempt.context.stage attempt.context.phase, attempt.context.inputRevision with
  | some reason, _, _, _ => some reason
  | none, some missing, _, _ => some ("stage " ++ attempt.context.stage.value ++ ": " ++ missing)
  | none, none, none, _ => some ("stage " ++ attempt.context.stage.value ++
      ": no skill is mapped to this stage (role " ++ Text.repr attempt.role.value ++ ")")
  | none, none, some _, none => some ("stage " ++ attempt.context.stage.value ++
      ": the attempt has no pinned input revision")
  | none, none, some _, some _ => none

/-- One attempt: an exception at a boundary becomes a blocked result, its effects stay. -/
def execute (scm : Scm) : StageResult × Scm :=
  match attempt.refusal with
  | some reason => (attempt.blocked reason none, scm)
  | none =>
    match attempt.run executor scm with
    | .ok result after => (result, after)
    | .error exception after =>
      (attempt.blocked ("stage " ++ attempt.context.stage.value ++
        ": agent stage failed at the boundary (" ++ exception ++ ")") none, after)

end AgentAttempt

end DarkFactory
