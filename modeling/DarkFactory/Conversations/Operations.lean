import DarkFactory.Conversations.PhaseGate
import DarkFactory.Changes.Keys
import DarkFactory.Lib.Table
import DarkFactory.State.Rows

namespace DarkFactory

/-- The refusals of the operator operations: 404, 409 and 422 on the API. -/
inductive RefusalKind | notFound | conflict | input
  deriving DecidableEq, Repr

structure Refusal where
  kind : RefusalKind
  detail : String
  deriving DecidableEq, Repr

structure Comment where
  id : String
  changeId : String
  phase : Phase
  artifact : String
  anchorId : Option String := none
  revision : Option String := none
  body : String := ""
  author : String := ""
  reworkOrderId : Option String := none
  deriving DecidableEq, Repr

structure ChangeRow where
  id : String
  stateRevision : Int := 1
  deriving DecidableEq, Repr

/-- `role` is the API role of the caller. -/
structure DecisionRow where
  changeId : String
  decision : Decision
  idempotencyKey : Option String
  role : Option String
  deriving DecidableEq, Repr

/-- `Role(value)`; an API role is no agent role. -/
def roleFromValue : String → Option Role
  | "product" => some .product
  | "design" => some .design
  | "architect" => some .architect
  | "infrastructure" => some .infrastructure
  | "security" => some .security
  | "develop" => some .develop
  | "quality" => some .quality
  | "ci_cd" => some .ciCd
  | "operation" => some .operation
  | _ => none

def decisionFromRow (row : DecisionRow) : Decision := { row.decision with role := row.role.bind roleFromValue }

structure ReworkOrderRow where
  order : ReworkOrder
  decisionIds : List String
  issuedBy : String
  deriving DecidableEq

def ReworkOrderRow.id (row : ReworkOrderRow) : String := row.order.id

structure ChangeStore where
  changes : List ChangeRow := []
  decisions : List DecisionRow := []
  reworkOrders : List ReworkOrderRow := []
  comments : List Comment := []
  questions : List Question := []
  audit : List AuditLogEntry := []
  deriving DecidableEq

structure ArtifactView where
  head : Option String
  paths : List String
  revisions : Phase → Option String
  uiRequirement : Option UiRequirement := none

/-- What one call finds around the store; `artifacts` is absent without a bound repository, and the two
    texts are the random ids the call draws. -/
structure Surroundings where
  artifacts : Option ArtifactView := none
  run : Option ChangeRun := none
  now : Timestamp := 0
  decisionHex : String
  orderHex : String := ""

structure ApiToken where
  actor : String
  role : String
  deriving DecidableEq, Repr

namespace ChangeStore

def change (store : ChangeStore) (id : String) : Option ChangeRow := Table.find ChangeRow.id id store.changes

def findByIdempotencyKey (store : ChangeStore) (key : String) : Option DecisionRow :=
  store.decisions.find? fun row => row.idempotencyKey = some key

def replayed (store : ChangeStore) (key : Option String) : Option DecisionRow :=
  key.bind store.findByIdempotencyKey

def decidedBefore (left right : Decision) : Bool :=
  left.decidedAt < right.decidedAt || (left.decidedAt = right.decidedAt && !(right.id < left.id))

def listForChange (store : ChangeStore) (changeId : String) : List Decision :=
  ((store.decisions.filter fun row => row.changeId = changeId).map decisionFromRow).insertionSort
    fun left right => decidedBefore left right = true

def decisionsCount (store : ChangeStore) (changeId : String) : Nat :=
  store.decisions.countP fun row => row.changeId = changeId

def reworkOrder (store : ChangeStore) (id : String) : Option ReworkOrderRow :=
  Table.find ReworkOrderRow.id id store.reworkOrders

def listReworkOrders (store : ChangeStore) (changeId : String) (phase : Phase) : List ReworkOrder :=
  (store.reworkOrders.map ReworkOrderRow.order).filter fun order =>
    order.changeId = changeId && order.phase = phase

def listQuestions (store : ChangeStore) (changeId : String) (phase : Phase) : List Question :=
  store.questions.filter fun question => question.changeId = changeId && question.phase = phase

def comment (store : ChangeStore) (changeId id : String) : Option Comment :=
  (Table.find Comment.id id store.comments).filter fun comment => comment.changeId = changeId

def question (store : ChangeStore) (changeId id : String) : Option Question :=
  (Table.find Question.id id store.questions).filter fun question => question.changeId = changeId

/-- `DecisionRepository.record`: a known key answers with the decision recorded under it. -/
def record (store : ChangeStore) (decision : Decision) (changeId : String) (key role : Option String) :
    (Decision × Bool) × ChangeStore :=
  match store.replayed key with
  | some row => ((decisionFromRow row, false), store)
  | none =>
    ((decision, true),
      { store with decisions := store.decisions ++ [{ changeId, decision, idempotencyKey := key, role }] })

end ChangeStore

def buildPhaseGate (around : Surroundings) (store : ChangeStore) (changeId : String) (phase : Phase) :
    PhaseGate :=
  let revision := match around.artifacts with
    | some view => if designPhases.contains phase then view.revisions phase else view.head
    | none => none
  phaseGate changeId phase (store.listQuestions changeId phase) (store.listReworkOrders changeId phase)
    (store.listForChange changeId) revision (around.run.map ChangeRun.budget) around.artifacts.isSome
    (around.run.map ChangeRun.route) (around.artifacts.bind ArtifactView.uiRequirement)

def missingChange (changeId : String) : Refusal :=
  ⟨.notFound, "Change " ++ Text.repr changeId ++ " does not exist"⟩

def waiverNeedsReason : Refusal := ⟨.input, "a waived phase needs a reason: set comment (ADR-032 p.5)"⟩

def blank (comment : Option String) : Bool := Text.strip (comment.getD "") = ""

def closedGate (gate : PhaseGate) : Refusal :=
  ⟨.conflict, "the " ++ gate.phase.value ++ " gate is closed: " ++
    Text.join "; " (gate.reasons.map fun reason => reason.what ++ " — " ++ reason.how)⟩

def staleSubject (revision current : String) : Refusal :=
  ⟨.conflict, "subject_revision " ++ revision ++ " is not the current revision " ++ current ++
    ": reload and decide on what you see"⟩

def checkApproved (gate : PhaseGate) (revision : Option String) : Except Refusal Unit :=
  if !gate.available then .error (closedGate gate)
  else
    match gate.currentRevision with
    | some current =>
      if revision ≠ some current then .error (staleSubject (Text.shown revision) current) else .ok ()
    | none => .ok ()

/-- The body of an approval; an approval or a rejection binds to a revision. -/
structure ApprovalRequest where
  gate : Gate
  outcome : DecisionOutcome
  subjectRevision : Option String := none
  comment : Option String := none
  expectedStateRevision : Option Int := none
  phase : Option Phase := none
  revision_nonempty : subjectRevision ≠ some "" := by decide
  revision_unless_waived : outcome = .waived ∨ subjectRevision.isSome := by decide

def approvalPhase (body : ApprovalRequest) : Except Refusal Phase :=
  match body.phase with
  | none => .ok (phaseOfGate body.gate)
  | some phase =>
    if gateOfPhase phase ≠ some body.gate then
      .error ⟨.input, "phase " ++ phase.value ++ " is not approved on gate " ++ body.gate.value⟩
    else .ok phase

/-- A send-back is never blocked, a skip needs a reason, an approval stands on the open gate. -/
def checkPhaseGate (around : Surroundings) (store : ChangeStore) (changeId : String)
    (body : ApprovalRequest) : Except Refusal Unit := do
  let phase ← approvalPhase body
  match body.outcome with
  | .rejected => .ok ()
  | .waived => if blank body.comment then .error waiverNeedsReason else .ok ()
  | .approved => checkApproved (buildPhaseGate around store changeId phase) body.subjectRevision

def stateRevisionMismatch : Refusal := ⟨.conflict, "state_revision mismatch"⟩

def audited (store : ChangeStore) (token : ApiToken) (changeId outcome : String) (key : Option String) :
    ChangeStore :=
  { store with audit := store.audit ++
      [{ actor := token.actor, role := some token.role, action := "approval.record", resourceType := "change"
         resourceId := changeId, idempotencyKey := key, outcome, reason := none }] }

def ChangeRow.bump (row : ChangeRow) : ChangeRow := { row with stateRevision := row.stateRevision + 1 }

def bumped (store : ChangeStore) (changeId : String) : ChangeStore :=
  { store with changes := Table.update ChangeRow.id changeId ChangeRow.bump store.changes }

def recordApproval (around : Surroundings) (token : ApiToken) (changeId : String) (body : ApprovalRequest)
    (key : Option String) (store : ChangeStore) : Except Refusal (Decision × ChangeStore) :=
  match store.change changeId with
  | none => .error (missingChange changeId)
  | some row =>
    match store.replayed key with
    | some old => .ok (decisionFromRow old, audited store token changeId "replayed" key)
    | none =>
      if body.expectedStateRevision.any fun expected => expected ≠ row.stateRevision then
        .error stateRevisionMismatch
      else do
        checkPhaseGate around store changeId body
        let phase ← approvalPhase body
        let decision : Decision :=
          { id := "dec_" ++ around.decisionHex, gate := body.gate, outcome := body.outcome, decidedBy := .human
            decidedAt := around.now, commitSha := body.subjectRevision, comment := body.comment
            phase := some phase }
        let (stored, after) := store.record decision changeId key (some token.role)
        return (stored.1, audited (bumped after changeId) token changeId "created" key)

/-- The value the Console sends along with an approval, from the decisions count it has read. -/
def deriveExpectedStateRevision (decisionsCount : Nat) : Int := 1 + decisionsCount

structure PhaseDecisionRequest where
  changeId : String
  phase : Phase
  outcome : DecisionOutcome
  subjectRevision : Option String := none
  comment : Option String := none
  actorRole : Option String := none
  idempotencyKey : Option String := none
  deriving DecidableEq

def PhaseDecisionRequest.revision (request : PhaseDecisionRequest) (gate : PhaseGate) : Option String :=
  (request.subjectRevision.filter (· ≠ "")).or gate.currentRevision

def needsRevision : Refusal :=
  ⟨.input, "the decision needs a revision to bind to: set subject_revision" ++
    " (no repository is bound to read the current one)"⟩

def checkPhaseDecision (request : PhaseDecisionRequest) (view : PhaseGate) : Except Refusal Gate :=
  match view.gate with
  | none => .error ⟨.conflict, "phase " ++ request.phase.value ++ " has no approval gate"⟩
  | some gate => do
    if request.outcome = .waived && blank request.comment then throw waiverNeedsReason
    if request.outcome = .approved then checkApproved view (request.revision view)
    if (request.revision view).isNone && request.outcome ≠ .waived then throw needsRevision
    return gate

def recordPhaseDecision (around : Surroundings) (request : PhaseDecisionRequest) (store : ChangeStore) :
    Except Refusal ((Decision × PhaseGate) × ChangeStore) :=
  match store.change request.changeId with
  | none => .error (missingChange request.changeId)
  | some _ => do
    let view := buildPhaseGate around store request.changeId request.phase
    let gate ← checkPhaseDecision request view
    let decision : Decision :=
      { id := "dec_" ++ around.decisionHex, gate, outcome := request.outcome, decidedBy := .human
        decidedAt := around.now, commitSha := request.revision view, comment := request.comment
        phase := some request.phase }
    let (stored, after) := store.record decision request.changeId request.idempotencyKey request.actorRole
    return ((stored.1, buildPhaseGate around after request.changeId request.phase), after)

structure ReworkRequest where
  changeId : String
  phase : Phase
  commentIds : List String := []
  questionIds : List String := []
  instruction : Option String := none
  issuedBy : String
  actorRole : Option String := none
  expectedRevision : Option String := none
  idempotencyKey : Option String := none
  decisionIds : List String := []
  deriving DecidableEq

def derivedId (head : String) (key : Option String) (hex : String) : String :=
  match key.filter (· ≠ "") with
  | some key => head ++ String.ofList ((Sha256.hex key).take 16)
  | none => head ++ String.ofList (hex.toList.take 16)

def clean (text : Option String) : Option String := (text.map Text.strip).filter (· ≠ "")

def ReworkRequest.orderId (request : ReworkRequest) (around : Surroundings) : String :=
  derivedId "rw_" request.idempotencyKey around.orderHex

def Surroundings.head (around : Surroundings) : Option String := around.artifacts.bind ArtifactView.head

def ReworkRequest.behind (request : ReworkRequest) (around : Surroundings) : Bool :=
  request.expectedRevision.any fun expected => around.head.any fun head => expected ≠ head

def ReworkOrderStatus.value : ReworkOrderStatus → String
  | .pending => "pending"
  | .inProgress => "in_progress"
  | .done => "done"
  | .escalated => "escalated"

def activeOrder (store : ChangeStore) (changeId : String) (phase : Phase) : Option ReworkOrder :=
  let orders := store.listReworkOrders changeId phase
  (orders.find? fun order => order.status = .pending).or (orders.find? fun order => order.status = .inProgress)

/-- The revisions the order is bound to: those the comments saw, then the head for every document. -/
def boundRevisions (around : Surroundings) (comments : List Comment) : List (String × String) :=
  let seen := comments.filterMap fun comment => comment.revision.map fun revision => (comment.artifact, revision)
  let documents := match around.artifacts, around.head with
    | some view, some head => view.paths.map fun path => (path, head)
    | _, _ => []
  (seen ++ documents).foldl (fun revisions entry => Table.insertNew Prod.fst entry revisions) []

def emptyOrder : Refusal :=
  ⟨.input, "a rework order needs at least one comment, one answered question or an instruction"⟩

def buildOrder (request : ReworkRequest) (orderId : String) (revisions : List (String × String)) :
    Except Refusal ReworkOrderRow :=
  if request.issuedBy = "" then .error ⟨.input, "String should have at least 1 character"⟩
  else if content : (!request.commentIds.isEmpty || !request.questionIds.isEmpty ||
      (clean request.instruction).isSome) = true then
    .ok { order := { id := orderId, changeId := request.changeId, phase := request.phase, revisions
                     commentIds := request.commentIds, questionIds := request.questionIds
                     instruction := clean request.instruction, has_content := content }
          decisionIds := request.decisionIds, issuedBy := request.issuedBy }
  else .error emptyOrder

def knownComment (store : ChangeStore) (changeId id : String) : Except Refusal Comment :=
  match store.comment changeId id with
  | some comment => .ok comment
  | none => .error ⟨.notFound, "unknown comment " ++ Text.repr id⟩

def knownQuestion (store : ChangeStore) (changeId id : String) : Except Refusal Question :=
  match store.question changeId id with
  | some question => .ok question
  | none => .error ⟨.notFound, "unknown question " ++ Text.repr id⟩

def ChangeStore.addReworkOrder (store : ChangeStore) (row : ReworkOrderRow) : ChangeStore :=
  { store with reworkOrders := Table.insertNew ReworkOrderRow.id row store.reworkOrders }

def ChangeStore.claimComments (store : ChangeStore) (comments : List Comment) (orderId : String) : ChangeStore :=
  let claimed (rows : List Comment) (comment : Comment) : List Comment :=
    Table.update Comment.id comment.id (fun _ => { comment with reworkOrderId := some orderId }) rows
  { store with comments := comments.foldl claimed store.comments }

def recordSendBack (around : Surroundings) (request : ReworkRequest) (orderId : String) (store : ChangeStore) :
    ChangeStore :=
  match gateOfPhase request.phase with
  | none => store
  | some gate =>
    let decision : Decision :=
      { id := "dec_" ++ around.decisionHex, gate, outcome := .rejected, decidedBy := .human
        decidedAt := around.now, commitSha := around.head
        comment := some ((request.instruction.filter (· ≠ "")).getD ("rework order " ++ orderId))
        phase := some request.phase }
    (store.record decision request.changeId (some ("rework:" ++ orderId)) request.actorRole).2

/-- The explicit send-back, on a change the surface has loaded; a known order answers with itself. -/
def issueReworkOrder (around : Surroundings) (request : ReworkRequest) (store : ChangeStore) :
    Except Refusal ((ReworkOrder × Bool) × ChangeStore) :=
  match store.change request.changeId with
  | none => .error (missingChange request.changeId)
  | some _ =>
    if request.behind around then .error ⟨.conflict, "expected_revision is behind the branch head"⟩
    else
      match store.reworkOrder (request.orderId around) with
      | some existing => .ok ((existing.order, false), store)
      | none =>
        match activeOrder store request.changeId request.phase with
        | some active =>
          .error ⟨.conflict, "rework order " ++ Text.repr active.id ++ " of phase " ++ request.phase.value ++
            " is " ++ active.status.value⟩
        | none => do
          let comments ← request.commentIds.mapM (knownComment store request.changeId)
          let _ ← request.questionIds.mapM (knownQuestion store request.changeId)
          let row ← buildOrder request (request.orderId around) (boundRevisions around comments)
          let issued := (store.addReworkOrder row).claimComments comments row.id
          return ((row.order, true), recordSendBack around request row.id issued)

def ChangeStore.settled {α : Type} (store : ChangeStore) (outcome : Except Refusal (α × ChangeStore)) :
    ChangeStore :=
  match outcome with
  | .ok (_, after) => after
  | .error _ => store

inductive OperatorCall
  | recordApproval (token : ApiToken) (changeId : String) (body : ApprovalRequest) (key : Option String)
  | recordPhaseDecision (request : PhaseDecisionRequest)
  | issueReworkOrder (request : ReworkRequest)

def afterOperator (store : ChangeStore) (call : Surroundings × OperatorCall) : ChangeStore :=
  match call with
  | (around, .recordApproval token changeId body key) =>
    store.settled (recordApproval around token changeId body key store)
  | (around, .recordPhaseDecision request) => store.settled (recordPhaseDecision around request store)
  | (around, .issueReworkOrder request) => store.settled (issueReworkOrder around request store)

end DarkFactory
