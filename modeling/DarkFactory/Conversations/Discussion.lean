import Mathlib.Logic.Function.Basic
import DarkFactory.Conversations.Operations
import DarkFactory.Runner.Advance
import DarkFactory.Scm.Agent

namespace DarkFactory

def questionStatusTransitions : QuestionStatus → List QuestionStatus
  | .open => [.answered, .stale]
  | .answered => [.resolved, .stale]
  | .resolved => []
  | .stale => []

def reworkOrderStatusTransitions : ReworkOrderStatus → List ReworkOrderStatus
  | .pending => [.inProgress, .escalated]
  | .inProgress => [.done, .escalated]
  | .done => []
  | .escalated => []

inductive CommentStatus | «open» | addressed | closed
  deriving DecidableEq, Repr

inductive AnswerKind | choice | text | number
  deriving DecidableEq, Repr

def QuestionStatus.value : QuestionStatus → String
  | .open => "open"
  | .answered => "answered"
  | .resolved => "resolved"
  | .stale => "stale"

structure ArtifactAnchor where
  artifact : String
  anchorId : Option String := none
  revision : Option String := none
  deriving DecidableEq, Repr

structure QuestionAnswer where
  value : String
  comment : Option String := none
  answeredBy : String
  answeredAt : Timestamp
  deriving DecidableEq, Repr

/-- A question as the agent states it; only a choice has options, and then at least two. -/
@[ext] structure QuestionDraft where
  text : String
  kind : AnswerKind := .text
  options : List String := []
  anchor : Option ArtifactAnchor := none
  blocking : Bool := true
  has_text : text ≠ "" := by decide
  choice_has_options : if kind = .choice then 2 ≤ options.length else options = [] := by decide
  deriving Repr

instance : DecidableEq QuestionDraft := fun _ _ => decidable_of_iff _ QuestionDraft.ext_iff.symm

/-- The stored question: what the gate reads of it, what the agent asked and what the operator answered. -/
structure AskedQuestion extends Question where
  draft : QuestionDraft
  runId : Option String := none
  askedBy : Option Role := none
  answer : Option QuestionAnswer := none
  deriving DecidableEq, Repr

structure ReworkSummary where
  changed : List String := []
  remaining : List String := []
  addressedCommentIds : List String := []
  deriving DecidableEq, Repr

/-- What the rounds of a run write on an order beside its status. -/
structure OrderRound where
  round : Option Nat := none
  runId : Option String := none
  summary : Option ReworkSummary := none
  escalationReason : Option String := none
  deriving DecidableEq, Repr

/-- The tables of the discussion. Its questions stand for those of the change store; the columns of an order and of
    a comment that the change store leaves out are found by the id of the row. -/
structure Discussion where
  store : ChangeStore := {}
  questions : List AskedQuestion := []
  rounds : String → OrderRound := fun _ => {}
  marks : String → CommentStatus := fun _ => .open

structure AttemptReport where
  questions : List QuestionDraft := []
  reworkSummary : Option ReworkSummary := none
  deriving DecidableEq, Repr

structure ConversationInputs where
  answeredQuestions : List AskedQuestion
  openQuestions : List AskedQuestion
  openComments : List Comment
  reworkOrder : Option ReworkOrder
  deriving DecidableEq

def AskedQuestion.key (question : AskedQuestion) : String := question.id

def ReworkOrder.applyStatus (order : ReworkOrder) (target : ReworkOrderStatus) : Except Failure ReworkOrder :=
  if (reworkOrderStatusTransitions order.status).contains target then .ok { order with status := target }
  else .error ⟨.invalidStatusTransition,
    s!"ReworkOrder transition {order.status.value} -> {target.value} is not allowed"⟩

def AskedQuestion.applyStatus (question : AskedQuestion) (target : QuestionStatus) : Except Failure AskedQuestion :=
  if (questionStatusTransitions question.status).contains target then .ok { question with status := target }
  else .error ⟨.invalidStatusTransition,
    s!"Question transition {question.status.value} -> {target.value} is not allowed"⟩

namespace Discussion

def view (d : Discussion) : ChangeStore := { d.store with questions := d.questions.map AskedQuestion.toQuestion }

def operate (d : Discussion) (call : Surroundings × OperatorCall) : Discussion :=
  { d with store := afterOperator d.view call }

def question (d : Discussion) (id : String) : Option AskedQuestion := Table.find AskedQuestion.key id d.questions

def listQuestions (d : Discussion) (changeId : String) (phase : Phase) (status : QuestionStatus) :
    List AskedQuestion :=
  d.questions.filter fun question =>
    question.changeId = changeId && question.phase = phase && question.status = status

def listComments (d : Discussion) (changeId : String) (phase : Phase) : List Comment :=
  d.store.comments.filter fun comment =>
    comment.changeId = changeId && comment.phase = phase && d.marks comment.id ≠ .closed

def pendingReworkOrder (d : Discussion) (changeId : String) (phase : Phase) : Option ReworkOrder :=
  (d.store.listReworkOrders changeId phase).find? fun order => order.status = .pending

def activeReworkOrder (d : Discussion) (changeId : String) (phase : Phase) : Option ReworkOrder :=
  (d.store.listReworkOrders changeId phase).find? fun order => order.status = .inProgress

def loadConversationInputs (d : Discussion) (changeId : String) (stage : Stage) (phase : Option Phase) :
    ConversationInputs :=
  let phase := phase.getD (stagePhase stage)
  { answeredQuestions := d.listQuestions changeId phase .answered
    openQuestions := d.listQuestions changeId phase .open
    openComments := d.listComments changeId phase
    reworkOrder := (d.activeReworkOrder changeId phase).or (d.pendingReworkOrder changeId phase) }

def saveQuestion (d : Discussion) (question : AskedQuestion) : Except Failure Discussion :=
  match d.question question.id with
  | none => .error ⟨.stateConflict, s!"question {Text.repr question.id} does not exist"⟩
  | some _ => .ok { d with
      questions := Table.update AskedQuestion.key question.id (fun _ => question) d.questions }

def saveReworkOrder (d : Discussion) (order : ReworkOrder) (round : OrderRound) : Except Failure Discussion :=
  match d.store.reworkOrder order.id with
  | none => .error ⟨.stateConflict, s!"rework order {Text.repr order.id} does not exist"⟩
  | some _ => .ok { d with
      store := { d.store with
        reworkOrders := Table.update ReworkOrderRow.id order.id (fun row => { row with order })
          d.store.reworkOrders }
      rounds := Function.update d.rounds order.id round }

def moveOrder (d : Discussion) (order : ReworkOrder) (target : ReworkOrderStatus) (write : OrderRound → OrderRound) :
    Except Failure Discussion := do
  let moved ← order.applyStatus target
  d.saveReworkOrder moved (write (d.rounds order.id))

def startOrder (d : Discussion) (order : ReworkOrder) (round : Nat) (runId : String) : Except Failure Discussion :=
  d.moveOrder order .inProgress fun held => { held with round := some round, runId := some runId }

def finishOrder (d : Discussion) (order : ReworkOrder) (summary : ReworkSummary) : Except Failure Discussion :=
  d.moveOrder order .done fun held => { held with summary := some summary }

def escalateOrder (d : Discussion) (order : ReworkOrder) (reason : String) : Except Failure Discussion :=
  d.moveOrder order .escalated fun held => { held with escalationReason := some reason }

/-- Of the comments the summary claims and the order carries, the open claimed ones are addressed. -/
def markAddressed (d : Discussion) (summary : ReworkSummary) (order : ReworkOrder) : Discussion :=
  let claimed := summary.addressedCommentIds
  let mark (marks : String → CommentStatus) (id : String) : String → CommentStatus :=
    match Table.find Comment.id id d.store.comments with
    | none => marks
    | some _ =>
      if marks id = .open && claimed.contains id then Function.update marks id .addressed else marks
  { d with marks := (claimed ++ order.commentIds).foldl mark d.marks }

end Discussion

def questionIdFor (result : StageResult) (index : Nat) : String :=
  let operation := operationKey result.runId result.stage (result.inputRevision.getD "")
  let attempt := attemptId operation result.attemptNumber
  "q_" ++ String.ofList ((Sha256.hex (attempt ++ ":" ++ toString index)).take 16)

def askedQuestion (result : StageResult) (changeId : String) (phase : Phase) (draft : QuestionDraft) (index : Nat) :
    AskedQuestion :=
  { id := questionIdFor result index, changeId, phase, blocking := draft.blocking, draft
    runId := some result.runId, askedBy := some (roleOf result.stage result.phase) }

namespace Discussion

def storeQuestions (d : Discussion) (result : StageResult) (drafts : List QuestionDraft) (changeId : String)
    (phase : Phase) : Discussion :=
  let store (rows : List AskedQuestion) (entry : QuestionDraft × Nat) : List AskedQuestion :=
    Table.insertNew AskedQuestion.key (askedQuestion result changeId phase entry.1 entry.2) rows
  { d with questions := (drafts.zipIdx 1).foldl store d.questions }

def resolveQuestion (d : Discussion) (question : AskedQuestion) : Except Failure Discussion := do
  let resolved ← question.applyStatus .resolved
  d.saveQuestion resolved

def resolveQuestions (d : Discussion) (changeId : String) (phase : Phase) : Except Failure Discussion :=
  (d.listQuestions changeId phase .answered).foldlM resolveQuestion d

def finishActive (d : Discussion) (summary : Option ReworkSummary) (changeId : String) (phase : Phase) :
    Except Failure Discussion :=
  match d.activeReworkOrder changeId phase with
  | none => .ok d
  | some active => do
    let summary := summary.getD {}
    let finished ← d.finishOrder active summary
    return finished.markAddressed summary active

def openOrders (d : Discussion) (changeId : String) (phase : Phase) : List ReworkOrder :=
  (d.store.listReworkOrders changeId phase).filter fun order => order.status = .pending || order.status = .inProgress

end Discussion

def outcomePhase (result : StageResult) : Phase := result.phase.getD (stagePhase result.stage)

/-- What one advance did to the discussion; a replay did nothing. -/
def recordStageOutcome (advance : RunAdvance) (report : AttemptReport) (changeId : String) (d : Discussion) :
    Except Failure Discussion :=
  if advance.outcome = .replayed then .ok d
  else
    match advance.decision with
    | none => .ok d
    | some decision =>
      let result := advance.result
      let phase := outcomePhase result
      match decision.action with
      | .rework action =>
        match d.pendingReworkOrder changeId phase with
        | none => .ok d
        | some pending => d.startOrder pending action.round result.runId
      | .stop _ reason => (d.openOrders changeId phase).foldlM (fun d order => d.escalateOrder order reason) d
      | .requestApproval .. | .waitForInput .. => do
        let asked := d.storeQuestions result report.questions changeId phase
        let resolved ← asked.resolveQuestions changeId phase
        resolved.finishActive report.reworkSummary changeId phase
      | _ => .ok (d.storeQuestions result report.questions changeId phase)

/-- The texts `Decimal` reads, the separating underscores aside; `isdecimal` decides beyond the ASCII digits. -/
def decimalText (isdecimal : Char → Bool) (text : String) : Bool :=
  let unsign (chars : List Char) : List Char :=
    match chars with
    | '+' :: rest | '-' :: rest => rest
    | _ => chars
  let chars := unsign (text.toList.filter (· ≠ '_'))
  let lower := String.ofList (chars.map Char.toLower)
  let digits (chars : List Char) : Bool := chars.all isdecimal
  let whole := chars.takeWhile isdecimal
  let (fraction, rest) := match chars.dropWhile isdecimal with
    | '.' :: tail => (tail.takeWhile isdecimal, tail.dropWhile isdecimal)
    | tail => ([], tail)
  let exponent := match rest with
    | [] => true
    | mark :: tail => (mark = 'e' || mark = 'E') && !(unsign tail).isEmpty && digits (unsign tail)
  lower = "inf" || lower = "infinity" ||
    (Text.startsWith lower "nan" && digits (chars.drop 3)) || (Text.startsWith lower "snan" && digits (chars.drop 4)) ||
    (!(whole ++ fraction).isEmpty && exponent)

structure AnswerRequest where
  changeId : String
  questionId : String
  value : String
  comment : Option String := none
  answeredBy : String
  answeredAt : Timestamp
  isdecimal : Char → Bool := Char.isDigit
  answeredBy_nonempty : answeredBy ≠ "" := by decide

def QuestionDraft.validateAnswer (draft : QuestionDraft) (isdecimal : Char → Bool) (value : String) :
    Except String String :=
  let cleaned := Text.strip value
  if cleaned = "" then .error "an answer cannot be blank"
  else
    match draft.kind with
    | .choice =>
      if draft.options.contains cleaned then .ok cleaned
      else .error ("answer " ++ Text.repr cleaned ++ " is not one of the options: " ++ Text.join ", " draft.options)
    | .number =>
      if decimalText isdecimal cleaned then .ok cleaned else .error ("answer " ++ Text.repr cleaned ++ " is not a number")
    | .text => .ok cleaned

/-- The answer of the operator; the same answer once more is inert. -/
def answerQuestion (request : AnswerRequest) (d : Discussion) : Except Refusal ((AskedQuestion × Bool) × Discussion) :=
  let missing : Refusal := ⟨.notFound, "question " ++ Text.repr request.questionId ++ " does not exist"⟩
  match d.question request.questionId with
  | none => .error missing
  | some question =>
    if question.changeId ≠ request.changeId then .error missing
    else if question.status ≠ .open then
      if question.status = .answered && (question.answer.any fun answer => answer.value = Text.strip request.value) then
        .ok ((question, false), d)
      else .error ⟨.conflict,
        "question " ++ Text.repr question.id ++ " is " ++ question.status.value ++ ", not open"⟩
    else
      match question.draft.validateAnswer request.isdecimal request.value with
      | .error detail => .error ⟨.input, detail⟩
      | .ok value =>
        let answer : QuestionAnswer :=
          { value, comment := clean request.comment, answeredBy := request.answeredBy
            answeredAt := request.answeredAt }
        let answered : AskedQuestion := { question with status := .answered, answer := some answer }
        .ok ((answered, true), { d with
          questions := Table.update AskedQuestion.key question.id (fun _ => answered) d.questions })

/-- A refused answer writes nothing. -/
def Discussion.answered (d : Discussion) (request : AnswerRequest) : Discussion :=
  match answerQuestion request d with
  | .ok (_, after) => after
  | .error _ => d

theorem answerQuestion_ok {request : AnswerRequest} {d after : Discussion} {answered : AskedQuestion × Bool}
    (done : answerQuestion request d = .ok (answered, after)) :
    after = d ∨ ∃ question answer, d.question request.questionId = some question ∧ question.status = .open ∧
      after = { d with
        questions := Table.update AskedQuestion.key question.id
          (fun _ => { question with status := .answered, answer := some answer }) d.questions } := by
  unfold answerQuestion at done
  dsimp only at done
  cases found : d.question request.questionId with
  | none => simp [found] at done
  | some question =>
    simp only [found] at done
    by_cases other : question.changeId ≠ request.changeId
    · rw [if_pos other] at done
      cases done
    rw [if_neg other] at done
    by_cases closed : question.status ≠ .open
    · rw [if_pos closed] at done
      split at done
      · cases done
        exact Or.inl rfl
      · cases done
    rw [if_neg closed] at done
    cases valid : question.draft.validateAnswer request.isdecimal request.value with
    | error detail => simp [valid] at done
    | ok value =>
      simp only [valid, Except.ok.injEq, Prod.mk.injEq] at done
      exact Or.inr ⟨question, _, rfl, not_not.mp closed, done.2.symm⟩

theorem Discussion.answered_cases (d : Discussion) (request : AnswerRequest) :
    d.answered request = d ∨ ∃ question answer, d.question request.questionId = some question ∧
      question.status = .open ∧ d.answered request = { d with
        questions := Table.update AskedQuestion.key question.id
          (fun _ => { question with status := .answered, answer := some answer }) d.questions } := by
  unfold Discussion.answered
  cases done : answerQuestion request d with
  | error refusal => exact Or.inl rfl
  | ok pair => exact answerQuestion_ok done

end DarkFactory
