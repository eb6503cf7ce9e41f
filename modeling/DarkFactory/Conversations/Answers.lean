import DarkFactory.Conversations.Rounds

namespace DarkFactory

def NextAction.humanWait : NextAction → Bool
  | .requestApproval .. | .waitForInput .. => true
  | _ => false

def AskedQuestion.resolve (question : AskedQuestion) : AskedQuestion := { question with status := .resolved }

def AskedQuestion.give (question : AskedQuestion) (answer : QuestionAnswer) : AskedQuestion :=
  { question with status := .answered, answer := some answer }

inductive QuestionStep (question : AskedQuestion) : AskedQuestion → Prop
  | answered (answer : QuestionAnswer) (unanswered : question.status = .open) :
      QuestionStep question (question.give answer)
  | resolved (given : question.status = .answered) : QuestionStep question question.resolve

/-- Every question is still there under its id, at a state it could come to. -/
abbrev QuestionsCarried := Lifecycle.Carried AskedQuestion.key id QuestionStep

def AskedQuestion.isNew (question : AskedQuestion) : Prop := question.status = .open ∧ question.answer = none

section Recording

variable {d after : Discussion} {changeId : String} {phase : Phase} {question : AskedQuestion}

theorem QuestionStep.table {next : AskedQuestion} (step : QuestionStep question next) :
    next.status ∈ questionStatusTransitions question.status := by
  cases step with
  | answered answer unanswered =>
    rw [unanswered]
    exact List.mem_cons_self
  | resolved given =>
    rw [given]
    exact List.mem_cons_self

theorem answer_kept {first last : AskedQuestion} (given : first.status ≠ .open)
    (path : Relation.ReflTransGen QuestionStep first last) : last.status ≠ .open ∧ last.answer = first.answer := by
  induction path with
  | refl => exact ⟨given, rfl⟩
  | tail _ step ih =>
    obtain ⟨settled, same⟩ := ih
    cases step with
    | answered answer unanswered => exact absurd unanswered settled
    | resolved given => exact ⟨nofun, same⟩

theorem question_final (closed : question.status = .resolved ∨ question.status = .stale) (next : AskedQuestion) :
    ¬ QuestionStep question next := by
  intro step
  have listed := step.table
  rcases closed with closed | closed
  · rw [closed] at listed
    cases listed
  · rw [closed] at listed
    cases listed

theorem moveOrder_questions {order : ReworkOrder} {target : ReworkOrderStatus} {write : OrderRound → OrderRound}
    (done : d.moveOrder order target write = .ok after) : after.questions = d.questions := by
  obtain ⟨moved, -, saving⟩ := Outcome.bind_ok.mp done
  unfold Discussion.saveReworkOrder at saving
  split at saving
  · cases saving
  · cases saving
    rfl

theorem finishActive_questions {summary : Option ReworkSummary} (done : d.finishActive summary changeId phase = .ok after) :
    after.questions = d.questions := by
  unfold Discussion.finishActive at done
  split at done
  · cases done
    rfl
  · obtain ⟨finished, finish, marking⟩ := Outcome.bind_ok.mp done
    cases marking
    have kept : finished.questions = d.questions := moveOrder_questions finish
    exact kept

theorem escalateOrders_questions {orders : List ReworkOrder} {reason : String}
    (done : orders.foldlM (fun d order => d.escalateOrder order reason) d = .ok after) :
    after.questions = d.questions := by
  induction orders generalizing d with
  | nil =>
    cases done
    rfl
  | cons order rest ih =>
    rw [List.foldlM_cons] at done
    obtain ⟨next, moving, later⟩ := Outcome.bind_ok.mp done
    exact (ih later).trans (moveOrder_questions moving)

theorem resolveQuestion_ok (done : d.resolveQuestion question = .ok after) :
    after.questions =
      Table.update AskedQuestion.key question.key (fun _ => question.resolve) d.questions := by
  obtain ⟨resolved, moving, saving⟩ := Outcome.bind_ok.mp done
  unfold AskedQuestion.applyStatus at moving
  split at moving
  · cases moving
    unfold Discussion.saveQuestion at saving
    split at saving
    · cases saving
    · cases saving
      rfl
  · cases moving

theorem mem_listQuestions {status : QuestionStatus} : question ∈ d.listQuestions changeId phase status ↔
    question ∈ d.questions ∧ question.changeId = changeId ∧ question.phase = phase ∧ question.status = status := by
  simp [Discussion.listQuestions, List.mem_filter, and_assoc]

theorem resolveQuestions_ok (unique : Table.Unique AskedQuestion.key d.questions)
    (done : d.resolveQuestions changeId phase = .ok after) :
    after.questions = d.questions.map fun question =>
      if question ∈ d.listQuestions changeId phase .answered then question.resolve else question := by
  have each (questions : List AskedQuestion) (d : Discussion)
      (done : questions.foldlM Discussion.resolveQuestion d = .ok after) :
      after.questions = questions.foldl (fun rows question =>
        Table.update AskedQuestion.key question.key (fun _ => question.resolve) rows) d.questions := by
    induction questions generalizing d with
    | nil =>
      cases done
      rfl
    | cons question rest ih =>
      rw [List.foldlM_cons] at done
      obtain ⟨next, resolving, later⟩ := Outcome.bind_ok.mp done
      rw [ih next later, resolveQuestion_ok resolving]
      rfl
  have listed (question : AskedQuestion) (member : question ∈ d.listQuestions changeId phase .answered) :
      question ∈ d.questions := (mem_listQuestions.mp member).1
  have distinct : Table.Unique AskedQuestion.key (d.listQuestions changeId phase .answered) :=
    unique.sublist ((List.filter_sublist).map _)
  have keeps (question : AskedQuestion) : question.resolve.key = question.key := rfl
  rw [each _ d done]
  exact unique.foldl_update keeps listed distinct

theorem storeQuestions_rows (result : StageResult) (drafts : List QuestionDraft) (changeId : String) (phase : Phase)
    (unique : Table.Unique AskedQuestion.key d.questions) :
    let asked := (d.storeQuestions result drafts changeId phase).questions
    Table.Unique AskedQuestion.key asked ∧ ∃ new, asked = d.questions ++ new ∧ ∀ question ∈ new, question.isNew := by
  have each (entries : List (QuestionDraft × Nat)) (rows : List AskedQuestion)
      (unique : Table.Unique AskedQuestion.key rows) :
      let asked := entries.foldl (fun rows entry =>
        Table.insertNew AskedQuestion.key (askedQuestion result changeId phase entry.1 entry.2) rows) rows
      Table.Unique AskedQuestion.key asked ∧ ∃ new, asked = rows ++ new ∧ ∀ question ∈ new, question.isNew := by
    induction entries generalizing rows with
    | nil => exact ⟨unique, [], (List.append_nil rows).symm, fun _ member => absurd member List.not_mem_nil⟩
    | cons entry rest ih =>
      obtain ⟨distinct, later, appended, new⟩ := ih _ unique.insertNew
      refine ⟨distinct, ?_⟩
      rw [List.foldl_cons, appended]
      unfold Table.insertNew
      split
      · exact ⟨later, rfl, new⟩
      · refine ⟨askedQuestion result changeId phase entry.1 entry.2 :: later, by simp, ?_⟩
        rw [List.forall_mem_cons]
        exact ⟨⟨rfl, rfl⟩, new⟩
  exact each _ d.questions unique

end Recording

def QuestionsStep (due : AskedQuestion → Prop) (before after : List AskedQuestion) : Prop :=
  ∃ (next : AskedQuestion → AskedQuestion) (new : List AskedQuestion), after = before.map next ++ new ∧
    (∀ question ∈ new, question.isNew) ∧ ∀ question ∈ before, next question = question ∨
      (∃ answer, question.status = .open ∧ next question = question.give answer) ∨
      (question.status = .answered ∧ next question = question.resolve ∧ due question)

section Steps

variable {d after : Discussion} {due other : AskedQuestion → Prop} {rows next : List AskedQuestion}

theorem QuestionsStep.refl : QuestionsStep due rows rows :=
  ⟨id, [], by simp, fun _ member => absurd member List.not_mem_nil, fun _ _ => Or.inl rfl⟩

theorem QuestionsStep.mono (step : QuestionsStep due rows next)
    (implies : ∀ question ∈ rows, question.status = .answered → due question → other question) :
    QuestionsStep other rows next := by
  obtain ⟨f, new, appended, fresh, moved⟩ := step
  refine ⟨f, new, appended, fresh, ?_⟩
  intro question member
  rcases moved question member with same | answered | ⟨given, resolved, reason⟩
  · exact Or.inl same
  · exact Or.inr (Or.inl answered)
  · exact Or.inr (Or.inr ⟨given, resolved, implies question member given reason⟩)

theorem QuestionsStep.carried (step : QuestionsStep due rows next) : QuestionsCarried rows next := by
  obtain ⟨f, new, rfl, -, moved⟩ := step
  intro question member
  refine ⟨f question, List.mem_append_left _ (List.mem_map_of_mem member), ?_⟩
  rcases moved question member with same | ⟨answer, unanswered, same⟩ | ⟨given, same, -⟩
  · rw [same]
    exact ⟨rfl, .refl⟩
  · rw [same]
    exact ⟨rfl, .single (.answered answer unanswered)⟩
  · rw [same]
    exact ⟨rfl, .single (.resolved given)⟩

theorem QuestionsStep.give {question : AskedQuestion} (unique : Table.Unique AskedQuestion.key rows)
    (member : question ∈ rows) (unanswered : question.status = .open) (answer : QuestionAnswer) :
    let given := Table.update AskedQuestion.key question.key (fun _ => question.give answer) rows
    Table.Unique AskedQuestion.key given ∧ QuestionsStep due rows given := by
  constructor
  · exact unique.replace rfl
  · refine ⟨fun row => if row.key = question.key then question.give answer else row, [], (List.append_nil _).symm,
      fun _ absent => absurd absent List.not_mem_nil, ?_⟩
    intro row listed
    by_cases here : row.key = question.key
    · obtain rfl := unique.eq listed member here
      exact Or.inr (Or.inl ⟨answer, unanswered, if_pos rfl⟩)
    · exact Or.inl (if_neg here)

theorem QuestionsStep.answered (step : QuestionsStep due rows next) {question : AskedQuestion} (member : question ∈ rows)
    (given : question.status = .answered) : question ∈ next ∨ (question.resolve ∈ next ∧ due question) := by
  obtain ⟨f, new, rfl, -, moved⟩ := step
  have image : f question ∈ rows.map f ++ new := List.mem_append_left _ (List.mem_map_of_mem member)
  rcases moved question member with same | ⟨answer, unanswered, -⟩ | ⟨-, same, reason⟩
  · rw [same] at image
    exact Or.inl image
  · rw [given] at unanswered
    cases unanswered
  · rw [same] at image
    exact Or.inr ⟨image, reason⟩

theorem QuestionsStep.resolved (step : QuestionsStep due rows next) {question : AskedQuestion} (member : question ∈ rows)
    (closed : question.status = .resolved) : question ∈ next := by
  obtain ⟨f, new, rfl, -, moved⟩ := step
  have image : f question ∈ rows.map f ++ new := List.mem_append_left _ (List.mem_map_of_mem member)
  rcases moved question member with same | ⟨answer, unanswered, -⟩ | ⟨given, -⟩
  · rw [same] at image
    exact image
  · rw [closed] at unanswered
    cases unanswered
  · rw [closed] at given
    cases given

theorem resolveQuestions_step {asked : Discussion} {changeId : String} {phase : Phase} {new : List AskedQuestion}
    (unique : Table.Unique AskedQuestion.key asked.questions) (appended : asked.questions = d.questions ++ new)
    (fresh : ∀ question ∈ new, question.isNew) (done : asked.resolveQuestions changeId phase = .ok after) :
    Table.Unique AskedQuestion.key after.questions ∧
      QuestionsStep (fun question => question ∈ d.listQuestions changeId phase .answered) d.questions after.questions := by
  have rows := resolveQuestions_ok unique done
  have same : after.questions.map AskedQuestion.key = asked.questions.map AskedQuestion.key := by
    rw [rows, List.map_map]
    refine List.map_congr_left fun question _ => ?_
    rw [Function.comp_apply]
    split <;> rfl
  have untouched (question : AskedQuestion) (member : question ∈ new) :
      question ∉ asked.listQuestions changeId phase .answered := by
    intro listed
    obtain ⟨-, -, -, given⟩ := mem_listQuestions.mp listed
    rw [(fresh question member).1] at given
    cases given
  refine ⟨by rw [Table.Unique, same]; exact unique, ?_⟩
  refine ⟨fun question => if question ∈ asked.listQuestions changeId phase .answered then question.resolve else question,
    new, ?_, fresh, ?_⟩
  · rw [rows, appended, List.map_append]
    congr 1
    calc new.map _ = new.map id := List.map_congr_left fun question member => if_neg (untouched question member)
      _ = new := List.map_id new
  · intro question member
    by_cases listed : question ∈ asked.listQuestions changeId phase .answered
    · obtain ⟨-, change, own, given⟩ := mem_listQuestions.mp listed
      exact Or.inr (Or.inr ⟨given, if_pos listed, mem_listQuestions.mpr ⟨member, change, own, given⟩⟩)
    · exact Or.inl (if_neg listed)

/-- The outcome of an advance resolves the answered questions of its phase when it parks the run for a human. -/
theorem recordStageOutcome_questions {advance : RunAdvance} {report : AttemptReport} {changeId : String}
    (unique : Table.Unique AskedQuestion.key d.questions)
    (done : recordStageOutcome advance report changeId d = .ok after) :
    Table.Unique AskedQuestion.key after.questions ∧
      QuestionsStep (fun question => (∃ decision, advance.decision = some decision ∧ decision.action.humanWait = true) ∧
        question ∈ d.listQuestions changeId (outcomePhase advance.result) .answered) d.questions after.questions := by
  obtain ⟨distinct, new, appended, fresh⟩ := storeQuestions_rows advance.result report.questions changeId
    (outcomePhase advance.result) unique
  have kept (same : after.questions = d.questions) (due : AskedQuestion → Prop) :
      Table.Unique AskedQuestion.key after.questions ∧ QuestionsStep due d.questions after.questions := by
    rw [same]
    exact ⟨unique, .refl⟩
  unfold recordStageOutcome at done
  by_cases replayed : advance.outcome = .replayed
  · rw [if_pos replayed] at done
    cases done
    exact kept rfl _
  rw [if_neg replayed] at done
  cases decided : advance.decision with
  | none =>
    simp only [decided] at done
    cases done
    exact kept rfl _
  | some decision =>
    simp only [decided] at done
    cases action : decision.action with
    | rework asked =>
      simp only [action] at done
      split at done
      · cases done
        exact kept rfl _
      · exact kept (moveOrder_questions done) _
    | stop outcome reason =>
      simp only [action] at done
      exact kept (escalateOrders_questions done) _
    | requestApproval | waitForInput =>
      simp only [action] at done
      obtain ⟨resolved, resolving, finishing⟩ := Outcome.bind_ok.mp done
      obtain ⟨unique, step⟩ := resolveQuestions_step distinct appended fresh resolving
      rw [finishActive_questions finishing]
      refine ⟨unique, step.mono fun question _ _ listed => ⟨⟨decision, rfl, ?_⟩, listed⟩⟩
      rw [action]
      rfl
    | executeStage | waitForCi | phaseRound | merge | release =>
      simp only [action] at done
      cases done
      refine ⟨distinct, id, new, ?_, fresh, fun _ _ => Or.inl rfl⟩
      rw [appended, List.map_id]

end Steps

def Service.questions (service : Service) : List AskedQuestion := service.db.discussion.questions

def Flight.answeredQuestions (flight : Flight) : List AskedQuestion :=
  flight.inputs.elim [] ConversationInputs.answeredQuestions

def Flight.executes (flight : Flight) (db : Database) : Prop :=
  ∃ attempt, attempted (flight.advanceInput db) db.runs = some attempt ∧ attempt.checkpoint = none

/-- The question is answered when the step records an attempt of its phase that ended in a human wait. -/
def Service.due (service : Service) : ServiceStep → AskedQuestion → Prop
  | .finish index, question => ∃ flight advance decision, service.flights[index]? = some flight ∧
      reportOf (flight.advanceInput service.db) service.db.runs = some advance ∧ advance.decision = some decision ∧
      decision.action.humanWait = true ∧ question ∈
        service.db.discussion.listQuestions flight.session.change.id (outcomePhase advance.result) .answered
  | _, _ => False

/-- The step ends an advance whose attempt was handed the question with its answer. -/
def Service.hands (service : Service) : ServiceStep → AskedQuestion → Prop
  | .finish index, question => ∃ flight, service.flights[index]? = some flight ∧ flight.executes service.db ∧
      question ∈ flight.answeredQuestions
  | _, _ => False

/-- An advance that parks its run for a human executed an attempt, and since its inputs were loaded no further question
    of its phase was answered; or there is no answered question of the phase. -/
def KeepsAnswers (service : Service) : ServiceStep → Prop
  | .finish index => ∀ flight advance decision, service.flights[index]? = some flight →
      reportOf (flight.advanceInput service.db) service.db.runs = some advance → advance.decision = some decision →
      decision.action.humanWait = true → ∀ question ∈
        service.db.discussion.listQuestions flight.session.change.id (outcomePhase advance.result) .answered,
        flight.executes service.db ∧ question.id ∈ flight.answeredQuestions.map AskedQuestion.key
  | _ => True

structure AnswersHeld (service : Service) : Prop where
  unique : Table.Unique AskedQuestion.key service.questions
  loaded : ∀ flight ∈ service.flights, ∀ question ∈ flight.answeredQuestions, question.status = .answered ∧
    (question ∈ service.questions ∨ question.resolve ∈ service.questions)

section Service

variable {service : Service} {session : SessionInput} {db : Database} {flight : Flight}

theorem load_answered {run : ChangeRun} {stage : Stage} (loaded : session.load db = .ok flight)
    (there : db.runs.load session.runId = some run) (next : nextStage run = some stage) {question : AskedQuestion} :
    question ∈ flight.answeredQuestions ↔ question ∈ db.discussion.questions ∧ question.changeId = session.change.id ∧
      question.phase = flight.phase.getD (stagePhase stage) ∧ question.status = .answered := by
  unfold SessionInput.load at loaded
  rw [there] at loaded
  dsimp only at loaded
  split at loaded
  · cases loaded
  · cases loaded
    simp only [Flight.answeredQuestions, next, Option.map_some, Option.elim_some, Discussion.loadConversationInputs]
    exact mem_listQuestions

theorem load_answered_mem (loaded : session.load db = .ok flight) {question : AskedQuestion}
    (member : question ∈ flight.answeredQuestions) :
    question ∈ db.discussion.questions ∧ question.status = .answered := by
  cases there : db.runs.load session.runId with
  | none =>
    rw [SessionInput.load, there] at loaded
    cases loaded
  | some run =>
    cases next : nextStage run with
    | none =>
      unfold SessionInput.load at loaded
      rw [there] at loaded
      dsimp only at loaded
      split at loaded
      · cases loaded
      · cases loaded
        simp only [Flight.answeredQuestions, next, Option.map_none, Option.elim_none] at member
        cases member
    | some stage =>
      obtain ⟨listed, -, -, given⟩ := (load_answered loaded there next).mp member
      exact ⟨listed, given⟩

/-- What a step does to the stored questions. -/
theorem afterService_questions (unique : Table.Unique AskedQuestion.key service.questions) (step : ServiceStep) :
    Table.Unique AskedQuestion.key (afterService service step).questions ∧
      QuestionsStep (service.due step) service.questions (afterService service step).questions := by
  have kept (same : (afterService service step).questions = service.questions) :
      Table.Unique AskedQuestion.key (afterService service step).questions ∧
        QuestionsStep (service.due step) service.questions (afterService service step).questions := by
    rw [same]
    exact ⟨unique, .refl⟩
  cases step with
  | create input => exact kept rfl
  | withdraw input => exact kept rfl
  | operate call => exact kept rfl
  | answer request =>
    rcases service.db.discussion.answered_cases request with same | ⟨question, answer, found, unanswered, written⟩
    · exact kept (congrArg Discussion.questions same)
    · have rows : (afterService service (.answer request)).questions =
          Table.update AskedQuestion.key question.key (fun _ => question.give answer) service.questions :=
        congrArg Discussion.questions written
      rw [rows]
      exact QuestionsStep.give unique (Table.find_some found).1 unanswered answer
  | load session =>
    apply kept
    simp only [afterService]
    split <;> rfl
  | finish index =>
    simp only [afterService] at kept ⊢
    cases there : service.flights[index]? with
    | none => exact ⟨unique, .refl⟩
    | some flight =>
      simp only [there] at kept
      rcases flight.commit_cases service.db with same | ⟨advance, advanced, recorded⟩
      · apply kept
        rw [Service.questions, same]
        rfl
      · obtain ⟨distinct, step⟩ := recordStageOutcome_questions unique recorded
        refine ⟨distinct, step.mono ?_⟩
        rintro question - - ⟨⟨decision, decided, waits⟩, listed⟩
        have reported : reportOf (flight.advanceInput service.db) service.db.runs = some advance := by
          rw [reportOf, advanced]
        exact ⟨flight, advance, decision, there, reported, decided, waits, listed⟩

theorem freshService_answersHeld (store : ChangeStore) : AnswersHeld (freshService store) :=
  ⟨Table.Unique.nil, fun _ member => absurd member List.not_mem_nil⟩

theorem QuestionsStep.outlasts {due : AskedQuestion → Prop} {rows next : List AskedQuestion}
    (step : QuestionsStep due rows next) {question : AskedQuestion} (given : question.status = .answered)
    (there : question ∈ rows ∨ question.resolve ∈ rows) : question ∈ next ∨ question.resolve ∈ next := by
  rcases there with listed | resolved
  · exact (step.answered listed given).imp id And.left
  · exact Or.inr (step.resolved resolved rfl)

theorem afterService_flights {step : ServiceStep} {flight : Flight} (member : flight ∈ (afterService service step).flights) :
    flight ∈ service.flights ∨ ∃ session : SessionInput, session.load service.db = .ok flight := by
  cases step with
  | create | withdraw | operate | answer => exact Or.inl member
  | load session =>
    simp only [afterService] at member
    cases loaded : session.load service.db with
    | error failure =>
      rw [loaded] at member
      exact Or.inl member
    | ok other =>
      rw [loaded] at member
      rcases List.mem_append.mp member with old | new
      · exact Or.inl old
      · rw [List.mem_singleton.mp new]
        exact Or.inr ⟨session, loaded⟩
  | finish index =>
    simp only [afterService] at member
    split at member
    · exact Or.inl (List.eraseIdx_subset member)
    · exact Or.inl member

theorem AnswersHeld.after (held : AnswersHeld service) (step : ServiceStep) : AnswersHeld (afterService service step) := by
  obtain ⟨unique, moved⟩ := afterService_questions held.unique step
  refine ⟨unique, ?_⟩
  intro flight member question answered
  rcases afterService_flights member with old | ⟨session, loaded⟩
  · obtain ⟨given, there⟩ := held.loaded flight old question answered
    exact ⟨given, moved.outlasts given there⟩
  · obtain ⟨listed, given⟩ := load_answered_mem loaded answered
    exact ⟨given, moved.outlasts given (Or.inl listed)⟩

theorem served_answersHeld (held : AnswersHeld service) (steps : List ServiceStep) : AnswersHeld (served service steps) := by
  induction steps generalizing service with
  | nil => exact held
  | cons step rest ih => exact ih (held.after step)

/-- Where the answers are kept, what is due was handed to the attempt, with the answer that stands. -/
theorem AnswersHeld.hands (held : AnswersHeld service) {step : ServiceStep} (keeps : KeepsAnswers service step)
    {question : AskedQuestion} (member : question ∈ service.questions) (given : question.status = .answered)
    (due : service.due step question) : service.hands step question := by
  cases step with
  | create | withdraw | operate | answer | load => cases due
  | finish index =>
    obtain ⟨flight, advance, decision, there, reported, decided, waits, listed⟩ := due
    obtain ⟨executes, named⟩ := keeps flight advance decision there reported decided waits question listed
    obtain ⟨received, answered, same⟩ := List.mem_map.mp named
    obtain ⟨-, stands | resolved⟩ := held.loaded flight (List.mem_of_getElem? there) received answered
    · rw [held.unique.eq member stands same.symm]
      exact ⟨flight, there, executes, answered⟩
    · rw [held.unique.eq member resolved same.symm] at given
      cases given

theorem AnswersHeld.stands (held : AnswersHeld service) {steps : List ServiceStep}
    (along : Trace.Along afterService KeepsAnswers service steps) {question : AskedQuestion}
    (member : question ∈ service.questions) (given : question.status = .answered)
    (unhanded : ∀ before step after, steps = before ++ step :: after → ¬ (served service before).hands step question) :
    question ∈ (served service steps).questions := by
  induction steps generalizing service with
  | nil => exact member
  | cons step rest ih =>
    obtain ⟨keeps, later⟩ := along
    obtain ⟨-, moved⟩ := afterService_questions held.unique step
    have stays : question ∈ (afterService service step).questions := by
      rcases moved.answered member given with stands | ⟨-, due⟩
      · exact stands
      · exact absurd (held.hands keeps member given due) (unhanded [] step rest rfl)
    refine ih (held.after step) later stays ?_
    intro before next after split
    exact unhanded (step :: before) next after (congrArg (step :: ·) split)

theorem served_questions (held : AnswersHeld service) (steps : List ServiceStep) :
    QuestionsCarried service.questions (served service steps).questions := by
  induction steps generalizing service with
  | nil => exact .refl
  | cons step rest ih =>
    have moved := (afterService_questions held.unique step).2
    exact moved.carried.trans (ih (held.after step))

/-- Over any steps that keep the answers, a question is resolved only by a step that hands it to an attempt with its
    answer. An answer that was not handed over yet stands, and the next attempt of its phase is loaded with it; an
    answer never changes, and a question that is resolved or stale stays so. -/
theorem answers_reach_an_attempt {store : ChangeStore} {steps : List ServiceStep}
    (along : Trace.Along afterService KeepsAnswers (freshService store) steps) :
    (∀ before step after, steps = before ++ step :: after →
      let service := served (freshService store) before
      QuestionsStep (service.hands step) service.questions (afterService service step).questions) ∧
    ∀ before after, steps = before ++ after →
      let service := served (freshService store) before
      let reached := served (freshService store) steps
      (∀ question ∈ service.questions, question.status = .answered →
        (∀ mid step rest, after = mid ++ step :: rest → ¬ (served service mid).hands step question) →
          question ∈ reached.questions ∧ ∀ (session : SessionInput) flight run stage, session.load reached.db = .ok flight →
            reached.db.runs.load session.runId = some run → nextStage run = some stage →
            question.changeId = session.change.id → question.phase = flight.phase.getD (stagePhase stage) →
              question ∈ flight.answeredQuestions) ∧
      ∀ question ∈ service.questions, ∃ last ∈ reached.questions, last.id = question.id ∧
        (question.status ≠ .open → last.answer = question.answer) ∧
        (question.status = .resolved ∨ question.status = .stale → last = question) := by
  constructor
  · rintro before step after rfl service
    have held := served_answersHeld (freshService_answersHeld store) before
    obtain ⟨-, keeps⟩ := Trace.along_at along
    refine (afterService_questions held.unique step).2.mono ?_
    intro question member given due
    exact held.hands keeps member given due
  · rintro before after rfl service reached
    have held := served_answersHeld (freshService_answersHeld store) before
    have later := (Trace.along_append.mp along).2
    have joined : reached = served service after := List.foldl_append
    rw [joined]
    constructor
    · intro question member given unhanded
      have stands := held.stands later member given unhanded
      refine ⟨stands, ?_⟩
      intro session flight run stage loaded there next change phase
      exact (load_answered loaded there next).mpr ⟨stands, change, phase, given⟩
    · intro question member
      obtain ⟨last, listed, same, path⟩ := served_questions held after question member
      refine ⟨last, listed, same, fun given => (answer_kept given path).2, ?_⟩
      intro closed
      exact Lifecycle.final (question_final closed) path

theorem keepsAnswers_unanswered (unanswered : ∀ question ∈ service.questions, question.status ≠ .answered) (index : Nat) :
    KeepsAnswers service (.finish index) := by
  intro flight advance decision _ _ _ _ question listed
  obtain ⟨member, -, -, given⟩ := mem_listQuestions.mp listed
  exact absurd given (unanswered question member)

end Service

def asking : List ServiceStep :=
  [.create quickRun,
    .load { quickSession 1 with report := fun _ => { questions := [{ text := "Which tenants are in scope?" }] } }]

def askedAndSentBack : List ServiceStep :=
  asking ++ [.finish 0, .operate ({ decisionHex := "1", orderHex := "1" }, .issueReworkOrder
      { changeId := "change-1", phase := .requirements, instruction := some "split it", issuedBy := "operator" }),
    .load (quickSession 2)]

def tenantsAnswered : ServiceStep :=
  .answer { changeId := "change-1", questionId := "q_3a149f5d05127aba", value := "all", answeredBy := "operator"
            answeredAt := 3 }

def answeredBeforeLoad : List ServiceStep := askedAndSentBack ++ [.finish 0, tenantsAnswered, .load (quickSession 3)]

def answeredAfterLoad : List ServiceStep := askedAndSentBack ++ [.finish 0, .load (quickSession 3), tenantsAnswered]

def quickService (steps : List ServiceStep) : Service := served (freshService { changes := [{ id := "change-1" }] }) steps

def statusAndAnswer (question : AskedQuestion) : QuestionStatus × Option String :=
  (question.status, question.answer.map QuestionAnswer.value)

theorem tenants_answer_handed :
    (afterService (quickService answeredBeforeLoad) (.finish 0)).questions.map statusAndAnswer =
        [(.resolved, some "all")] ∧
      QuestionsStep ((quickService answeredBeforeLoad).hands (.finish 0)) (quickService answeredBeforeLoad).questions
        (afterService (quickService answeredBeforeLoad) (.finish 0)).questions := by
  obtain ⟨resolved, unanswered, handed⟩ :
      (afterService (quickService answeredBeforeLoad) (.finish 0)).questions.map statusAndAnswer =
        [(.resolved, some "all")] ∧
      ((∀ question ∈ (quickService asking).questions, question.status ≠ .answered) ∧
        ∀ question ∈ (quickService askedAndSentBack).questions, question.status ≠ .answered) ∧
      ∀ flight ∈ (quickService answeredBeforeLoad).flights,
        (attempted (flight.advanceInput (quickService answeredBeforeLoad).db)
          (quickService answeredBeforeLoad).db.runs).map Attempted.checkpoint = some none ∧
        ∀ question ∈ (quickService answeredBeforeLoad).questions,
          question.id ∈ flight.answeredQuestions.map AskedQuestion.key := by
    decide +kernel
  have last : KeepsAnswers (quickService answeredBeforeLoad) (.finish 0) := by
    intro flight advance decision there _ _ _ question listed
    obtain ⟨planned, named⟩ := handed flight (List.mem_of_getElem? there)
    obtain ⟨attempt, plan, executed⟩ := Option.map_eq_some_iff.mp planned
    exact ⟨⟨attempt, plan, executed⟩, named question (mem_listQuestions.mp listed).1⟩
  have along : Trace.Along afterService KeepsAnswers (freshService { changes := [{ id := "change-1" }] })
      (answeredBeforeLoad ++ [.finish 0]) := by
    refine Trace.along_append.mpr ⟨Trace.along_append.mpr ⟨Trace.along_append.mpr ⟨?_, ?_⟩, ?_⟩, last, trivial⟩
    · exact ⟨trivial, trivial, trivial⟩
    · exact ⟨keepsAnswers_unanswered unanswered.1 0, trivial, trivial, trivial⟩
    · exact ⟨keepsAnswers_unanswered unanswered.2 0, trivial, trivial, trivial⟩
  exact ⟨resolved, (answers_reach_an_attempt along).1 answeredBeforeLoad (.finish 0) [] rfl⟩

/-- The answer came after the inputs were loaded: it is resolved all the same, and no attempt has seen it. -/
theorem late_answer_lost :
    ¬ ∀ (store : ChangeStore) (before : List ServiceStep) (step : ServiceStep),
      QuestionsStep ((served (freshService store) before).hands step) (served (freshService store) before).questions
        (afterService (served (freshService store) before) step).questions := by
  intro handed
  have step : QuestionsStep ((quickService answeredAfterLoad).hands (.finish 0)) (quickService answeredAfterLoad).questions
      (afterService (quickService answeredAfterLoad) (.finish 0)).questions := handed _ answeredAfterLoad (.finish 0)
  have facts : (quickService answeredAfterLoad).questions.map statusAndAnswer = [(.answered, some "all")] ∧
      (∀ question ∈ (afterService (quickService answeredAfterLoad) (.finish 0)).questions, question.status = .resolved) ∧
      ∀ flight ∈ (quickService answeredAfterLoad).flights, flight.answeredQuestions = [] := by decide +kernel
  obtain ⟨given, resolved, unseen⟩ := facts
  obtain ⟨question, only, same⟩ := List.map_eq_singleton_iff.mp given
  have member : question ∈ (quickService answeredAfterLoad).questions := by
    rw [only]
    exact List.mem_singleton_self question
  have status : question.status = .answered := (Prod.mk.inj same).1
  rcases step.answered member status with stands | ⟨-, flight, there, -, answered⟩
  · have closed := resolved question stands
    rw [status] at closed
    cases closed
  · rw [unseen flight (List.mem_of_getElem? there)] at answered
    cases answered

end DarkFactory
