import DarkFactory.Conversations.Revision

namespace DarkFactory

structure CommentRequest where
  changeId : String
  phase : Phase
  artifact : String
  anchorId : Option String := none
  body : String
  author : String
  revision : Option String := none
  idempotencyKey : Option String := none
  deriving DecidableEq

def CommentRequest.commentId (request : CommentRequest) (around : Surroundings) : String :=
  derivedId "cmt_" request.idempotencyKey around.orderHex

/-- A remark, bound to the stated revision or to the head of the branch. -/
def CommentRequest.comment (request : CommentRequest) (around : Surroundings) : Comment where
  id := request.commentId around
  changeId := request.changeId
  phase := request.phase
  artifact := request.artifact
  anchorId := clean request.anchorId
  revision := clean ((request.revision.filter (· ≠ "")).or around.head)
  body := Text.strip request.body
  author := request.author

def CommentRequest.valid (request : CommentRequest) : Bool :=
  request.artifact ≠ "" && Text.strip request.body ≠ "" && request.author ≠ ""

def addComment (around : Surroundings) (request : CommentRequest) (store : ChangeStore) :
    Except Refusal ((Comment × Bool) × ChangeStore) :=
  match store.change request.changeId with
  | none => .error (missingChange request.changeId)
  | some _ =>
    if !request.valid then .error ⟨.input, "String should have at least 1 character"⟩
    else
      let comment := request.comment around
      match Table.find Comment.id comment.id store.comments with
      | some existing => .ok ((existing, false), store)
      | none => .ok ((comment, true), { store with comments := Table.insertNew Comment.id comment store.comments })

inductive KeyedCall
  | operator (call : OperatorCall)
  | addComment (request : CommentRequest)

def KeyedCall.changeId : KeyedCall → String
  | .operator (.recordApproval _ changeId _ _) => changeId
  | .operator (.recordPhaseDecision request) => request.changeId
  | .operator (.issueReworkOrder request) => request.changeId
  | .addComment request => request.changeId

inductive Returned
  | decision (decision : Decision)
  | comment (comment : Comment)
  | order (order : ReworkOrder) (created : Bool)

def performed (store : ChangeStore) : Surroundings × KeyedCall → Except Refusal (Returned × ChangeStore)
  | (around, .operator (.recordApproval token changeId body key)) => do
    let (decision, after) ← recordApproval around token changeId body key store
    return (.decision decision, after)
  | (around, .operator (.recordPhaseDecision request)) => do
    let (answer, after) ← recordPhaseDecision around request store
    return (.decision answer.1, after)
  | (around, .operator (.issueReworkOrder request)) => do
    let (answer, after) ← issueReworkOrder around request store
    return (.order answer.1 answer.2, after)
  | (around, .addComment request) => do
    let (answer, after) ← addComment around request store
    return (.comment answer.1, after)

def afterKeyed (store : ChangeStore) (call : Surroundings × KeyedCall) : ChangeStore :=
  store.settled (performed store call)

def DecisionRow.id (row : DecisionRow) : String := row.decision.id

def ReworkOrderRow.changeId (row : ReworkOrderRow) : String := row.order.changeId

def sendBackKey (orderId : String) : String := "rework:" ++ orderId

structure IdsApart (store : ChangeStore) : Prop where
  decisions : Table.OneOwner DecisionRow.id DecisionRow.changeId store.decisions
  comments : Table.OneOwner Comment.id Comment.changeId store.comments
  orders : Table.OneOwner ReworkOrderRow.id ReworkOrderRow.changeId store.reworkOrders

structure OthersKept (changeId : String) (before after : ChangeStore) : Prop where
  decisions : Table.others DecisionRow.changeId changeId after.decisions =
    Table.others DecisionRow.changeId changeId before.decisions
  comments : Table.others Comment.changeId changeId after.comments =
    Table.others Comment.changeId changeId before.comments
  orders : Table.others ReworkOrderRow.changeId changeId after.reworkOrders =
    Table.others ReworkOrderRow.changeId changeId before.reworkOrders

/-- The answer is an entity of the change; beside a new order of a gated phase stands its own send-back. -/
def Returned.Of (changeId : String) (after : ChangeStore) : Returned → Prop
  | .decision made => ∃ row ∈ after.decisions, row.id = made.id ∧ row.changeId = changeId
  | .comment remark => remark ∈ after.comments ∧ remark.changeId = changeId
  | .order issued created => (∃ row ∈ after.reworkOrders, row.order = issued) ∧ issued.changeId = changeId ∧
      (created = true → gateOfPhase issued.phase ≠ none →
        ∃ row, after.findByIdempotencyKey (sendBackKey issued.id) = some row ∧ row.changeId = changeId)

structure Scoped (changeId : String) (before after : ChangeStore) (answer : Returned) : Prop where
  answered : answer.Of changeId after
  others : OthersKept changeId before after
  apart : IdsApart after

def StaysScoped (store : ChangeStore) (call : Surroundings × KeyedCall) : Prop :=
  ∀ answer after, performed store call = .ok (answer, after) → Scoped call.2.changeId store after answer

/-- The decision stored under the key is one of the change; where there is none, the drawn id is not of another. -/
def OwnsDecision (store : ChangeStore) (changeId : String) (key : Option String) (hex : String) : Prop :=
  match store.replayed key with
  | some row => row.changeId = changeId
  | none => ∀ row ∈ store.decisions, row.id = "dec_" ++ hex → row.changeId = changeId

structure SendBackChecks (request : ReworkRequest) (store : ChangeStore) : Prop where
  idle : activeOrder store request.changeId request.phase = none
  comments : ∀ id ∈ request.commentIds, store.comment request.changeId id ≠ none
  questions : ∀ id ∈ request.questionIds, store.question request.changeId id ≠ none
  issued : request.issuedBy ≠ ""
  content : request.commentIds ≠ [] ∨ request.questionIds ≠ [] ∨ clean request.instruction ≠ none

def Admits (store : ChangeStore) : Surroundings × KeyedCall → Prop
  | (around, .operator (.recordApproval _ changeId body key)) =>
    ∃ row, store.change changeId = some row ∧
      (store.replayed key = none → (∀ expected, body.expectedStateRevision = some expected →
          expected = row.stateRevision) ∧ checkPhaseGate around store changeId body = .ok ())
  | (around, .operator (.recordPhaseDecision request)) => store.change request.changeId ≠ none ∧
      ∃ gate, checkPhaseDecision request (buildPhaseGate around store request.changeId request.phase) = .ok gate
  | (around, .operator (.issueReworkOrder request)) => store.change request.changeId ≠ none ∧
      request.behind around = false ∧
      (store.reworkOrder (request.orderId around) = none → SendBackChecks request store)
  | (_, .addComment request) => store.change request.changeId ≠ none ∧ request.valid = true

/-- Neither the key of the call nor an id drawn for it is held by an entity of another change. -/
def OwnsKeys (store : ChangeStore) : Surroundings × KeyedCall → Prop
  | (around, .operator (.recordApproval _ changeId _ key)) => OwnsDecision store changeId key around.decisionHex
  | (around, .operator (.recordPhaseDecision request)) =>
    OwnsDecision store request.changeId request.idempotencyKey around.decisionHex
  | (around, .operator (.issueReworkOrder request)) =>
    match store.reworkOrder (request.orderId around) with
    | some existing => existing.changeId = request.changeId
    | none => gateOfPhase request.phase ≠ none →
      OwnsDecision store request.changeId (some (sendBackKey (request.orderId around))) around.decisionHex
  | (around, .addComment request) => ∀ comment,
    Table.find Comment.id (request.commentId around) store.comments = some comment →
      comment.changeId = request.changeId

section Decisions

variable {store after : ChangeStore} {changeId : String} {key role : Option String} {decision stored : Decision}

structure DecisionRecorded (store after : ChangeStore) (changeId : String) (key : Option String)
    (hex : String) (stored : Decision) : Prop where
  replays : ∀ old, store.replayed key = some old →
    stored = decisionFromRow old ∧ after.decisions = store.decisions
  inserts : store.replayed key = none →
    ∃ row : DecisionRow, row.changeId = changeId ∧ row.idempotencyKey = key ∧ row.id = "dec_" ++ hex ∧
      stored.id = row.id ∧ after.decisions = store.decisions ++ [row]
  comments : after.comments = store.comments
  reworkOrders : after.reworkOrders = store.reworkOrders

theorem record_recorded {hex : String} (drawn : decision.id = "dec_" ++ hex) :
    DecisionRecorded store (store.record decision changeId key role).2 changeId key hex
      (store.record decision changeId key role).1.1 := by
  cases seen : store.replayed key with
  | some old =>
    have known : store.record decision changeId key role = ((decisionFromRow old, false), store) := by
      simp [ChangeStore.record, seen]
    rw [known]
    refine ⟨?_, ?_, rfl, rfl⟩
    · intro row found
      rw [seen, Option.some.injEq] at found
      exact ⟨by rw [found], rfl⟩
    · intro unrecorded
      rw [seen] at unrecorded
      cases unrecorded
  | none =>
    rw [record_new seen]
    refine ⟨?_, fun _ => ⟨{ changeId, decision, idempotencyKey := key, role }, rfl, rfl, drawn, rfl, rfl⟩, rfl, rfl⟩
    intro row found
    rw [seen] at found
    cases found

/-- The decision table stays apart, and the answer is a decision of the change, exactly when neither the key nor
    the drawn id is held by another change. -/
theorem DecisionRecorded.owns {hex : String} (recorded : DecisionRecorded store after changeId key hex stored)
    (one : Table.OneOwner DecisionRow.id DecisionRow.changeId store.decisions) :
    ((∃ row ∈ after.decisions, row.id = stored.id ∧ row.changeId = changeId) ∧
        Table.OneOwner DecisionRow.id DecisionRow.changeId after.decisions) ↔
      OwnsDecision store changeId key hex := by
  cases seen : store.replayed key with
  | some old =>
    obtain ⟨answer, same⟩ := recorded.replays old seen
    obtain ⟨-, -, member⟩ : ∃ text, key = some text ∧ old ∈ store.decisions := by
      obtain ⟨text, given, found⟩ := Option.bind_eq_some_iff.mp seen
      exact ⟨text, given, List.mem_of_find?_eq_some found⟩
    have named : stored.id = old.id := by rw [answer]; rfl
    simp only [OwnsDecision, seen, same, named]
    constructor
    · rintro ⟨⟨row, present, sameId, own⟩, -⟩
      exact (one old member row present sameId.symm).trans own
    · intro own
      exact ⟨⟨old, member, rfl, own⟩, one⟩
  | none =>
    obtain ⟨row, own, -, drawn, named, appended⟩ := recorded.inserts seen
    simp only [OwnsDecision, seen, appended, named]
    rw [Table.oneOwner_append, drawn, own]
    constructor
    · rintro ⟨-, -, clear⟩ other member same
      exact clear other member same
    · intro clear
      exact ⟨⟨row, by simp, drawn, own⟩, one, clear⟩

theorem DecisionRecorded.others {hex : String} (recorded : DecisionRecorded store after changeId key hex stored) :
    OthersKept changeId store after where
  decisions := by
    cases seen : store.replayed key with
    | some old => rw [(recorded.replays old seen).2]
    | none =>
      obtain ⟨row, own, -, -, -, appended⟩ := recorded.inserts seen
      rw [appended, Table.others_append own]
  comments := by rw [recorded.comments]
  orders := by rw [recorded.reworkOrders]

/-- A decision call stays in its change exactly when it owns its keys. -/
theorem DecisionRecorded.scoped {hex : String} (recorded : DecisionRecorded store after changeId key hex stored)
    (apart : IdsApart store) :
    Scoped changeId store after (.decision stored) ↔ OwnsDecision store changeId key hex := by
  rw [← recorded.owns apart.decisions]
  constructor
  · intro kept
    exact ⟨kept.answered, kept.apart.decisions⟩
  · rintro ⟨answered, one⟩
    exact ⟨answered, recorded.others, one, recorded.comments ▸ apart.comments, recorded.reworkOrders ▸ apart.orders⟩

theorem approval_admitted {around : Surroundings} {token : ApiToken} {body : ApprovalRequest} :
    (∃ answer, recordApproval around token changeId body key store = .ok answer) ↔
      Admits store (around, .operator (.recordApproval token changeId body key)) := by
  simp only [recordApproval, Admits]
  cases found : store.change changeId with
  | none => simp
  | some row =>
    cases seen : store.replayed key with
    | some old => simp
    | none =>
      have expected : (body.expectedStateRevision.any fun expected => expected ≠ row.stateRevision) = true ↔
          ¬ ∀ expected, body.expectedStateRevision = some expected → expected = row.stateRevision := by
        cases body.expectedStateRevision <;> simp
      dsimp only
      by_cases stale : (body.expectedStateRevision.any fun expected => expected ≠ row.stateRevision) = true
      · rw [if_pos stale]
        have refused := expected.mp stale
        constructor
        · rintro ⟨answer, done⟩
          cases done
        · rintro ⟨row', found, checks⟩
          cases found
          exact absurd (checks rfl).1 refused
      · rw [if_neg stale]
        have current := not_not.mp (mt expected.mpr stale)
        constructor
        · rintro ⟨answer, done⟩
          obtain ⟨_, passed, -⟩ := Outcome.bind_ok.mp done
          exact ⟨row, rfl, fun _ => ⟨current, passed⟩⟩
        · rintro ⟨row', -, checks⟩
          have passed := (checks rfl).2
          have phased : ∃ phase, approvalPhase body = .ok phase := by
            obtain ⟨phase, found, -⟩ := Outcome.bind_ok.mp passed
            exact ⟨phase, found⟩
          obtain ⟨phase, phased⟩ := phased
          rw [passed, phased]
          exact ⟨_, rfl⟩

theorem approval_recorded {around : Surroundings} {token : ApiToken} {body : ApprovalRequest}
    (done : recordApproval around token changeId body key store = .ok (stored, after)) :
    DecisionRecorded store after changeId key around.decisionHex stored := by
  unfold recordApproval at done
  cases found : store.change changeId with
  | none => simp [found] at done
  | some row =>
    cases seen : store.replayed key with
    | some old =>
      simp only [found, seen, Except.ok.injEq, Prod.mk.injEq] at done
      obtain ⟨answer, kept⟩ := done
      rw [← answer, ← kept]
      refine ⟨?_, ?_, rfl, rfl⟩
      · intro other same
        rw [seen, Option.some.injEq] at same
        exact ⟨by rw [same], rfl⟩
      · intro unrecorded
        rw [seen] at unrecorded
        cases unrecorded
    | none =>
      simp only [found, seen] at done
      split at done
      · cases done
      · obtain ⟨-, -, done⟩ := Outcome.bind_ok.mp done
        obtain ⟨phase, -, done⟩ := Outcome.bind_ok.mp done
        rw [Outcome.pure_ok, Prod.mk.injEq] at done
        obtain ⟨answer, kept⟩ := done
        rw [← answer, ← kept]
        have recorded := @record_recorded store changeId key (some token.role)
          { id := "dec_" ++ around.decisionHex, gate := body.gate, outcome := body.outcome
            decidedBy := .human, decidedAt := around.now, commitSha := body.subjectRevision
            comment := body.comment, phase := some phase } around.decisionHex rfl
        exact ⟨recorded.replays, recorded.inserts, recorded.comments, recorded.reworkOrders⟩

theorem phaseDecision_admitted {around : Surroundings} {request : PhaseDecisionRequest} :
    (∃ answer, recordPhaseDecision around request store = .ok answer) ↔
      Admits store (around, .operator (.recordPhaseDecision request)) := by
  simp only [recordPhaseDecision, Admits]
  cases found : store.change request.changeId with
  | none => simp
  | some row =>
    cases checkPhaseDecision request (buildPhaseGate around store request.changeId request.phase) with
    | error refusal => simp [Bind.bind, Except.bind]
    | ok gate => simp [Bind.bind, Except.bind, Pure.pure, Except.pure]

theorem phaseDecision_recorded {around : Surroundings} {request : PhaseDecisionRequest} {gate : PhaseGate}
    (done : recordPhaseDecision around request store = .ok ((stored, gate), after)) :
    DecisionRecorded store after request.changeId request.idempotencyKey around.decisionHex stored := by
  unfold recordPhaseDecision at done
  cases found : store.change request.changeId with
  | none => simp [found] at done
  | some row =>
    simp only [found] at done
    obtain ⟨gate, -, done⟩ := Outcome.bind_ok.mp done
    rw [Outcome.pure_ok, Prod.mk.injEq, Prod.mk.injEq] at done
    obtain ⟨⟨answer, -⟩, kept⟩ := done
    rw [← answer, ← kept]
    exact record_recorded rfl

end Decisions

section Comments

variable {store after : ChangeStore} {around : Surroundings} {request : CommentRequest} {answer : Comment × Bool}

theorem comment_admitted :
    (∃ answer, addComment around request store = .ok answer) ↔ Admits store (around, .addComment request) := by
  simp only [addComment, Admits]
  cases found : store.change request.changeId with
  | none => simp
  | some row =>
    cases request.valid with
    | false => simp
    | true => cases held : Table.find Comment.id (request.comment around).id store.comments <;> simp

theorem comment_scoped (done : addComment around request store = .ok (answer, after)) (apart : IdsApart store) :
    Scoped request.changeId store after (.comment answer.1) ↔ OwnsKeys store (around, .addComment request) := by
  have named : (request.comment around).id = request.commentId around := rfl
  unfold addComment at done
  cases found : store.change request.changeId with
  | none => simp [found] at done
  | some row =>
    cases fits : request.valid with
    | false => simp [found, fits] at done
    | true =>
      cases held : Table.find Comment.id (request.commentId around) store.comments with
      | some existing =>
        simp only [found, fits, named, held, Bool.not_true, Bool.false_eq_true, if_false, Except.ok.injEq,
          Prod.mk.injEq] at done
        obtain ⟨rfl, rfl⟩ := done
        simp only [OwnsKeys, held, Option.some.injEq, forall_eq']
        constructor
        · intro kept
          exact kept.answered.2
        · intro own
          exact ⟨⟨(Table.find_some held).1, own⟩, ⟨rfl, rfl, rfl⟩, apart⟩
      | none =>
        simp only [found, fits, named, held, Bool.not_true, Bool.false_eq_true, if_false, Except.ok.injEq,
          Prod.mk.injEq] at done
        obtain ⟨rfl, rfl⟩ := done
        have inserted : request.comment around ∈
            Table.insertNew Comment.id (request.comment around) store.comments :=
          Table.mem_insertNew.mpr (Or.inr ⟨held, rfl⟩)
        simp only [OwnsKeys, held, reduceCtorEq, false_implies, implies_true, iff_true]
        exact ⟨⟨inserted, rfl⟩, ⟨rfl, Table.others_insertNew rfl, rfl⟩,
          apart.decisions, apart.comments.insertNew, apart.orders⟩

end Comments

section Orders

variable {store after : ChangeStore} {around : Surroundings} {request : ReworkRequest} {order : ReworkOrder}
  {created : Bool}

theorem knownComment_own {id : String} {comment : Comment} (known : knownComment store request.changeId id = .ok comment) :
    comment ∈ store.comments ∧ comment.changeId = request.changeId := by
  unfold knownComment at known
  cases found : store.comment request.changeId id with
  | none => simp [found] at known
  | some held =>
    simp only [found, Except.ok.injEq] at known
    rw [known] at found
    obtain ⟨located, own⟩ := Option.filter_eq_some_iff.mp found
    exact ⟨(Table.find_some located).1, by simpa using own⟩

theorem order_admitted :
    (∃ answer, issueReworkOrder around request store = .ok answer) ↔
      Admits store (around, .operator (.issueReworkOrder request)) := by
  simp only [issueReworkOrder, Admits]
  cases found : store.change request.changeId with
  | none => simp
  | some change =>
    cases current : request.behind around with
    | true => simp
    | false =>
      cases held : store.reworkOrder (request.orderId around) with
      | some existing => simp
      | none =>
        cases idle : activeOrder store request.changeId request.phase with
        | some active =>
          have refused : ¬ SendBackChecks request store := by
            intro checks
            rw [checks.idle] at idle
            cases idle
          simp [refused]
        | none =>
          simp only [ne_eq, reduceCtorEq, not_false_eq_true, true_and, Bool.false_eq_true, if_false, forall_const]
          constructor
          · rintro ⟨answer, done⟩
            obtain ⟨comments, named, done⟩ := Outcome.bind_ok.mp done
            obtain ⟨questions, asked, done⟩ := Outcome.bind_ok.mp done
            obtain ⟨row, built, done⟩ := Outcome.bind_ok.mp done
            have valid := buildOrder_ok.mp ⟨row, built⟩
            exact ⟨idle, fun item member => knownComment_ok.mp (Outcome.mapM_each named item member),
              fun item member => knownQuestion_ok.mp (Outcome.mapM_each asked item member), valid.1, valid.2⟩
          · intro checks
            obtain ⟨comments, named, -⟩ :=
              Outcome.mapM_ok fun id member => knownComment_ok.mpr (checks.comments id member)
            obtain ⟨questions, asked, -⟩ :=
              Outcome.mapM_ok fun id member => knownQuestion_ok.mpr (checks.questions id member)
            have valid : ∃ row, buildOrder request (request.orderId around) (boundRevisions around comments) = .ok row :=
              buildOrder_ok.mpr ⟨checks.issued, checks.content⟩
            obtain ⟨row, built⟩ := valid
            simp only [named, asked, built, Bind.bind, Except.bind]
            exact ⟨_, rfl⟩

structure SentBack (around : Surroundings) (request : ReworkRequest) (store after : ChangeStore) (order : ReworkOrder)
    (issued : ChangeStore) : Prop where
  id : order.id = request.orderId around
  changeId : order.changeId = request.changeId
  phase : order.phase = request.phase
  stored : ∃ row ∈ issued.reworkOrders, row.order = order
  decisions : issued.decisions = store.decisions
  others : OthersKept request.changeId store issued
  apart : IdsApart issued
  after : after = recordSendBack around request order.id issued

theorem issueReworkOrder_new (absent : store.reworkOrder (request.orderId around) = none) (apart : IdsApart store)
    (done : issueReworkOrder around request store = .ok ((order, created), after)) :
    ∃ issued, SentBack around request store after order issued ∧ created = true := by
  unfold issueReworkOrder at done
  cases found : store.change request.changeId with
  | none => simp [found] at done
  | some change =>
    simp only [found, absent] at done
    split at done
    · cases done
    · split at done
      · cases done
      · obtain ⟨comments, named, done⟩ := Outcome.bind_ok.mp done
        obtain ⟨questions, -, done⟩ := Outcome.bind_ok.mp done
        obtain ⟨row, built, done⟩ := Outcome.bind_ok.mp done
        rw [Outcome.pure_ok, Prod.mk.injEq, Prod.mk.injEq] at done
        obtain ⟨⟨rfl, rfl⟩, rfl⟩ := done
        obtain ⟨rowId, -, own, phase⟩ := buildOrder_built built
        have mine : ∀ comment ∈ comments, comment ∈ store.comments ∧ comment.changeId = request.changeId := by
          intro comment member
          obtain ⟨id, -, known⟩ := Outcome.mapM_origin named comment member
          exact knownComment_own known
        have claimed := Table.others_foldl_update
          (f := fun comment : Comment => { comment with reworkOrderId := some row.id })
          (fun _ => rfl) (fun _ => rfl) (fun comment member => (mine comment member).2)
          (fun comment member other present same =>
            (apart.comments other present comment (mine comment member).1 same).trans (mine comment member).2)
          apart.comments
        have inserted : row ∈ (store.addReworkOrder row).reworkOrders :=
          Table.mem_insertNew.mpr (Or.inr ⟨by rw [rowId]; exact absent, rfl⟩)
        exact ⟨(store.addReworkOrder row).claimComments comments row.id,
          { id := rowId, changeId := own, phase, stored := ⟨row, inserted, rfl⟩, decisions := rfl
            others := ⟨rfl, claimed.1, Table.others_insertNew own⟩
            apart := ⟨apart.decisions, claimed.2, apart.orders.insertNew⟩, after := rfl }, rfl⟩

theorem replayed_congr {other : ChangeStore} {key : Option String} (same : other.decisions = store.decisions) :
    other.replayed key = store.replayed key := by
  cases key with
  | none => rfl
  | some text => simp [ChangeStore.replayed, ChangeStore.findByIdempotencyKey, same]

/-- The send-back stands beside its order exactly when its key and the drawn id are free or of the change. -/
theorem DecisionRecorded.beside {changeId key hex : String} {stored : Decision}
    (recorded : DecisionRecorded store after changeId (some key) hex stored)
    (one : Table.OneOwner DecisionRow.id DecisionRow.changeId store.decisions) :
    ((∃ row, after.findByIdempotencyKey key = some row ∧ row.changeId = changeId) ∧
        Table.OneOwner DecisionRow.id DecisionRow.changeId after.decisions) ↔
      OwnsDecision store changeId (some key) hex := by
  cases seen : store.replayed (some key) with
  | some old =>
    have same := (recorded.replays old seen).2
    have held : after.findByIdempotencyKey key = some old := (@replayed_congr _ _ (some key) same).trans seen
    simp only [OwnsDecision, seen, held, same, Option.some.injEq, exists_eq_left', and_iff_left one]
  | none =>
    obtain ⟨row, own, keyed, drawn, -, appended⟩ := recorded.inserts seen
    have absent : store.decisions.find? (fun row => row.idempotencyKey = some key) = none := seen
    have held : after.findByIdempotencyKey key = some row := by
      simp [ChangeStore.findByIdempotencyKey, appended, List.find?_append, absent, keyed]
    simp only [OwnsDecision, seen, held, appended, Option.some.injEq, exists_eq_left', own, true_and]
    rw [Table.oneOwner_append, drawn, own, and_iff_right one]

theorem SentBack.kept {issued : ChangeStore} (sent : SentBack around request store after order issued)
    (absent : store.reworkOrder (request.orderId around) = none) :
    Scoped request.changeId store after (.order order true) ↔
      OwnsKeys store (around, .operator (.issueReworkOrder request)) := by
  have sameKeys (key : Option String) : issued.replayed key = store.replayed key := replayed_congr sent.decisions
  have made := sent.after
  simp only [OwnsKeys, absent]
  unfold recordSendBack at made
  cases gated : gateOfPhase request.phase with
  | none =>
    simp only [gated] at made
    rw [made]
    simp only [ne_eq, not_true_eq_false, false_implies, iff_true]
    refine ⟨⟨sent.stored, sent.changeId, fun _ open' => ?_⟩, sent.others, sent.apart⟩
    rw [sent.phase, gated] at open'
    exact absurd rfl open'
  | some gate =>
    simp only [gated] at made
    have recorded := @record_recorded issued request.changeId (some (sendBackKey order.id)) request.actorRole
      { id := "dec_" ++ around.decisionHex, gate, outcome := .rejected, decidedBy := .human
        decidedAt := around.now, commitSha := around.head
        comment := some ((request.instruction.filter (· ≠ "")).getD ("rework order " ++ order.id))
        phase := some request.phase } around.decisionHex rfl
    have same : after = _ := made
    rw [sendBackKey, ← same] at recorded
    have beside := recorded.beside sent.apart.decisions
    have owns : OwnsDecision issued request.changeId (some (sendBackKey order.id)) around.decisionHex ↔
        OwnsDecision store request.changeId (some (sendBackKey (request.orderId around))) around.decisionHex := by
      simp only [OwnsDecision, sameKeys, sent.decisions, sent.id]
    have others := recorded.others
    simp only [ne_eq, reduceCtorEq, not_false_eq_true, forall_const]
    rw [← owns, sendBackKey, ← beside]
    constructor
    · intro kept
      exact ⟨kept.answered.2.2 rfl (by rw [sent.phase, gated]; simp), kept.apart.decisions⟩
    · rintro ⟨found, one⟩
      have stored : ∃ row ∈ after.reworkOrders, row.order = order := by
        rw [recorded.reworkOrders]
        exact sent.stored
      exact ⟨⟨stored, sent.changeId, fun _ _ => found⟩,
        ⟨others.decisions.trans sent.others.decisions, others.comments.trans sent.others.comments,
          others.orders.trans sent.others.orders⟩,
        one, recorded.comments ▸ sent.apart.comments, recorded.reworkOrders ▸ sent.apart.orders⟩

theorem order_scoped (done : issueReworkOrder around request store = .ok ((order, created), after))
    (apart : IdsApart store) :
    Scoped request.changeId store after (.order order created) ↔
      OwnsKeys store (around, .operator (.issueReworkOrder request)) := by
  cases held : store.reworkOrder (request.orderId around) with
  | none =>
    obtain ⟨issued, sent, rfl⟩ := issueReworkOrder_new held apart done
    exact sent.kept held
  | some existing =>
    unfold issueReworkOrder at done
    cases found : store.change request.changeId with
    | none => simp [found] at done
    | some change =>
      simp only [found, held] at done
      split at done
      · cases done
      · cases done
        simp only [OwnsKeys, held]
        constructor
        · intro kept
          exact kept.answered.2.1
        · intro own
          exact ⟨⟨⟨existing, (Table.find_some held).1, rfl⟩, own, fun new => by cases new⟩, ⟨rfl, rfl, rfl⟩, apart⟩

end Orders

section Calls

variable {store after : ChangeStore} {answer : Returned}

theorem performed_admitted (call : Surroundings × KeyedCall) :
    (∃ answer, performed store call = .ok answer) ↔ Admits store call := by
  obtain ⟨around, call⟩ := call
  have mapped {α : Type} (outcome : Except Refusal (α × ChangeStore)) (make : α → Returned) :
      (∃ answer, (outcome >>= fun done => pure (make done.1, done.2) : Except Refusal (Returned × ChangeStore)) =
        .ok answer) ↔ ∃ answer, outcome = .ok answer := by
    cases outcome <;> simp [Bind.bind, Except.bind, Pure.pure, Except.pure]
  cases call with
  | operator call =>
    cases call with
    | recordApproval token changeId body key => exact (mapped _ _).trans approval_admitted
    | recordPhaseDecision request => exact (mapped _ fun made => .decision made.1).trans phaseDecision_admitted
    | issueReworkOrder request => exact (mapped _ fun made => .order made.1 made.2).trans order_admitted
  | addComment request => exact (mapped _ fun made => .comment made.1).trans comment_admitted

theorem performed_scoped (call : Surroundings × KeyedCall) (done : performed store call = .ok (answer, after))
    (apart : IdsApart store) : Scoped call.2.changeId store after answer ↔ OwnsKeys store call := by
  obtain ⟨around, call⟩ := call
  cases call with
  | operator call =>
    cases call with
    | recordApproval token changeId body key =>
      obtain ⟨⟨stored, final⟩, ran, made⟩ := Outcome.bind_ok.mp done
      cases made
      exact (approval_recorded ran).scoped apart
    | recordPhaseDecision request =>
      obtain ⟨⟨⟨stored, gate⟩, final⟩, ran, made⟩ := Outcome.bind_ok.mp done
      cases made
      exact (phaseDecision_recorded ran).scoped apart
    | issueReworkOrder request =>
      obtain ⟨⟨⟨order, created⟩, final⟩, ran, made⟩ := Outcome.bind_ok.mp done
      cases made
      exact order_scoped ran apart
  | addComment request =>
    obtain ⟨⟨⟨comment, created⟩, final⟩, ran, made⟩ := Outcome.bind_ok.mp done
    cases made
    exact comment_scoped ran apart

theorem staysScoped_iff (call : Surroundings × KeyedCall) (apart : IdsApart store) :
    StaysScoped store call ↔ (Admits store call → OwnsKeys store call) := by
  rw [← performed_admitted]
  constructor
  · rintro stays ⟨⟨answer, after⟩, done⟩
    exact (performed_scoped call done apart).mp (stays answer after done)
  · intro owns answer after done
    exact (performed_scoped call done apart).mpr (owns ⟨(answer, after), done⟩)

theorem StaysScoped.apart {call : Surroundings × KeyedCall} (stays : StaysScoped store call) (apart : IdsApart store) :
    IdsApart (afterKeyed store call) := by
  unfold afterKeyed
  cases done : performed store call with
  | error refusal => exact apart
  | ok made => exact (stays made.1 made.2 done).apart

end Calls

/-- Every call of a run stays within its change exactly when each call that its checks let through finds its key,
    and the ids drawn for it, free or held by its own change. -/
theorem keys_scoped_to_change (store : ChangeStore) (calls : List (Surroundings × KeyedCall)) (apart : IdsApart store) :
    Trace.Along afterKeyed (fun store call => Admits store call → OwnsKeys store call) store calls ↔
      ∀ before call after, calls = before ++ call :: after → StaysScoped (before.foldl afterKeyed store) call := by
  have same : Trace.Along afterKeyed StaysScoped store calls ↔
      Trace.Along afterKeyed (fun store call => Admits store call → OwnsKeys store call) store calls :=
    Trace.along_congr_under (fun store call apart stays => stays.apart apart)
      (fun store call apart => staysScoped_iff call apart) apart
  rw [← same]
  exact Trace.along_iff_at

def twoChanges : ChangeStore := { changes := [{ id := "CHG-1" }, { id := "CHG-2" }] }

theorem twoChanges_apart : IdsApart twoChanges := by
  constructor <;> intro first here <;> simp [twoChanges] at here

def rejects (changeId : String) (key : Option String) : KeyedCall :=
  .operator (.recordApproval ⟨"operator-1", "operator"⟩ changeId
    { gate := .specification, outcome := .rejected, subjectRevision := some "c0001"
      revision_nonempty := rejectedRevision_named, revision_unless_waived := rejectedRevision_bound } key)

def remarks (changeId : String) : KeyedCall :=
  .addComment { changeId, phase := .requirements, artifact := "spec/calc.md", body := "why?", author := "operator-1" }

def drew (hex : String) (call : KeyedCall) : Surroundings × KeyedCall := ({ decisionHex := hex, orderHex := hex }, call)

/-- A rejection of one change, a remark on another, and the rejection sent again under its key. -/
theorem own_key_stays_scoped :
    StaysScoped (afterKeyed (afterKeyed twoChanges (drew "1" (rejects "CHG-1" (some "key-1"))))
      (drew "2" (remarks "CHG-2"))) (drew "3" (rejects "CHG-1" (some "key-1"))) := by
  have owns : Trace.Along afterKeyed (fun store call => Admits store call → OwnsKeys store call) twoChanges
      [drew "1" (rejects "CHG-1" (some "key-1")), drew "2" (remarks "CHG-2"),
        drew "3" (rejects "CHG-1" (some "key-1"))] := by
    refine ⟨fun _ row member => ?_, fun _ comment found => ?_, fun _ => rfl, trivial⟩
    · cases member
    · cases found
  exact (keys_scoped_to_change twoChanges _ twoChanges_apart).mp owns [_, _] _ [] rfl

/-- A key used on one change and sent on another answers with the decision of the first. -/
theorem foreign_key_replayed :
    ¬ ∀ (store : ChangeStore) (calls : List (Surroundings × KeyedCall)), IdsApart store →
      ∀ before call after, calls = before ++ call :: after → StaysScoped (before.foldl afterKeyed store) call := by
  intro always
  let first := drew "1" (rejects "CHG-1" (some "key-1"))
  let second := drew "2" (rejects "CHG-2" (some "key-1"))
  have stays (call : Surroundings × KeyedCall) (before after : List (Surroundings × KeyedCall))
      (split : [first, second] = before ++ call :: after) : StaysScoped (before.foldl afterKeyed twoChanges) call :=
    always twoChanges [first, second] twoChanges_apart before call after split
  have apart : IdsApart (afterKeyed twoChanges first) :=
    (stays first [] [second] rfl).apart twoChanges_apart
  have owns := (staysScoped_iff second apart).mp (stays second [first] [] rfl) ⟨_, rfl, fun unknown => by cases unknown⟩
  have same : "CHG-1" = "CHG-2" := owns
  exact absurd same (by decide)

end DarkFactory
