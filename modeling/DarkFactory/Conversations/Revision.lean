import DarkFactory.Conversations.Operations
import DarkFactory.Lib.Outcome
import DarkFactory.Lib.Trace

namespace DarkFactory

/-- Every change stands at the revision the Console derives from its decisions. -/
def CountsDecisions (store : ChangeStore) : Prop :=
  ∀ row ∈ store.changes, row.stateRevision = deriveExpectedStateRevision (store.decisionsCount row.id)

/-- No approval that expects the derived revision is refused for its revision. -/
def DerivedAccepted (store : ChangeStore) : Prop :=
  ∀ around token changeId body key,
    body.expectedStateRevision = some (deriveExpectedStateRevision (store.decisionsCount changeId)) →
    recordApproval around token changeId body key store ≠ .error stateRevisionMismatch

structure PhaseDecisionInserts (around : Surroundings) (request : PhaseDecisionRequest) (store : ChangeStore) :
    Prop where
  known : store.change request.changeId ≠ none
  gated : gateOfPhase request.phase ≠ none
  reasoned : request.outcome = .waived → blank request.comment = false
  opened : request.outcome = .approved →
    (buildPhaseGate around store request.changeId request.phase).available = true
  current : request.outcome = .approved → ∀ revision,
    (buildPhaseGate around store request.changeId request.phase).currentRevision = some revision →
    request.revision (buildPhaseGate around store request.changeId request.phase) = some revision
  bound : request.outcome ≠ .waived →
    request.revision (buildPhaseGate around store request.changeId request.phase) ≠ none
  unrecorded : store.replayed request.idempotencyKey = none

structure ReworkInserts (around : Surroundings) (request : ReworkRequest) (store : ChangeStore) : Prop where
  known : store.change request.changeId ≠ none
  gated : gateOfPhase request.phase ≠ none
  current : request.behind around = false
  fresh : store.reworkOrder (request.orderId around) = none
  idle : activeOrder store request.changeId request.phase = none
  comments : ∀ id ∈ request.commentIds, store.comment request.changeId id ≠ none
  questions : ∀ id ∈ request.questionIds, store.question request.changeId id ≠ none
  issued : request.issuedBy ≠ ""
  content : request.commentIds ≠ [] ∨ request.questionIds ≠ [] ∨ clean request.instruction ≠ none
  unrecorded : store.findByIdempotencyKey ("rework:" ++ request.orderId around) = none

/-- The call leaves the decisions alone, or moves the revision of the change along with them. -/
def MovesRevision (store : ChangeStore) : Surroundings × OperatorCall → Prop
  | (_, .recordApproval _ _ _ _) => True
  | (around, .recordPhaseDecision request) => ¬ PhaseDecisionInserts around request store
  | (around, .issueReworkOrder request) => ¬ ReworkInserts around request store

section Counting

variable {store after : ChangeStore} {changeId : String}

theorem decisionsCount_append {row : DecisionRow} (appended : after.decisions = store.decisions ++ [row])
    (id : String) :
    after.decisionsCount id = store.decisionsCount id + if row.changeId = id then 1 else 0 := by
  simp [ChangeStore.decisionsCount, appended, List.countP_append, List.countP_cons]

theorem CountsDecisions.congr (changes : after.changes = store.changes) (decisions : after.decisions = store.decisions) :
    CountsDecisions after ↔ CountsDecisions store := by
  simp [CountsDecisions, ChangeStore.decisionsCount, changes, decisions]

theorem CountsDecisions.unmoved {row : DecisionRow} (counted : CountsDecisions store) (known : store.change row.changeId ≠ none)
    (changes : after.changes = store.changes) (appended : after.decisions = store.decisions ++ [row]) :
    ¬ CountsDecisions after := by
  intro counted'
  obtain ⟨change, found⟩ := Option.ne_none_iff_exists'.mp known
  obtain ⟨member, here⟩ := Table.find_some found
  have before := counted change member
  have now := counted' change (changes ▸ member)
  rw [decisionsCount_append appended, if_pos here.symm] at now
  simp only [deriveExpectedStateRevision] at before now
  omega

theorem CountsDecisions.moved {row : DecisionRow} (counted : CountsDecisions store)
    (changes : after.changes = Table.update ChangeRow.id row.changeId ChangeRow.bump store.changes)
    (appended : after.decisions = store.decisions ++ [row]) : CountsDecisions after := by
  intro change member
  rw [changes, Table.mem_update] at member
  rw [decisionsCount_append appended]
  rcases member with ⟨member, away⟩ | ⟨old, member, here, rfl⟩
  · rw [if_neg (Ne.symm away), Nat.add_zero]
    exact counted change member
  · have before := counted old member
    have same : old.bump.id = old.id := rfl
    rw [same, if_pos here.symm]
    simp only [ChangeRow.bump, deriveExpectedStateRevision] at before ⊢
    omega

end Counting

theorem record_new {store : ChangeStore} {decision : Decision} {changeId : String} {key role : Option String}
    (unrecorded : store.replayed key = none) :
    store.record decision changeId key role =
      ((decision, true),
        { store with decisions := store.decisions ++ [{ changeId, decision, idempotencyKey := key, role }] }) := by
  simp [ChangeStore.record, unrecorded]

theorem record_replayed {store : ChangeStore} {decision : Decision} {changeId : String} {key role : Option String}
    (recorded : store.replayed key ≠ none) : (store.record decision changeId key role).2 = store := by
  obtain ⟨row, found⟩ := Option.ne_none_iff_exists'.mp recorded
  simp [ChangeStore.record, found]

section Approval

variable {store after : ChangeStore} {around : Surroundings} {token : ApiToken} {changeId : String}
  {body : ApprovalRequest} {key : Option String} {stored : Decision}

theorem recordApproval_cases (done : recordApproval around token changeId body key store = .ok (stored, after)) :
    (after.changes = store.changes ∧ after.decisions = store.decisions) ∨
      ∃ row : DecisionRow, row.changeId = changeId ∧ after.decisions = store.decisions ++ [row] ∧
        after.changes = Table.update ChangeRow.id changeId ChangeRow.bump store.changes := by
  unfold recordApproval at done
  cases found : store.change changeId with
  | none => simp [found] at done
  | some row =>
    cases seen : store.replayed key with
    | some old =>
      simp only [found, seen, Except.ok.injEq, Prod.mk.injEq] at done
      rw [← done.2]
      exact Or.inl ⟨rfl, rfl⟩
    | none =>
      simp only [found, seen] at done
      split at done
      · cases done
      · obtain ⟨-, -, done⟩ := Outcome.bind_ok.mp done
        obtain ⟨phase, -, done⟩ := Outcome.bind_ok.mp done
        rw [record_new seen, Outcome.pure_ok, Prod.mk.injEq] at done
        rw [← done.2]
        exact Or.inr ⟨_, rfl, rfl, rfl⟩

theorem CountsDecisions.approval (counted : CountsDecisions store) :
    CountsDecisions (store.settled (recordApproval around token changeId body key store)) := by
  cases done : recordApproval around token changeId body key store with
  | error refusal => exact counted
  | ok pair =>
    obtain ⟨stored, after⟩ := pair
    rcases recordApproval_cases done with ⟨changes, decisions⟩ | ⟨row, rfl, appended, changes⟩
    · exact (CountsDecisions.congr changes decisions).mpr counted
    · exact counted.moved changes appended

theorem mismatch_ne_closed {gate : PhaseGate} : closedGate gate ≠ stateRevisionMismatch := by
  intro same
  have texts := congrArg (fun refusal => refusal.detail.toList.take 2) same
  simp [closedGate, stateRevisionMismatch, String.toList_append] at texts

theorem mismatch_ne_stale {revision current : String} : staleSubject revision current ≠ stateRevisionMismatch := by
  intro same
  have texts := congrArg (fun refusal => refusal.detail.toList.take 2) same
  simp [staleSubject, stateRevisionMismatch, String.toList_append] at texts

theorem checkApproved_mismatch {gate : PhaseGate} {revision : Option String} :
    checkApproved gate revision ≠ .error stateRevisionMismatch := by
  unfold checkApproved
  split
  · exact fun same => mismatch_ne_closed (Except.error.inj same)
  · split
    · split
      · exact fun same => mismatch_ne_stale (Except.error.inj same)
      · nofun
    · nofun

theorem approvalPhase_mismatch : approvalPhase body ≠ .error stateRevisionMismatch := by
  unfold approvalPhase
  split
  · nofun
  · split
    · intro same
      simp [stateRevisionMismatch] at same
    · nofun

theorem checkPhaseGate_mismatch : checkPhaseGate around store changeId body ≠ .error stateRevisionMismatch := by
  unfold checkPhaseGate
  intro refused
  rcases Outcome.bind_error.mp refused with phased | ⟨phase, -, refused⟩
  · exact approvalPhase_mismatch phased
  · cases outcome : body.outcome with
    | rejected => simp [outcome] at refused
    | waived =>
      simp only [outcome] at refused
      split at refused
      · simp [waiverNeedsReason, stateRevisionMismatch] at refused
      · cases refused
    | approved =>
      rw [outcome] at refused
      exact checkApproved_mismatch refused

/-- Only the comparison of the two revisions refuses with the mismatch. -/
theorem recordApproval_mismatch
    (refused : recordApproval around token changeId body key store = .error stateRevisionMismatch) :
    ∃ row, store.change changeId = some row ∧ ∃ expected, body.expectedStateRevision = some expected ∧
      expected ≠ row.stateRevision := by
  unfold recordApproval at refused
  cases found : store.change changeId with
  | none => simp [found, missingChange, stateRevisionMismatch] at refused
  | some row =>
    refine ⟨row, rfl, ?_⟩
    cases seen : store.replayed key with
    | some old => simp [found, seen] at refused
    | none =>
      simp only [found, seen] at refused
      split at refused
      · rename_i differs
        simpa [Option.any_eq_true] using differs
      · exfalso
        rcases Outcome.bind_error.mp refused with checked | ⟨-, -, refused⟩
        · exact checkPhaseGate_mismatch checked
        · rcases Outcome.bind_error.mp refused with phased | ⟨phase, -, refused⟩
          · exact approvalPhase_mismatch phased
          · cases refused

theorem CountsDecisions.accepted (counted : CountsDecisions store) : DerivedAccepted store := by
  intro around token changeId body key derived refused
  obtain ⟨row, found, expected, stated, differs⟩ := recordApproval_mismatch refused
  obtain ⟨member, here⟩ := Table.find_some found
  rw [derived, Option.some.injEq, ← here] at stated
  exact differs (stated.symm.trans (counted row member).symm)

end Approval

section PhaseDecision

variable {store : ChangeStore} {around : Surroundings} {request : PhaseDecisionRequest}

theorem checkApproved_ok {gate : PhaseGate} {revision : Option String} :
    checkApproved gate revision = .ok () ↔ gate.available = true ∧
      ∀ current, gate.currentRevision = some current → revision = some current := by
  unfold checkApproved
  cases gate.available with
  | false => simp
  | true =>
    cases gate.currentRevision with
    | none => simp
    | some current => by_cases same : revision = some current <;> simp [same]

theorem checkPhaseDecision_ok {view : PhaseGate} :
    (∃ gate, checkPhaseDecision request view = .ok gate) ↔
      view.gate ≠ none ∧ (request.outcome = .waived → blank request.comment = false) ∧
        (request.outcome = .approved → view.available = true ∧
          ∀ current, view.currentRevision = some current → request.revision view = some current) ∧
        (request.outcome ≠ .waived → request.revision view ≠ none) := by
  unfold checkPhaseDecision
  cases view.gate with
  | none => simp
  | some gate =>
    cases request.outcome with
    | waived => cases blank request.comment <;> simp [Bind.bind, Except.bind, Pure.pure, Except.pure, throw, throwThe, MonadExceptOf.throw]
    | rejected =>
      cases request.revision view <;>
        simp [Bind.bind, Except.bind, Pure.pure, Except.pure, throw, throwThe, MonadExceptOf.throw]
    | approved =>
      rw [← checkApproved_ok]
      cases checkApproved view (request.revision view) <;> cases request.revision view <;>
        simp [Bind.bind, Except.bind, Pure.pure, Except.pure, throw, throwThe, MonadExceptOf.throw]

theorem phaseDecisionInserts_iff :
    PhaseDecisionInserts around request store ↔ store.change request.changeId ≠ none ∧
      (∃ gate, checkPhaseDecision request (buildPhaseGate around store request.changeId request.phase) = .ok gate) ∧
      store.replayed request.idempotencyKey = none := by
  have gate : (buildPhaseGate around store request.changeId request.phase).gate = gateOfPhase request.phase := rfl
  rw [checkPhaseDecision_ok, gate]
  constructor
  · intro inserts
    refine ⟨inserts.known, ⟨inserts.gated, inserts.reasoned, ?_, inserts.bound⟩, inserts.unrecorded⟩
    exact fun approved => ⟨inserts.opened approved, inserts.current approved⟩
  · rintro ⟨known, ⟨gated, reasoned, approved, bound⟩, unrecorded⟩
    exact ⟨known, gated, reasoned, fun here => (approved here).1, fun here => (approved here).2, bound, unrecorded⟩

theorem recordPhaseDecision_inserts (inserts : PhaseDecisionInserts around request store) :
    ∃ row : DecisionRow, row.changeId = request.changeId ∧
      (store.settled (recordPhaseDecision around request store)).decisions = store.decisions ++ [row] ∧
      (store.settled (recordPhaseDecision around request store)).changes = store.changes := by
  obtain ⟨known, ⟨gate, checked⟩, unrecorded⟩ := phaseDecisionInserts_iff.mp inserts
  obtain ⟨change, found⟩ := Option.ne_none_iff_exists'.mp known
  simp only [recordPhaseDecision, found, checked, Bind.bind, Except.bind, record_new unrecorded]
  exact ⟨_, rfl, rfl, rfl⟩

theorem recordPhaseDecision_quiet (quiet : ¬ PhaseDecisionInserts around request store) :
    store.settled (recordPhaseDecision around request store) = store := by
  rw [phaseDecisionInserts_iff] at quiet
  unfold recordPhaseDecision
  cases found : store.change request.changeId with
  | none => rfl
  | some change =>
    cases checked : checkPhaseDecision request (buildPhaseGate around store request.changeId request.phase) with
    | error refusal => simp only [checked, Bind.bind, Except.bind, ChangeStore.settled]
    | ok gate =>
      have recorded : store.replayed request.idempotencyKey ≠ none := by
        intro unrecorded
        exact quiet ⟨by simp [found], ⟨gate, checked⟩, unrecorded⟩
      simp only [checked, Bind.bind, Except.bind]
      exact record_replayed recorded

end PhaseDecision

section Rework

variable {store : ChangeStore} {around : Surroundings} {request : ReworkRequest}

theorem knownComment_ok {id : String} :
    (∃ comment, knownComment store request.changeId id = .ok comment) ↔ store.comment request.changeId id ≠ none := by
  unfold knownComment
  cases store.comment request.changeId id <;> simp

theorem knownQuestion_ok {id : String} :
    (∃ question, knownQuestion store request.changeId id = .ok question) ↔
      store.question request.changeId id ≠ none := by
  unfold knownQuestion
  cases store.question request.changeId id <;> simp

theorem buildOrder_ok {orderId : String} {revisions : List (String × String)} :
    (∃ row, buildOrder request orderId revisions = .ok row) ↔ request.issuedBy ≠ "" ∧
      (request.commentIds ≠ [] ∨ request.questionIds ≠ [] ∨ clean request.instruction ≠ none) := by
  unfold buildOrder
  by_cases unnamed : request.issuedBy = ""
  · simp [unnamed]
  · rw [if_neg unnamed]
    split
    · rename_i content
      simpa [unnamed, or_assoc, Option.isSome_iff_ne_none] using content
    · rename_i empty
      simpa [unnamed, or_assoc, Option.isSome_iff_ne_none, and_assoc] using empty

structure ReworkOrderRow.BuiltFrom (row : ReworkOrderRow) (request : ReworkRequest) (orderId : String) : Prop where
  id : row.id = orderId
  pending : row.order.status = .pending
  change : row.order.changeId = request.changeId
  phase : row.order.phase = request.phase

theorem buildOrder_built {orderId : String} {revisions : List (String × String)} {row : ReworkOrderRow}
    (built : buildOrder request orderId revisions = .ok row) : row.BuiltFrom request orderId := by
  unfold buildOrder at built
  split at built
  · cases built
  · split at built
    · cases built
      exact ⟨rfl, rfl, rfl, rfl⟩
    · cases built

theorem recordSendBack_inserts {orderId : String} (gated : gateOfPhase request.phase ≠ none)
    (unrecorded : store.findByIdempotencyKey ("rework:" ++ orderId) = none) :
    ∃ row : DecisionRow, row.changeId = request.changeId ∧
      (recordSendBack around request orderId store).decisions = store.decisions ++ [row] ∧
      (recordSendBack around request orderId store).changes = store.changes := by
  obtain ⟨gate, found⟩ := Option.ne_none_iff_exists'.mp gated
  have fresh : store.replayed (some ("rework:" ++ orderId)) = none := unrecorded
  simp only [recordSendBack, found, record_new fresh]
  exact ⟨_, rfl, rfl, trivial⟩

theorem recordSendBack_quiet {orderId : String}
    (quiet : gateOfPhase request.phase = none ∨ store.findByIdempotencyKey ("rework:" ++ orderId) ≠ none) :
    recordSendBack around request orderId store = store := by
  unfold recordSendBack
  cases found : gateOfPhase request.phase with
  | none => rfl
  | some gate =>
    have recorded : store.replayed (some ("rework:" ++ orderId)) ≠ none := by
      rcases quiet with ungated | recorded
      · rw [found] at ungated
        cases ungated
      · exact recorded
    exact record_replayed recorded

theorem issueReworkOrder_inserts (inserts : ReworkInserts around request store) :
    ∃ row : DecisionRow, row.changeId = request.changeId ∧
      (store.settled (issueReworkOrder around request store)).decisions = store.decisions ++ [row] ∧
      (store.settled (issueReworkOrder around request store)).changes = store.changes := by
  obtain ⟨change, found⟩ := Option.ne_none_iff_exists'.mp inserts.known
  obtain ⟨comments, named, -⟩ := Outcome.mapM_ok fun id member => knownComment_ok.mpr (inserts.comments id member)
  obtain ⟨questions, asked, -⟩ := Outcome.mapM_ok fun id member => knownQuestion_ok.mpr (inserts.questions id member)
  have valid : ∃ row, buildOrder request (request.orderId around) (boundRevisions around comments) = .ok row :=
    buildOrder_ok.mpr ⟨inserts.issued, inserts.content⟩
  obtain ⟨row, built⟩ := valid
  have id := (buildOrder_built built).id
  simp only [issueReworkOrder, found, inserts.current, inserts.fresh, inserts.idle, named, asked, built,
    Bind.bind, Except.bind, Bool.false_eq_true, if_false]
  apply recordSendBack_inserts inserts.gated
  rw [id]
  exact inserts.unrecorded

theorem issueReworkOrder_quiet (quiet : ¬ ReworkInserts around request store) :
    (store.settled (issueReworkOrder around request store)).decisions = store.decisions ∧
      (store.settled (issueReworkOrder around request store)).changes = store.changes := by
  cases done : issueReworkOrder around request store with
  | error refusal => exact ⟨rfl, rfl⟩
  | ok pair =>
    unfold issueReworkOrder at done
    cases found : store.change request.changeId with
    | none => simp [found] at done
    | some change =>
      rw [found] at done
      dsimp only at done
      split at done
      · cases done
      · rename_i current
        split at done
        · cases done
          exact ⟨rfl, rfl⟩
        · rename_i fresh
          split at done
          · cases done
          · rename_i idle
            obtain ⟨comments, named, done⟩ := Outcome.bind_ok.mp done
            obtain ⟨questions, asked, done⟩ := Outcome.bind_ok.mp done
            obtain ⟨row, built, done⟩ := Outcome.bind_ok.mp done
            obtain rfl := Outcome.pure_ok.mp done
            have id := (buildOrder_built built).id
            have validated := buildOrder_ok.mp ⟨row, built⟩
            show (recordSendBack around request row.id _).decisions = _ ∧
              (recordSendBack around request row.id _).changes = _
            rw [recordSendBack_quiet]
            · exact ⟨rfl, rfl⟩
            · by_contra inserted
              rw [not_or, not_not] at inserted
              apply quiet
              exact {
                known := by simp [found]
                gated := inserted.1
                current := by simpa using current
                fresh := fresh
                idle := idle
                comments := fun item member => knownComment_ok.mp (Outcome.mapM_each named item member)
                questions := fun item member => knownQuestion_ok.mp (Outcome.mapM_each asked item member)
                issued := validated.1
                content := validated.2
                unrecorded := id ▸ inserted.2 }

end Rework

theorem counts_iff_moves {store : ChangeStore} (call : Surroundings × OperatorCall)
    (counted : CountsDecisions store) : CountsDecisions (afterOperator store call) ↔ MovesRevision store call := by
  obtain ⟨around, call⟩ := call
  cases call with
  | recordApproval token changeId body key => exact iff_of_true counted.approval trivial
  | recordPhaseDecision request =>
    by_cases inserts : PhaseDecisionInserts around request store
    · obtain ⟨row, own, appended, changes⟩ := recordPhaseDecision_inserts inserts
      exact iff_of_false (counted.unmoved (own ▸ inserts.known) changes appended) (fun quiet => quiet inserts)
    · refine iff_of_true ?_ inserts
      show CountsDecisions (store.settled (recordPhaseDecision around request store))
      rw [recordPhaseDecision_quiet inserts]
      exact counted
  | issueReworkOrder request =>
    by_cases inserts : ReworkInserts around request store
    · obtain ⟨row, own, appended, changes⟩ := issueReworkOrder_inserts inserts
      exact iff_of_false (counted.unmoved (own ▸ inserts.known) changes appended) (fun quiet => quiet inserts)
    · obtain ⟨decisions, changes⟩ := issueReworkOrder_quiet inserts
      exact iff_of_true ((CountsDecisions.congr changes decisions).mpr counted) inserts

/-- Every state of a run counts the decisions, and takes the revision the Console derives, exactly when no
    phase decision and no send-back of the run records a row. -/
theorem revision_counts_decisions (store : ChangeStore) (calls : List (Surroundings × OperatorCall))
    (counted : CountsDecisions store) :
    (∀ before after, calls = before ++ after →
      CountsDecisions (before.foldl afterOperator store) ∧ DerivedAccepted (before.foldl afterOperator store)) ↔
    Trace.Along afterOperator MovesRevision store calls := by
  rw [Trace.along_iff (fun store call counted => counts_iff_moves call counted) counted]
  constructor
  · intro reached before after split
    exact (reached before after split).1
  · intro reached before after split
    have counts := reached before after split
    exact ⟨counts, counts.accepted⟩

def oneChange : ChangeStore := { changes := [{ id := "CHG-1" }] }

theorem rejectedRevision_named : some "c0001" ≠ some "" := by decide

theorem rejectedRevision_bound :
    DecisionOutcome.rejected = DecisionOutcome.waived ∨ (some "c0001").isSome = true := by decide

def sentBackTwice : List (Surroundings × OperatorCall) :=
  let body : ApprovalRequest :=
    { gate := .specification, outcome := .rejected, subjectRevision := some "c0001", expectedStateRevision := some 1
      revision_nonempty := rejectedRevision_named, revision_unless_waived := rejectedRevision_bound }
  let call : OperatorCall := .recordApproval ⟨"operator-1", "operator"⟩ "CHG-1" body (some "key-1")
  [({ decisionHex := "1" }, call), ({ decisionHex := "2" }, call)]

/-- A decision and its replay count once. -/
theorem replayed_approval_counted :
    CountsDecisions (sentBackTwice.foldl afterOperator oneChange) ∧
      DerivedAccepted (sentBackTwice.foldl afterOperator oneChange) ∧
      (sentBackTwice.foldl afterOperator oneChange).decisionsCount "CHG-1" = 1 := by
  have counted : CountsDecisions oneChange := by
    simp [CountsDecisions, oneChange, deriveExpectedStateRevision, ChangeStore.decisionsCount]
  have kept := (revision_counts_decisions oneChange sentBackTwice counted).mpr
    (Trace.along_of_forall fun call member store => by
      simp only [sentBackTwice, List.mem_cons, List.not_mem_nil, or_false] at member
      rcases member with rfl | rfl <;> trivial)
  obtain ⟨counts, accepted⟩ := kept sentBackTwice [] (List.append_nil _).symm
  exact ⟨counts, accepted, by decide⟩

def approvedOnTheCli : Surroundings × OperatorCall :=
  ({ decisionHex := "1" },
    .recordPhaseDecision
      { changeId := "CHG-1", phase := .requirements, outcome := .approved, subjectRevision := some "c0001" })

/-- One approval of a phase outside the approvals route leaves the change at revision 1, and the next approval
    from the Console is refused. -/
theorem cli_approval_strands_console :
    ¬ ∀ (store : ChangeStore) (calls : List (Surroundings × OperatorCall)), CountsDecisions store →
      CountsDecisions (calls.foldl afterOperator store) ∧ DerivedAccepted (calls.foldl afterOperator store) := by
  intro always
  have counted : CountsDecisions oneChange := by
    simp [CountsDecisions, oneChange, deriveExpectedStateRevision, ChangeStore.decisionsCount]
  have accepted := (always oneChange [approvedOnTheCli] counted).2
  let body : ApprovalRequest :=
    { gate := .planning, outcome := .rejected, subjectRevision := some "c0002", expectedStateRevision := some 2 }
  exact accepted { decisionHex := "2" } ⟨"operator-1", "operator"⟩ "CHG-1" body none (by decide) (by decide)

end DarkFactory
