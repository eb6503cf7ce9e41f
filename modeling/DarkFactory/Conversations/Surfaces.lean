import DarkFactory.Conversations.Revision

namespace DarkFactory

structure ApprovalBody where
  gate : Gate
  outcome : DecisionOutcome
  subjectRevision : Option String := none
  comment : Option String := none
  expectedStateRevision : Option Int := none
  phase : Option Phase := none

def unboundApproval : Refusal :=
  ⟨.input, "subject_revision is required for an approved or rejected decision"⟩

def emptyRevision : Refusal := ⟨.input, "String should have at least 1 character"⟩

def ApprovalBody.validate (body : ApprovalBody) : Except Refusal ApprovalRequest :=
  if nonempty : body.subjectRevision ≠ some "" then
    if bound : body.outcome = .waived ∨ body.subjectRevision.isSome then
      .ok { gate := body.gate, outcome := body.outcome, subjectRevision := body.subjectRevision
            comment := body.comment, expectedStateRevision := body.expectedStateRevision, phase := body.phase
            revision_nonempty := nonempty, revision_unless_waived := bound }
    else .error unboundApproval
  else .error emptyRevision

def decideOverApi (around : Surroundings) (token : ApiToken) (gate : Gate) (request : PhaseDecisionRequest)
    (store : ChangeStore) : Except Refusal (Decision × ChangeStore) := do
  let body ← ApprovalBody.validate
    { gate, outcome := request.outcome, subjectRevision := request.subjectRevision, comment := request.comment
      phase := some request.phase }
  recordApproval around token request.changeId body request.idempotencyKey store

def decideByOperation (around : Surroundings) (request : PhaseDecisionRequest) (store : ChangeStore) :
    Except Refusal (Decision × ChangeStore) := do
  let (decided, after) ← recordPhaseDecision around request store
  return (decided.1, after)

def Refuses {α : Type} (outcome : Except Refusal α) : Prop := ∃ refusal, outcome = .error refusal

/-- The surface answers with a decision that is now a row of the change. -/
def Records (store : ChangeStore) (changeId : String) (outcome : Except Refusal (Decision × ChangeStore))
    (decision : Decision) : Prop :=
  ∃ after key role, outcome = .ok (decision, after) ∧
    after.decisions = store.decisions ++ [{ changeId, decision, idempotencyKey := key, role }]

structure SameVerdict (left right : Decision) : Prop where
  gate : left.gate = right.gate
  outcome : left.outcome = right.outcome
  source : left.decidedBy = right.decidedBy
  phase : left.phase = right.phase

def DecideAlike (store : ChangeStore) (changeId : String) (api operation : Except Refusal (Decision × ChangeStore))
    (onApi onCli : Option String) : Prop :=
  (Refuses api ∧ Refuses operation) ∨
    ∃ left right, Records store changeId api left ∧ Records store changeId operation right ∧
      SameVerdict left right ∧ left.commitSha = onApi ∧ right.commitSha = onCli

def PhaseDecisionRequest.view (request : PhaseDecisionRequest) (around : Surroundings) (store : ChangeStore) :
    PhaseGate :=
  buildPhaseGate around store request.changeId request.phase

def PhaseDecisionRequest.atCurrent (request : PhaseDecisionRequest) (around : Surroundings)
    (store : ChangeStore) : PhaseDecisionRequest :=
  { request with subjectRevision := (request.view around store).currentRevision }

structure SurfacesAgree (around : Surroundings) (token : ApiToken) (gate : Gate) (request : PhaseDecisionRequest)
    (store : ChangeStore) : Prop where
  stated : ∀ revision, request.subjectRevision = some revision → revision ≠ "" →
    DecideAlike store request.changeId (decideOverApi around token gate request store)
      (decideByOperation around request store) (some revision) (some revision)
  skipped : request.subjectRevision = none → request.outcome = .waived →
    DecideAlike store request.changeId (decideOverApi around token gate request store)
      (decideByOperation around request store) none (request.view around store).currentRevision
  unbound : request.subjectRevision = none → request.outcome ≠ .waived →
    decideOverApi around token gate request store = .error unboundApproval
  empty : request.subjectRevision = some "" →
    decideOverApi around token gate request store = .error emptyRevision
  current : request.subjectRevision.filter (· ≠ "") = none →
    decideByOperation around request store = decideByOperation around (request.atCurrent around store) store

section Surfaces

variable {around : Surroundings} {token : ApiToken} {gate : Gate} {request : PhaseDecisionRequest}
  {store : ChangeStore} {body : ApprovalRequest}

structure Carried (gate : Gate) (request : PhaseDecisionRequest) (body : ApprovalRequest) : Prop where
  gate : body.gate = gate
  outcome : body.outcome = request.outcome
  subjectRevision : body.subjectRevision = request.subjectRevision
  comment : body.comment = request.comment
  expectedStateRevision : body.expectedStateRevision = none
  phase : body.phase = some request.phase

theorem validate_ok (nonempty : request.subjectRevision ≠ some "")
    (bound : request.outcome = .waived ∨ request.subjectRevision.isSome) :
    ∃ body, Carried gate request body ∧ ∀ store, decideOverApi around token gate request store =
      recordApproval around token request.changeId body request.idempotencyKey store := by
  let body : ApprovalRequest :=
    { gate, outcome := request.outcome, subjectRevision := request.subjectRevision, comment := request.comment
      phase := some request.phase, revision_nonempty := nonempty, revision_unless_waived := bound }
  have carried : Carried gate request body := ⟨rfl, rfl, rfl, rfl, rfl, rfl⟩
  refine ⟨body, carried, fun store => ?_⟩
  simp only [decideOverApi, ApprovalBody.validate, dif_pos nonempty, dif_pos bound, Bind.bind, Except.bind]
  rfl

theorem approvalPhase_carried (gated : gateOfPhase request.phase = some gate) (carried : Carried gate request body) :
    approvalPhase body = .ok request.phase := by
  simp [approvalPhase, carried.phase, carried.gate, gated]

theorem checkPhaseGate_carried (gated : gateOfPhase request.phase = some gate)
    (carried : Carried gate request body) :
    checkPhaseGate around store request.changeId body = .ok () ↔
      (request.outcome = .waived → blank request.comment = false) ∧
        (request.outcome = .approved → (request.view around store).available = true ∧
          ∀ current, (request.view around store).currentRevision = some current →
            request.subjectRevision = some current) := by
  have phase := approvalPhase_carried gated carried
  simp only [checkPhaseGate, phase, Bind.bind, Except.bind, carried.outcome, carried.comment,
    carried.subjectRevision]
  cases request.outcome with
  | rejected => simp
  | waived => cases blank request.comment <;> simp
  | approved =>
    rw [← PhaseDecisionRequest.view]
    simpa using checkApproved_ok

structure DecidesPhase (gate : Gate) (request : PhaseDecisionRequest) (revision : Option String) (decision : Decision) :
    Prop where
  gate : decision.gate = gate
  outcome : decision.outcome = request.outcome
  source : decision.decidedBy = .human
  phase : decision.phase = some request.phase
  commitSha : decision.commitSha = revision

theorem DecidesPhase.same {onApi onCli : Option String} {left right : Decision} (api : DecidesPhase gate request onApi left)
    (operation : DecidesPhase gate request onCli right) : SameVerdict left right where
  gate := api.gate.trans operation.gate.symm
  outcome := api.outcome.trans operation.outcome.symm
  source := api.source.trans operation.source.symm
  phase := api.phase.trans operation.phase.symm

theorem recordApproval_passed {row : ChangeRow} (found : store.change request.changeId = some row)
    (fresh : store.replayed request.idempotencyKey = none) (gated : gateOfPhase request.phase = some gate)
    (carried : Carried gate request body) (passed : checkPhaseGate around store request.changeId body = .ok ()) :
    ∃ decision, Records store request.changeId
        (recordApproval around token request.changeId body request.idempotencyKey store) decision ∧
      DecidesPhase gate request request.subjectRevision decision := by
  have phase := approvalPhase_carried gated carried
  have expected : (body.expectedStateRevision.any fun expected => expected ≠ row.stateRevision) = false := by
    simp [carried.expectedStateRevision]
  unfold recordApproval
  simp only [found, fresh, expected, Bool.false_eq_true, if_false, phase, passed, Bind.bind, Except.bind,
    record_new fresh]
  exact ⟨_, ⟨_, _, _, rfl, rfl⟩, carried.gate, carried.outcome, rfl, rfl, carried.subjectRevision⟩

theorem recordApproval_refused {row : ChangeRow} (found : store.change request.changeId = some row)
    (fresh : store.replayed request.idempotencyKey = none) (carried : Carried gate request body)
    (refused : checkPhaseGate around store request.changeId body ≠ .ok ()) :
    Refuses (recordApproval around token request.changeId body request.idempotencyKey store) := by
  have expected : (body.expectedStateRevision.any fun expected => expected ≠ row.stateRevision) = false := by
    simp [carried.expectedStateRevision]
  unfold recordApproval
  simp only [found, fresh, expected, Bool.false_eq_true, if_false]
  cases checked : checkPhaseGate around store request.changeId body with
  | error refusal => exact ⟨refusal, rfl⟩
  | ok passed => exact absurd checked refused

theorem checkPhaseDecision_gate {view : PhaseGate} (passed : checkPhaseDecision request view = .ok gate) :
    view.gate = some gate := by
  unfold checkPhaseDecision at passed
  cases held : view.gate with
  | none => simp [held] at passed
  | some own =>
    simp only [held, Bind.bind, Except.bind, Pure.pure, Except.pure, throw, throwThe, MonadExceptOf.throw] at passed
    have same : own = gate := by grind
    rw [same]

theorem decideByOperation_passed {row : ChangeRow} (found : store.change request.changeId = some row)
    (fresh : store.replayed request.idempotencyKey = none) (gated : gateOfPhase request.phase = some gate)
    (passed : ∃ gate, checkPhaseDecision request (request.view around store) = .ok gate) :
    ∃ decision, Records store request.changeId (decideByOperation around request store) decision ∧
      DecidesPhase gate request (request.revision (request.view around store)) decision := by
  obtain ⟨bound, passed⟩ := passed
  have same : bound = gate := by
    have view : (request.view around store).gate = some gate := gated
    have held := checkPhaseDecision_gate passed
    exact Option.some.inj (held.symm.trans view)
  rw [same, PhaseDecisionRequest.view] at passed
  unfold decideByOperation recordPhaseDecision
  simp only [found, passed, Bind.bind, Except.bind, record_new fresh]
  exact ⟨_, ⟨_, _, _, rfl, rfl⟩, rfl, rfl, rfl, rfl, rfl⟩

theorem decideByOperation_refused
    (refused : ¬ ∃ gate, checkPhaseDecision request (request.view around store) = .ok gate) :
    Refuses (decideByOperation around request store) := by
  unfold decideByOperation recordPhaseDecision
  cases store.change request.changeId with
  | none => exact ⟨missingChange request.changeId, rfl⟩
  | some row =>
    cases checked : checkPhaseDecision request (request.view around store) with
    | ok gate => exact absurd ⟨gate, checked⟩ refused
    | error refusal =>
      rw [PhaseDecisionRequest.view] at checked
      simp only [checked, Bind.bind, Except.bind]
      exact ⟨refusal, rfl⟩

/-- Where the checks of the two surfaces stand or fall together, so do their decisions. -/
theorem decideAlike_of_checks (fresh : store.replayed request.idempotencyKey = none)
    (gated : gateOfPhase request.phase = some gate) (carried : Carried gate request body)
    (route : decideOverApi around token gate request store =
      recordApproval around token request.changeId body request.idempotencyKey store)
    (checks : checkPhaseGate around store request.changeId body = .ok () ↔
      ∃ gate, checkPhaseDecision request (request.view around store) = .ok gate) :
    DecideAlike store request.changeId (decideOverApi around token gate request store)
      (decideByOperation around request store) request.subjectRevision
      (request.revision (request.view around store)) := by
  rw [route]
  cases found : store.change request.changeId with
  | none =>
    have api : recordApproval around token request.changeId body request.idempotencyKey store =
        .error (missingChange request.changeId) := by simp [recordApproval, found]
    have operation : decideByOperation around request store = .error (missingChange request.changeId) := by
      simp [decideByOperation, recordPhaseDecision, found, Bind.bind, Except.bind]
    exact Or.inl ⟨⟨_, api⟩, ⟨_, operation⟩⟩
  | some row =>
    by_cases passed : checkPhaseGate around store request.changeId body = .ok ()
    · obtain ⟨left, recorded, decides⟩ := @recordApproval_passed _ token _ _ _ _ _ found fresh gated carried passed
      obtain ⟨right, recorded', decides'⟩ := decideByOperation_passed found fresh gated (checks.mp passed)
      exact Or.inr ⟨left, right, recorded, recorded', decides.same decides', decides.commitSha, decides'.commitSha⟩
    · have refused := decideByOperation_refused fun decided => passed (checks.mpr decided)
      exact Or.inl ⟨recordApproval_refused found fresh carried passed, refused⟩

theorem checks_stated {revision : String} (gated : gateOfPhase request.phase = some gate)
    (carried : Carried gate request body) (stated : request.subjectRevision = some revision)
    (nonempty : revision ≠ "") :
    checkPhaseGate around store request.changeId body = .ok () ↔
      ∃ gate, checkPhaseDecision request (request.view around store) = .ok gate := by
  have view : (request.view around store).gate ≠ none := by
    have same : (request.view around store).gate = some gate := gated
    simp [same]
  have own : request.revision (request.view around store) = some revision := by
    simp [PhaseDecisionRequest.revision, stated, nonempty]
  rw [checkPhaseGate_carried gated carried, checkPhaseDecision_ok, own, stated]
  simp [view]

theorem checks_skipped (gated : gateOfPhase request.phase = some gate) (carried : Carried gate request body)
    (waived : request.outcome = .waived) :
    checkPhaseGate around store request.changeId body = .ok () ↔
      ∃ gate, checkPhaseDecision request (request.view around store) = .ok gate := by
  have view : (request.view around store).gate ≠ none := by
    have same : (request.view around store).gate = some gate := gated
    simp [same]
  rw [checkPhaseGate_carried gated carried, checkPhaseDecision_ok, waived]
  simp [view]

theorem decideByOperation_current (unstated : request.subjectRevision.filter (· ≠ "") = none) :
    decideByOperation around request store = decideByOperation around (request.atCurrent around store) store := by
  have view : (request.atCurrent around store).view around store = request.view around store := rfl
  have revision : (request.atCurrent around store).revision (request.view around store) =
      request.revision (request.view around store) := by
    simp only [PhaseDecisionRequest.revision, PhaseDecisionRequest.atCurrent, unstated, Option.none_or]
    cases current : (request.view around store).currentRevision with
    | none => simp
    | some text => by_cases empty : text = "" <;> simp [Option.filter, empty]
  have checks : checkPhaseDecision (request.atCurrent around store) (request.view around store) =
      checkPhaseDecision request (request.view around store) := by
    simp only [checkPhaseDecision, revision]
    rfl
  unfold decideByOperation recordPhaseDecision
  rw [← PhaseDecisionRequest.view, ← PhaseDecisionRequest.view]
  simp only [view, checks, revision]
  rfl

end Surfaces

theorem approval_surfaces_agree (around : Surroundings) (token : ApiToken) (gate : Gate)
    (request : PhaseDecisionRequest) (store : ChangeStore) (gated : gateOfPhase request.phase = some gate)
    (fresh : store.replayed request.idempotencyKey = none) : SurfacesAgree around token gate request store where
  stated := by
    intro revision stated nonempty
    have given : request.subjectRevision ≠ some "" := by simp [stated, nonempty]
    obtain ⟨body, carried, route⟩ := @validate_ok around token _ _ given (Or.inr (by simp [stated]))
    have alike := decideAlike_of_checks fresh gated carried (route store)
      (checks_stated gated carried stated nonempty)
    have own : request.revision (request.view around store) = some revision := by
      simp [PhaseDecisionRequest.revision, stated, nonempty]
    rw [own, stated] at alike
    exact alike
  skipped := by
    intro unstated waived
    have given : request.subjectRevision ≠ some "" := by simp [unstated]
    obtain ⟨body, carried, route⟩ := @validate_ok around token _ _ given (Or.inl waived)
    have alike := decideAlike_of_checks fresh gated carried (route store) (checks_skipped gated carried waived)
    simpa [PhaseDecisionRequest.revision, unstated] using alike
  unbound := by
    intro unstated decided
    simp [decideOverApi, ApprovalBody.validate, unstated, decided, Bind.bind, Except.bind]
  empty := by
    intro empty
    simp [decideOverApi, ApprovalBody.validate, empty, Bind.bind, Except.bind]
  current := decideByOperation_current

def drafted : Surroundings where
  artifacts := some { head := some "c0001", paths := ["spec/calc.md"], revisions := fun _ => some "c0001" }
  decisionHex := "1"

def approvesRequirements (subjectRevision : Option String) : PhaseDecisionRequest :=
  { changeId := "CHG-1", phase := .requirements, outcome := .approved, subjectRevision }

theorem stated_approval_recorded_alike :
    SurfacesAgree drafted ⟨"operator-1", "operator"⟩ .specification (approvesRequirements (some "c0001")) oneChange ∧
      (decideOverApi drafted ⟨"operator-1", "operator"⟩ .specification (approvesRequirements (some "c0001"))
        oneChange).toBool = true :=
  ⟨approval_surfaces_agree _ _ _ _ _ (by decide) (by decide), by decide⟩

/-- An approval that states no revision is recorded at the current one by the operation, and refused by the
    route. -/
theorem unstated_approval_refused_over_api :
    ¬ ∀ (around : Surroundings) (token : ApiToken) (gate : Gate) (request : PhaseDecisionRequest)
        (store : ChangeStore), gateOfPhase request.phase = some gate →
      store.replayed request.idempotencyKey = none →
      ∃ revision, DecideAlike store request.changeId (decideOverApi around token gate request store)
        (decideByOperation around request store) revision revision := by
  intro always
  obtain ⟨revision, alike⟩ := always drafted ⟨"operator-1", "operator"⟩ .specification
    (approvesRequirements none) oneChange (by decide) (by decide)
  have api : decideOverApi drafted ⟨"operator-1", "operator"⟩ .specification (approvesRequirements none) oneChange =
      .error unboundApproval := rfl
  have operation : (decideByOperation drafted (approvesRequirements none) oneChange).toBool = true := by decide
  rcases alike with ⟨-, refusal, refused⟩ | ⟨left, right, ⟨after, key, role, recorded, -⟩, -⟩
  · rw [refused] at operation
    cases operation
  · rw [api] at recorded
    cases recorded

end DarkFactory
