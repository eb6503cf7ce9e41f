import DarkFactory.Conversations.PhaseGate
import DarkFactory.Stages.Design

namespace DarkFactory

/-- The decision settles its phase at the revision: a waiver does at any. -/
def settlesAt (revision : Option String) (decision : Decision) : Bool :=
  decision.outcome = .waived ||
    (decision.outcome = .approved && revisionState decision.commitSha revision = .current)

def settlementOf (decision : Decision) : PhaseSettlement :=
  if decision.outcome = .waived then .waived else .approved

section Settlement

variable {decisions : List Decision} {phase : Phase} {revision : Option String}

theorem phaseSettlement_eq : phaseSettlement decisions phase revision =
    match ((phaseDecisions decisions phase).filter (settlesAt revision)).getLast? with
    | some decision => (settlementOf decision, some decision)
    | none => (.open, none) := by
  have settles (decision : Decision) :
      (if decision.outcome = .waived then some (PhaseSettlement.waived, some decision)
        else if decision.outcome = .approved && revisionState decision.commitSha revision = .current then
          some (.approved, some decision)
        else none) =
      if settlesAt revision decision = true then some (settlementOf decision, some decision) else none := by
    unfold settlesAt settlementOf
    by_cases waived : decision.outcome = .waived
    · simp [waived]
    · simp [waived]
  unfold phaseSettlement
  simp only [settles]
  rw [← List.head?_reverse, ← List.filter_reverse, List.head?_filter]
  generalize (phaseDecisions decisions phase).reverse = newestFirst
  induction newestFirst with
  | nil => rfl
  | cons head rest ih =>
    rw [List.findSome?_cons, List.find?_cons]
    cases settlesAt revision head with
    | true => rfl
    | false => exact ih

theorem phaseSettlement_open : (phaseSettlement decisions phase revision).1 = .open ↔
    ∀ decision ∈ phaseDecisions decisions phase, settlesAt revision decision = false := by
  rw [phaseSettlement_eq]
  cases last : ((phaseDecisions decisions phase).filter (settlesAt revision)).getLast? with
  | none =>
    rw [List.getLast?_eq_none_iff, List.filter_eq_nil_iff] at last
    simpa using last
  | some decision =>
    obtain ⟨member, settles⟩ := List.mem_filter.mp (List.mem_of_getLast? last)
    constructor
    · intro open_
      revert open_
      simp only [settlementOf]
      split <;> simp
    · intro none_
      rw [none_ decision member] at settles
      cases settles

theorem phaseSettlement_newest : (phaseSettlement decisions phase revision).2 =
    ((phaseDecisions decisions phase).filter (settlesAt revision)).getLast? := by
  rw [phaseSettlement_eq]
  cases ((phaseDecisions decisions phase).filter (settlesAt revision)).getLast? <;> rfl

theorem phaseSettlement_verdict {decision : Decision} (last : (phaseSettlement decisions phase revision).2 = some decision) :
    (phaseSettlement decisions phase revision).1 = settlementOf decision := by
  rw [phaseSettlement_newest] at last
  simp only [phaseSettlement_eq, last]

end Settlement

section Card

variable (changeId : String) (phase : Phase) (questions : List Question) (orders : List ReworkOrder)
  (decisions : List Decision) (revision : Option String) (budget : Option BudgetSnapshot)
  (revisionObservable : Bool) (route : Option Route) (uiRequirement : Option UiRequirement)

theorem settled_iff_reported :
    (phaseSettlement decisions phase revision).1 ≠ .open ↔
      (phaseGate changeId phase questions orders decisions revision budget revisionObservable route
          uiRequirement).approved = true ∨
        (phaseGate changeId phase questions orders decisions revision budget revisionObservable route
          uiRequirement).waived = true := by
  rw [ne_eq, phaseSettlement_open]
  simp only [not_forall, Bool.not_eq_false, phaseGate, List.any_eq_true, settlesAt, Bool.or_eq_true]
  constructor
  · rintro ⟨decision, member, waived | approved⟩
    · exact Or.inr ⟨decision, member, waived⟩
    · exact Or.inl ⟨decision, member, approved⟩
  · rintro (⟨decision, member, approved⟩ | ⟨decision, member, waived⟩)
    · exact ⟨decision, member, Or.inr approved⟩
    · exact ⟨decision, member, Or.inl waived⟩

/-- A phase is settled exactly when its card reports it so. The card may report both verdicts, the settlement is
    then the one of the newest decision that settles. -/
structure SettlementAgrees (gate : PhaseGate) (settlement : PhaseSettlement × Option Decision) : Prop where
  settled : settlement.1 ≠ .open ↔ gate.approved = true ∨ gate.waived = true
  approved : settlement.1 = .approved → gate.approved = true
  waived : settlement.1 = .waived → gate.waived = true
  unwaived : gate.waived = false → (settlement.1 = .approved ↔ gate.approved = true)
  unapproved : gate.approved = false → (settlement.1 = .waived ↔ gate.waived = true)
  newest : settlement.2 = ((phaseDecisions decisions phase).filter (settlesAt revision)).getLast?
  verdict : ∀ decision, settlement.2 = some decision → settlement.1 = settlementOf decision

theorem reported_of_settlement :
    ((phaseSettlement decisions phase revision).1 = .approved →
      (phaseGate changeId phase questions orders decisions revision budget revisionObservable route
        uiRequirement).approved = true) ∧
    ((phaseSettlement decisions phase revision).1 = .waived →
      (phaseGate changeId phase questions orders decisions revision budget revisionObservable route
        uiRequirement).waived = true) := by
  cases last : (phaseSettlement decisions phase revision).2 with
  | none =>
    have open_ : (phaseSettlement decisions phase revision).1 = .open := by
      rw [phaseSettlement_newest] at last
      simp only [phaseSettlement_eq, last]
    simp [open_]
  | some decision =>
    rw [phaseSettlement_verdict last]
    rw [phaseSettlement_newest] at last
    obtain ⟨member, settles⟩ := List.mem_filter.mp (List.mem_of_getLast? last)
    rw [settlesAt, Bool.or_eq_true, decide_eq_true_eq] at settles
    simp only [settlementOf, phaseGate, List.any_eq_true]
    constructor
    · intro approved
      split at approved
      · cases approved
      · rename_i unwaived
        exact ⟨decision, member, settles.resolve_left unwaived⟩
    · intro waived
      split at waived
      · rename_i outcome
        exact ⟨decision, member, by simp [outcome]⟩
      · cases waived

theorem settlement_agrees_with_gate : SettlementAgrees phase decisions revision
    (phaseGate changeId phase questions orders decisions revision budget revisionObservable route uiRequirement)
    (phaseSettlement decisions phase revision) := by
  have settled := settled_iff_reported changeId phase questions orders decisions revision budget revisionObservable route
    uiRequirement
  have reported := reported_of_settlement changeId phase questions orders decisions revision budget revisionObservable route
    uiRequirement
  refine ⟨settled, reported.1, reported.2, ?_, ?_, phaseSettlement_newest, fun decision last => phaseSettlement_verdict last⟩
  · intro unwaived
    refine ⟨reported.1, fun approved => ?_⟩
    cases state : (phaseSettlement decisions phase revision).1 with
    | «open» => exact absurd state (settled.mpr (Or.inl approved))
    | approved => rfl
    | waived =>
      rw [reported.2 state] at unwaived
      cases unwaived
  · intro unapproved
    refine ⟨reported.2, fun waived => ?_⟩
    cases state : (phaseSettlement decisions phase revision).1 with
    | «open» => exact absurd state (settled.mpr (Or.inr waived))
    | waived => rfl
    | approved =>
      rw [reported.1 state] at unapproved
      cases unapproved

end Card

def phaseDecision (id : String) (phase : Phase) (gate : Gate) (outcome : DecisionOutcome) : Decision :=
  { id, gate, outcome, decidedBy := .human, decidedAt := 0, commitSha := some "c1", phase := some phase }

/-- Approved and then waived: the card reports both. -/
theorem waived_after_approval :
    ¬ ∀ decisions phase revision,
      let gate := phaseGate "change-1" phase [] [] decisions revision none true none none
      let settlement := phaseSettlement decisions phase revision
      (settlement.1 = .approved ↔ gate.approved = true) ∧ (settlement.1 = .waived ↔ gate.waived = true) := by
  intro same
  have both := same [phaseDecision "dec_1" .architecture .specification .approved,
    phaseDecision "dec_2" .architecture .specification .waived] .architecture (some "c1")
  revert both
  decide

def boundTo (revision : String) (decision : Decision) : Bool :=
  decision.outcome = .waived || decision.commitSha = some revision

def accepts (decision : Decision) : Bool := decision.outcome = .approved || decision.outcome = .waived

def ownDecisions (decisions : List Decision) (phase : Phase) (revision : String) : List Decision :=
  (phaseDecisions decisions phase).filter (boundTo revision)

def phaseObservation (decisions : List Decision) (phase : Phase) (revision : String) : GateObservation :=
  { headSha := some revision, merged := false, pipelineStatus := none
    approvals := decisions.filter (boundTo revision), phase := some phase }

section Newest

variable (route : Route) (stage : Stage) (riskClass : RiskClass) (decisions : List Decision) (phase : Phase)
  (revision : String)

inductive CountsAsSettled : Prop
  | settlement (settled : (phaseSettlement decisions phase (some revision)).1 ≠ .open)
  | wait (settled : (settlingDecision (phaseObservation decisions phase revision)
      (requiredHumanGates route stage riskClass)).isSome = true)
  | controlPoint (point : ControlPoint) (required : point ∈ requiredControlPoints route stage riskClass)
      (ofGate : gateOfPhase phase = some (controlPointBinding point).gate)
      (closed : point ∉ missingControlPoints route stage riskClass decisions (some revision))

def NewestWins : Prop :=
  CountsAsSettled route stage riskClass decisions phase revision →
    ∃ decision, (ownDecisions decisions phase revision).getLast? = some decision ∧ accepts decision = true

/-- The last decision of the phase sends it back, after one that accepted it. -/
def SentBackAfterAcceptance : Prop :=
  ∃ before last, ownDecisions decisions phase revision = before ++ [last] ∧ accepts last = false ∧
    ∃ decision ∈ before, accepts decision = true

/-- An acceptance that is not the phase's own: by its phase, but on another gate that the wait asks for; or on its
    gate, as a control point reads it, but of another phase. -/
def StandIn (decision : Decision) : Prop :=
  (decision ∈ decisions ∧ boundTo revision decision = true ∧ accepts decision = true) ∧
    ((decisionPhase decision = phase ∧ gateOfPhase phase ≠ some decision.gate ∧
        decision.gate ∈ requiredHumanGates route stage riskClass) ∨
      (decisionPhase decision ≠ phase ∧ gateOfPhase phase = some decision.gate ∧
        decision.decidedBy = .human ∧ decision.outcome = .approved ∧
        ∃ point ∈ requiredControlPoints route stage riskClass, (controlPointBinding point).gate = decision.gate))

variable {route stage riskClass decisions phase revision} {decision : Decision}

theorem settlesAt_bound : settlesAt (some revision) decision = true ↔
    boundTo revision decision = true ∧ accepts decision = true := by
  have current : revisionState decision.commitSha (some revision) = .current ↔ decision.commitSha = some revision := by
    rw [revisionState_current]
    simp
  simp only [settlesAt, boundTo, accepts, Bool.or_eq_true, Bool.and_eq_true, decide_eq_true_eq, current]
  constructor
  · rintro (waived | ⟨approved, own⟩)
    · exact ⟨Or.inl waived, Or.inr waived⟩
    · exact ⟨Or.inr own, Or.inl approved⟩
  · rintro ⟨waived | own, approved | waived'⟩
    · exact Or.inl waived
    · exact Or.inl waived
    · exact Or.inr ⟨approved, own⟩
    · exact Or.inl waived'

theorem mem_ownDecisions : decision ∈ ownDecisions decisions phase revision ↔
    decision ∈ decisions ∧ gateOfPhase phase = some decision.gate ∧ decisionPhase decision = phase ∧
      boundTo revision decision = true := by
  unfold ownDecisions phaseDecisions
  cases gateOfPhase phase with
  | none => simp
  | some gate =>
    simp only [List.mem_filter, Bool.and_eq_true, decide_eq_true_eq, Option.some.injEq, and_assoc]
    rw [eq_comm (a := decision.gate)]

theorem settlement_iff : (phaseSettlement decisions phase (some revision)).1 ≠ .open ↔
    ∃ decision ∈ ownDecisions decisions phase revision, accepts decision = true := by
  rw [ne_eq, phaseSettlement_open]
  simp only [not_forall, Bool.not_eq_false, settlesAt_bound, ownDecisions, List.mem_filter]
  constructor
  · rintro ⟨decision, member, bound, accepted⟩
    exact ⟨decision, ⟨member, bound⟩, accepted⟩
  · rintro ⟨decision, ⟨member, bound⟩, accepted⟩
    exact ⟨decision, member, bound, accepted⟩

theorem wait_iff {human : Finset Gate} :
    (settlingDecision (phaseObservation decisions phase revision) human).isSome = true ↔
      ∃ decision ∈ decisions, boundTo revision decision = true ∧ accepts decision = true ∧ decision.gate ∈ human ∧
        decisionPhase decision = phase := by
  simp only [settlingDecision, phaseObservation, List.find?_isSome, List.mem_reverse, List.mem_filter,
    Bool.and_eq_true, decide_eq_true_eq, Option.isNone_some, Bool.false_or, Option.some.injEq, accepts]
  constructor
  · rintro ⟨decision, ⟨member, bound⟩, ⟨accepted, gate⟩, own⟩
    exact ⟨decision, member, bound, accepted, gate, own.symm⟩
  · rintro ⟨decision, member, bound, accepted, gate, own⟩
    exact ⟨decision, ⟨member, bound⟩, ⟨accepted, gate⟩, own.symm⟩

theorem controlPoint_iff {point : ControlPoint} (required : point ∈ requiredControlPoints route stage riskClass) :
    point ∉ missingControlPoints route stage riskClass decisions (some revision) ↔
      ∃ decision ∈ decisions, decision.decidedBy = .human ∧ decision.outcome = .approved ∧
        decision.commitSha = some revision ∧ decision.gate = (controlPointBinding point).gate := by
  simp only [missingControlPoints, List.mem_filter, required, true_and, Bool.not_eq_true', Bool.not_eq_false,
    List.any_eq_true, approvesAt, Bool.and_eq_true, decide_eq_true_eq, and_assoc]

theorem own_or_standIn (settled : CountsAsSettled route stage riskClass decisions phase revision) :
    (∃ decision ∈ ownDecisions decisions phase revision, accepts decision = true) ∨
      ∃ decision, StandIn route stage riskClass decisions phase revision decision := by
  cases settled with
  | settlement settled => exact Or.inl (settlement_iff.mp settled)
  | wait settled =>
    obtain ⟨decision, member, bound, accepted, gate, own⟩ := wait_iff.mp settled
    by_cases ofGate : gateOfPhase phase = some decision.gate
    · exact Or.inl ⟨decision, mem_ownDecisions.mpr ⟨member, ofGate, own, bound⟩, accepted⟩
    · exact Or.inr ⟨decision, ⟨member, bound, accepted⟩, Or.inl ⟨own, ofGate, gate⟩⟩
  | controlPoint point required ofGate closed =>
    obtain ⟨decision, member, human, approved, own, gate⟩ := (controlPoint_iff required).mp closed
    have bound : boundTo revision decision = true := by simp [boundTo, own]
    have accepted : accepts decision = true := by simp [accepts, approved]
    rw [← gate] at ofGate
    by_cases ofPhase : decisionPhase decision = phase
    · exact Or.inl ⟨decision, mem_ownDecisions.mpr ⟨member, ofGate, ofPhase, bound⟩, accepted⟩
    · exact Or.inr ⟨decision, ⟨member, bound, accepted⟩,
        Or.inr ⟨ofPhase, ofGate, human, approved, point, required, gate.symm⟩⟩

theorem standIn_settles (standIn : StandIn route stage riskClass decisions phase revision decision) :
    CountsAsSettled route stage riskClass decisions phase revision := by
  obtain ⟨⟨member, bound, accepted⟩, ⟨own, -, gate⟩ | ⟨-, ofGate, human, approved, point, required, gate⟩⟩ := standIn
  · exact .wait (wait_iff.mpr ⟨decision, member, bound, accepted, gate, own⟩)
  · have own : decision.commitSha = some revision := by simpa [boundTo, approved] using bound
    rw [← gate] at ofGate
    exact .controlPoint point required ofGate
      ((controlPoint_iff required).mpr ⟨decision, member, human, approved, own, gate.symm⟩)

/-- The newest decision of the phase at the revision wins exactly when it is no rejection after an acceptance, and
    no other acceptance stands in where the phase has none. -/
theorem newest_decision_wins_iff (route : Route) (stage : Stage) (riskClass : RiskClass) (decisions : List Decision)
    (phase : Phase) (revision : String) :
    NewestWins route stage riskClass decisions phase revision ↔
      ¬ SentBackAfterAcceptance decisions phase revision ∧
        ∀ standIn, StandIn route stage riskClass decisions phase revision standIn →
          ∃ decision ∈ ownDecisions decisions phase revision, accepts decision = true := by
  constructor
  · intro wins
    constructor
    · rintro ⟨before, last, split, rejected, accepted⟩
      have settled : CountsAsSettled route stage riskClass decisions phase revision := by
        obtain ⟨decision, member, accepts⟩ := accepted
        exact .settlement (settlement_iff.mpr ⟨decision, by simp [split, member], accepts⟩)
      obtain ⟨newest, own, accepts⟩ := wins settled
      rw [split, List.getLast?_concat, Option.some.injEq] at own
      rw [own, accepts] at rejected
      cases rejected
    · intro standIn stands
      obtain ⟨newest, own, accepted⟩ := wins (standIn_settles stands)
      exact ⟨newest, List.mem_of_getLast? own, accepted⟩
  · rintro ⟨kept, stands⟩ settled
    obtain ⟨accepted, member, accepts_⟩ : ∃ decision ∈ ownDecisions decisions phase revision,
        accepts decision = true := by
      rcases own_or_standIn settled with own | ⟨standIn, stand⟩
      · exact own
      · exact stands standIn stand
    rcases List.eq_nil_or_concat' (ownDecisions decisions phase revision) with none_ | ⟨before, last, split⟩
    · rw [none_] at member
      cases member
    refine ⟨last, by rw [split, List.getLast?_concat], ?_⟩
    cases newest : accepts last with
    | true => rfl
    | false =>
      refine absurd ⟨before, last, split, newest, accepted, ?_, accepts_⟩ kept
      rw [split] at member
      rcases List.mem_append.mp member with earlier | same
      · exact earlier
      · rw [List.mem_singleton] at same
        rw [same, newest] at accepts_
        cases accepts_

/-- Approved and then sent back at the same revision, the phase still counts as settled. -/
theorem sent_back_phase_settled :
    ¬ ∀ route stage riskClass decisions phase revision, NewestWins route stage riskClass decisions phase revision := by
  intro wins
  let decisions := [phaseDecision "dec_1" .requirements .specification .approved,
    phaseDecision "dec_2" .requirements .specification .rejected]
  have settled : CountsAsSettled .standard .specification .r1 decisions .requirements "c1" :=
    .settlement (by decide)
  obtain ⟨newest, own, accepted⟩ := wins _ _ _ _ _ _ settled
  have last : (ownDecisions decisions .requirements "c1").getLast? =
      some (phaseDecision "dec_2" .requirements .specification .rejected) := by decide
  rw [last, Option.some.injEq] at own
  rw [← own] at accepted
  revert accepted
  decide

end Newest

end DarkFactory
