import DarkFactory.Stages.Rework
import DarkFactory.Rules.Gates

namespace DarkFactory

def gateOfPhase : Phase → Option Gate
  | .initiative => none
  | .requirements => some .specification
  | .architecture => some .specification
  | .interface => some .ui
  | .plan => some .planning
  | .execution => some .code
  | .demonstration => some .verification
  | .delivery => some .release
  | .done => none

def phaseOfGate : Gate → Phase
  | .specification => .requirements
  | .ui => .interface
  | .planning => .plan
  | .code => .execution
  | .review => .demonstration
  | .verification => .demonstration
  | .release => .delivery

/-- The phases the specification stage runs as rounds. -/
def designPhases : List Phase := [.requirements, .architecture, .interface]

def uiRequiredByRoute (route : Route) : Bool := decide (Gate.ui ∈ requiredGates route .specification)

def specificationPhases (route : Route) : List Phase :=
  if uiRequiredByRoute route then designPhases else [.requirements, .architecture]

def decisionPhase (decision : Decision) : Phase := decision.phase.getD (phaseOfGate decision.gate)

def phaseDecisions (decisions : List Decision) (phase : Phase) : List Decision :=
  match gateOfPhase phase with
  | none => []
  | some gate => decisions.filter fun decision => decision.gate = gate && decisionPhase decision = phase

inductive RevisionState | unbound | stale | current
  deriving DecidableEq, Repr

def revisionState (bound current : Option String) : RevisionState :=
  match bound, current with
  | none, _ => .unbound
  | some _, none => .stale
  | some bound, some current => if bound = current then .current else .stale

inductive PhaseSettlement | «open» | approved | waived
  deriving DecidableEq, Repr

/-- The newest decision of the phase that settles it at the revision. -/
def phaseSettlement (decisions : List Decision) (phase : Phase) (revision : Option String) :
    PhaseSettlement × Option Decision :=
  let settles (decision : Decision) : Option (PhaseSettlement × Option Decision) :=
    if decision.outcome = .waived then some (.waived, some decision)
    else if decision.outcome = .approved && revisionState decision.commitSha revision = .current then
      some (.approved, some decision)
    else none
  ((phaseDecisions decisions phase).reverse.findSome? settles).getD (.open, none)

def specificationPhase (route : Route) (decisions : List Decision) (revisions : Phase → Option String) :
    Phase :=
  let phases := specificationPhases route
  let unsettled (phase : Phase) : Bool := (phaseSettlement decisions phase (revisions phase)).1 = .open
  (phases.find? unsettled).getD (phases.getLastD .requirements)

def nextSpecificationPhase (route : Route) (phase : Phase) : Option Phase :=
  match (specificationPhases route).idxOf? phase with
  | none => none
  | some index => (specificationPhases route)[index + 1]?

def stagePhase : Stage → Phase
  | .specification => .requirements
  | .planning => .plan
  | .construction => .execution
  | .reviewVerification => .demonstration
  | .release => .delivery

/-- An operator's send-back; an order without any content cannot be built. -/
structure ReworkOrder where
  id : String
  changeId : String
  phase : Phase
  revisions : List (String × String) := []
  commentIds : List String := []
  questionIds : List String := []
  instruction : Option String := none
  status : ReworkOrderStatus := .pending
  has_content : (!commentIds.isEmpty || !questionIds.isEmpty || instruction.isSome) = true := by decide
  deriving DecidableEq

def ReworkOrder.isPending (order : ReworkOrder) : Bool := order.status = .pending

def humanSignature (category : String) : FindingSignature :=
  { origin := .human, category := some category, file := none, line := none }

def orderRemarks (order : ReworkOrder) : List FindingSignature :=
  order.commentIds.map (fun comment => humanSignature s!"comment:{comment}") ++
    (if order.instruction.isSome then [humanSignature s!"order:{order.id}"] else [])

/-- An order made of answered questions alone still asks for a round. -/
def orderSignatures (order : ReworkOrder) : List FindingSignature :=
  if (orderRemarks order).isEmpty then [humanSignature s!"answers:{order.id}"] else orderRemarks order

def pairBefore (left right : String × String) : Bool :=
  if left.1 ≠ right.1 then left.1 < right.1 else !(right.2 < left.2)

def orderRevision (order : ReworkOrder) : String :=
  if order.revisions.isEmpty then s!"order:{order.id}"
  else
    let entries := order.revisions.insertionSort (fun left right => pairBefore left right = true)
    Text.join "+" (entries.map fun entry => s!"{entry.1}@{entry.2}")

def orderPasses (orders : List ReworkOrder) : Except Failure (List ReviewPass) :=
  orders.zipIdx.mapM fun (order, index) =>
    ReviewPass.build (index + 1) (orderRevision order) (orderSignatures order) []

def planReworkOrder (budget : BudgetSnapshot) (orders : List ReworkOrder) : Except Failure ReworkDecision :=
  if orders.isEmpty then .error ⟨.value, "no rework order to plan"⟩
  else do
    let passes ← orderPasses orders
    planRework budget passes

theorem revisionState_current {bound current : Option String} :
    revisionState bound current = .current ↔ ∃ revision, bound = some revision ∧ current = some revision := by
  cases bound with
  | none => simp [revisionState]
  | some left =>
    cases current with
    | none => simp [revisionState]
    | some right => simp [revisionState, eq_comm]

theorem orderSignatures_nonempty (order : ReworkOrder) : orderSignatures order ≠ [] := by
  simp only [orderSignatures]
  split
  · simp
  · rename_i remarks
    exact fun empty => remarks (List.isEmpty_iff.mpr empty)

theorem join_cons_nonempty (separator first : String) (rest : List String) (nonempty : first ≠ "") :
    Text.join separator (first :: rest) ≠ "" := by
  unfold Text.join
  cases rest with
  | nil => simpa [String.intercalate_singleton] using nonempty
  | cons second tail => simp [String.intercalate_cons_cons, nonempty]

theorem orderRevision_nonempty (order : ReworkOrder) : orderRevision order ≠ "" := by
  unfold orderRevision
  split
  · intro empty
    simp only [String.append_eq_empty_iff] at empty
    exact absurd empty.1 (by decide)
  · rename_i some_revision
    cases sorted : order.revisions.insertionSort (fun left right => pairBefore left right = true) with
    | nil =>
      have length := List.length_insertionSort (fun left right => pairBefore left right = true) order.revisions
      rw [sorted] at length
      simp [List.length_eq_zero_iff.mp length.symm] at some_revision
    | cons first rest =>
      apply join_cons_nonempty
      intro empty
      simp only [String.append_eq_empty_iff] at empty
      exact absurd empty.1.2 (by decide)

theorem orderPass_ok (order : ReworkOrder) (index : Nat) :
    ∃ pass, ReviewPass.build (index + 1) (orderRevision order) (orderSignatures order) [] = .ok pass := by
  simp [ReviewPass.build, orderRevision_nonempty]

theorem ReviewPass.built {round : Nat} {sha : String} {blocking : List FindingSignature}
    {escalations : List EscalationViolation} {pass : ReviewPass}
    (made : ReviewPass.build round sha blocking escalations = .ok pass) :
    pass.sha = sha ∧ pass.blocking = blocking ∧ pass.escalations = escalations := by
  unfold ReviewPass.build at made
  split at made
  · cases made
    exact ⟨rfl, rfl, rfl⟩
  · cases made

/-- Every order is a pass with findings, so planning over orders never raises. -/
theorem orderPasses_ok (orders : List ReworkOrder) :
    ∃ passes, orderPasses orders = .ok passes ∧ passes.length = orders.length ∧
      ∀ pass ∈ passes, pass.blocking ≠ [] := by
  have each : ∀ item ∈ orders.zipIdx, ∃ pass,
      ReviewPass.build (item.2 + 1) (orderRevision item.1) (orderSignatures item.1) [] = .ok pass :=
    fun item _ => orderPass_ok item.1 item.2
  obtain ⟨passes, planned, length, origin⟩ := Outcome.mapM_ok each
  refine ⟨passes, planned, by simpa using length, fun pass member => ?_⟩
  obtain ⟨item, -, built⟩ := origin pass member
  rw [(ReviewPass.built built).2.1]
  exact orderSignatures_nonempty item.1

end DarkFactory
