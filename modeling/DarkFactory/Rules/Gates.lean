import Mathlib.Data.Finset.Basic
import DarkFactory.Changes.Records

namespace DarkFactory

def stageGates : Stage → Finset Gate
  | .specification => {.specification}
  | .planning => {.planning}
  | .construction => {.code}
  | .reviewVerification => {.review, .verification}
  | .release => {.release}

/-- Gates a route adds on top of the stage base set. -/
def routeExtraGates : Route → Stage → Finset Gate
  | .quick, _ => ∅
  | .standard, .specification | .architecture, .specification | .foundation, .specification => {.ui}
  | _, _ => ∅

def gateSatisfied (status : GateStatus) : Bool := status = .passed || status = .skipped

def humanGates : Finset Gate := {.specification, .ui, .review}

def allGates : Finset Gate := {.specification, .planning, .code, .ui, .review, .verification, .release}

def riskHumanGates : RiskClass → Finset Gate
  | .r0 => ∅
  | .r1 => {.ui}
  | .r2 => {.ui, .planning}
  | .r3 | .r4 => allGates

def requiredGates (route : Route) (stage : Stage) : Finset Gate :=
  stageGates stage ∪ routeExtraGates route stage

def requiredHumanGates (route : Route) (stage : Stage) (riskClass : RiskClass) : Finset Gate :=
  (humanGates ∪ riskHumanGates riskClass) ∩ requiredGates route stage

def gateOrder : List Gate := [.code, .planning, .release, .review, .specification, .ui, .verification]

/-- `sorted(gates, key=lambda gate: gate.value)`. -/
def sortedGates (gates : Finset Gate) : List Gate := gateOrder.filter (· ∈ gates)

def latestStatus (results : List GateResult) (gate : Gate) : Option GateStatus :=
  results.foldl (fun latest item => if item.gate = gate then some item.status else latest) none

def gateOpen (results : List GateResult) (gate : Gate) : Bool :=
  match latestStatus results gate with
  | some status => !gateSatisfied status
  | none => true

def unsatisfiedGates (route : Route) (stage : Stage) (results : List GateResult) : List Gate :=
  (sortedGates (requiredGates route stage)).filter (gateOpen results)

theorem mem_sortedGates (gates : Finset Gate) (gate : Gate) :
    gate ∈ sortedGates gates ↔ gate ∈ gates := by
  cases gate <;> simp [sortedGates, gateOrder]

theorem unsatisfiedGates_empty (route : Route) (stage : Stage) (results : List GateResult) :
    unsatisfiedGates route stage results = [] ↔
      ∀ gate ∈ requiredGates route stage, gateOpen results gate = false := by
  simp [unsatisfiedGates, List.filter_eq_nil_iff, mem_sortedGates]

theorem latestStatus_append (results : List GateResult) (item : GateResult) (gate : Gate) :
    latestStatus (results ++ [item]) gate =
      if item.gate = gate then some item.status else latestStatus results gate := by
  simp [latestStatus]

theorem latestStatus_mem {results : List GateResult} {gate : Gate} {status : GateStatus}
    (latest : latestStatus results gate = some status) :
    ∃ item ∈ results, item.gate = gate ∧ item.status = status := by
  induction results using List.reverseRecOn with
  | nil => simp [latestStatus] at latest
  | append_singleton results item ih =>
    rw [latestStatus_append] at latest
    split at latest
    · rename_i same
      cases latest
      exact ⟨item, by simp, same, rfl⟩
    · obtain ⟨found, member, own⟩ := ih latest
      exact ⟨found, by simp [member], own⟩

theorem latestStatus_isSome {results : List GateResult} {gate : Gate} {item : GateResult}
    (member : item ∈ results) (own : item.gate = gate) : ∃ status, latestStatus results gate = some status := by
  induction results using List.reverseRecOn with
  | nil => simp at member
  | append_singleton results last ih =>
    rw [latestStatus_append]
    by_cases same : last.gate = gate
    · exact ⟨last.status, by simp [same]⟩
    · rw [if_neg same]
      rcases List.mem_append.mp member with earlier | final
      · exact ih earlier
      · rw [List.mem_singleton.mp final] at own
        exact absurd own same

theorem gateOpen_of_satisfied {results : List GateResult} {gate : Gate} {item : GateResult}
    (satisfied : ∀ item ∈ results, gateSatisfied item.status = true) (member : item ∈ results)
    (own : item.gate = gate) : gateOpen results gate = false := by
  obtain ⟨status, latest⟩ := latestStatus_isSome member own
  obtain ⟨found, present, -, same⟩ := latestStatus_mem latest
  have closed := satisfied found present
  rw [same] at closed
  simp [gateOpen, latest, closed]

theorem gateOpen_of_unsatisfied {results : List GateResult}
    (unsatisfied : ∀ item ∈ results, gateSatisfied item.status = false) (gate : Gate) :
    gateOpen results gate = true := by
  unfold gateOpen
  cases latest : latestStatus results gate with
  | none => rfl
  | some status =>
    obtain ⟨found, present, -, same⟩ := latestStatus_mem latest
    have opened := unsatisfied found present
    rw [same] at opened
    simp [opened]

theorem requiredGates_nonempty (route : Route) (stage : Stage) : ∃ gate, gate ∈ requiredGates route stage := by
  cases stage with
  | specification => exact ⟨.specification, by cases route <;> decide⟩
  | planning => exact ⟨.planning, by cases route <;> decide⟩
  | construction => exact ⟨.code, by cases route <;> decide⟩
  | reviewVerification => exact ⟨.review, by cases route <;> decide⟩
  | release => exact ⟨.release, by cases route <;> decide⟩

theorem unsatisfiedGates_of_unsatisfied {results : List GateResult}
    (unsatisfied : ∀ item ∈ results, gateSatisfied item.status = false) (route : Route) (stage : Stage) :
    unsatisfiedGates route stage results ≠ [] := by
  intro none
  obtain ⟨gate, required⟩ := requiredGates_nonempty route stage
  have closed := (unsatisfiedGates_empty route stage results).mp none gate required
  rw [gateOpen_of_unsatisfied unsatisfied] at closed
  cases closed

end DarkFactory
