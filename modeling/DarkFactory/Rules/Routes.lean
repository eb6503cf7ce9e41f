import DarkFactory.Changes.Records

namespace DarkFactory

def stageSequence : List Stage := [.specification, .planning, .construction, .reviewVerification, .release]

structure RouteProfile where
  route : Route
  stages : List Stage
  minRiskClass : RiskClass := .r0
  maxRiskClass : RiskClass := .r4
  deriving DecidableEq, Repr

def routeProfile : Route → RouteProfile
  | .quick => { route := .quick, stages := stageSequence, minRiskClass := .r0, maxRiskClass := .r1 }
  | .standard => { route := .standard, stages := stageSequence }
  | .architecture =>
    { route := .architecture, stages := stageSequence, minRiskClass := .r2, maxRiskClass := .r4 }
  | .foundation =>
    { route := .foundation, stages := stageSequence, minRiskClass := .r3, maxRiskClass := .r4 }

/-- `self.stages[0]`; no profile has an empty sequence. -/
def RouteProfile.initialStage (profile : RouteProfile) : Stage := profile.stages.headD .specification

def RouteProfile.nextStage (profile : RouteProfile) (stage : Stage) : Option Stage :=
  match profile.stages.idxOf? stage with
  | none => none
  | some index => profile.stages[index + 1]?

def riskOrder : RiskClass → Nat
  | .r0 => 0
  | .r1 => 1
  | .r2 => 2
  | .r3 => 3
  | .r4 => 4

def routeAllowsRisk (route : Route) (riskClass : RiskClass) : Bool :=
  riskOrder (routeProfile route).minRiskClass ≤ riskOrder riskClass &&
    riskOrder riskClass ≤ riskOrder (routeProfile route).maxRiskClass

/-- Position of the stage on every route. -/
def stageIndex : Stage → Nat
  | .specification => 0
  | .planning => 1
  | .construction => 2
  | .reviewVerification => 3
  | .release => 4

@[simp] theorem routeProfile_stages (route : Route) : (routeProfile route).stages = stageSequence := by
  cases route <;> rfl

@[simp] theorem initialStage_specification (route : Route) :
    (routeProfile route).initialStage = .specification := by
  cases route <;> rfl

theorem stageIndex_injective {left right : Stage} (same : stageIndex left = stageIndex right) :
    left = right := by
  cases left <;> cases right <;> first | rfl | cases same

/-- The successor on a route is the stage one place further, and only release has none. -/
theorem nextStage_index (route : Route) (stage : Stage) :
    (∃ next, (routeProfile route).nextStage stage = some next ∧ stageIndex next = stageIndex stage + 1) ∨
      (stage = .release ∧ (routeProfile route).nextStage stage = none) := by
  cases route <;> cases stage <;> decide

theorem nextStage_some {route : Route} {stage next : Stage}
    (step : (routeProfile route).nextStage stage = some next) : stageIndex next = stageIndex stage + 1 := by
  rcases nextStage_index route stage with ⟨found, same, index⟩ | ⟨-, none⟩
  · rw [same] at step
    cases step
    exact index
  · rw [none] at step
    cases step

theorem mem_stageSequence (stage : Stage) : stage ∈ stageSequence := by
  cases stage <;> decide

theorem stageSequence_ordered : stageSequence.Pairwise fun left right => stageIndex left < stageIndex right := by
  decide

theorem find_first {p : Stage → Bool} {stage : Stage} {stages : List Stage}
    (ordered : stages.Pairwise fun left right => stageIndex left < stageIndex right)
    (found : stages.find? p = some stage) :
    ∀ other ∈ stages, p other = true → stageIndex stage ≤ stageIndex other := by
  induction stages with
  | nil => simp at found
  | cons head tail ih =>
    rw [List.pairwise_cons] at ordered
    intro other member holds
    by_cases here : p head = true
    · rw [List.find?_cons_of_pos here, Option.some.injEq] at found
      subst found
      rcases List.mem_cons.mp member with rfl | later
      · exact Nat.le_refl _
      · exact Nat.le_of_lt (ordered.1 other later)
    · rw [List.find?_cons_of_neg here] at found
      rcases List.mem_cons.mp member with rfl | later
      · exact absurd holds here
      · exact ih ordered.2 found other later holds

theorem find_stageSequence {p : Stage → Bool} {stage : Stage} :
    stageSequence.find? p = some stage ↔
      p stage = true ∧ ∀ other, p other = true → stageIndex stage ≤ stageIndex other := by
  constructor
  · intro found
    refine ⟨List.find?_some found, ?_⟩
    intro other holds
    exact find_first stageSequence_ordered found other (mem_stageSequence other) holds
  · rintro ⟨holds, least⟩
    cases found : stageSequence.find? p with
    | none => exact absurd holds (List.find?_eq_none.mp found stage (mem_stageSequence stage))
    | some first =>
      have before := find_first stageSequence_ordered found stage (mem_stageSequence stage) holds
      have after := least first (List.find?_some found)
      rw [stageIndex_injective (Nat.le_antisymm before after)]
end DarkFactory
