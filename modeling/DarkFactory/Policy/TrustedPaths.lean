import DarkFactory.Policy.Risk
import DarkFactory.Workspace.Paths

namespace DarkFactory

/-- The segments a scope item names in the repository; a blank item and an absolute path name none. -/
def repositorySegments (item : String) : Option (List DocText) :=
  let text := stripText item.toList
  if text = [] || text.head? = some '/' then none else some (pathSegments text)

def isDirectory (entry : String) : Bool := entry.toList.getLast? = some '/'

/-- The segments are those of the entry, lie beneath it where it is a directory, or are a directory that contains it. -/
def Covers (segments : List DocText) (entry : String) : Prop :=
  segments <+: pathSegments entry.toList ∨ isDirectory entry = true ∧ pathSegments entry.toList <+: segments

instance (segments : List DocText) (entry : String) : Decidable (Covers segments entry) :=
  inferInstanceAs (Decidable (_ ∨ _ ∧ _))

/-- The item is, however it is spelled, a path of the trusted layer or a directory above one. -/
def TouchesTrusted (item : String) : Prop :=
  ∃ segments, repositorySegments item = some segments ∧ ∃ entry ∈ trustedChangePaths, Covers segments entry

/-- The item begins with an entry of the table as it is written there, or with a dot, a slash and the entry. -/
def SpelledTrusted (item : String) : Prop :=
  ∃ entry ∈ trustedChangePaths, entry.toList <+: stripText item.toList ∨ "./".toList ++ entry.toList <+: stripText item.toList

def ImplementationContract.Touches (contract : ImplementationContract) (named : String → Prop) : Prop :=
  ∃ item ∈ contract.scope.inScope, named item

section Spelling

variable {item : String}

theorem trustedChangePaths_plain : ∀ entry ∈ trustedChangePaths, ¬ "./".toList <+: entry.toList ∧ "./".toList.length ≤ entry.toList.length := by
  decide +kernel

theorem isTrustedChange_iff : isTrustedChange item = true ↔ SpelledTrusted item := by
  have stripped : (Text.strip item).toList = stripText item.toList := String.toList_ofList
  unfold isTrustedChange SpelledTrusted Text.removePrefix Text.startsWith
  rw [List.any_eq_true]
  refine exists_congr fun entry => and_congr_right fun listed => ?_
  obtain ⟨plain, long⟩ := trustedChangePaths_plain entry listed
  rw [List.isPrefixOf_iff_prefix, stripped]
  by_cases dotted : "./".toList <+: stripText item.toList
  · obtain ⟨rest, shape⟩ := dotted
    have taken : "./".toList.isPrefixOf (stripText item.toList) = true := by
      rw [List.isPrefixOf_iff_prefix]
      exact ⟨rest, shape⟩
    rw [if_pos taken, String.toList_ofList, ← shape, List.drop_left, List.prefix_append_right_inj, iff_or_self]
    intro front
    exact absurd (List.prefix_of_prefix_length_le (List.prefix_append _ _) front long) plain
  · have kept : ¬ "./".toList.isPrefixOf (stripText item.toList) = true := by
      rw [List.isPrefixOf_iff_prefix]
      exact dotted
    rw [if_neg kept, stripped, iff_self_or]
    exact fun front => absurd ((List.prefix_append _ _).trans front) dotted

end Spelling

section Classification

variable {contract : ImplementationContract} {route : Route}

theorem riskOrder_le (riskClass : RiskClass) : riskOrder riskClass ≤ 4 ∧ (riskOrder riskClass = 4 ↔ riskClass = .r4) := by
  cases riskClass <;> decide

theorem classifyRisk_r4 (facts : RiskFacts) : riskOrder (classifyRisk facts) = 4 ↔ facts.factorySelfModification = true := by
  unfold classifyRisk
  by_cases modifies : facts.factorySelfModification = true
  · simp [modifies, riskOrder]
  · rw [if_neg modifies]
    split
    · simp [modifies, riskOrder]
    · split
      · simp [modifies, riskOrder]
      · split <;> simp [modifies, riskOrder]

theorem routeFloor_lt (route : Route) : riskOrder (routeProfile route).minRiskClass < 4 := by
  cases route <;> decide

/-- The class of an approved contract is R4 where the contract declares it or an item is spelled like the table. -/
theorem effectiveChangeRiskClass_r4 (approved : contract.approval.isSome = true) :
    effectiveChangeRiskClass (some contract) route = .r4 ↔ contract.riskClass = .r4 ∨ contract.Touches SpelledTrusted := by
  have floor := routeFloor_lt route
  have declared := riskOrder_le contract.riskClass
  have facts := (riskOrder_le (classifyRisk (riskFacts contract))).1
  have found : riskOrder (classifyRisk (riskFacts contract)) = 4 ↔ contract.Touches SpelledTrusted := by
    rw [classifyRisk_r4, riskFacts, List.any_eq_true]
    exact exists_congr fun item => and_congr_right fun _ => isTrustedChange_iff
  rw [← (riskOrder_le _).2, effectiveChangeRiskClass, if_pos approved, effectiveRiskClass, riskOrder_riskMax, riskOrder_riskMax, ← found, ← declared.2]
  omega

end Classification

/-- An approved contract that touches the trusted layer is R4 exactly where it declares R4 or spells some item like the
    table. -/
theorem self_modification_r4_iff (contract : ImplementationContract) (route : Route)
    (approved : contract.approval.isSome = true) :
    (contract.Touches TouchesTrusted → effectiveChangeRiskClass (some contract) route = .r4) ↔
      (contract.Touches TouchesTrusted → contract.riskClass = .r4 ∨ contract.Touches SpelledTrusted) :=
  imp_congr_right fun _ => effectiveChangeRiskClass_r4 approved

section Scene

def scopedContract (item : String) : ImplementationContract :=
  { id := "ic-1", scope := { inScope := [item] }, riskClass := .r1, budget := { maxAutonomousIterations := 3 }
    approval := some { approvedBy := .product, decidedAt := 0 } }

theorem classifier_change_r4 : effectiveChangeRiskClass (some (scopedContract "./src/dark_factory/changes/risk.py")) .quick =
    .r4 := by
  refine (self_modification_r4_iff _ .quick rfl).mpr (fun _ => Or.inr ?_) ?_
  · exact ⟨_, List.mem_singleton_self _, "src/dark_factory/changes/risk.py", by decide +kernel, by decide +kernel⟩
  · exact ⟨_, List.mem_singleton_self _, _, rfl, "src/dark_factory/changes/risk.py", by decide +kernel, by decide +kernel⟩

/-- The policy directory without its slash at the end stays at the declared class. -/
theorem policy_directory_unclassified : ¬ ∀ contract route, contract.approval.isSome = true →
    contract.Touches TouchesTrusted → effectiveChangeRiskClass (some contract) route = .r4 := by
  intro always
  have light : effectiveChangeRiskClass (some (scopedContract "src/dark_factory/orchestration/policy")) .quick ≠ .r4 := by
    decide +kernel
  refine light (always _ _ rfl ⟨_, List.mem_singleton_self _, _, rfl, "src/dark_factory/orchestration/policy/", ?_, ?_⟩)
  · decide +kernel
  · decide +kernel

end Scene

end DarkFactory
