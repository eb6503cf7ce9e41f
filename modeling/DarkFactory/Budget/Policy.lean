import DarkFactory.Changes.Records
import DarkFactory.Lib.Table
import DarkFactory.Scm.Agent
import Mathlib.Data.List.Sort
import Mathlib.Data.String.Basic

namespace DarkFactory

structure BudgetLimits where
  tokenBudget : Option Nat := none
  costBudget : Option Decimal := none
  deadline : Option Timestamp := none
  positive : tokenBudget ≠ some 0 := by decide
  deriving DecidableEq

def BudgetLimits.configured (limits : BudgetLimits) : Bool :=
  limits.tokenBudget.isSome || limits.costBudget.isSome || limits.deadline.isSome

structure RoleAllowance where
  role : Role
  limits : BudgetLimits
  deriving DecidableEq

def tighter {α : Type} (lt : α → α → Bool) : Option α → Option α → Option α
  | none, right => right
  | some left, none => some left
  | some left, some right => if lt left right then some left else some right

theorem tighter_mem {α : Type} {lt : α → α → Bool} (left right : Option α) :
    tighter lt left right = left ∨ tighter lt left right = right := by
  cases left with
  | none => exact Or.inr rfl
  | some left =>
    cases right with
    | none => exact Or.inl rfl
    | some right =>
      unfold tighter
      dsimp only
      split
      · exact Or.inl rfl
      · exact Or.inr rfl

def BudgetLimits.tightened (limits allowance : BudgetLimits) : BudgetLimits where
  tokenBudget := tighter (fun left right => left < right) limits.tokenBudget allowance.tokenBudget
  costBudget := tighter (fun left right => !right.le left) limits.costBudget allowance.costBudget
  deadline := tighter (fun left right => left < right) limits.deadline allowance.deadline
  positive := by
    rcases @tighter_mem _ (fun left right => decide (left < right)) limits.tokenBudget allowance.tokenBudget with
      same | same <;> rw [same]
    · exact limits.positive
    · exact allowance.positive

def allowanceBefore (first second : RoleAllowance) : Prop := first.role.value ≤ second.role.value

instance : DecidableRel allowanceBefore := fun _ _ => inferInstanceAs (Decidable (_ ≤ _))

def duplicateRoles (value : List RoleAllowance) : List Role :=
  (value.map RoleAllowance.role).dedup.filter fun role => 1 < (value.map RoleAllowance.role).count role

/-- At most one allowance a role, in the order of the role values. -/
def normalizeAllowances (value : List RoleAllowance) : Except String (List RoleAllowance) :=
  let duplicates := ((duplicateRoles value).map Role.value).insertionSort (· ≤ ·)
  if duplicates = [] then .ok (value.insertionSort allowanceBefore)
  else .error ("duplicate role allowances: " ++ ", ".intercalate duplicates)

theorem duplicateRoles_nil {value : List RoleAllowance} :
    duplicateRoles value = [] ↔ Table.Unique RoleAllowance.role value := by
  unfold duplicateRoles
  rw [List.filter_eq_nil_iff, Table.Unique, List.nodup_iff_count_le_one]
  constructor
  · intro single role
    by_cases listed : role ∈ value.map RoleAllowance.role
    · simpa using single role (List.mem_dedup.mpr listed)
    · rw [List.count_eq_zero_of_not_mem listed]
      omega
  · intro single role _
    simpa using single role

theorem normalizeAllowances_ok {value normalized : List RoleAllowance} :
    normalizeAllowances value = .ok normalized ↔
      Table.Unique RoleAllowance.role value ∧ value.insertionSort allowanceBefore = normalized := by
  rw [← duplicateRoles_nil]
  unfold normalizeAllowances
  dsimp only
  cases duplicateRoles value with
  | nil => simp
  | cons role rest =>
    have some_left : ((role :: rest).map Role.value).insertionSort (· ≤ ·) ≠ [] := by
      rw [ne_eq, ← List.length_eq_zero_iff, List.length_insertionSort]
      simp
    rw [if_neg some_left]
    simp

theorem normalizeAllowances_idem {value normalized : List RoleAllowance}
    (done : normalizeAllowances value = .ok normalized) : normalizeAllowances normalized = .ok normalized := by
  obtain ⟨unique, rfl⟩ := normalizeAllowances_ok.mp done
  have sorted : (value.insertionSort allowanceBefore).Pairwise allowanceBefore := by
    have total : Std.Total allowanceBefore := ⟨fun first second => le_total first.role.value second.role.value⟩
    have trans : IsTrans RoleAllowance allowanceBefore := ⟨fun _ _ _ => le_trans⟩
    exact List.pairwise_insertionSort _ _
  refine normalizeAllowances_ok.mpr ⟨?_, sorted.insertionSort_eq⟩
  exact ((List.perm_insertionSort _ value).map RoleAllowance.role).nodup_iff.mpr unique

structure BudgetPolicy where
  runLimits : BudgetLimits := {}
  roleAllowances : List RoleAllowance := []
  normalized : normalizeAllowances roleAllowances = .ok roleAllowances := by decide

def BudgetPolicy.ofAllowances (runLimits : BudgetLimits) (value : List RoleAllowance) : Except String BudgetPolicy :=
  match done : normalizeAllowances value with
  | .ok roleAllowances => .ok { runLimits, roleAllowances, normalized := normalizeAllowances_idem done }
  | .error message => .error message

/-- The limits of a role: its allowance only tightens those of the run. -/
def BudgetPolicy.limitsFor (policy : BudgetPolicy) (role : Role) : BudgetLimits :=
  match Table.find RoleAllowance.role role policy.roleAllowances with
  | none => policy.runLimits
  | some allowance => policy.runLimits.tightened allowance.limits

end DarkFactory
