import DarkFactory.Changes.Records

namespace DarkFactory

inductive LimitRule | reworkLimit | tokenBudget | costBudget | deadline
  deriving DecidableEq, Repr

structure LimitViolation where
  rule : LimitRule
  reason : String
  deriving DecidableEq, Repr

def reworkViolation (budget : BudgetSnapshot) (requestedRound : Nat) : Option LimitViolation :=
  if budget.reworkExhausted then
    some ⟨.reworkLimit,
      s!"rework limit exhausted: {budget.usedReworkRounds}/{budget.maxReworkRounds} rounds used"⟩
  else if budget.maxReworkRounds < requestedRound then
    some ⟨.reworkLimit,
      s!"rework round {requestedRound} exceeds the limit of {budget.maxReworkRounds}"⟩
  else none

def tokenBudgetViolation (budget : BudgetSnapshot) : Option LimitViolation :=
  if budget.tokenBudgetExhausted then
    some ⟨.tokenBudget,
      s!"token budget exhausted: {budget.tokensUsed}/{Text.shown (budget.tokenBudget.map toString)}"⟩
  else none

def costBudgetViolation (budget : BudgetSnapshot) : Option LimitViolation :=
  if budget.costBudgetExhausted then
    some ⟨.costBudget,
      s!"cost budget exhausted: {budget.costUsed.text}/{Text.shown (budget.costBudget.map Decimal.text)}"⟩
  else none

def deadlineViolation (budget : BudgetSnapshot) (now : Timestamp) : Option LimitViolation :=
  match budget.deadline with
  | none => none
  | some deadline =>
    if deadline < now then some ⟨.deadline, s!"deadline {Text.isoformat deadline} passed"⟩ else none

/-- The limits that block further autonomous work, in the order they are reported. -/
def continuationViolations (budget : BudgetSnapshot) (now : Timestamp) : List LimitViolation :=
  (tokenBudgetViolation budget).toList ++ (costBudgetViolation budget).toList ++
    (deadlineViolation budget now).toList

theorem reworkViolation_none (budget : BudgetSnapshot) (requested : Nat) :
    reworkViolation budget requested = none ↔
      budget.usedReworkRounds < budget.maxReworkRounds ∧ requested ≤ budget.maxReworkRounds := by
  unfold reworkViolation BudgetSnapshot.reworkExhausted
  simp only [decide_eq_true_eq]
  split
  · simp; omega
  · split <;> simp <;> omega

/-- Work goes on exactly while tokens and cost stay under their limits and the deadline holds. -/
theorem continuationViolations_empty (budget : BudgetSnapshot) (now : Timestamp) :
    continuationViolations budget now = [] ↔
      budget.tokenBudgetExhausted = false ∧ budget.costBudgetExhausted = false ∧
        ∀ deadline, budget.deadline = some deadline → now ≤ deadline := by
  unfold continuationViolations tokenBudgetViolation costBudgetViolation deadlineViolation
  cases budget.tokenBudgetExhausted <;> cases budget.costBudgetExhausted <;>
    cases budget.deadline <;> simp

end DarkFactory
