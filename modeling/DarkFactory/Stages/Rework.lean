import Mathlib.Data.List.Sort
import DarkFactory.Lib.Outcome
import DarkFactory.Policy.Escalation
import DarkFactory.Rules.Limits

namespace DarkFactory

/-- Identity of a blocking finding, stable across review passes. -/
structure FindingSignature where
  origin : FindingOrigin
  category : Option String
  file : Option String
  line : Option Nat
  deriving DecidableEq, Repr

def findingSignature (finding : Finding) : FindingSignature :=
  { origin := finding.origin, category := finding.category, file := finding.file, line := finding.line }

/-- The order of the tuples `(origin, category or "", file or "", line or 0)`. -/
def FindingSignature.before (left right : FindingSignature) : Bool :=
  let category (signature : FindingSignature) := signature.category.getD ""
  let file (signature : FindingSignature) := signature.file.getD ""
  let line (signature : FindingSignature) := signature.line.getD 0
  if left.origin.value ≠ right.origin.value then left.origin.value < right.origin.value
  else if category left ≠ category right then category left < category right
  else if file left ≠ file right then file left < file right
  else line left ≤ line right

def FindingSignature.render (signature : FindingSignature) : String :=
  let category := signature.category.getD "-"
  let file := signature.file.getD "-"
  let line := (signature.line.map toString).getD "-"
  s!"{signature.origin.value}/{category} {file}:{line}"

def sortedSignatures (signatures : List FindingSignature) : List FindingSignature :=
  signatures.insertionSort (fun left right => left.before right = true)

@[ext] structure ReviewPass where
  round : Nat
  sha : String
  blocking : List FindingSignature := []
  escalations : List EscalationViolation := []
  round_pos : 1 ≤ round
  sha_nonempty : sha ≠ ""

instance : DecidableEq ReviewPass := fun _ _ => decidable_of_iff _ ReviewPass.ext_iff.symm

def ReviewPass.build (round : Nat) (sha : String) (blocking : List FindingSignature)
    (escalations : List EscalationViolation) : Except Failure ReviewPass :=
  if valid : 1 ≤ round ∧ sha ≠ "" then
    .ok { round, sha, blocking, escalations, round_pos := valid.1, sha_nonempty := valid.2 }
  else .error ⟨.validation, "ReviewPass.round must be at least 1 and ReviewPass.sha non-empty"⟩

inductive ReworkOutcome | rework | blocked
  deriving DecidableEq, Repr

structure ReworkDecision where
  outcome : ReworkOutcome
  round : Option Nat
  maxRounds : Nat
  reason : String
  signatures : List FindingSignature
  deriving DecidableEq, Repr

def ReworkDecision.blocked (budget : BudgetSnapshot) (reason : String)
    (signatures : List FindingSignature) : ReworkDecision :=
  { outcome := .blocked, round := none, maxRounds := budget.maxReworkRounds, reason, signatures }

def sameSignatures (left right : List FindingSignature) : Bool :=
  left.all (right.contains ·) && right.all (left.contains ·)

/-- Why the loop cannot spend a round although the budget allows one. -/
def repeatedPass (previous : Option ReviewPass) (last : ReviewPass) (signatures : List FindingSignature) :
    Option String :=
  match previous with
  | none => none
  | some previous =>
    if previous.sha = last.sha then
      some (s!"rework did not produce a new commit: review pass {last.round} ran again " ++
        s!"at {last.sha}; the previous acceptance of that SHA stands, " ++ "re-review is impossible")
    else if sameSignatures previous.blocking signatures then
      some (s!"rework round {last.round - 1} did not change the set of blocking " ++
        s!"findings: the same {signatures.length} finding(s) repeat")
    else none

def planRework (budget : BudgetSnapshot) (passes : List ReviewPass) : Except Failure ReworkDecision :=
  match passes.getLast? with
  | none => .error ⟨.value, "no completed review pass in the history: " ++
      "the rework loop is planned after a failed review"⟩
  | some last =>
    let signatures := sortedSignatures last.blocking
    if signatures.isEmpty then
      .error ⟨.value, s!"review pass {last.round} at {last.sha} has no blocking findings: " ++
        "the rework loop is planned only for a failed review"⟩
    else
      match escalationStopReason last.escalations with
      | some reason => .ok (.blocked budget reason signatures)
      | none =>
        let nextRound := budget.usedReworkRounds + 1
        match reworkViolation budget nextRound with
        | some violation => .ok (.blocked budget violation.reason signatures)
        | none =>
          match repeatedPass passes.dropLast.getLast? last signatures with
          | some reason => .ok (.blocked budget reason signatures)
          | none => .ok
            { outcome := .rework
              round := some nextRound
              maxRounds := budget.maxReworkRounds
              reason := s!"rework round {nextRound}: fix {signatures.length} blocking finding(s) " ++
                s!"from review pass {last.round} at {last.sha}: " ++
                Text.join "; " (signatures.map FindingSignature.render)
              signatures }

theorem sortedSignatures_empty (signatures : List FindingSignature) :
    sortedSignatures signatures = [] ↔ signatures = [] := by
  rw [← List.length_eq_zero_iff, ← List.length_eq_zero_iff, sortedSignatures, List.length_insertionSort]

theorem planRework_ok (budget : BudgetSnapshot) {passes : List ReviewPass} {last : ReviewPass}
    (finished : passes.getLast? = some last) (findings : last.blocking ≠ []) :
    ∃ plan, planRework budget passes = .ok plan ∧
      (plan.outcome = .rework → plan.round = some (budget.usedReworkRounds + 1) ∧
        plan.maxRounds = budget.maxReworkRounds ∧ budget.usedReworkRounds < budget.maxReworkRounds) := by
  have nonempty : (sortedSignatures last.blocking).isEmpty = false := by
    rw [List.isEmpty_eq_false_iff, Ne, sortedSignatures_empty]
    exact findings
  simp only [planRework, finished, nonempty, Bool.false_eq_true, ↓reduceIte]
  cases escalationStopReason last.escalations with
  | some reason => exact ⟨_, rfl, by simp [ReworkDecision.blocked]⟩
  | none =>
    cases limit : reworkViolation budget (budget.usedReworkRounds + 1) with
    | some violation => exact ⟨_, rfl, by simp [ReworkDecision.blocked]⟩
    | none =>
      have granted := (reworkViolation_none _ _).mp limit
      cases repeatedPass passes.dropLast.getLast? last (sortedSignatures last.blocking) with
      | some reason => exact ⟨_, rfl, by simp [ReworkDecision.blocked]⟩
      | none => exact ⟨_, rfl, fun _ => ⟨rfl, rfl, granted.1⟩⟩

theorem planRework_unblocked (budget : BudgetSnapshot) {passes : List ReviewPass} {last : ReviewPass}
    (finished : passes.getLast? = some last) (findings : last.blocking = []) :
    ∃ failure, planRework budget passes = .error failure := by
  have empty : (sortedSignatures last.blocking).isEmpty = true := by
    rw [List.isEmpty_iff, sortedSignatures_empty]
    exact findings
  simp [planRework, finished, empty]

end DarkFactory
