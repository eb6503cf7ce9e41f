import Mathlib.Tactic.Common

/-! Lists joined by a separator are taken apart in one way only. -/

namespace Delimited

variable {α : Type} {separator : α} {left right front back : List α}

theorem cut_first (leftFree : separator ∉ left) (rightFree : separator ∉ right) :
    left ++ separator :: front = right ++ separator :: back ↔ left = right ∧ front = back := by
  induction left generalizing right with
  | nil =>
    cases right with
    | nil => simp
    | cons head tail =>
      simp only [List.mem_cons, not_or] at rightFree
      simp [rightFree.1]
  | cons head tail ih =>
    simp only [List.mem_cons, not_or] at leftFree
    cases right with
    | nil => simp [Ne.symm leftFree.1]
    | cons other rest =>
      simp only [List.mem_cons, not_or] at rightFree
      simp [ih leftFree.2 rightFree.2, and_assoc]

theorem cut_last (frontFree : separator ∉ front) (backFree : separator ∉ back) :
    left ++ separator :: front = right ++ separator :: back ↔ left = right ∧ front = back := by
  have reversed : front.reverse ++ separator :: left.reverse = back.reverse ++ separator :: right.reverse ↔
      front.reverse = back.reverse ∧ left.reverse = right.reverse :=
    cut_first (fun member => frontFree (List.mem_reverse.mp member))
      fun member => backFree (List.mem_reverse.mp member)
  rw [← List.reverse_inj, List.reverse_append, List.reverse_append]
  simpa [and_comm] using reversed

end Delimited
