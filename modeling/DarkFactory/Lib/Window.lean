import Mathlib.Data.List.DropRight
import Mathlib.Tactic.Common

/-! A memory of the last entries of a log, as many as its capacity. -/

namespace Window

variable {α : Type}

def evict (capacity : Nat) : List α → List α
  | [] => []
  | oldest :: rest => if capacity < (oldest :: rest).length then evict capacity rest else oldest :: rest

def remember (capacity : Nat) (seen : List α) (entry : α) : List α := evict capacity (seen ++ [entry])

/-- Two equal entries have as many others between them as the memory holds. -/
def Spaced (capacity : Nat) (log : List α) : Prop :=
  ∀ before between after entry, log = before ++ entry :: (between ++ entry :: after) → capacity ≤ between.length

variable {capacity : Nat} {seen log : List α} {entry : α}

theorem evict_eq : evict capacity seen = seen.rtake capacity := by
  induction seen with
  | nil => simp [evict]
  | cons oldest rest ih =>
    unfold evict
    split
    · rename_i full
      have more : (oldest :: rest).length - capacity = rest.length - capacity + 1 := by
        simp only [List.length_cons] at full ⊢
        omega
      rw [ih, List.rtake, List.rtake, more, List.drop_succ_cons]
    · rename_i fits
      rw [List.rtake, Nat.sub_eq_zero_of_le (not_lt.mp fits), List.drop_zero]

/-- The memory of a log is its tail, and stays so when an entry comes. -/
theorem remember_eq : remember capacity (log.rtake capacity) entry = (log ++ [entry]).rtake capacity := by
  rw [remember, evict_eq]
  cases capacity with
  | zero => simp
  | succ capacity =>
    rw [List.rtake_concat_succ, List.rtake_concat_succ]
    congr 1
    rw [List.rtake_eq_reverse_take_reverse, List.rtake_eq_reverse_take_reverse, List.rtake_eq_reverse_take_reverse]
    simp [List.take_take]

theorem mem_rtake {before between : List α} (near : between.length < capacity) :
    entry ∈ (before ++ entry :: between).rtake capacity := by
  have start : (before ++ entry :: between).length - capacity ≤ before.length := by
    simp only [List.length_append, List.length_cons]
    omega
  rw [List.rtake, List.drop_append_of_le_length start]
  simp

theorem spaced_concat (spaced : Spaced capacity log) (fresh : entry ∉ log.rtake capacity) :
    Spaced capacity (log ++ [entry]) := by
  intro before between after repeated split
  cases after using List.reverseRecOn with
  | nil =>
    have ⟨same, here⟩ : log = before ++ repeated :: between ∧ entry = repeated := by
      rw [← List.cons_append, ← List.append_assoc] at split
      simpa using List.append_inj' split rfl
    subst same here
    exact not_lt.mp fun near => fresh (mem_rtake near)
  | append_singleton after last =>
    have same : log = before ++ repeated :: (between ++ repeated :: after) := by
      have parts : log ++ [entry] = (before ++ repeated :: (between ++ repeated :: after)) ++ [last] := by
        simpa using split
      exact (List.append_inj' parts rfl).1
    exact spaced before between after repeated same

end Window
