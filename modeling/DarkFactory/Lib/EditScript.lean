import Mathlib.Data.List.Basic

/-! Edit scripts over any alphabet: what they read, what they write, and how much they insert and delete. -/

inductive Edit (α : Type)
  | keep (item : α)
  | delete (item : α)
  | insert (item : α)
  deriving DecidableEq, Repr

namespace Edit

variable {α : Type}

def changes : Edit α → Bool
  | .keep _ => false
  | _ => true

def source (script : List (Edit α)) : List α :=
  script.filterMap fun
    | .keep item | .delete item => some item
    | .insert _ => none

def target (script : List (Edit α)) : List α :=
  script.filterMap fun
    | .keep item | .insert item => some item
    | .delete _ => none

def deleted (script : List (Edit α)) : List α :=
  script.filterMap fun
    | .delete item => some item
    | _ => none

def inserted (script : List (Edit α)) : List α :=
  script.filterMap fun
    | .insert item => some item
    | _ => none

variable {script : List (Edit α)}

theorem length_balance (script : List (Edit α)) :
    (inserted script).length + (source script).length = (deleted script).length + (target script).length := by
  induction script with
  | nil => rfl
  | cons edit rest ih =>
    unfold inserted source deleted target at ih ⊢
    cases edit with
    | keep item =>
      simp only [List.filterMap_cons, List.length_cons]
      omega
    | delete item =>
      simp only [List.filterMap_cons, List.length_cons]
      omega
    | insert item =>
      simp only [List.filterMap_cons, List.length_cons]
      omega

theorem inserted_changes : inserted (script.filter changes) = inserted script := by
  unfold inserted
  rw [List.filterMap_filter]
  apply List.filterMap_congr
  intro edit _
  cases edit <;> rfl

theorem deleted_changes : deleted (script.filter changes) = deleted script := by
  unfold deleted
  rw [List.filterMap_filter]
  apply List.filterMap_congr
  intro edit _
  cases edit <;> rfl

section Wholesale

variable [DecidableEq α]

/-- The script that keeps everything or replaces everything. -/
def wholesale (before after : List α) : List (Edit α) :=
  if before = after then before.map .keep else before.map .delete ++ after.map .insert

theorem source_wholesale (before after : List α) : source (wholesale before after) = before := by
  unfold wholesale source
  by_cases same : before = after
  · rw [if_pos same, List.filterMap_map]
    exact List.filterMap_some
  · rw [if_neg same, List.filterMap_append, List.filterMap_map, List.filterMap_map]
    simp

theorem target_wholesale (before after : List α) : target (wholesale before after) = after := by
  unfold wholesale target
  by_cases same : before = after
  · rw [if_pos same, List.filterMap_map, ← same]
    exact List.filterMap_some
  · rw [if_neg same, List.filterMap_append, List.filterMap_map, List.filterMap_map]
    simp

theorem wholesale_changes (before after : List α) :
    (wholesale before after).filter changes = if before = after then [] else wholesale before after := by
  unfold wholesale
  by_cases same : before = after
  · simp [if_pos same, changes]
  · rw [if_neg same, if_neg same]
    apply List.filter_eq_self.mpr
    intro edit member
    rcases List.mem_append.mp member with dropped | added
    · obtain ⟨item, -, rfl⟩ := List.mem_map.mp dropped
      rfl
    · obtain ⟨item, -, rfl⟩ := List.mem_map.mp added
      rfl

end Wholesale

end Edit
