import Mathlib.Data.List.Dedup
import Mathlib.Data.List.Perm.Basic
import Mathlib.Tactic.Common

/-! A list taken apart by a key, and put together again key by key. -/

namespace Groups

variable {κ α : Type} [DecidableEq κ] {key : α → κ} {keys : List κ} {items : List α} {k : κ}

def group (key : α → κ) (items : List α) (k : κ) : List α := items.filter fun item => key item = k

theorem group_keys : ∀ item ∈ group key items k, key item = k := by
  intro item member
  exact of_decide_eq_true (List.mem_filter.mp member).2

theorem mem_group {item : α} : item ∈ group key items k ↔ item ∈ items ∧ key item = k := by
  rw [group, List.mem_filter, decide_eq_true_eq]

theorem group_append {more : List α} : group key (items ++ more) k = group key items k ++ group key more k :=
  List.filter_append _ _

theorem group_map {β : Type} {f : β → α} {others : List β} :
    group key (others.map f) k = (group (fun other => key (f other)) others k).map f := by
  rw [group, List.filter_map]
  rfl

/-- The groups of all keys are the list in another order. -/
theorem groups_perm (distinct : keys.Nodup) (covers : ∀ item ∈ items, key item ∈ keys) :
    (keys.flatMap (group key items)).Perm items := by
  induction keys generalizing items with
  | nil =>
    have none_ : items = [] := List.eq_nil_iff_forall_not_mem.mpr fun item member => List.not_mem_nil (covers item member)
    rw [none_]
    exact List.Perm.refl _
  | cons first rest ih =>
    rw [List.nodup_cons] at distinct
    let others := items.filter fun item => !decide (key item = first)
    have left : ∀ item ∈ others, key item ∈ rest := by
      intro item member
      obtain ⟨inside, apart⟩ := List.mem_filter.mp member
      have differs : key item ≠ first := by simpa using apart
      exact (List.mem_cons.mp (covers item inside)).resolve_left differs
    have same : rest.flatMap (group key items) = rest.flatMap (group key others) := by
      apply List.flatMap_congr
      intro k member
      have apart : k ≠ first := fun same => distinct.1 (same ▸ member)
      rw [group, group, List.filter_filter]
      apply List.filter_congr
      intro item _
      by_cases own : key item = k
      · simp [own, apart]
      · simp [own]
    rw [List.flatMap_cons, same]
    exact ((ih distinct.2 left).append_left _).trans (List.filter_append_perm _ items)

theorem group_flatMap {given : κ → List α} (distinct : keys.Nodup) (own : ∀ k, ∀ item ∈ given k, key item = k) :
    group key (keys.flatMap given) k = if k ∈ keys then given k else [] := by
  induction keys with
  | nil => rfl
  | cons first rest ih =>
    rw [List.nodup_cons] at distinct
    rw [List.flatMap_cons, group_append, ih distinct.2]
    by_cases here : k = first
    · subst here
      have all : group key (given k) k = given k := List.filter_eq_self.mpr fun item member => by simpa using own k item member
      rw [all, if_neg distinct.1, if_pos List.mem_cons_self, List.append_nil]
    · have none_ : group key (given first) k = [] := by
        rw [group, List.filter_eq_nil_iff]
        intro item member
        simpa [own first item member] using Ne.symm here
      rw [none_, List.nil_append]
      simp [here]

end Groups
