import Mathlib.Logic.Relation
import DarkFactory.Lib.Table

/-! Rows that keep what they are while their status moves along the transitions of its machine. -/

namespace Lifecycle

open Relation

variable {α β γ σ : Type} (keep : α → β) (status : α → σ) (step : σ → σ → Prop)

def Moves (before after : List α) : Prop :=
  ∃ f : α → α, after = before.map f ∧
    ∀ row ∈ before, keep (f row) = keep row ∧ ReflTransGen step (status row) (status (f row))

/-- Every row is still there, at a status it could move to. There may be new ones. -/
def Carried (before after : List α) : Prop :=
  ∀ row ∈ before, ∃ later ∈ after, keep later = keep row ∧ ReflTransGen step (status row) (status later)

/-- At most one row of a group is live. -/
def Exclusive (group : β → γ) (live : σ → Prop) (rows : List α) : Prop :=
  ∀ row ∈ rows, ∀ other ∈ rows, live (status row) → live (status other) →
    group (keep row) = group (keep other) → row = other

variable {keep status step} {rows before after later : List α}

theorem Moves.refl : Moves keep status step rows rows :=
  ⟨id, by simp, fun _ _ => ⟨rfl, .refl⟩⟩

theorem Moves.trans (first : Moves keep status step before after) (second : Moves keep status step after later) :
    Moves keep status step before later := by
  obtain ⟨f, rfl, moved⟩ := first
  obtain ⟨g, rfl, again⟩ := second
  refine ⟨g ∘ f, by simp, ?_⟩
  intro row member
  obtain ⟨kept, path⟩ := moved row member
  obtain ⟨kept', path'⟩ := again (f row) (List.mem_map_of_mem member)
  exact ⟨kept'.trans kept, path.trans path'⟩

theorem Moves.carried (moves : Moves keep status step before after) : Carried keep status step before after := by
  obtain ⟨f, rfl, moved⟩ := moves
  intro row member
  exact ⟨f row, List.mem_map_of_mem member, moved row member⟩

theorem Moves.update {κ : Type} [DecidableEq κ] {key : α → κ} {k : κ} {f : α → α}
    (moved : ∀ row ∈ rows, key row = k → keep (f row) = keep row ∧ ReflTransGen step (status row) (status (f row))) :
    Moves keep status step rows (Table.update key k f rows) := by
  refine ⟨fun row => if key row = k then f row else row, rfl, ?_⟩
  intro row member
  dsimp only
  split
  · rename_i here
    exact moved row member here
  · exact ⟨rfl, .refl⟩

theorem Moves.unique {κ : Type} {key : α → κ} (moves : Moves keep status step before after)
    (keyed : ∀ row other, keep row = keep other → key row = key other) (unique : Table.Unique key before) :
    Table.Unique key after := by
  obtain ⟨f, rfl, moved⟩ := moves
  have same : (before.map f).map key = before.map key := by
    rw [List.map_map]
    refine List.map_congr_left fun row member => ?_
    exact keyed (f row) row (moved row member).1
  rw [Table.Unique, same]
  exact unique

/-- Moves that bring nothing to life leave at most one live row where there was at most one. -/
theorem Moves.exclusive {group : β → γ} {live : σ → Prop} (moves : Moves keep status step before after)
    (falls : ∀ s t, step s t → live t → live s) (exclusive : Exclusive keep status group live before) :
    Exclusive keep status group live after := by
  have reaches (s t : σ) (path : ReflTransGen step s t) : live t → live s := by
    induction path with
    | refl => exact id
    | tail _ last ih => exact fun alive => ih (falls _ _ last alive)
  obtain ⟨f, rfl, moved⟩ := moves
  intro row member other listed alive alive' same
  obtain ⟨old, there, rfl⟩ := List.mem_map.mp member
  obtain ⟨held, present, rfl⟩ := List.mem_map.mp listed
  obtain ⟨kept, path⟩ := moved old there
  obtain ⟨kept', path'⟩ := moved held present
  rw [kept, kept'] at same
  rw [exclusive old there held present (reaches _ _ path alive) (reaches _ _ path' alive') same]

theorem Exclusive.append {group : β → γ} {live : σ → Prop} {row : α}
    (exclusive : Exclusive keep status group live rows)
    (alone : ∀ other ∈ rows, live (status other) → group (keep other) ≠ group (keep row)) :
    Exclusive keep status group live (rows ++ [row]) := by
  intro first member second listed alive alive' same
  rcases List.mem_append.mp member with old | new
  · rcases List.mem_append.mp listed with old' | new'
    · exact exclusive first old second old' alive alive' same
    · obtain rfl := List.mem_singleton.mp new'
      exact absurd same (alone first old alive)
  · obtain rfl := List.mem_singleton.mp new
    rcases List.mem_append.mp listed with old' | new'
    · exact absurd same.symm (alone second old' alive')
    · exact (List.mem_singleton.mp new').symm

theorem Carried.refl : Carried keep status step rows rows :=
  fun row member => ⟨row, member, rfl, .refl⟩

theorem Carried.trans (first : Carried keep status step before after)
    (second : Carried keep status step after later) : Carried keep status step before later := by
  intro row member
  obtain ⟨next, listed, kept, path⟩ := first row member
  obtain ⟨last, there, kept', path'⟩ := second next listed
  exact ⟨last, there, kept'.trans kept, path.trans path'⟩

theorem Carried.of_subset (subset : rows ⊆ after) : Carried keep status step rows after :=
  fun row member => ⟨row, subset member, rfl, .refl⟩

theorem final {s t : σ} (stuck : ∀ next, ¬ step s next) (path : ReflTransGen step s t) : t = s := by
  cases path.cases_head with
  | inl same => exact same.symm
  | inr first =>
    obtain ⟨next, away, -⟩ := first
    exact absurd away (stuck next)

end Lifecycle
