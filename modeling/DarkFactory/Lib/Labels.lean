import Mathlib.Data.List.Induction
import Mathlib.Data.List.Nodup
import Mathlib.Tactic.Common

/-! Labels of the items of a list: by the number of an item's occurrence, and by its position where none is declared. -/

namespace Labels

section Occurrences

variable {α β : Type} [BEq α] {items : List α} {item : α} {number : Nat}

/-- Each item with the number of its occurrence, counted from one. -/
def occurrences (items : List α) : List (α × Nat) :=
  items.zipIdx.map fun (item, index) => (item, (items.take (index + 1)).count item)

variable [LawfulBEq α]

theorem occurrences_concat (items : List α) (item : α) :
    occurrences (items ++ [item]) = occurrences items ++ [(item, items.count item + 1)] := by
  unfold occurrences
  rw [List.zipIdx_append, List.map_append]
  congr 1
  · apply List.map_congr_left
    rintro ⟨other, index⟩ member
    have within : index < items.length := by
      have bound := List.snd_lt_of_mem_zipIdx member
      omega
    dsimp only
    rw [List.take_append_of_le_length (by omega)]
  · have whole : (items ++ [item]).take (items.length + 1) = items ++ [item] := List.take_of_length_le (by simp)
    simp [whole]

theorem mem_occurrences : (item, number) ∈ occurrences items ↔ 0 < number ∧ number ≤ items.count item := by
  induction items using List.reverseRecOn with
  | nil =>
    show (item, number) ∈ [] ↔ _
    simp only [List.not_mem_nil, List.count_nil, false_iff]
    omega
  | append_singleton front last ih =>
    rw [occurrences_concat, List.mem_append, ih, List.mem_singleton, Prod.mk.injEq, List.count_append, List.count_singleton]
    by_cases same : last = item
    · subst same
      simp only [beq_self_eq_true, ↓reduceIte, true_and]
      omega
    · have other : item ≠ last := fun equal => same equal.symm
      simp [same, other]

theorem occurrences_nodup (items : List α) : (occurrences items).Nodup := by
  induction items using List.reverseRecOn with
  | nil => exact List.nodup_nil
  | append_singleton front last ih =>
    rw [occurrences_concat]
    apply List.Nodup.append ih (List.nodup_singleton _)
    intro counted early late
    rw [List.mem_singleton.mp late, mem_occurrences] at early
    omega

/-- Two occurrences with one label are one occurrence. -/
theorem occurrence_labels_nodup (label : α × Nat → β) :
    ((occurrences items).map label).Nodup ↔
      ∀ first ∈ occurrences items, ∀ second ∈ occurrences items, label first = label second → first = second :=
  List.nodup_map_iff_inj_on (occurrences_nodup items)

end Occurrences

section Positions

variable {ι α : Type} {standard : ι → α} {items : List (ι × Option α)}

def label (standard : ι → α) (item : ι × Option α) : α := item.2.getD (standard item.1)

/-- No label is declared twice, and none is declared that is the standard label of an item without one. -/
structure Apart (standard : ι → α) (items : List (ι × Option α)) : Prop where
  declared : (items.filterMap Prod.snd).Nodup
  generated : ∀ position, (position, none) ∈ items → standard position ∉ items.filterMap Prod.snd

theorem mem_declared {name : α} : name ∈ items.filterMap Prod.snd ↔ ∃ position, (position, some name) ∈ items := by
  rw [List.mem_filterMap]
  constructor
  · rintro ⟨⟨position, named⟩, member, declared⟩
    dsimp only at declared
    rw [declared] at member
    exact ⟨position, member⟩
  · rintro ⟨position, member⟩
    exact ⟨(position, some name), member, rfl⟩

/-- An item has the label either because it declares it or because it stands where the label is the standard one. -/
theorem mem_labels {name : α} : name ∈ items.map (label standard) ↔
    name ∈ items.filterMap Prod.snd ∨ ∃ position, (position, none) ∈ items ∧ standard position = name := by
  rw [mem_declared, List.mem_map]
  constructor
  · rintro ⟨⟨position, named⟩, member, labelled⟩
    cases named with
    | none => exact .inr ⟨position, member, labelled⟩
    | some declared =>
      have same : declared = name := labelled
      rw [same] at member
      exact .inl ⟨position, member⟩
  · rintro (⟨position, member⟩ | ⟨position, member, labelled⟩)
    · exact ⟨_, member, rfl⟩
    · exact ⟨_, member, labelled⟩

theorem labels_nodup (injective : Function.Injective standard) (positions : (items.map Prod.fst).Nodup) :
    (items.map (label standard)).Nodup ↔ Apart standard items := by
  induction items with
  | nil =>
    apply iff_of_true List.nodup_nil
    exact ⟨List.nodup_nil, fun position absent => absurd absent List.not_mem_nil⟩
  | cons item rest ih =>
    obtain ⟨position, named⟩ := item
    rw [List.map_cons, List.nodup_cons] at positions
    rw [List.map_cons, List.nodup_cons, mem_labels, ih positions.2]
    have elsewhere (other : Option α) : (position, other) ∉ rest := by
      intro member
      exact positions.1 (List.mem_map.mpr ⟨_, member, rfl⟩)
    cases named with
    | none =>
      have alone : ¬ ∃ other, (other, none) ∈ rest ∧ standard other = standard position := by
        rintro ⟨other, member, same⟩
        rw [injective same] at member
        exact elsewhere none member
      show ¬ (standard position ∈ _ ∨ ∃ other, (other, none) ∈ rest ∧ standard other = standard position) ∧ _ ↔ _
      constructor
      · rintro ⟨fresh, apart⟩
        refine ⟨apart.declared, fun other member => ?_⟩
        rcases List.mem_cons.mp member with same | later
        · cases same
          exact fun declared => fresh (.inl declared)
        · exact apart.generated other later
      · rintro ⟨declared, generated⟩
        refine ⟨?_, declared, fun other later => generated other (List.mem_cons_of_mem _ later)⟩
        rintro (twice | twice)
        · exact generated position List.mem_cons_self twice
        · exact alone twice
    | some name =>
      show ¬ (name ∈ _ ∨ ∃ other, (other, none) ∈ rest ∧ standard other = name) ∧ _ ↔ _
      constructor
      · rintro ⟨fresh, apart⟩
        refine ⟨?_, fun other member => ?_⟩
        · show (name :: rest.filterMap Prod.snd).Nodup
          exact List.nodup_cons.mpr ⟨fun twice => fresh (.inl twice), apart.declared⟩
        · rcases List.mem_cons.mp member with same | later
          · cases same
          · show standard other ∉ name :: rest.filterMap Prod.snd
            rw [List.mem_cons, not_or]
            exact ⟨fun same => fresh (.inr ⟨other, later, same⟩), apart.generated other later⟩
      · rintro ⟨declared, generated⟩
        have split : (name :: rest.filterMap Prod.snd).Nodup := declared
        rw [List.nodup_cons] at split
        have later (other : ι) (member : (other, none) ∈ rest) : standard other ∉ name :: rest.filterMap Prod.snd :=
          generated other (List.mem_cons_of_mem _ member)
        refine ⟨?_, split.2, fun other member twice => later other member (List.mem_cons_of_mem _ twice)⟩
        rintro (twice | ⟨other, member, same⟩)
        · exact split.1 twice
        · exact later other member (List.mem_cons.mpr (.inl same))

end Positions

end Labels
