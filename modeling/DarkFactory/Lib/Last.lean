import Mathlib.Tactic.Common

namespace Last

variable {α : Type} (p : α → Bool)

def lastIndex : List α → Option Nat
  | [] => none
  | head :: tail =>
    match lastIndex tail with
    | some index => some (index + 1)
    | none => if p head then some 0 else none

variable {p}

theorem lastIndex_none {items : List α} : lastIndex p items = none ↔ ∀ item ∈ items, p item = false := by
  induction items with
  | nil => simp [lastIndex]
  | cons head tail ih =>
    simp only [lastIndex, List.mem_cons, forall_eq_or_imp]
    cases found : lastIndex p tail with
    | none => simpa using fun _ => ih.mp found
    | some index =>
      have present : ¬ ∀ item ∈ tail, p item = false := fun absent => by simp [ih.mpr absent] at found
      simp [present]

theorem lastIndex_some {items : List α} {index : Nat} (found : lastIndex p items = some index) :
    ∃ item, items[index]? = some item ∧ p item = true ∧
      ∀ later other, index < later → items[later]? = some other → p other = false := by
  induction items generalizing index with
  | nil => simp [lastIndex] at found
  | cons head tail ih =>
    simp only [lastIndex] at found
    cases inner : lastIndex p tail with
    | some place =>
      simp only [inner, Option.some.injEq] at found
      subst found
      obtain ⟨item, at_place, holds, last⟩ := ih inner
      refine ⟨item, by simpa using at_place, holds, fun later other after there => ?_⟩
      obtain ⟨earlier, rfl⟩ : ∃ earlier, later = earlier + 1 := ⟨later - 1, by omega⟩
      exact last earlier other (by omega) (by simpa using there)
    | none =>
      simp only [inner] at found
      split at found
      · rename_i holds
        cases found
        refine ⟨head, rfl, holds, fun later other after there => ?_⟩
        obtain ⟨earlier, rfl⟩ : ∃ earlier, later = earlier + 1 := ⟨later - 1, by omega⟩
        exact lastIndex_none.mp inner other (List.mem_of_getElem? (by simpa using there))
      · cases found

theorem lastIndex_filter (items : List α) :
    (lastIndex p items).bind (items[·]?) = (items.filter p).getLast? := by
  induction items with
  | nil => simp [lastIndex]
  | cons head tail ih =>
    simp only [lastIndex]
    cases inner : lastIndex p tail with
    | some index =>
      rw [inner] at ih
      simp only [Option.bind_some, List.getElem?_cons_succ] at ih ⊢
      obtain ⟨item, there, -, -⟩ := lastIndex_some inner
      rw [there] at ih
      rw [there, List.filter_cons]
      split
      · rw [List.getLast?_cons, ← ih]; rfl
      · exact ih
    | none =>
      have empty : tail.filter p = [] := by
        rw [List.filter_eq_nil_iff]
        intro item member
        simp [lastIndex_none.mp inner item member]
      by_cases holds : p head <;> simp [holds, empty]

theorem lastIndex_append {items : List α} {item : α} (holds : p item = true) :
    lastIndex p (items ++ [item]) = some items.length := by
  induction items with
  | nil => simp [lastIndex, holds]
  | cons head tail ih => simp [lastIndex, ih]

theorem getLast_sorted {r : α → α → Prop} {items : List α} {item : α} (sorted : items.Pairwise r)
    (reflexive : r item item) (antisymm : ∀ other ∈ items, r other item → r item other → other = item) :
    items.getLast? = some item ↔ item ∈ items ∧ ∀ other ∈ items, r other item := by
  constructor
  · intro last
    obtain ⟨front, rfl⟩ := List.getLast?_eq_some_iff.mp last
    refine ⟨by simp, ?_⟩
    intro other member
    rcases List.mem_append.mp member with earlier | here
    · exact (List.pairwise_append.mp sorted).2.2 other earlier item (by simp)
    · rw [List.mem_singleton.mp here]
      exact reflexive
  · rintro ⟨member, greatest⟩
    cases last : items.getLast? with
    | none =>
      rw [List.getLast?_eq_none_iff.mp last] at member
      cases member
    | some final =>
      obtain ⟨front, rfl⟩ := List.getLast?_eq_some_iff.mp last
      rcases List.mem_append.mp member with earlier | here
      · have behind := (List.pairwise_append.mp sorted).2.2 item earlier final (by simp)
        rw [antisymm final (by simp) (greatest final (by simp)) behind]
      · rw [List.mem_singleton.mp here]

end Last
