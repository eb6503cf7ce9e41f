import Mathlib.Tactic.Common

/-! Numbers given out one after another, each one more than the largest there is. -/

namespace Sequence

def next (numbers : List Nat) : Nat := numbers.foldl max 0 + 1

def Full (numbers : List Nat) : Prop := ∀ n ∈ numbers, ∀ k, 1 ≤ k → k ≤ n → k ∈ numbers

section Next

variable {numbers more : List Nat} {n k : Nat}

theorem foldl_max_le_iff (start : Nat) : numbers.foldl max start ≤ k ↔ start ≤ k ∧ ∀ n ∈ numbers, n ≤ k := by
  induction numbers generalizing start with
  | nil => simp
  | cons head rest ih =>
    rw [List.foldl_cons, ih, List.forall_mem_cons, Nat.max_le, and_assoc]

theorem next_le_iff : next numbers ≤ k + 1 ↔ ∀ n ∈ numbers, n ≤ k := by
  rw [next, Nat.add_le_add_iff_right, foldl_max_le_iff]
  simp

theorem lt_next (member : n ∈ numbers) : n < next numbers :=
  Nat.lt_succ_of_le (next_le_iff.mp (Nat.le_refl _) n member)

theorem next_mono (included : ∀ n ∈ numbers, n ∈ more) : next numbers ≤ next more :=
  next_le_iff.mpr fun n member => Nat.le_of_lt_succ (lt_next (included n member))

theorem next_cases (numbers : List Nat) : next numbers = 1 ∨ ∃ n ∈ numbers, next numbers = n + 1 := by
  by_cases first : ∀ n ∈ numbers, n ≤ 0
  · left
    exact Nat.le_antisymm (next_le_iff.mpr first) (Nat.succ_le_succ (Nat.zero_le _))
  · right
    by_contra none
    obtain ⟨top, topEq⟩ : ∃ top, next numbers = top + 1 := ⟨_, rfl⟩
    have below : ∀ n ∈ numbers, n ≤ top - 1 := by
      intro n member
      have bound := lt_next member
      have other : n ≠ top := fun same => none ⟨n, member, by rw [topEq, same]⟩
      omega
    have smaller := next_le_iff.mpr below
    have zero : top = 0 := by omega
    exact first fun n member => by have bound := below n member; omega

theorem Full.nil : Full [] := nofun

theorem Full.next_of_absent (full : Full numbers) (positive : 1 ≤ k) (bound : k ≤ next numbers) (absent : k ∉ numbers) :
    k = next numbers := by
  rcases next_cases numbers with first | ⟨n, member, follows⟩
  · omega
  · by_contra other
    exact absent (full n member k positive (by omega))

theorem Full.snoc (full : Full numbers) : Full (numbers ++ [next numbers]) := by
  intro n member k positive bound
  rw [List.mem_append, List.mem_singleton] at member ⊢
  rcases member with member | rfl
  · exact Or.inl (full n member k positive bound)
  · by_cases present : k ∈ numbers
    · exact Or.inl present
    · exact Or.inr (full.next_of_absent positive bound present)

theorem increasing_snoc : (numbers ++ [k]).Pairwise (· < ·) ↔ numbers.Pairwise (· < ·) ∧ ∀ n ∈ numbers, n < k := by
  simp [List.pairwise_append]

/-- Where numbers were given out in order and some are gone, the next one of those left is new exactly when the last
    given out is left. -/
theorem next_above_iff (increasing : more.Pairwise (· < ·)) (positive : ∀ n ∈ more, 1 ≤ n)
    (included : ∀ n ∈ numbers, n ∈ more) :
    (∀ n ∈ more, n < next numbers) ↔ ∀ n, more.getLast? = some n → n ∈ numbers := by
  constructor
  · intro above n last
    obtain ⟨front, rfl⟩ := List.getLast?_eq_some_iff.mp last
    have bound := above n (by simp)
    have least := positive n (by simp)
    rcases next_cases numbers with first | ⟨m, member, follows⟩
    · omega
    · have same : m = n := by
        rcases List.mem_append.mp (included m member) with earlier | own
        · have before := (increasing_snoc.mp increasing).2 m earlier
          omega
        · exact List.mem_singleton.mp own
      exact same ▸ member
  · intro kept n member
    cases last : more.getLast? with
    | none =>
      rw [List.getLast?_eq_none_iff] at last
      rw [last] at member
      cases member
    | some top =>
      have below := lt_next (kept top last)
      obtain ⟨front, rfl⟩ := List.getLast?_eq_some_iff.mp last
      rcases List.mem_append.mp member with earlier | own
      · have before := (increasing_snoc.mp increasing).2 n earlier
        omega
      · rwa [List.mem_singleton.mp own]

end Next

end Sequence
