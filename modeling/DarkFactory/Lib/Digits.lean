import Mathlib.Algebra.Ring.Nat
import Mathlib.Data.List.Lex
import Mathlib.Tactic.Common

/-! Decimals of a fixed width. -/

namespace Digits

def fixed : Nat → Nat → List Char
  | 0, _ => []
  | width + 1, n => fixed width (n / 10) ++ [Nat.digitChar (n % 10)]

@[simp] theorem length_fixed (width n : Nat) : (fixed width n).length = width := by
  induction width generalizing n with
  | zero => rfl
  | succ width ih => simp [fixed, ih]

theorem digitChar_lt {first second : Nat} (lt : first < second) (bound : second < 10) :
    Nat.digitChar first < Nat.digitChar second := by
  have table : ∀ second < 10, ∀ first < second, Nat.digitChar first < Nat.digitChar second := by decide
  exact table second bound first lt

/-- A number is shown with zeros in front. -/
theorem pad_toDigits {width n : Nat} (fits : n < 10 ^ width) (pos : 0 < width) :
    List.replicate (width - (Nat.toDigits 10 n).length) '0' ++ Nat.toDigits 10 n = fixed width n := by
  induction width generalizing n with
  | zero => exact absurd pos (by omega)
  | succ width ih =>
    by_cases small : n < 10
    · have zeros (count : Nat) : fixed count 0 = List.replicate count '0' := by
        induction count with
        | zero => rfl
        | succ count ih => rw [fixed, Nat.zero_div, ih, List.replicate_succ']; rfl
      rw [Nat.toDigits_of_lt_base small, fixed, Nat.div_eq_of_lt small, Nat.mod_eq_of_lt small, zeros]
      simp
    · have large : 10 ≤ n := by omega
      have rest : n / 10 < 10 ^ width := by
        rw [Nat.pow_succ] at fits
        omega
      have wide : 0 < width := by
        rcases Nat.eq_zero_or_pos width with rfl | wide
        · simp at fits
          omega
        · exact wide
      rw [Nat.toDigits_of_base_le (by decide) large, fixed, ← ih rest wide, List.length_append,
        List.length_singleton, Nat.add_sub_add_right, List.append_assoc]

/-- Texts of one length that differ keep their order in front of anything. -/
theorem append_lt {first second more other : List Char} (lt : first < second) (same : first.length = second.length) :
    first ++ more < second ++ other := by
  induction first generalizing second with
  | nil =>
    cases second with
    | nil => exact absurd lt (List.lt_irrefl [])
    | cons c rest => simp at same
  | cons c rest ih =>
    cases second with
    | nil => simp at same
    | cons d others =>
      rw [List.cons_append, List.cons_append, List.cons_lt_cons_iff]
      rcases List.cons_lt_cons_iff.mp lt with less | ⟨equal, less⟩
      · exact Or.inl less
      · exact Or.inr ⟨equal, ih less (by simpa using same)⟩

theorem fixed_lt {width first second : Nat} (lt : first < second) (bound : second < 10 ^ width) :
    fixed width first < fixed width second := by
  induction width generalizing first second with
  | zero => simp at bound; omega
  | succ width ih =>
    rw [Nat.pow_succ] at bound
    unfold fixed
    by_cases same : first / 10 = second / 10
    · rw [same]
      have last : Nat.digitChar (first % 10) < Nat.digitChar (second % 10) := digitChar_lt (by omega) (by omega)
      exact List.append_left_lt (List.cons_lt_cons_iff.mpr (Or.inl last))
    · have front : fixed width (first / 10) < fixed width (second / 10) := ih (by omega) (by omega)
      exact append_lt front (by simp)

end Digits
