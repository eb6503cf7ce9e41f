import DarkFactory.Changes.Text
import Mathlib.Algebra.Order.Ring.Rat
import Mathlib.Data.Rat.Defs
import Mathlib.Tactic.FieldSimp
import Mathlib.Tactic.Linarith
import Mathlib.Tactic.Ring

namespace DarkFactory.Decimal

/-! What the default context rounds off of sums. -/

def value (d : Decimal) : ℚ := d.unscaled * 10 ^ d.exponent

def lost (d : Decimal) : ℚ := d.value - d.rounded.value

/-- What is rounded off as the amounts are added to the first, one after the other. -/
def roundedOff : Decimal → List Decimal → ℚ
  | _, [] => 0
  | total, amount :: rest => (total.exactSum amount).lost + roundedOff (total.add amount) rest

/-- No running sum needs more digits than the context keeps. -/
def Fits : Decimal → List Decimal → Prop
  | _, [] => True
  | total, amount :: rest =>
    (total.exactSum amount).unscaled.natAbs < 10 ^ precision ∧ Fits (total.add amount) rest

instance decidableFits : ∀ total amounts, Decidable (Fits total amounts)
  | _, [] => .isTrue trivial
  | total, amount :: rest =>
    have := decidableFits (total.add amount) rest
    inferInstanceAs (Decidable (_ ∧ _))

variable {a b d total : Decimal} {amounts : List Decimal}

theorem rescaled_value {exponent : Int} (le : exponent ≤ d.exponent) :
    (d.rescaled exponent : ℚ) * 10 ^ exponent = d.value := by
  obtain ⟨more, grown⟩ := Int.eq_ofNat_of_zero_le (Int.sub_nonneg.mpr le)
  have there : d.exponent = more + exponent := by omega
  rw [rescaled, value, grown, Int.toNat_natCast, there, zpow_add₀ (by norm_num), zpow_natCast]
  push_cast
  ring

theorem value_exactSum : (a.exactSum b).value = a.value + b.value := by
  have left := @rescaled_value a _ (min_le_left a.exponent b.exponent)
  have right := @rescaled_value b _ (min_le_right a.exponent b.exponent)
  rw [← left, ← right, ← add_mul, ← Int.cast_add]
  rfl

theorem value_add : (a.add b).value = a.value + b.value - (a.exactSum b).lost := by
  rw [lost, value_exactSum, sub_sub_cancel]
  rfl

theorem foldl_add_value : (amounts.foldl add total).value =
    total.value + (amounts.map value).sum - roundedOff total amounts := by
  induction amounts generalizing total with
  | nil => simp [roundedOff]
  | cons amount rest ih =>
    rw [List.foldl_cons, ih, value_add, roundedOff, List.map_cons, List.sum_cons]
    ring

section Value

theorem halfEven_one (n : Nat) : halfEven n 1 = n := by
  simp [halfEven, Nat.mod_one]

theorem halfEven_mul {n unit k : Nat} (pos : 0 < k) : halfEven (n * k) (unit * k) = halfEven n unit := by
  have whole : n * k / (unit * k) = n / unit := Nat.mul_div_mul_right _ _ pos
  have rest : n * k % (unit * k) = n % unit * k := Nat.mul_mod_mul_right _ _ _
  have less : unit * k < 2 * (n % unit * k) ↔ unit < 2 * (n % unit) := by
    rw [← Nat.mul_assoc]
    exact Nat.mul_lt_mul_right pos
  have half : 2 * (n % unit * k) = unit * k ↔ 2 * (n % unit) = unit := by
    rw [← Nat.mul_assoc]
    exact Nat.mul_left_inj (Nat.pos_iff_ne_zero.mp pos)
  unfold halfEven
  dsimp only
  simp only [whole, rest, less, half]

theorem rounded_value (d : Decimal) : d.rounded.value = d.unscaled.sign *
    halfEven d.unscaled.natAbs (10 ^ (Nat.log 10 d.unscaled.natAbs + 1 - precision)) *
      10 ^ (d.exponent + (Nat.log 10 d.unscaled.natAbs + 1 - precision : Nat)) := by
  unfold rounded
  dsimp only
  split
  · rename_i carried
    rw [carried, value]
    push_cast
    rw [zpow_add₀ (by norm_num : (10 : ℚ) ≠ 0) _ 1]
    unfold precision
    ring
  · rw [value]
    push_cast
    ring

/-- What few digits hold is left as it is. -/
theorem lost_short (short : d.unscaled.natAbs < 10 ^ precision) : d.lost = 0 := by
  have cut : Nat.log 10 d.unscaled.natAbs + 1 - precision = 0 := by
    have digits : Nat.log 10 d.unscaled.natAbs < precision := Nat.log_lt_of_lt_pow' (by decide) short
    omega
  have whole : (d.unscaled.sign : ℚ) * (d.unscaled.natAbs : ℚ) = d.unscaled := by
    rw [← Int.cast_natCast, ← Int.cast_mul, Int.sign_mul_natAbs]
  rw [lost, rounded_value, cut, pow_zero, halfEven_one, value, Nat.cast_zero, add_zero, whole, sub_self]

theorem roundedOff_fits (fits : Fits total amounts) : roundedOff total amounts = 0 := by
  induction amounts generalizing total with
  | nil => rfl
  | cons amount rest ih => rw [roundedOff, lost_short fits.1, ih fits.2, add_zero]

theorem log_shifted {n : Nat} (pos : n ≠ 0) (k : Nat) : Nat.log 10 (n * 10 ^ k) = Nat.log 10 n + k := by
  induction k with
  | zero => simp
  | succ k ih => rw [pow_succ, ← Nat.mul_assoc, Nat.log_mul_base (by decide) (by positivity), ih, Nat.add_assoc]

theorem halfEven_zeros {n cut kept : Nat} : halfEven (n * 10 ^ (cut + kept)) (10 ^ cut) = n * 10 ^ kept := by
  have units := @halfEven_mul (n * 10 ^ kept) 1 (10 ^ cut) (by positivity)
  rw [halfEven_one, Nat.one_mul, Nat.mul_assoc, ← pow_add, Nat.add_comm kept] at units
  exact units

theorem halfEven_shifted {n log k : Nat} {exponent : Int} :
    (halfEven (n * 10 ^ k) (10 ^ (log + k + 1 - precision)) : ℚ) *
        10 ^ (exponent - k + (log + k + 1 - precision : Nat)) =
      halfEven n (10 ^ (log + 1 - precision)) * 10 ^ (exponent + (log + 1 - precision : Nat)) := by
  have ten : (10 : ℚ) ≠ 0 := by norm_num
  rcases Nat.le_total (log + 1) precision with short | long
  · obtain ⟨kept, whole⟩ := Nat.exists_eq_add_of_le (show log + k + 1 - precision ≤ k by omega)
    have none_ : log + 1 - precision = 0 := by omega
    generalize log + k + 1 - precision = cut at whole ⊢
    subst whole
    rw [halfEven_zeros, none_, pow_zero, halfEven_one, Nat.cast_zero, add_zero,
      show exponent - (cut + kept : Nat) + cut = exponent - kept by push_cast; ring, zpow_sub₀ ten, zpow_natCast]
    push_cast
    field_simp
  · have cut : log + k + 1 - precision = log + 1 - precision + k := by omega
    rw [cut, pow_add, halfEven_mul (by positivity),
      show exponent - k + (log + 1 - precision + k : Nat) = exponent + (log + 1 - precision : Nat) by push_cast; ring]

theorem rounded_shifted (n : Int) (exponent : Int) (k : Nat) :
    (⟨n * 10 ^ k, exponent - k⟩ : Decimal).rounded.value = (⟨n, exponent⟩ : Decimal).rounded.value := by
  rw [rounded_value, rounded_value]
  dsimp only
  by_cases zero : n = 0
  · subst zero
    simp
  have pos : n.natAbs ≠ 0 := by omega
  have sign : (n * 10 ^ k).sign = n.sign := by
    rw [Int.sign_mul, Int.sign_eq_one_of_pos (pow_pos (by decide) k), Int.mul_one]
  have size : (n * 10 ^ k).natAbs = n.natAbs * 10 ^ k := by
    rw [Int.natAbs_mul, Int.natAbs_pow]
    rfl
  rw [sign, size, log_shifted pos, mul_assoc, mul_assoc, halfEven_shifted]

theorem rounded_congr (same : a.value = b.value) : a.rounded.value = b.rounded.value := by
  wlog le : b.exponent ≤ a.exponent
  · exact (this same.symm (by omega)).symm
  obtain ⟨k, grown⟩ := Int.eq_ofNat_of_zero_le (Int.sub_nonneg.mpr le)
  have exponents : b.exponent = a.exponent - k := by omega
  have coefficients : b.unscaled = a.unscaled * 10 ^ k := by
    have there := same
    rw [value, value, exponents, zpow_sub₀ (by norm_num), zpow_natCast] at there
    have power : (10 : ℚ) ^ a.exponent ≠ 0 := zpow_ne_zero _ (by norm_num)
    field_simp at there
    exact_mod_cast there.symm
  have shifted := rounded_shifted a.unscaled a.exponent k
  rw [← exponents, ← coefficients] at shifted
  exact shifted.symm

theorem roundedOff_congr (same : a.value = b.value) : roundedOff a amounts = roundedOff b amounts := by
  induction amounts generalizing a b with
  | nil => rfl
  | cons amount rest ih =>
    have sums : (a.exactSum amount).value = (b.exactSum amount).value := by rw [value_exactSum, value_exactSum, same]
    have added : (a.add amount).value = (b.add amount).value := rounded_congr sums
    rw [roundedOff, roundedOff, ih added, lost, lost, sums, rounded_congr sums]

end Value

end DarkFactory.Decimal
