import DarkFactory.Changes.Enums
import DarkFactory.Lib.Delimited
import DarkFactory.Lib.Sha256

namespace DarkFactory

/-- One logical operation: every retry of a stage and input revision shares it. -/
def operationKey (executionId : String) (stage : Stage) (inputRevision : String) : String :=
  executionId ++ ":" ++ stage.value ++ ":" ++ inputRevision

def attemptId (key : String) (attemptNumber : Nat) : String := key ++ ":" ++ toString attemptNumber

/-- `hexdigest()[:32]`. -/
def shortDigest (text : String) : String := String.ofList ((Sha256.hex text).take 32)

def generatedRunId (changeId inputRevision : String) : String :=
  "run_" ++ shortDigest (changeId ++ ":" ++ inputRevision)

def ColonFree (text : String) : Prop := ':' ∉ text.toList

theorem stage_value_colonFree (stage : Stage) : ColonFree stage.value := by
  unfold ColonFree
  cases stage <;> decide

theorem stage_value_injective {stage other : Stage} (same : stage.value = other.value) : stage = other := by
  revert same
  cases stage <;> cases other <;> decide

theorem generatedRunId_colonFree (changeId inputRevision : String) :
    ColonFree (generatedRunId changeId inputRevision) := by
  intro member
  simp only [generatedRunId, shortDigest, String.toList_append, String.toList_ofList,
    List.mem_append] at member
  rcases member with head | digits
  · exact absurd head (by decide)
  · exact Sha256.notMem_hex _ (by decide) (List.mem_of_mem_take digits)

/-- Runs with colon-free ids never share an operation. -/
theorem operationKey_injective {executionId otherId : String} {stage other : Stage}
    {inputRevision otherRevision : String} (free : ColonFree executionId) (otherFree : ColonFree otherId)
    (same : operationKey executionId stage inputRevision = operationKey otherId other otherRevision) :
    executionId = otherId ∧ stage = other ∧ inputRevision = otherRevision := by
  have letters := congrArg String.toList same
  simp only [operationKey, String.toList_append, List.append_assoc] at letters
  obtain ⟨ids, rest⟩ := (Delimited.cut_first free otherFree).mp letters
  obtain ⟨stages, revisions⟩ :=
    (Delimited.cut_first (stage_value_colonFree stage) (stage_value_colonFree other)).mp rest
  exact ⟨String.toList_injective ids, stage_value_injective (String.toList_injective stages),
    String.toList_injective revisions⟩

theorem digits_free {c : Char} (n : Nat) (sign : c.isDigit = false) : c ∉ (toString n).toList := by
  intro member
  rw [show toString n = Nat.repr n from rfl, Nat.repr_eq_ofList_toDigits, String.toList_ofList] at member
  rw [Nat.isDigit_of_mem_toDigits (by decide) (by decide) member] at sign
  cases sign

theorem digits_colonFree (n : Nat) : ':' ∉ (toString n).toList := digits_free n rfl

theorem toString_nat_injective {n m : Nat} (same : toString n = toString m) : n = m := by
  rw [show toString n = Nat.repr n from rfl, show toString m = Nat.repr m from rfl,
    Nat.repr_eq_ofList_toDigits, Nat.repr_eq_ofList_toDigits] at same
  have digits := congrArg String.toList same
  simp only [String.toList_ofList] at digits
  rw [← @Nat.ofDigitChars_toDigits 10 n (by decide) (by decide), digits,
    Nat.ofDigitChars_toDigits (by decide) (by decide)]

theorem attemptId_injective {key otherKey : String} {attempt other : Nat}
    (same : attemptId key attempt = attemptId otherKey other) : key = otherKey ∧ attempt = other := by
  have letters := congrArg String.toList same
  simp only [attemptId, String.toList_append, List.append_assoc] at letters
  obtain ⟨keys, numbers⟩ := (Delimited.cut_last (digits_colonFree attempt) (digits_colonFree other)).mp letters
  exact ⟨String.toList_injective keys, toString_nat_injective (String.toList_injective numbers)⟩

end DarkFactory
