import DarkFactory.Budget.Coordinator
import Mathlib.Algebra.Group.Defs
import Mathlib.Algebra.Group.Hom.Defs
import Mathlib.Algebra.Group.Nat.Defs

namespace DarkFactory

/-- A usage with its total known: what the ledger adds up. -/
@[ext]
structure Spend where
  promptTokens : Nat
  completionTokens : Nat
  totalTokens : Nat
  cost : Option Decimal
  deriving DecidableEq

namespace Spend

open Budget

instance : Add Spend where
  add left right :=
    { promptTokens := left.promptTokens + right.promptTokens
      completionTokens := left.completionTokens + right.completionTokens
      totalTokens := left.totalTokens + right.totalTokens
      cost := addCost left.cost right.cost }

instance : Zero Spend where
  zero := { promptTokens := 0, completionTokens := 0, totalTokens := 0, cost := none }

instance : AddZeroClass Spend where
  zero_add spend := Spend.ext (Nat.zero_add _) (Nat.zero_add _) (Nat.zero_add _) rfl
  add_zero spend := by
    obtain ⟨prompt, completion, total, cost⟩ := spend
    cases cost <;> rfl

def promptTokensHom : Spend →+ Nat := ⟨⟨promptTokens, rfl⟩, fun _ _ => rfl⟩

def completionTokensHom : Spend →+ Nat := ⟨⟨completionTokens, rfl⟩, fun _ _ => rfl⟩

def totalTokensHom : Spend →+ Nat := ⟨⟨totalTokens, rfl⟩, fun _ _ => rfl⟩

def usage (spend : Spend) : Usage :=
  { promptTokens := spend.promptTokens, completionTokens := spend.completionTokens
    totalTokens := some spend.totalTokens, cost := spend.cost }

def ofUsage (usage : Usage) : Spend :=
  { promptTokens := usage.promptTokens, completionTokens := usage.completionTokens
    totalTokens := tokens usage, cost := usage.cost }

@[simp]
theorem ofUsage_usage (spend : Spend) : ofUsage spend.usage = spend := rfl

theorem usage_zero : zeroUsage = (0 : Spend).usage := rfl

theorem addUsage_eq (left right : Usage) : addUsage left right = (ofUsage left + ofUsage right).usage := rfl

theorem foldl_addUsage {ι : Type} (use : ι → Usage) (items : List ι) (start : Spend) :
    items.foldl (fun total item => addUsage total (use item)) start.usage =
      ((items.map fun item => ofUsage (use item)).foldl (· + ·) start).usage := by
  induction items generalizing start with
  | nil => rfl
  | cons head tail ih =>
    rw [List.foldl_cons, addUsage_eq, ofUsage_usage, ih]
    rfl

end Spend

end DarkFactory
