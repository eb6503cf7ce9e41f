import Mathlib.Tactic.Common

/-! A cell that takes the first value it is given, keeps it while only interim values arrive, and settles
    on the first final one. -/

namespace Latch

variable {α : Type} (interim : α → Bool)

def settled (calls : List α) : Option α := (calls.find? fun call => !interim call).or calls.head?

def take (held : Option α) (call : α) : Option α :=
  match held with
  | none => some call
  | some value => if interim value && !interim call then some call else some value

variable {interim}

theorem settled_nil : settled interim [] = none := rfl

theorem settled_snoc (calls : List α) (call : α) :
    settled interim (calls ++ [call]) = take interim (settled interim calls) call := by
  unfold settled
  rw [List.find?_append]
  cases found : calls.find? fun call => !interim call with
  | some final =>
    have isFinal : (!interim final) = true := by simpa using List.find?_some found
    simp only [Bool.not_eq_true'] at isFinal
    simp [take, isFinal]
  | none =>
    cases calls with
    | nil => cases called : interim call <;> simp [take, called]
    | cons first rest =>
      have waits : interim first = true := by
        simpa using List.find?_eq_none.mp found first (List.mem_cons_self ..)
      cases called : interim call <;> simp [take, waits, called]

theorem settled_eq_none {calls : List α} : settled interim calls = none ↔ calls = [] := by
  cases calls with
  | nil => simp [settled_nil]
  | cons first rest => simp [settled]

end Latch
