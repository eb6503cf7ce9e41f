import Mathlib.Tactic.Common

/-! Writings that can be cut off the front of anything, so that nothing is read in two ways. -/

namespace PrefixFree

variable {α β σ : Type}

/-- What comes after a written item says nothing about the item. -/
def Code (code : α → List σ) : Prop :=
  ∀ first second more other, code first ++ more = code second ++ other → first = second ∧ more = other

section Code

variable {code : α → List σ} {after : β → List σ}

theorem Code.injective (free : Code code) {first second : α} (same : code first = code second) : first = second := by
  have joined : code first ++ [] = code second ++ [] := by rw [same]
  exact (free first second [] [] joined).1

theorem code_of_reader {read : List σ → Option (α × List σ)}
    (reads : ∀ item more, read (code item ++ more) = some (item, more)) : Code code := by
  intro first second more other same
  have here := reads first more
  rw [same, reads second other] at here
  obtain ⟨items, rests⟩ := Prod.mk.inj (Option.some.inj here)
  exact ⟨items.symm, rests.symm⟩

theorem Code.pair (free : Code code) (second : Code after) :
    Code fun both : α × β => code both.1 ++ after both.2 := by
  intro left right more other same
  simp only [List.append_assoc] at same
  obtain ⟨front, rest⟩ := free _ _ _ _ same
  obtain ⟨back, tail⟩ := second _ _ _ _ rest
  exact ⟨Prod.ext front back, tail⟩

theorem Code.headed (free : Code code) (mark : σ) : Code fun item => mark :: code item := by
  intro first second more other same
  simp only [List.cons_append, List.cons.injEq, true_and] at same
  exact free _ _ _ _ same

theorem Code.comap (free : Code code) {view : β → α} (keeps : Function.Injective view) :
    Code fun item => code (view item) := by
  intro first second more other same
  obtain ⟨items, rests⟩ := free _ _ _ _ same
  exact ⟨keeps items, rests⟩

end Code

section Lists

variable {code : α → List σ} {stop separator : σ}

def Opens (code : α → List σ) (stop : σ) : Prop := ∀ item, ∃ c rest, code item = c :: rest ∧ c ≠ stop

def closed (code : α → List σ) (stop : σ) (items : List α) : List σ := items.flatMap code ++ [stop]

theorem code_closed (free : Code code) (opens : Opens code stop) : Code (closed code stop) := by
  intro first
  induction first with
  | nil =>
    intro second more other same
    cases second with
    | nil => simpa [closed] using same
    | cons item rest =>
      obtain ⟨c, tail, begun, apart⟩ := opens item
      simp only [closed, List.flatMap_nil, List.flatMap_cons, begun, List.nil_append, List.cons_append,
        List.cons.injEq] at same
      exact absurd same.1.symm apart
  | cons item rest ih =>
    intro second more other same
    cases second with
    | nil =>
      obtain ⟨c, tail, begun, apart⟩ := opens item
      simp only [closed, List.flatMap_nil, List.flatMap_cons, begun, List.nil_append, List.cons_append,
        List.cons.injEq] at same
      exact absurd same.1 apart
    | cons next others =>
      simp only [closed, List.flatMap_cons, List.append_assoc] at same
      obtain ⟨here, tails⟩ := free _ _ _ _ same
      have later : closed code stop rest ++ more = closed code stop others ++ other := by
        simpa only [closed, List.append_assoc] using tails
      obtain ⟨behind, left⟩ := ih others more other later
      exact ⟨by rw [here, behind], left⟩

def separated (code : α → List σ) (separator stop : σ) : List α → List σ
  | [] => [stop]
  | item :: rest => code item ++ closed (fun item => separator :: code item) stop rest

theorem code_separated (free : Code code) (opens : Opens code stop) (apart : separator ≠ stop) :
    Code (separated code separator stop) := by
  have behind : Code (closed (fun item => separator :: code item) stop) :=
    code_closed (free.headed separator) fun item => ⟨separator, code item, rfl, apart⟩
  intro first second more other same
  cases first with
  | nil =>
    cases second with
    | nil => simpa [separated] using same
    | cons item rest =>
      obtain ⟨c, tail, begun, differ⟩ := opens item
      simp only [separated, begun, List.cons_append, List.cons.injEq] at same
      exact absurd same.1.symm differ
  | cons item rest =>
    cases second with
    | nil =>
      obtain ⟨c, tail, begun, differ⟩ := opens item
      simp only [separated, begun, List.cons_append, List.cons.injEq] at same
      exact absurd same.1 differ
    | cons next others =>
      simp only [separated, List.append_assoc] at same
      obtain ⟨here, tails⟩ := free _ _ _ _ same
      obtain ⟨rests, left⟩ := behind _ _ _ _ tails
      exact ⟨by rw [here, rests], left⟩

theorem separated_intercalate (items : List α) :
    separated code separator stop items = [separator].intercalate (items.map code) ++ [stop] := by
  cases items with
  | nil => rfl
  | cons item rest =>
    have later (rest : List α) : ∀ item, code item ++ closed (fun item => separator :: code item) stop rest =
        [separator].intercalate ((item :: rest).map code) ++ [stop] := by
      induction rest with
      | nil =>
        intro item
        simp [closed]
      | cons next others ih =>
        intro item
        have shown := ih next
        rw [List.map_cons, List.map_cons, List.intercalate_cons_cons, ← List.map_cons]
        simp only [closed, List.flatMap_cons, List.cons_append, List.append_assoc] at shown ⊢
        rw [shown]
        simp
    exact later rest item

end Lists

end PrefixFree
