import DarkFactory.Lib.Lines

/-! Texts whose lines are closed by a break each, and the lines of a trimmed text. -/

namespace Lines

variable {α : Type} {isBreak isSpace : α → Bool} {newline c : α} {text front : List α} {lines : List (List α)}

section Closed

theorem join_closed : join newline (lines ++ [[]]) = lines.flatMap fun line => line ++ [newline] := by
  induction lines with
  | nil => rfl
  | cons line rest ih =>
    obtain ⟨next, others, shape⟩ := List.exists_cons_of_ne_nil (show rest ++ [[]] ≠ [] by simp)
    rw [List.flatMap_cons, ← ih, List.cons_append, shape, join_cons]
    simp

theorem join_snoc_empty (occupied : lines ≠ []) : join newline (lines ++ [[]]) = join newline lines ++ [newline] := by
  induction lines with
  | nil => exact absurd rfl occupied
  | cons line rest ih =>
    cases rest with
    | nil => simp
    | cons next others =>
      have later := ih (List.cons_ne_nil next others)
      rw [List.cons_append, List.cons_append, join_cons, ← List.cons_append, later, join_cons]
      simp

theorem split_closed (breaks : isBreak newline = true) :
    split isBreak (lines.flatMap fun line => line ++ [newline]) =
      lines.flatMap fun line => split isBreak (line ++ [newline]) := by
  induction lines with
  | nil => rfl
  | cons line rest ih =>
    rw [List.flatMap_cons, List.flatMap_cons, List.append_assoc, List.singleton_append, split_append breaks, ih]

/-- Every break ends a line as well as another. -/
theorem split_break {d : α} (breaks : isBreak c = true) (also : isBreak d = true) :
    split isBreak (text ++ [c]) = split isBreak (text ++ [d]) := by
  induction text with
  | nil => simp [split, breaks, also]
  | cons first rest ih => rw [List.cons_append, List.cons_append, split, split, ih]

/-- A character that is no break stands at the end of the last line. -/
theorem split_snoc (breaks : isBreak newline = true) (solid : isBreak c = false) : ∃ front last,
    split isBreak (text ++ [newline]) = front ++ [last] ∧
      split isBreak (text ++ [c] ++ [newline]) = front ++ [last ++ [c]] := by
  induction text with
  | nil => exact ⟨[], [], by simp [split, breaks], by simp [split, breaks, solid, extend]⟩
  | cons first rest ih =>
    obtain ⟨front, last, short, long⟩ := ih
    rw [List.cons_append, List.cons_append, List.cons_append, split, split, short, long]
    by_cases ends : isBreak first = true
    · rw [if_pos ends, if_pos ends]
      exact ⟨[] :: front, last, rfl, rfl⟩
    · rw [if_neg ends, if_neg ends]
      cases front with
      | nil => exact ⟨[], first :: last, rfl, rfl⟩
      | cons line others => exact ⟨(first :: line) :: others, last, rfl, rfl⟩

theorem mem_of_split {line : List α} (member : line ∈ split isBreak text) (inside : c ∈ line) : c ∈ text := by
  induction text generalizing line with
  | nil => cases member
  | cons first rest ih =>
    rw [split] at member
    by_cases ends : isBreak first = true
    · rw [if_pos ends, List.mem_cons] at member
      rcases member with rfl | later
      · cases inside
      · exact List.mem_cons_of_mem _ (ih later inside)
    · rw [if_neg ends] at member
      cases shape : split isBreak rest with
      | nil =>
        rw [shape, extend, List.mem_singleton] at member
        subst member
        exact List.mem_cons.mpr (Or.inl (List.mem_singleton.mp inside))
      | cons head others =>
        rw [shape] at ih
        rw [shape, extend, List.mem_cons] at member
        rcases member with rfl | later
        · rcases List.mem_cons.mp inside with rfl | within
          · exact List.mem_cons_self
          · exact List.mem_cons_of_mem _ (ih List.mem_cons_self within)
        · exact List.mem_cons_of_mem _ (ih (List.mem_cons_of_mem _ later) inside)

end Closed

section Trimmed

theorem strip_behind (spaces : ∀ c ∈ front, isSpace c = true) : strip isSpace (text ++ front) = strip isSpace text := by
  have shape (text : List α) : strip isSpace text = (text.dropWhile isSpace).rdropWhile isSpace := rfl
  have behind (text : List α) : (text ++ front).rdropWhile isSpace = text.rdropWhile isSpace := by
    induction front using List.reverseRecOn with
    | nil => rw [List.append_nil]
    | append_singleton others last ih =>
      rw [← List.append_assoc, List.rdropWhile_concat_pos isSpace _ _ (spaces last (by simp))]
      exact ih fun c member => spaces c (by simp [member])
  rw [shape, shape]
  by_cases blank : ∀ c ∈ text, isSpace c = true
  · have every : ∀ c ∈ text ++ front, isSpace c = true := by
      intro c member
      exact (List.mem_append.mp member).elim (blank c) (spaces c)
    rw [List.dropWhile_eq_nil_iff.mpr every, List.dropWhile_eq_nil_iff.mpr blank]
  · have occupied : text.dropWhile isSpace ≠ [] := fun empty => blank (List.dropWhile_eq_nil_iff.mp empty)
    rw [List.dropWhile_append, if_neg (by simpa using occupied), behind]

/-- What holds of every line, whatever white space is around it, holds of every line of the trimmed text. -/
theorem split_strip {holds : List α → Prop} (breaks : isBreak newline = true)
    (ahead : ∀ c line, isSpace c = true → holds (c :: line) → holds line)
    (behind : ∀ c line, isSpace c = true → holds (line ++ [c]) → holds line)
    (every : ∀ line ∈ split isBreak (text ++ [newline]), holds line) :
    ∀ line ∈ split isBreak (strip isSpace text ++ [newline]), holds line := by
  have first (text : List α) (every : ∀ line ∈ split isBreak (text ++ [newline]), holds line) :
      ∀ line ∈ split isBreak (text.dropWhile isSpace ++ [newline]), holds line := by
    induction text with
    | nil => exact every
    | cons c rest ih =>
      rw [List.dropWhile_cons]
      split
      · rename_i space
        apply ih
        rw [List.cons_append, split] at every
        by_cases ends : isBreak c = true
        · rw [if_pos ends] at every
          exact fun line member => every line (List.mem_cons_of_mem _ member)
        · rw [if_neg ends] at every
          obtain ⟨line, lines, shape⟩ := List.exists_cons_of_ne_nil
            (show split isBreak (rest ++ [newline]) ≠ [] from split_ne_nil (by simp))
          rw [shape, extend, List.forall_mem_cons] at every
          rw [shape, List.forall_mem_cons]
          exact ⟨ahead c line space every.1, every.2⟩
      · exact every
  have last (text : List α) (every : ∀ line ∈ split isBreak (text ++ [newline]), holds line) :
      ∀ line ∈ split isBreak (text.rdropWhile isSpace ++ [newline]), holds line := by
    induction text using List.reverseRecOn with
    | nil => exact every
    | append_singleton others c ih =>
      by_cases space : isSpace c = true
      · rw [List.rdropWhile_concat_pos isSpace _ _ space]
        apply ih
        by_cases ends : isBreak c = true
        · rw [List.append_assoc, List.singleton_append, split_append ends, split_break ends breaks] at every
          exact fun line member => every line (List.mem_append_left _ member)
        · obtain ⟨lines, line, short, long⟩ := @split_snoc α isBreak newline c others breaks (by simpa using ends)
          rw [long] at every
          rw [short]
          intro held member
          rcases List.mem_append.mp member with inside | here
          · exact every held (List.mem_append_left _ inside)
          · rw [List.mem_singleton.mp here]
            exact behind c line space (every _ (by simp))
      · rw [List.rdropWhile_concat_neg isSpace _ _ space]
        exact every
  exact last _ (first _ every)

/-- Joined lines are taken apart into themselves, or into an empty one. -/
theorem mem_split_join (breaks : isBreak newline = true) (free : ∀ line ∈ lines, ∀ c ∈ line, isBreak c = false) :
    ∀ line ∈ split isBreak (join newline lines ++ [newline]), line = [] ∨ line ∈ lines := by
  induction lines with
  | nil => simp [split, breaks]
  | cons first rest ih =>
    rw [List.forall_mem_cons] at free
    have own := split_line breaks free.1
    intro line member
    cases rest with
    | nil =>
      rw [join_singleton, own] at member
      exact Or.inr member
    | cons next others =>
      rw [join_cons, List.append_assoc, List.cons_append, split_append breaks, own, List.mem_append] at member
      rcases member with here | later
      · exact Or.inr (List.mem_cons.mpr (Or.inl (List.mem_singleton.mp here)))
      · exact (ih free.2 line later).imp id fun inside => List.mem_cons_of_mem _ inside

end Trimmed

end Lines
