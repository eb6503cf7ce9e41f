import DarkFactory.Lib.Segments
import DarkFactory.Sdd.Tree

namespace DarkFactory

def unsafeParts : List String := ["", ".", ".."]

/-- A name that stands for itself on a path. -/
structure SafePart (part : String) : Prop where
  slashFree : '/' ∉ part.toList
  named : part ∉ unsafeParts

instance (part : String) : Decidable (SafePart part) :=
  decidable_of_iff ('/' ∉ part.toList ∧ part ∉ unsafeParts)
    ⟨fun both => ⟨both.1, both.2⟩, fun safe => ⟨safe.slashFree, safe.named⟩⟩

section Paths

variable {path other base : TreePath} {names : List String}

theorem posixPath_letters : (posixPath path).toList = ['/'].intercalate (path.map String.toList) := by
  rw [posixPath, Text.join, String.toList_intercalate]
  rfl

theorem joinPath_posixPath (occupied : path ≠ []) (safe : ∀ part ∈ path, SafePart part) :
    joinPath [] (posixPath path) = path := by
  have split : (posixPath path).toList.splitOnP (· = '/') = path.map String.toList := by
    have slashFree : ∀ letters ∈ path.map String.toList, '/' ∉ letters := by
      intro letters member
      obtain ⟨part, present, rfl⟩ := List.mem_map.mp member
      exact (safe part present).slashFree
    rw [posixPath_letters]
    simpa [List.splitOn, beq_eq_decide] using List.splitOn_intercalate '/' slashFree (by simpa using occupied)
  have kept : (path.filter fun name => name ≠ "" && name ≠ ".") = path := by
    rw [List.filter_eq_self]
    intro part member
    have named := (safe part member).named
    simp only [unsafeParts, List.mem_cons, List.not_mem_nil, or_false, not_or] at named
    simp [named.1, named.2.1]
  unfold joinPath
  rw [split, List.map_map]
  simp only [Function.comp_def, String.ofList_toList, List.map_id', List.nil_append, ite_self]
  exact kept

theorem posixPath_relative (safe : ∀ part ∈ path, SafePart part) : Text.startsWith (posixPath path) "/" = false := by
  rw [Text.startsWith, posixPath_letters]
  cases path with
  | nil => rfl
  | cons first rest =>
    have here := safe first (by simp)
    cases letters : first.toList with
    | nil =>
      have empty : first = "" := String.toList_eq_nil_iff.mp letters
      exact absurd (by rw [empty]; decide) here.named
    | cons c others =>
      have apart : c ≠ '/' := by
        rintro rfl
        exact here.slashFree (by simp [letters])
      cases rest <;> simp [letters, List.isPrefixOf, apart.symm, List.intercalate]

theorem posixPath_injective (occupied : path ≠ []) (safe : ∀ part ∈ path, SafePart part) (filled : other ≠ [])
    (plain : ∀ part ∈ other, SafePart part) (same : posixPath path = posixPath other) : path = other := by
  rw [← joinPath_posixPath occupied safe, same, joinPath_posixPath filled plain]

theorem joinPath_under (occupied : path ≠ []) (safe : ∀ part ∈ path, SafePart part) :
    joinPath base (posixPath path) = base ++ path := by
  have alone := joinPath_posixPath occupied safe
  unfold joinPath at alone ⊢
  rw [posixPath_relative safe] at alone ⊢
  simp only [Bool.false_eq_true, if_false, List.nil_append] at alone ⊢
  rw [alone]

theorem joinPath_names (base : TreePath) (relative : String) : ∃ names,
    (∀ name ∈ names, name = ".." ∨ SafePart name) ∧
      (joinPath base relative = names ∨ joinPath base relative = base ++ names) := by
  refine ⟨((relative.toList.splitOnP (· = '/')).map String.ofList).filter fun name => name ≠ "" && name ≠ ".", ?_, ?_⟩
  · intro name member
    obtain ⟨listed, kept⟩ := List.mem_filter.mp member
    obtain ⟨letters, part, rfl⟩ := List.mem_map.mp listed
    by_cases up : String.ofList letters = ".."
    · exact Or.inl up
    · refine Or.inr ⟨?_, ?_⟩
      · rw [String.toList_ofList]
        intro slash
        exact absurd (Segments.splitOnP_free part _ slash) (by decide)
      · simp only [Bool.and_eq_true, decide_eq_true_eq] at kept
        simp [unsafeParts, kept.1, kept.2, up]
  · unfold joinPath
    dsimp only
    split
    · exact Or.inl rfl
    · exact Or.inr rfl

def enter (path : TreePath) (name : String) : TreePath := if name = ".." then path.dropLast else path ++ [name]

theorem enter_foldl (plain : ∀ name ∈ names, name ≠ "..") (path : TreePath) : names.foldl enter path = path ++ names := by
  induction names generalizing path with
  | nil => rw [List.foldl_nil, List.append_nil]
  | cons name rest ih =>
    rw [List.forall_mem_cons] at plain
    rw [List.foldl_cons, enter, if_neg plain.1, ih plain.2, List.append_assoc, List.singleton_append]

theorem lexical_plain (plain : ∀ name ∈ names, name ≠ "..") : Tree.lexical names = names := enter_foldl plain []

theorem mem_foldl_enter {path : TreePath} {part : String} (member : part ∈ names.foldl enter path) :
    part ∈ path ∨ part ∈ names ∧ part ≠ ".." := by
  induction names generalizing path with
  | nil => exact Or.inl member
  | cons name rest ih =>
    rw [List.foldl_cons] at member
    rcases ih member with early | ⟨late, apart⟩
    · unfold enter at early
      by_cases up : name = ".."
      · rw [if_pos up] at early
        exact Or.inl (List.dropLast_subset _ early)
      · rw [if_neg up, List.mem_append, List.mem_singleton] at early
        rcases early with old | rfl
        · exact Or.inl old
        · exact Or.inr ⟨List.mem_cons_self, up⟩
    · exact Or.inr ⟨List.mem_cons_of_mem _ late, apart⟩

/-- What is reached from a directory of plain names has plain names. -/
theorem lexical_safe {relative : String} (safe : ∀ part ∈ base, SafePart part) :
    ∀ part ∈ Tree.lexical (joinPath base relative), SafePart part := by
  intro part member
  obtain ⟨names, parts, shape⟩ := joinPath_names base relative
  obtain ⟨listed, apart⟩ := (mem_foldl_enter member).resolve_left List.not_mem_nil
  rcases shape with absolute | below
  · rw [absolute] at listed
    exact (parts part listed).resolve_left apart
  · rw [below, List.mem_append] at listed
    rcases listed with above | inside
    · exact safe part above
    · exact (parts part inside).resolve_left apart

end Paths

end DarkFactory
