import DarkFactory.Sdd.Paths
import Mathlib.Data.List.Infix

namespace DarkFactory

def placeText (names : List String) (text : DocText) : EStateM SddFailure Tree Unit := do
  makeDirectories names.dropLast
  writeText (Tree.lexical names) text

section Observed

variable {tree before after : Tree} {path other : TreePath} {content : Content} {text : DocText} {names : List String}

theorem Tree.isFile_iff : tree.isFile path = true ↔ ∃ file ∈ tree.files, file.1 = path := by
  unfold Tree.isFile Tree.content
  rw [Option.isSome_map]
  constructor
  · intro found
    obtain ⟨file, held⟩ := Option.isSome_iff_exists.mp found
    obtain ⟨member, same⟩ := Table.find_some held
    exact ⟨file, member, same⟩
  · rintro ⟨file, member, same⟩
    by_contra absent
    rw [Bool.not_eq_true, Option.isSome_eq_false_iff, Option.isNone_iff_eq_none] at absent
    exact Table.find_none.mp absent file member same

theorem Tree.isDir_iff : tree.isDir path = true ↔
    path = [] ∨ (∃ below, tree.isFile below = true ∧ path <+: below ∧ path ≠ below) ∨
      ∃ folder ∈ tree.folders, path <+: folder := by
  unfold Tree.isDir
  simp only [Bool.or_eq_true, decide_eq_true_eq, List.any_eq_true, Bool.and_eq_true, List.isPrefixOf_iff_prefix, or_assoc]
  refine or_congr_right (or_congr_left ?_)
  constructor
  · rintro ⟨file, member, above, apart⟩
    exact ⟨file.1, Tree.isFile_iff.mpr ⟨file, member, rfl⟩, above, apart⟩
  · rintro ⟨below, held, above, apart⟩
    obtain ⟨file, member, rfl⟩ := Tree.isFile_iff.mp held
    exact ⟨file, member, above, apart⟩

theorem Tree.isDir_above (dir : tree.isDir other = true) (above : path <+: other) : tree.isDir path = true := by
  rw [Tree.isDir_iff] at dir ⊢
  rcases dir with empty | ⟨below, held, short, apart⟩ | ⟨folder, member, short⟩
  · subst empty
    exact Or.inl (List.prefix_nil.mp above)
  · refine Or.inr (Or.inl ⟨below, held, above.trans short, ?_⟩)
    rintro rfl
    exact apart (short.eq_of_length_le above.length_le)
  · exact Or.inr (Or.inr ⟨folder, member, above.trans short⟩)

theorem mem_entries : path ∈ tree.entries ↔
    (∃ file ∈ tree.files, path <+: file.1) ∨ ∃ folder ∈ tree.folders, path <+: folder := by
  unfold Tree.entries
  simp only [List.mem_dedup, List.mem_flatMap, List.mem_append, List.mem_map, List.mem_inits]
  constructor
  · rintro ⟨whole, ⟨file, member, rfl⟩ | member, above⟩
    · exact Or.inl ⟨file, member, above⟩
    · exact Or.inr ⟨whole, member, above⟩
  · rintro (⟨file, member, above⟩ | ⟨folder, member, above⟩)
    · exact ⟨file.1, Or.inl ⟨file, member, rfl⟩, above⟩
    · exact ⟨folder, Or.inr member, above⟩

theorem entries_iff (occupied : path ≠ []) :
    path ∈ tree.entries ↔ tree.isFile path = true ∨ tree.isDir path = true := by
  rw [mem_entries, Tree.isDir_iff]
  constructor
  · rintro (⟨file, member, above⟩ | ⟨folder, member, above⟩)
    · by_cases same : path = file.1
      · exact Or.inl (Tree.isFile_iff.mpr ⟨file, member, same.symm⟩)
      · exact Or.inr (Or.inr (Or.inl ⟨file.1, Tree.isFile_iff.mpr ⟨file, member, rfl⟩, above, same⟩))
    · exact Or.inr (Or.inr (Or.inr ⟨folder, member, above⟩))
  · rintro (held | empty | ⟨below, held, above, -⟩ | ⟨folder, member, above⟩)
    · obtain ⟨file, member, rfl⟩ := Tree.isFile_iff.mp held
      exact Or.inl ⟨file, member, List.prefix_rfl⟩
    · exact absurd empty occupied
    · obtain ⟨file, member, rfl⟩ := Tree.isFile_iff.mp held
      exact Or.inl ⟨file, member, above⟩
    · exact Or.inr ⟨folder, member, above⟩

theorem isFile_of_files (same : KeepsFiles before after) : before.isFile path = after.isFile path := by
  rw [Tree.isFile, Tree.isFile, Tree.content_of_files same]

theorem isDir_of_files {added : List TreePath} (files : after.files = before.files)
    (folders : after.folders = before.folders ++ added) (path : TreePath) :
    after.isDir path = true ↔ before.isDir path = true ∨ ∃ folder ∈ added, path <+: folder := by
  have same (below : TreePath) : after.isFile below = before.isFile below := isFile_of_files files
  rw [Tree.isDir_iff, Tree.isDir_iff, folders]
  simp only [same, List.mem_append, or_and_right, exists_or, or_assoc]

theorem makeDirectory_ok : makeDirectory path before = .ok () after ↔
    before.isFile path = false ∧ after = if before.isDir path then before else before.makeFolder path := by
  unfold makeDirectory
  rw [Outcome.perform_ok]
  cases before.isFile path with
  | true => exact ⟨nofun, fun made => absurd made.1 (by decide)⟩
  | false =>
    rw [if_neg (by decide), Except.ok.injEq, Prod.mk.injEq, eq_comm (a := after)]
    simp

theorem makeDirectory_isDir (made : makeDirectory path before = .ok () after) (other : TreePath) :
    after.isDir other = true ↔ before.isDir other = true ∨ other <+: path := by
  obtain ⟨-, rfl⟩ := makeDirectory_ok.mp made
  by_cases there : before.isDir path = true
  · rw [if_pos there]
    exact ⟨Or.inl, fun either => either.elim id fun above => Tree.isDir_above there above⟩
  · have added : (before.makeFolder path).folders = before.folders ++ [path] := rfl
    have files : (before.makeFolder path).files = before.files := rfl
    rw [if_neg there, isDir_of_files files added]
    simp

theorem makeEach_ok {ways : List TreePath} (plain : ∀ way ∈ ways, Tree.lexical way = way) :
    (∃ after, Outcome.forEach (fun way => makeDirectory (Tree.lexical way)) ways before = .ok () after) ↔
      ∀ way ∈ ways, before.isFile way = false := by
  induction ways generalizing before with
  | nil => simp [Outcome.forEach_nil_ok]
  | cons way rest ih =>
    rw [List.forall_mem_cons] at plain
    rw [List.forall_mem_cons]
    constructor
    · rintro ⟨after, made⟩
      obtain ⟨middle, first, others⟩ := Outcome.forEach_cons_ok.mp made
      rw [plain.1] at first
      obtain ⟨free, shape⟩ := makeDirectory_ok.mp first
      have kept : KeepsFiles before middle := by
        rw [shape]
        split <;> rfl
      refine ⟨free, fun other member => ?_⟩
      rw [isFile_of_files kept]
      exact (ih plain.2).mp ⟨after, others⟩ other member
    · rintro ⟨free, others⟩
      have first : makeDirectory way before = .ok () (if before.isDir way then before else before.makeFolder way) :=
        makeDirectory_ok.mpr ⟨free, rfl⟩
      have kept : KeepsFiles before (if before.isDir way then before else before.makeFolder way) := by
        split <;> rfl
      obtain ⟨after, rest⟩ := (ih plain.2).mpr fun other member => by
        rw [← isFile_of_files kept]
        exact others other member
      exact ⟨after, Outcome.forEach_cons_ok.mpr ⟨_, by rw [plain.1]; exact first, rest⟩⟩

theorem makeEach_isDir {ways : List TreePath} (plain : ∀ way ∈ ways, Tree.lexical way = way)
    (made : Outcome.forEach (fun way => makeDirectory (Tree.lexical way)) ways before = .ok () after) (path : TreePath) :
    after.isDir path = true ↔ before.isDir path = true ∨ ∃ way ∈ ways, path <+: way := by
  induction ways generalizing before with
  | nil =>
    rw [Outcome.forEach_nil_ok.mp made]
    simp
  | cons way rest ih =>
    rw [List.forall_mem_cons] at plain
    obtain ⟨middle, first, others⟩ := Outcome.forEach_cons_ok.mp made
    rw [plain.1] at first
    rw [ih plain.2 others, makeDirectory_isDir first]
    simp [or_assoc]

section Directories

variable (plain : ∀ name ∈ names, name ≠ "..")
include plain

theorem lexical_inits : ∀ way ∈ names.inits, Tree.lexical way = way := by
  intro way member
  exact lexical_plain fun name inside => plain name (((List.mem_inits _ _).mp member).subset inside)

theorem makeDirectories_ok :
    (∃ after, makeDirectories names before = .ok () after) ↔ ∀ way, way <+: names → before.isFile way = false := by
  unfold makeDirectories
  rw [makeEach_ok (lexical_inits plain)]
  simp only [List.mem_inits]

theorem makeDirectories_isDir (made : makeDirectories names before = .ok () after) (path : TreePath) :
    after.isDir path = true ↔ before.isDir path = true ∨ path <+: names := by
  rw [makeEach_isDir (lexical_inits plain) made]
  refine or_congr_right ⟨?_, fun above => ⟨names, (List.mem_inits _ _).mpr List.prefix_rfl, above⟩⟩
  rintro ⟨way, member, above⟩
  exact above.trans ((List.mem_inits _ _).mp member)

end Directories

/-- A file can be put at the path: no directory stands there, and no file above it. -/
structure Tree.Open (tree : Tree) (path : TreePath) : Prop where
  above : ∀ way, way <+: path → way ≠ path → tree.isFile way = false
  apart : tree.isDir path = false

structure Placed (path : TreePath) (text : DocText) (before after : Tree) : Prop where
  content : ∀ other, after.content other = if other = path then some (.text text) else before.content other
  dirs : ∀ other, after.isDir other = true ↔ before.isDir other = true ∨ (other <+: path ∧ other ≠ path)

theorem Placed.isFile (placed : Placed path text before after) (other : TreePath) :
    after.isFile other = true ↔ other = path ∨ before.isFile other = true := by
  unfold Tree.isFile
  rw [placed.content]
  by_cases here : other = path <;> simp [here]

theorem prefix_dropLast (occupied : path ≠ []) : other <+: path.dropLast ↔ other <+: path ∧ other ≠ path := by
  have whole := List.dropLast_append_getLast occupied
  constructor
  · intro above
    refine ⟨above.trans (List.dropLast_prefix path), ?_⟩
    rintro rfl
    have short := above.length_le
    rw [List.length_dropLast] at short
    have := List.length_pos_of_ne_nil occupied
    omega
  · rintro ⟨above, apart⟩
    rw [← whole, List.prefix_concat_iff, whole] at above
    exact above.resolve_left apart

section Place

variable (occupied : names ≠ []) (plain : ∀ name ∈ names, name ≠ "..")
include occupied plain

theorem placeText_ok : (∃ after, placeText names text before = .ok () after) ↔ before.Open names := by
  have behind : ∀ name ∈ names.dropLast, name ≠ ".." := fun name member => plain name (List.dropLast_subset _ member)
  have outside : ¬ names <+: names.dropLast := fun above => ((prefix_dropLast occupied).mp above).2 rfl
  unfold placeText
  rw [lexical_plain plain]
  constructor
  · rintro ⟨after, done⟩
    obtain ⟨_, middle, made, written⟩ := Outcome.state_bind_ok.mp done
    have free := (makeDirectories_ok behind).mp ⟨middle, made⟩
    rw [writeText, Outcome.perform_ok] at written
    split at written
    · cases written
    · rename_i apart
      refine ⟨fun way above differs => free way ((prefix_dropLast occupied).mpr ⟨above, differs⟩), ?_⟩
      rw [makeDirectories_isDir behind made, not_or] at apart
      exact Bool.eq_false_iff.mpr apart.1
  · rintro ⟨above, apart⟩
    obtain ⟨middle, made⟩ := (makeDirectories_ok behind).mpr fun way inside =>
      above way ((prefix_dropLast occupied).mp inside).1 ((prefix_dropLast occupied).mp inside).2
    have stands : middle.isDir names = false := by
      rw [Bool.eq_false_iff, ne_eq, makeDirectories_isDir behind made, not_or]
      exact ⟨Bool.eq_false_iff.mp apart, outside⟩
    refine ⟨middle.write names (.text text), Outcome.state_bind_ok.mpr ⟨(), middle, made, ?_⟩⟩
    rw [writeText, Outcome.perform_ok, if_neg (by rw [stands]; decide)]

theorem placeText_placed (done : placeText names text before = .ok () after) : Placed names text before after := by
  have behind : ∀ name ∈ names.dropLast, name ≠ ".." := fun name member => plain name (List.dropLast_subset _ member)
  unfold placeText at done
  rw [lexical_plain plain] at done
  obtain ⟨_, middle, made, written⟩ := Outcome.state_bind_ok.mp done
  have files : KeepsFiles before middle := makeDirectories_files.ok made
  obtain rfl := writeText_ok written
  constructor
  · intro other
    by_cases here : other = names
    · subst here
      rw [if_pos rfl]
      exact Tree.content_write_self
    · rw [if_neg here, Tree.content_write_other here, Tree.content_of_files files]
  · intro other
    have wrote (below : TreePath) : (middle.write names (.text text)).isFile below = true ↔
        below = names ∨ middle.isFile below = true := by
      unfold Tree.isFile
      by_cases here : below = names
      · simp [here]
      · simp [here, Tree.content_write_other here]
    have dirs := makeDirectories_isDir behind made other
    rw [prefix_dropLast occupied] at dirs
    rw [← dirs]
    constructor
    · intro dir
      rw [Tree.isDir_iff] at dir
      rcases dir with empty | ⟨below, held, above, apart⟩ | ⟨folder, member, above⟩
      · exact Tree.isDir_iff.mpr (Or.inl empty)
      · rcases (wrote below).mp held with rfl | old
        · exact dirs.mpr (Or.inr ⟨above, apart⟩)
        · exact Tree.isDir_iff.mpr (Or.inr (Or.inl ⟨below, old, above, apart⟩))
      · exact Tree.isDir_iff.mpr (Or.inr (Or.inr ⟨folder, member, above⟩))
    · intro dir
      rw [Tree.isDir_iff] at dir ⊢
      rcases dir with empty | ⟨below, held, above, apart⟩ | ⟨folder, member, above⟩
      · exact Or.inl empty
      · exact Or.inr (Or.inl ⟨below, (wrote below).mpr (Or.inr held), above, apart⟩)
      · exact Or.inr (Or.inr ⟨folder, member, above⟩)

end Place

def Apart (path other : TreePath) : Prop := ¬(path <+: other ∧ path ≠ other) ∧ ¬(other <+: path ∧ other ≠ path)

instance (path other : TreePath) : Decidable (Apart path other) :=
  inferInstanceAs (Decidable (¬(path <+: other ∧ path ≠ other) ∧ ¬(other <+: path ∧ other ≠ path)))

theorem Placed.open_iff (placed : Placed path text before after) (occupied : path ≠ []) :
    after.Open other ↔ before.Open other ∧ Apart path other := by
  constructor
  · rintro ⟨above, apart⟩
    refine ⟨⟨fun way short differs => ?_, ?_⟩, ?_, ?_⟩
    · have free := above way short differs
      rw [Bool.eq_false_iff, ne_eq, placed.isFile, not_or] at free
      exact Bool.eq_false_iff.mpr free.2
    · rw [Bool.eq_false_iff, ne_eq, placed.dirs, not_or] at apart
      exact Bool.eq_false_iff.mpr apart.1
    · rintro ⟨short, differs⟩
      have free := above path short differs
      rw [Bool.eq_false_iff, ne_eq, placed.isFile] at free
      exact free (Or.inl rfl)
    · rintro ⟨short, differs⟩
      rw [Bool.eq_false_iff, ne_eq, placed.dirs] at apart
      exact apart (Or.inr ⟨short, differs⟩)
  · rintro ⟨⟨above, apart⟩, outside, beneath⟩
    constructor
    · intro way short differs
      rw [Bool.eq_false_iff, ne_eq, placed.isFile, not_or]
      refine ⟨?_, Bool.eq_false_iff.mp (above way short differs)⟩
      rintro rfl
      exact outside ⟨short, differs⟩
    · rw [Bool.eq_false_iff, ne_eq, placed.dirs, not_or]
      exact ⟨Bool.eq_false_iff.mp apart, beneath⟩

def placeAll (places : List (List String × DocText)) : EStateM SddFailure Tree Unit :=
  Outcome.forEach (fun place => placeText place.1 place.2) places

section All

variable {places : List (List String × DocText)} (each : ∀ place ∈ places, place.1 ≠ [] ∧ ∀ name ∈ place.1, name ≠ "..")
include each

theorem placeAll_ok : (∃ after, placeAll places before = .ok () after) ↔
    (∀ place ∈ places, before.Open place.1) ∧ places.Pairwise fun first second => Apart first.1 second.1 := by
  induction places generalizing before with
  | nil => simp [placeAll, Outcome.forEach_nil_ok]
  | cons place rest ih =>
    rw [List.forall_mem_cons] at each
    have later (middle : Tree) : (∃ after, placeAll rest middle = .ok () after) ↔
        (∀ place ∈ rest, middle.Open place.1) ∧ rest.Pairwise fun first second => Apart first.1 second.1 :=
      ih each.2
    rw [List.forall_mem_cons, List.pairwise_cons]
    constructor
    · rintro ⟨after, done⟩
      obtain ⟨middle, first, others⟩ := Outcome.forEach_cons_ok.mp done
      have placed := placeText_placed each.1.1 each.1.2 first
      obtain ⟨opens, sorted⟩ := (later middle).mp ⟨after, others⟩
      have both (other : List String × DocText) (member : other ∈ rest) :=
        (placed.open_iff each.1.1).mp (opens other member)
      exact ⟨⟨(placeText_ok each.1.1 each.1.2).mp ⟨middle, first⟩, fun other member => (both other member).1⟩,
        fun other member => (both other member).2, sorted⟩
    · rintro ⟨⟨first, others⟩, apart, sorted⟩
      obtain ⟨middle, done⟩ := (placeText_ok each.1.1 each.1.2).mpr first
      have placed : Placed place.1 place.2 before middle := placeText_placed each.1.1 each.1.2 done
      obtain ⟨after, rest⟩ := (later middle).mpr
        ⟨fun other member => (placed.open_iff each.1.1).mpr ⟨others other member, apart other member⟩, sorted⟩
      exact ⟨after, Outcome.forEach_cons_ok.mpr ⟨middle, done, rest⟩⟩

variable (done : placeAll places before = .ok () after)
include done

theorem placeAll_other (outside : ∀ place ∈ places, place.1 ≠ other) : after.content other = before.content other := by
  induction places generalizing before with
  | nil => rw [Outcome.forEach_nil_ok.mp done]
  | cons place rest ih =>
    rw [List.forall_mem_cons] at each outside
    obtain ⟨middle, first, others⟩ := Outcome.forEach_cons_ok.mp done
    rw [ih each.2 others outside.2, (placeText_placed each.1.1 each.1.2 first).content, if_neg (Ne.symm outside.1)]

theorem placeAll_content (distinct : (places.map Prod.fst).Nodup) :
    ∀ place ∈ places, after.content place.1 = some (.text place.2) := by
  induction places generalizing before with
  | nil => simp
  | cons place rest ih =>
    rw [List.map_cons, List.nodup_cons] at distinct
    have whole := each
    rw [List.forall_mem_cons] at each
    obtain ⟨middle, first, others⟩ := Outcome.forEach_cons_ok.mp done
    rw [List.forall_mem_cons]
    refine ⟨?_, ih each.2 others distinct.2⟩
    have later : ∀ other ∈ rest, other.1 ≠ place.1 := by
      intro other member same
      exact distinct.1 (List.mem_map.mpr ⟨other, member, same⟩)
    rw [placeAll_other each.2 others later, (placeText_placed each.1.1 each.1.2 first).content, if_pos rfl]

theorem placeAll_isFile (other : TreePath) :
    after.isFile other = true ↔ (∃ place ∈ places, place.1 = other) ∨ before.isFile other = true := by
  induction places generalizing before with
  | nil =>
    rw [Outcome.forEach_nil_ok.mp done]
    simp
  | cons place rest ih =>
    rw [List.forall_mem_cons] at each
    obtain ⟨middle, first, others⟩ := Outcome.forEach_cons_ok.mp done
    rw [ih each.2 others, (placeText_placed each.1.1 each.1.2 first).isFile]
    simp only [List.mem_cons, exists_eq_or_imp, eq_comm (a := other), or_left_comm, or_assoc]

theorem placeAll_isDir (other : TreePath) : after.isDir other = true ↔
    before.isDir other = true ∨ ∃ place ∈ places, other <+: place.1 ∧ other ≠ place.1 := by
  induction places generalizing before with
  | nil =>
    rw [Outcome.forEach_nil_ok.mp done]
    simp
  | cons place rest ih =>
    rw [List.forall_mem_cons] at each
    obtain ⟨middle, first, others⟩ := Outcome.forEach_cons_ok.mp done
    rw [ih each.2 others, (placeText_placed each.1.1 each.1.2 first).dirs]
    simp only [List.mem_cons, exists_eq_or_imp, or_assoc]

end All

end Observed

end DarkFactory
