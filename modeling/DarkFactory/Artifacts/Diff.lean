import DarkFactory.Artifacts.Service
import DarkFactory.Lib.EditScript
import DarkFactory.Sdd.Frontmatter

namespace DarkFactory

/-- `str.splitlines(keepends=True)`: a return with its newline ends one line. -/
def keptLines : DocText → List DocText
  | [] => []
  | '\r' :: '\n' :: rest => ['\r', '\n'] :: keptLines rest
  | c :: rest => if lineBreak c then [c] :: keptLines rest else Lines.extend c (keptLines rest)

structure Hunk where
  header : DocText
  edits : List (Edit DocText)
  marked : "@@".toList.isPrefixOf header = true

/-- `difflib`: a correct edit script of two texts, and hunks that show every change of it. -/
structure Difflib where
  script : List DocText → List DocText → List (Edit DocText)
  hunks : List DocText → List DocText → List Hunk
  source_script : ∀ before after, Edit.source (script before after) = before
  target_script : ∀ before after, Edit.target (script before after) = after
  shown : ∀ before after,
    ((hunks before after).flatMap Hunk.edits).filter Edit.changes = (script before after).filter Edit.changes

def Edit.line : Edit DocText → DocText
  | .keep line => ' ' :: line
  | .delete line => '-' :: line
  | .insert line => '+' :: line

structure DiffAddress where
  path : String
  fromRevision : String
  toRevision : String
  named : "" ∉ [path, fromRevision, toRevision]

structure ArtifactDiff where
  address : DiffAddress
  unified : DocText
  added : Nat := 0
  removed : Nat := 0

def ArtifactDiff.isEmpty (diff : ArtifactDiff) : Bool := diff.unified.isEmpty

/-- The lines of `difflib.unified_diff`: two headers and the hunks, nothing where no hunk is. -/
def unifiedLines (difflib : Difflib) (address : DiffAddress) (before after : List DocText) : List DocText :=
  let hunks := difflib.hunks before after
  if hunks.isEmpty then []
  else
    ("--- " ++ address.path ++ "@" ++ address.fromRevision ++ "\n").toList ::
    ("+++ " ++ address.path ++ "@" ++ address.toRevision ++ "\n").toList ::
    hunks.flatMap fun hunk => hunk.header :: hunk.edits.map Edit.line

/-- Of the lines with the sign, those that are not told apart as a header. -/
def signed (sign : Char) (line : DocText) : Bool :=
  [sign].isPrefixOf line && !([sign, sign, sign].isPrefixOf line)

def unifiedDiff (difflib : Difflib) (before after : DocText) (address : DiffAddress) : ArtifactDiff :=
  let lines := unifiedLines difflib address (keptLines before) (keptLines after)
  { address
    unified := lines.flatten
    added := lines.countP (signed '+')
    removed := lines.countP (signed '-') }

inductive DiffError
  | notFound (message : String)
  | validation
  deriving DecidableEq, Repr

def ArtifactService.diff (difflib : Difflib) (product : RepositoryRef)
    (repo : FakeRepository) (path fromRevision toRevision : String) : Except DiffError ArtifactDiff :=
  let before := ArtifactService.read product repo fromRevision path
  let after := ArtifactService.read product repo toRevision path
  if before.isNone && after.isNone then
    .error (.notFound ("artifact " ++ Text.repr path ++ " is at neither revision"))
  else if named : "" ∉ [path, fromRevision, toRevision] then
    .ok (unifiedDiff difflib (before.getD "").toList (after.getD "").toList ⟨path, fromRevision, toRevision, named⟩)
  else .error .validation

section Lines

variable {text : DocText} {c : Char} {lines : List DocText}

theorem length_extend : (Lines.extend c lines).length = max 1 lines.length := by
  cases lines with
  | nil => rfl
  | cons line rest =>
    simp only [Lines.extend, List.length_cons]
    omega

theorem newlines_unreturned (other : text.head? ≠ some '\n') : newlines true text = newlines false text := by
  cases text with
  | nil => rfl
  | cons first rest =>
    have plain : first ≠ '\n' := fun same => other (congrArg some same)
    simp [newlines, plain]

theorem splitlines_cons (other : ¬ (c = '\r' ∧ text.head? = some '\n')) :
    splitlines (c :: text) = if lineBreak c then [] :: splitlines text else Lines.extend c (splitlines text) := by
  unfold splitlines
  by_cases returned : c = '\r'
  · subst returned
    have unread : text.head? ≠ some '\n' := fun same => other ⟨rfl, same⟩
    rw [newlines, if_pos rfl, newlines_unreturned unread, Lines.split]
    rfl
  · rw [newlines, if_neg returned, if_neg (by simp), Lines.split]

theorem length_keptLines (text : DocText) : (keptLines text).length = (splitlines text).length := by
  fun_induction keptLines text with
  | case1 => rfl
  | case2 rest ih =>
    have line : splitlines ('\r' :: '\n' :: rest) = [] :: splitlines rest := by
      simp [splitlines, newlines, Lines.split, lineBreak]
    rw [line, List.length_cons, List.length_cons, ih]
  | case3 c rest other breaks ih =>
    have single : ¬ (c = '\r' ∧ rest.head? = some '\n') := by
      rintro ⟨rfl, next⟩
      obtain ⟨tail, rfl⟩ := List.head?_eq_some_iff.mp next
      exact other tail rfl rfl
    rw [splitlines_cons single, if_pos breaks, List.length_cons, List.length_cons, ih]
  | case4 c rest other plain ih =>
    have single : ¬ (c = '\r' ∧ rest.head? = some '\n') := by
      rintro ⟨rfl, -⟩
      exact plain (by decide)
    rw [splitlines_cons single, if_neg plain, length_extend, length_extend, ih]

end Lines

section Counts

variable {sign : Char} {edits script : List (Edit DocText)} {difflib : Difflib} {address : DiffAddress}

def Edit.marked (sign : Char) : Edit DocText → Option DocText
  | .keep _ => none
  | .delete line => if sign = '-' then some line else none
  | .insert line => if sign = '+' then some line else none

theorem countP_signed (solid : sign ≠ ' ') : (edits.map Edit.line).countP (signed sign) =
    (edits.filterMap (Edit.marked sign)).countP fun line => !([sign, sign].isPrefixOf line) := by
  induction edits with
  | nil => rfl
  | cons edit rest ih =>
    rw [List.map_cons, List.countP_cons, ih, List.filterMap_cons]
    cases edit with
    | keep line => simp [Edit.line, Edit.marked, signed, solid]
    | delete line => by_cases same : sign = '-' <;> simp [Edit.line, Edit.marked, signed, same, List.countP_cons]
    | insert line => by_cases same : sign = '+' <;> simp [Edit.line, Edit.marked, signed, same, List.countP_cons]

theorem filterMap_inserted : edits.filterMap (Edit.marked '+') = Edit.inserted edits := by
  apply List.filterMap_congr
  intro edit _
  cases edit <;> rfl

theorem filterMap_deleted : edits.filterMap (Edit.marked '-') = Edit.deleted edits := by
  apply List.filterMap_congr
  intro edit _
  cases edit <;> rfl

theorem header_unsigned (hunk : Hunk) (other : sign ≠ '@') : signed sign hunk.header = false := by
  obtain ⟨tail, shape⟩ := List.isPrefixOf_iff_prefix.mp hunk.marked
  rw [← shape]
  simp [signed, other]

theorem tripled_unsigned (mark : Char) (tail : DocText) : signed sign (mark :: mark :: mark :: tail) = false := by
  by_cases same : sign = mark
  · simp [signed, same]
  · simp [signed, same]

/-- The two headers start with three signs and the hunk headers with none: only edits are counted. -/
theorem countP_unifiedLines {before after : List DocText} (solid : sign ≠ ' ') (other : sign ≠ '@') :
    (unifiedLines difflib address before after).countP (signed sign) =
      (((difflib.hunks before after).flatMap Hunk.edits).filterMap (Edit.marked sign)).countP
        fun line => !([sign, sign].isPrefixOf line) := by
  have hunks (hunks : List Hunk) : (hunks.flatMap fun hunk => hunk.header :: hunk.edits.map Edit.line).countP
      (signed sign) = ((hunks.flatMap Hunk.edits).filterMap (Edit.marked sign)).countP
        fun line => !([sign, sign].isPrefixOf line) := by
    induction hunks with
    | nil => rfl
    | cons hunk rest ih =>
      rw [List.flatMap_cons, List.flatMap_cons, List.countP_append, List.countP_cons, countP_signed solid, ih,
        header_unsigned hunk other, List.filterMap_append, List.countP_append]
      rfl
  have heads (path : String) : signed sign ("--- " ++ path).toList = false ∧ signed sign ("+++ " ++ path).toList = false := by
    rw [String.toList_append, String.toList_append]
    exact ⟨tripled_unsigned '-' _, tripled_unsigned '+' _⟩
  unfold unifiedLines
  dsimp only
  by_cases unchanged : (difflib.hunks before after).isEmpty = true
  · rw [if_pos unchanged, List.isEmpty_iff.mp unchanged]
    rfl
  · rw [if_neg unchanged, List.countP_cons, List.countP_cons, hunks]
    simp only [String.append_assoc, heads, Bool.false_eq_true, if_false, Nat.add_zero]

theorem added_eq {before after : DocText} : (unifiedDiff difflib before after address).added =
    (Edit.inserted (difflib.script (keptLines before) (keptLines after))).countP
      fun line => !("++".toList.isPrefixOf line) := by
  rw [← Edit.inserted_changes, ← difflib.shown, Edit.inserted_changes, ← filterMap_inserted]
  exact countP_unifiedLines (by decide) (by decide)

theorem removed_eq {before after : DocText} : (unifiedDiff difflib before after address).removed =
    (Edit.deleted (difflib.script (keptLines before) (keptLines after))).countP
      fun line => !("--".toList.isPrefixOf line) := by
  rw [← Edit.deleted_changes, ← difflib.shown, Edit.deleted_changes, ← filterMap_deleted]
  exact countP_unifiedLines (by decide) (by decide)

end Counts

/-- The counts of the diff are those of the edit script, and their difference is that of the line counts. -/
def CountsScript (difflib : Difflib) (before after : DocText) (address : DiffAddress) : Prop :=
  let script := difflib.script (keptLines before) (keptLines after)
  let diff := unifiedDiff difflib before after address
  (diff.added = (Edit.inserted script).length ∧ diff.removed = (Edit.deleted script).length) ∧
    (diff.added : Int) - diff.removed = (splitlines after).length - (splitlines before).length

/-- No changed line reads like a header under its sign. -/
def Headless (difflib : Difflib) (before after : DocText) : Prop :=
  let script := difflib.script (keptLines before) (keptLines after)
  (∀ line ∈ Edit.inserted script, "++".toList.isPrefixOf line = false) ∧
    ∀ line ∈ Edit.deleted script, "--".toList.isPrefixOf line = false

section Exact

variable {difflib : Difflib} {address : DiffAddress} {before after : DocText}

theorem counts_iff :
    (unifiedDiff difflib before after address).added =
        (Edit.inserted (difflib.script (keptLines before) (keptLines after))).length ∧
      (unifiedDiff difflib before after address).removed =
        (Edit.deleted (difflib.script (keptLines before) (keptLines after))).length ↔
    Headless difflib before after := by
  have all {lines : List DocText} {mark : DocText} :
      (lines.countP fun line => !(mark.isPrefixOf line)) = lines.length ↔
        ∀ line ∈ lines, mark.isPrefixOf line = false := by
    rw [List.countP_eq_length]
    simp
  rw [added_eq, removed_eq, all, all]
  rfl

end Exact

/-- The counts of a diff are exact if and only if no changed line reads like a header. -/
theorem diff_counts_iff (difflib : Difflib) (before after : DocText) (address : DiffAddress) :
    CountsScript difflib before after address ↔ Headless difflib before after := by
  unfold CountsScript
  dsimp only
  rw [counts_iff]
  constructor
  · intro counts
    exact counts.1
  · intro headless
    have balance := Edit.length_balance (difflib.script (keptLines before) (keptLines after))
    rw [difflib.source_script, difflib.target_script, length_keptLines, length_keptLines] at balance
    obtain ⟨added, removed⟩ := (@counts_iff difflib address before after).mpr headless
    refine ⟨headless, ?_⟩
    omega

def formatRange (length : Nat) : String :=
  if length = 1 then "1" else if length = 0 then "0,0" else s!"1,{length}"

/-- A `difflib` that finds no common line of different texts. -/
def wholesaleDifflib : Difflib where
  script := Edit.wholesale
  hunks before after :=
    if before = after then []
    else [{ header := "@@ -".toList ++ (formatRange before.length ++ " +" ++ formatRange after.length ++ " @@\n").toList
            edits := Edit.wholesale before after
            marked := rfl }]
  source_script := Edit.source_wholesale
  target_script := Edit.target_wholesale
  shown before after := by
    by_cases same : before = after
    · rw [if_pos same, Edit.wholesale_changes, if_pos same]
      rfl
    · rw [if_neg same, List.flatMap_singleton]

/-- Taking a document with a frontmatter away counts one line of three. -/
theorem delimiters_not_counted :
    ¬ ∀ difflib before after address, CountsScript difflib before after address := by
  intro exact
  have counts := (exact wholesaleDifflib "---\ntitle: Export\n---\n".toList []
    ⟨"spec.md", "c1", "c2", by decide⟩).1.2
  revert counts
  decide +kernel

theorem ArtifactService.diff_ok {difflib : Difflib} {product : RepositoryRef} {repo : FakeRepository}
    {path fromRevision toRevision : String} {diff : ArtifactDiff}
    (answered : ArtifactService.diff difflib product repo path fromRevision toRevision = .ok diff) :
    diff = unifiedDiff difflib ((ArtifactService.read product repo fromRevision path).getD "").toList
      ((ArtifactService.read product repo toRevision path).getD "").toList diff.address := by
  unfold ArtifactService.diff at answered
  dsimp only at answered
  split at answered
  · cases answered
  · split at answered
    · cases answered
      rfl
    · cases answered

theorem ArtifactService.diff_counts {difflib : Difflib} {product : RepositoryRef} {repo : FakeRepository}
    {path fromRevision toRevision : String} {diff : ArtifactDiff}
    (answered : ArtifactService.diff difflib product repo path fromRevision toRevision = .ok diff) :
    let before := ((ArtifactService.read product repo fromRevision path).getD "").toList
    let after := ((ArtifactService.read product repo toRevision path).getD "").toList
    let script := difflib.script (keptLines before) (keptLines after)
    diff.added = (Edit.inserted script).length ∧ diff.removed = (Edit.deleted script).length ↔
      Headless difflib before after := by
  dsimp only
  rw [ArtifactService.diff_ok answered]
  exact counts_iff

end DarkFactory
