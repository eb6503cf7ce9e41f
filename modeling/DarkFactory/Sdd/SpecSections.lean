import DarkFactory.Lib.ClosedLines
import DarkFactory.Sdd.Native
import Mathlib.Data.List.Chain

namespace DarkFactory

/-! ## Names of requirements -/

def Ascii (text : DocText) : Prop := ∀ c ∈ text, c.toNat < 128

/-- `str.title` on ASCII: a letter is small behind a letter, and a capital elsewhere. -/
def asciiTitle (inWord : Bool) : DocText → DocText
  | [] => []
  | c :: rest => (if inWord then c.toLower else c.toUpper) :: asciiTitle c.isAlpha rest

/-- The case methods of `str`: beyond ASCII they follow the Unicode tables. -/
structure CaseMethods where
  lower : DocText → DocText
  title : DocText → DocText
  lower_ascii : ∀ text, Ascii text → lower text = text.map Char.toLower
  title_ascii : ∀ text, Ascii text → title text = asciiTitle false text

/-- Each run of characters out of `[^a-z0-9]` as one dash; `inRun` tells that the run before has its dash. -/
def dashRuns (inRun : Bool) : DocText → DocText
  | [] => []
  | c :: rest =>
    if lowerOrDigit c then c :: dashRuns false rest
    else if inRun then dashRuns true rest
    else '-' :: dashRuns true rest

def stripDashes (text : DocText) : DocText := Lines.strip (· = '-') text

section Names

variable (methods : CaseMethods)

def kebab (name : DocText) : DocText :=
  let slug := stripDashes (dashRuns false (methods.lower name))
  if slug = [] then "requirement".toList else slug

def requirementId (product capability : String) (name : DocText) : String :=
  "req:" ++ product ++ ":" ++ capability ++ ":" ++ String.ofList (kebab methods name)

/-- `name.replace("-", " ").title()` -/
def titled (name : DocText) : DocText := methods.title (name.map fun c => if c = '-' then ' ' else c)

end Names

/-! ## The sections of a specification -/

inductive SpecKind
  | added | modified | removed
  deriving DecidableEq, Repr

def SpecKind.value : SpecKind → String
  | .added => "ADDED"
  | .modified => "MODIFIED"
  | .removed => "REMOVED"

def specKinds : List SpecKind := [.added, .modified, .removed]

def sectionHeading (kind : SpecKind) : DocText := "## ".toList ++ kind.value.toList ++ " Requirements".toList

def requirementHead : DocText := "### Requirement: ".toList

/-- `^## (ADDED|MODIFIED|REMOVED) Requirements\s*$` on the trimmed line: no white space is left at its end. -/
def sectionKind (line : DocText) : Option SpecKind :=
  specKinds.find? fun kind => stripText line = sectionHeading kind

abbrev SpecName := {name : DocText // name ≠ []}

def SpecName.of (text : DocText) : Option SpecName := if named : text ≠ [] then some ⟨text, named⟩ else none

/-- `^### Requirement: (.+?)\s*$` on the trimmed line: the name reaches to its end. -/
def requirementName (line : DocText) : Option SpecName :=
  if requirementHead.isPrefixOf (stripText line) then SpecName.of ((stripText line).drop requirementHead.length)
  else none

@[ext] structure SpecEntry where
  kind : SpecKind
  name : SpecName
  body : DocText
  deriving DecidableEq

/-- The loop over the lines: the blocks it has closed, and the one it is in. -/
structure SpecScan where
  entries : List (SpecKind × SpecName × List DocText) := []
  kind : Option SpecKind := none
  name : Option SpecName := none
  buffer : List DocText := []

namespace SpecScan

variable (scan : SpecScan)

def closed : List (SpecKind × SpecName × List DocText) :=
  match scan.kind, scan.name with
  | some kind, some name => scan.entries ++ [(kind, name, scan.buffer)]
  | _, _ => scan.entries

def line (line : DocText) : SpecScan :=
  match sectionKind line with
  | some kind => { entries := scan.closed, kind := some kind }
  | none =>
    match requirementName line with
    | some name => { entries := scan.closed, kind := scan.kind, name := some name }
    | none =>
      match scan.kind, scan.name with
      | some _, some _ => { scan with buffer := scan.buffer ++ [line] }
      | _, _ => scan

def parsed : List SpecEntry := scan.closed.map fun entry => ⟨entry.1, entry.2.1, stripText (joinLines entry.2.2)⟩

def lines (lines : List DocText) : SpecScan := lines.foldl line scan

end SpecScan

def parseSpecSections (text : DocText) : List SpecEntry := (SpecScan.lines {} (splitlines text)).parsed

def requirementBlock (title body : DocText) : DocText :=
  stripText (requirementHead ++ title ++ "\n\n".toList ++ body)

def sectionLines (kind : SpecKind) (blocks : List DocText) : List DocText :=
  if blocks = [] then [] else sectionHeading kind :: [] :: (blocks ++ [[]])

def specText (capability : String) (blocks : SpecKind → List DocText) : DocText :=
  joinLines (("# ".toList ++ capability.toList ++ " specification".toList) :: [] ::
    specKinds.flatMap fun kind => sectionLines kind (blocks kind))

/-! ## Slugs -/

section Slugs

/-- Letters and digits with single dashes between them. -/
structure Slug (slug : DocText) : Prop where
  letters : ∀ c ∈ slug, lowerOrDigit c = true ∨ c = '-'
  single : slug.IsChain fun c d => ¬ (c = '-' ∧ d = '-')
  first : slug.head? ≠ some '-'
  last : slug.getLast? ≠ some '-'
  occupied : slug ≠ []

variable {methods : CaseMethods} {text slug name : DocText} {inRun : Bool} {c : Char}

theorem each_of_all {holds : Char → Prop} [DecidablePred holds] (all : text.all (fun c => holds c) = true) :
    ∀ c ∈ text, holds c := fun c member => of_decide_eq_true (List.all_eq_true.mp all c member)

theorem of_ascii {holds : Char → Prop} (every : ∀ n < 128, holds (Char.ofNat n)) (ascii : c.toNat < 128) : holds c := by
  have same := every c.toNat ascii
  rwa [Char.ofNat_toNat] at same

theorem lowerOrDigit_ascii (letter : lowerOrDigit c = true) : c.toNat < 128 := by
  unfold lowerOrDigit Char.isLower Char.isDigit at letter
  simp only [Bool.or_eq_true, Bool.and_eq_true, decide_eq_true_eq] at letter
  show c.val.toNat < 128
  rcases letter with small | digit
  · have high : c.val.toNat ≤ 122 := UInt32.le_iff_toNat_le.mp small.2
    omega
  · have high : c.val.toNat ≤ 57 := UInt32.le_iff_toNat_le.mp digit.2
    omega

theorem dashRuns_letters : ∀ c ∈ dashRuns inRun text, lowerOrDigit c = true ∨ c = '-' := by
  induction text generalizing inRun with
  | nil => simp [dashRuns]
  | cons first rest ih =>
    rw [dashRuns]
    split
    · rename_i letter
      rw [List.forall_mem_cons]
      exact ⟨Or.inl letter, ih⟩
    · split
      · exact ih
      · rw [List.forall_mem_cons]
        exact ⟨Or.inr rfl, ih⟩

theorem dashRuns_single : (dashRuns inRun text).IsChain (fun c d => ¬ (c = '-' ∧ d = '-')) ∧
    (inRun = true → (dashRuns inRun text).head? ≠ some '-') := by
  induction text generalizing inRun with
  | nil => simp [dashRuns]
  | cons first rest ih =>
    rw [dashRuns]
    split
    · rename_i letter
      have apart : first ≠ '-' := by
        rintro rfl
        exact absurd letter (by decide)
      refine ⟨List.isChain_cons.mpr ⟨fun next _ both => apart both.1, ih.1⟩, fun _ => ?_⟩
      simpa using apart
    · split
      · exact ⟨ih.1, fun _ => ih.2 rfl⟩
      · rename_i outside
        refine ⟨List.isChain_cons.mpr ⟨fun next here both => ?_, ih.1⟩, fun inside => absurd inside outside⟩
        rw [both.2] at here
        exact ih.2 rfl here

theorem strip_within {isSpace : Char → Bool} : Lines.strip isSpace text <:+: text := by
  have tail : text.dropWhile isSpace <:+ text := List.dropWhile_suffix _
  have head : Lines.strip isSpace text <+: text.dropWhile isSpace := List.rdropWhile_prefix _ _
  exact head.isInfix.trans tail.isInfix

theorem kebab_slug (methods : CaseMethods) (name : DocText) : Slug (kebab methods name) := by
  unfold kebab
  dsimp only
  split
  · exact ⟨each_of_all (by decide), by decide, by decide, by decide, by decide⟩
  · rename_i occupied
    have single : (stripDashes (dashRuns false (methods.lower name))).IsChain fun c d => ¬ (c = '-' ∧ d = '-') := by
      obtain ⟨front, back, whole⟩ := @strip_within (dashRuns false (methods.lower name)) (· = '-')
      have all := (@dashRuns_single (methods.lower name) false).1
      rw [← whole] at all
      exact all.left_of_append.right_of_append
    refine ⟨fun c member => dashRuns_letters c (Lines.mem_strip member), single, ?_, ?_, occupied⟩
    · intro here
      exact absurd (Lines.strip_first here) (by decide)
    · intro here
      exact absurd (Lines.strip_last here) (by decide)

theorem dashRuns_slug {shown : Char → Char} (keeps : ∀ c, lowerOrDigit c = true → shown c = c)
    (dash : lowerOrDigit (shown '-') = false) (letters : ∀ c ∈ text, lowerOrDigit c = true ∨ c = '-')
    (single : text.IsChain fun c d => ¬ (c = '-' ∧ d = '-')) (first : inRun = true → text.head? ≠ some '-') :
    dashRuns inRun (text.map shown) = text := by
  induction text generalizing inRun with
  | nil => rfl
  | cons c rest ih =>
    rw [List.forall_mem_cons] at letters
    rw [List.isChain_cons] at single
    rw [List.map_cons, dashRuns]
    rcases letters.1 with letter | rfl
    · rw [keeps c letter, if_pos letter, ih letters.2 single.2 (fun never => by cases never)]
    · have outside : inRun = false := by
        by_contra inside
        exact first (by simpa using inside) rfl
      have behind : rest.head? ≠ some '-' := fun here => single.1 '-' here ⟨rfl, rfl⟩
      rw [if_neg (by simp [dash]), if_neg (by simp [outside]), ih letters.2 single.2 (fun _ => behind)]

theorem Slug.strip (slugged : Slug slug) : stripDashes slug = slug := by
  apply Lines.strip_of_solid
  · intro c here
    have apart : c ≠ '-' := by
      rintro rfl
      exact slugged.first here
    simpa using apart
  · intro c here
    have apart : c ≠ '-' := by
      rintro rfl
      exact slugged.last here
    simpa using apart

theorem Slug.of_lower (slugged : Slug slug) {shown : Char → Char} (keeps : ∀ c, lowerOrDigit c = true → shown c = c)
    (dash : lowerOrDigit (shown '-') = false) (small : methods.lower text = slug.map shown) : kebab methods text = slug := by
  have read : dashRuns false (slug.map shown) = slug :=
    dashRuns_slug keeps dash slugged.letters slugged.single fun never => by cases never
  unfold kebab
  dsimp only
  rw [small, read, slugged.strip, if_neg slugged.occupied]

theorem Slug.ascii (slugged : Slug slug) : Ascii slug := by
  intro c member
  rcases slugged.letters c member with letter | rfl
  · exact lowerOrDigit_ascii letter
  · decide

theorem toLower_of_letter (letter : lowerOrDigit c = true) : c.toLower = c := by
  have every : ∀ n < 128, lowerOrDigit (Char.ofNat n) = true → (Char.ofNat n).toLower = Char.ofNat n := by decide
  exact @of_ascii c (fun c => lowerOrDigit c = true → c.toLower = c) every (lowerOrDigit_ascii letter) letter

theorem kebab_of_slug (slugged : Slug slug) : kebab methods slug = slug := by
  have keeps : ∀ c, lowerOrDigit c = true → Char.toLower c = c := fun c letter => toLower_of_letter letter
  apply slugged.of_lower keeps (by decide)
  exact methods.lower_ascii slug slugged.ascii

/-! ### Titles of slugs -/

def spaced (c : Char) : Char := if c = '-' then ' ' else c

theorem titled_eq : titled methods name = methods.title (name.map spaced) := rfl

theorem asciiTitle_lower (small : ∀ c ∈ text, c.toUpper.toLower = c ∧ c.toLower = c) (inWord : Bool) :
    (asciiTitle inWord text).map Char.toLower = text := by
  induction text generalizing inWord with
  | nil => rfl
  | cons c rest ih =>
    rw [List.forall_mem_cons] at small
    rw [asciiTitle, List.map_cons, ih small.2]
    congr 1
    cases inWord
    · exact small.1.1
    · rw [if_pos rfl, small.1.2, small.1.2]

theorem asciiTitle_ascii (ascii : Ascii text) (inWord : Bool) : Ascii (asciiTitle inWord text) := by
  have each : ∀ n < 128, (Char.ofNat n).toLower.toNat < 128 ∧ (Char.ofNat n).toUpper.toNat < 128 := by decide
  induction text generalizing inWord with
  | nil => exact fun c absent => absurd absent List.not_mem_nil
  | cons c rest ih =>
    unfold Ascii at ascii
    rw [List.forall_mem_cons] at ascii
    have here := @of_ascii c (fun c => c.toLower.toNat < 128 ∧ c.toUpper.toNat < 128) each ascii.1
    unfold Ascii asciiTitle
    rw [List.forall_mem_cons]
    refine ⟨?_, ih ascii.2 _⟩
    cases inWord
    · exact here.2
    · exact here.1

theorem Slug.spaced (slugged : Slug slug) : ∀ c ∈ slug.map spaced, lowerOrDigit c = true ∨ c = ' ' := by
  intro c member
  obtain ⟨d, inside, rfl⟩ := List.mem_map.mp member
  unfold DarkFactory.spaced
  rcases slugged.letters d inside with letter | rfl
  · rw [if_neg (by rintro rfl; exact absurd letter (by decide))]
    exact Or.inl letter
  · exact Or.inr rfl

theorem spaced_case (known : lowerOrDigit c = true ∨ c = ' ') : c.toNat < 128 ∧ c.toUpper.toLower = c ∧ c.toLower = c := by
  have every : ∀ n < 128, lowerOrDigit (Char.ofNat n) = true →
      (Char.ofNat n).toUpper.toLower = Char.ofNat n ∧ (Char.ofNat n).toLower = Char.ofNat n := by decide
  rcases known with letter | rfl
  · exact ⟨lowerOrDigit_ascii letter, @of_ascii c (fun c => lowerOrDigit c = true → c.toUpper.toLower = c ∧ c.toLower = c)
      every (lowerOrDigit_ascii letter) letter⟩
  · decide

theorem Slug.titled (slugged : Slug slug) : Ascii (titled methods slug) ∧
    (DarkFactory.titled methods slug).map Char.toLower = slug.map DarkFactory.spaced := by
  have known := slugged.spaced
  have ascii : Ascii (slug.map DarkFactory.spaced) := fun c member => (spaced_case (known c member)).1
  rw [titled_eq, methods.title_ascii _ ascii]
  exact ⟨asciiTitle_ascii ascii false, asciiTitle_lower (fun c member => (spaced_case (known c member)).2) false⟩

theorem kebab_titled (slugged : Slug slug) : kebab methods (titled methods slug) = slug := by
  obtain ⟨ascii, small⟩ := @Slug.titled methods slug slugged
  have keeps : ∀ c, lowerOrDigit c = true → spaced c = c := by
    intro c letter
    exact if_neg (by rintro rfl; exact absurd letter (by decide))
  exact slugged.of_lower keeps (by decide) ((methods.lower_ascii _ ascii).trans small)

end Slugs

/-! ## Scanning -/

section Scanning

variable {line text title body : DocText} {lines rest : List DocText} {scan : SpecScan} {kind : SpecKind} {name : SpecName}
  {parsed : List SpecEntry} {entry : SpecEntry}

def PlainLine (line : DocText) : Prop := sectionKind line = none ∧ requirementName line = none

theorem sectionKind_some : sectionKind line = some kind ↔ stripText line = sectionHeading kind := by
  unfold sectionKind
  constructor
  · intro found
    simpa using List.find?_some found
  · intro shape
    rw [shape]
    cases kind <;> decide

theorem SpecName.of_some : SpecName.of text = some name ↔ text = name.1 := by
  unfold SpecName.of
  constructor
  · intro found
    split at found
    · exact congrArg Subtype.val (Option.some.inj found)
    · cases found
  · rintro rfl
    rw [dif_pos name.2]

theorem requirementName_some : requirementName line = some name ↔ stripText line = requirementHead ++ name.1 := by
  unfold requirementName
  constructor
  · intro found
    split at found
    · rename_i head
      have whole := List.prefix_iff_eq_append.mp (List.isPrefixOf_iff_prefix.mp head)
      rw [← SpecName.of_some.mp found]
      exact whole.symm
    · cases found
  · intro shape
    have rest : (requirementHead ++ name.1).drop requirementHead.length = name.1 := List.drop_left
    have head : requirementHead.isPrefixOf (requirementHead ++ name.1) = true :=
      List.isPrefixOf_iff_prefix.mpr (List.prefix_append _ _)
    rw [shape, if_pos head, rest]
    exact SpecName.of_some.mpr rfl

theorem PlainLine.congr {other : DocText} (same : stripText line = stripText other) : PlainLine line ↔ PlainLine other := by
  unfold PlainLine sectionKind requirementName
  simp only [same]

theorem plainLine_empty : PlainLine [] := ⟨by decide, by decide⟩

theorem sectionKind_requirement (named : requirementName line = some name) : sectionKind line = none := by
  rw [requirementName_some] at named
  cases opens : sectionKind line with
  | none => rfl
  | some kind =>
    rw [sectionKind_some, named] at opens
    have marks := congrArg (List.take 3) opens
    rw [List.take_append_of_le_length (by decide)] at marks
    cases kind <;> exact absurd marks (by decide)

namespace SpecScan

theorem line_section (opens : sectionKind line = some kind) : (scan.line line).parsed = scan.parsed ∧
    (scan.line line).kind = some kind := by
  unfold SpecScan.line
  rw [opens]
  exact ⟨by simp [SpecScan.parsed, closed], rfl⟩

theorem line_requirement (named : requirementName line = some name) :
    scan.line line = { entries := scan.closed, kind := scan.kind, name := some name } := by
  unfold SpecScan.line
  rw [sectionKind_requirement named, named]

theorem line_inside (plain : PlainLine line) (inside : scan.kind = some kind) (begun : scan.name = some name) :
    scan.line line = { scan with buffer := scan.buffer ++ [line] } := by
  unfold SpecScan.line
  rw [plain.1, plain.2, inside, begun]

theorem line_outside (plain : PlainLine line) (outside : scan.kind = none ∨ scan.name = none) : scan.line line = scan := by
  unfold SpecScan.line
  rw [plain.1, plain.2]
  rcases outside with none | none
  · rw [none]
  · rw [none]
    cases scan.kind <;> rfl

theorem lines_append : scan.lines (lines ++ rest) = (scan.lines lines).lines rest := List.foldl_append

theorem lines_cons : scan.lines (line :: lines) = (scan.line line).lines lines := rfl

theorem lines_inside (plain : ∀ line ∈ lines, PlainLine line) (inside : scan.kind = some kind) (begun : scan.name = some name) :
    scan.lines lines = { scan with buffer := scan.buffer ++ lines } := by
  induction lines generalizing scan with
  | nil => simp [SpecScan.lines]
  | cons line rest ih =>
    rw [List.forall_mem_cons] at plain
    rw [lines_cons, line_inside plain.1 inside begun, ih plain.2 (by exact inside) (by exact begun)]
    simp

theorem line_blank : (scan.line []).parsed = scan.parsed ∧ (scan.line []).kind = scan.kind := by
  by_cases outside : scan.kind = none ∨ scan.name = none
  · rw [line_outside plainLine_empty outside]
    exact ⟨rfl, rfl⟩
  · rw [not_or] at outside
    obtain ⟨kind, inside⟩ := Option.ne_none_iff_exists'.mp outside.1
    obtain ⟨name, begun⟩ := Option.ne_none_iff_exists'.mp outside.2
    rw [line_inside plainLine_empty inside begun]
    refine ⟨?_, rfl⟩
    have same : stripText (joinLines (scan.buffer ++ [[]])) = stripText (joinLines scan.buffer) := by
      cases shape : scan.buffer with
      | nil => rfl
      | cons first others =>
        have closes : joinLines (first :: others ++ [[]]) = joinLines (first :: others) ++ ['\n'] :=
          Lines.join_snoc_empty (List.cons_ne_nil _ _)
        rw [closes]
        exact Lines.strip_behind (each_of_all (by decide))
    simp [SpecScan.parsed, closed, inside, begun, same]

theorem lines_requirement (named : requirementName line = some name) (inside : scan.kind = some kind)
    (plain : ∀ line ∈ rest, PlainLine line) : (scan.lines (line :: rest)).parsed =
      scan.parsed ++ [⟨kind, name, stripText (joinLines rest)⟩] ∧ (scan.lines (line :: rest)).kind = some kind := by
  rw [lines_cons, line_requirement named, lines_inside plain (by exact inside) rfl]
  refine ⟨?_, inside⟩
  simp [SpecScan.parsed, closed, inside]

end SpecScan

/-! ### What is parsed -/

structure SpecName.Ends (name : SpecName) : Prop where
  solid : ∀ last, name.1.getLast? = some last → Text.isSpace last = false
  inline : ∀ c ∈ name.1, lineBreak c = false

structure Printable (name : SpecName) (body : DocText) : Prop extends name.Ends where
  trimmed : stripText body = body
  breaks : PlainBreaks body
  plain : ∀ line ∈ Lines.split lineBreak (body ++ ['\n']), PlainLine line

structure BlockRead (name : SpecName) (lines : List DocText) : Prop extends name.Ends where
  lines : ∀ line ∈ lines, PlainLine line ∧ ∀ c ∈ line, lineBreak c = false

theorem stripText_behind {c : Char} (space : Text.isSpace c = true) : stripText (line ++ [c]) = stripText line :=
  Lines.strip_behind fun d member => by rw [List.mem_singleton.mp member]; exact space

theorem stripText_ahead {c : Char} (space : Text.isSpace c = true) : stripText (c :: line) = stripText line :=
  @Lines.strip_spaces Char Text.isSpace line [c] fun d member => by rw [List.mem_singleton.mp member]; exact space

theorem BlockRead.printable {lines : List DocText} (read : BlockRead name lines) :
    Printable name (stripText (joinLines lines)) where
  toEnds := read.toEnds
  trimmed := Lines.strip_strip
  breaks := by
    have joined : PlainBreaks (joinLines lines) := Lines.join_breaks fun line member => (read.lines line member).2
    exact joined.strip
  plain := by
    have breaks : lineBreak '\n' = true := by decide
    refine @Lines.split_strip Char lineBreak Text.isSpace '\n' (joinLines lines) PlainLine breaks ?_ ?_ ?_
    · intro c line space
      exact (PlainLine.congr (stripText_ahead space)).mp
    · intro c line space
      exact (PlainLine.congr (stripText_behind space)).mp
    · intro line member
      rcases Lines.mem_split_join breaks (fun line member => (read.lines line member).2) line member with rfl | inside
      · exact plainLine_empty
      · exact (read.lines line inside).1

theorem requirementName_read (named : requirementName line = some name) (free : ∀ c ∈ line, lineBreak c = false) :
    BlockRead name [] := by
  have shape : Lines.strip Text.isSpace line = requirementHead ++ name.1 := requirementName_some.mp named
  refine ⟨⟨?_, ?_⟩, fun line absent => absurd absent List.not_mem_nil⟩
  · intro last here
    apply @Lines.strip_last Char Text.isSpace line
    rw [shape, List.getLast?_append, here]
    rfl
  · intro c member
    apply free
    apply @Lines.mem_strip Char Text.isSpace line
    rw [shape]
    exact List.mem_append_right _ member

structure SpecScan.Sound (scan : SpecScan) : Prop where
  entries : ∀ entry ∈ scan.entries, BlockRead entry.2.1 entry.2.2
  open_ : ∀ name, scan.name = some name → BlockRead name scan.buffer

namespace SpecScan

theorem Sound.closed (sound : scan.Sound) : ∀ entry ∈ scan.closed, BlockRead entry.2.1 entry.2.2 := by
  unfold SpecScan.closed
  split
  · rename_i kind name inside begun
    intro entry member
    rcases List.mem_append.mp member with old | new
    · exact sound.entries entry old
    · rw [List.mem_singleton.mp new]
      exact sound.open_ name begun
  · exact sound.entries

theorem Sound.stepped (sound : scan.Sound) (free : ∀ c ∈ line, lineBreak c = false) : (scan.line line).Sound := by
  unfold SpecScan.line
  cases opens : sectionKind line with
  | some kind => exact ⟨sound.closed, fun name none => by cases none⟩
  | none =>
    dsimp only
    cases named : requirementName line with
    | some name =>
      refine ⟨sound.closed, fun other same => ?_⟩
      obtain rfl := Option.some.inj same
      exact requirementName_read named free
    | none =>
      dsimp only
      split
      · rename_i kind name inside begun
        refine ⟨sound.entries, fun other same => ?_⟩
        have read := sound.open_ other same
        refine ⟨read.toEnds, fun text member => ?_⟩
        rcases List.mem_append.mp member with old | new
        · exact read.lines text old
        · rw [List.mem_singleton.mp new]
          exact ⟨⟨opens, named⟩, free⟩
      · exact sound

theorem Sound.scanned (sound : scan.Sound) (free : ∀ line ∈ lines, ∀ c ∈ line, lineBreak c = false) :
    (scan.lines lines).Sound := by
  induction lines generalizing scan with
  | nil => exact sound
  | cons line rest ih =>
    rw [List.forall_mem_cons] at free
    exact ih (sound.stepped free.1) free.2

theorem Sound.printable (sound : scan.Sound) : ∀ entry ∈ scan.parsed, Printable entry.name entry.body := by
  intro entry member
  obtain ⟨held, inside, rfl⟩ := List.mem_map.mp member
  exact (sound.closed held inside).printable

end SpecScan

/-- Whatever is parsed can be printed. -/
theorem parseSpecSections_printable (text : DocText) : ∀ entry ∈ parseSpecSections text, Printable entry.name entry.body := by
  have start : SpecScan.Sound {} := ⟨fun entry absent => absurd absent List.not_mem_nil, fun name none => by cases none⟩
  exact (start.scanned Lines.split_free).printable

/-! ### What is printed -/

/-- A line break behind a text adds a blank line at most, and no block. -/
theorem parsed_break (text : DocText) :
    (SpecScan.lines {} (Lines.split lineBreak (text ++ ['\n']))).parsed = (SpecScan.lines {} (Lines.split lineBreak text)).parsed := by
  have breaks : lineBreak '\n' = true := by decide
  cases shape : text.getLast? with
  | none =>
    rw [List.getLast?_eq_none_iff] at shape
    subst shape
    rfl
  | some last =>
    obtain ⟨front, rfl⟩ := List.getLast?_eq_some_iff.mp shape
    by_cases ends : lineBreak last = true
    · rw [List.append_assoc, List.singleton_append, Lines.split_append ends, SpecScan.lines_append]
      exact SpecScan.line_blank.1
    · rw [Lines.split_unended breaks shape (by simpa using ends)]

theorem split_joined (occupied : lines ≠ []) : Lines.split lineBreak (joinLines lines ++ ['\n']) =
    lines.flatMap fun line => Lines.split lineBreak (line ++ ['\n']) := by
  rw [joinLines, ← Lines.join_snoc_empty occupied, Lines.join_closed]
  exact Lines.split_closed (by decide)

theorem SpecName.Ends.trimmed_heading (ends : name.Ends) : stripText (requirementHead ++ name.1) = requirementHead ++ name.1 := by
  apply Lines.strip_of_solid
  · intro c here
    obtain rfl := Option.some.inj here
    decide
  · intro c here
    rw [List.getLast?_append_of_ne_nil _ name.2] at here
    exact ends.solid c here

theorem SpecName.Ends.inline_heading (ends : name.Ends) : ∀ c ∈ requirementHead ++ name.1, lineBreak c = false := by
  have head : ∀ c ∈ requirementHead, lineBreak c = false := each_of_all (by decide)
  intro c member
  exact (List.mem_append.mp member).elim (head c) (ends.inline c)

theorem SpecName.Ends.block_empty (ends : name.Ends) : requirementBlock name.1 [] = requirementHead ++ name.1 := by
  have behind : ∀ c ∈ "\n\n".toList, Text.isSpace c = true := each_of_all (by decide)
  rw [requirementBlock, List.append_nil]
  exact (Lines.strip_behind behind).trans ends.trimmed_heading

theorem Printable.block_lines (printable : Printable name body) : ∃ rest,
    Lines.split lineBreak (requirementBlock name.1 body ++ ['\n']) = (requirementHead ++ name.1) :: rest ∧
      (∀ line ∈ rest, PlainLine line) ∧ stripText (joinLines rest) = body := by
  have breaks : lineBreak '\n' = true := by decide
  have heading := Lines.split_line breaks printable.inline_heading
  by_cases empty : body = []
  · rw [empty, printable.block_empty, heading]
    exact ⟨[], rfl, fun line absent => absurd absent List.not_mem_nil, rfl⟩
  · have block : requirementBlock name.1 body = requirementHead ++ name.1 ++ '\n' :: '\n' :: body := by
      rw [requirementBlock, List.append_assoc]
      apply Lines.strip_of_solid
      · intro c here
        obtain rfl := Option.some.inj here
        decide
      · intro c here
        rw [show "\n\n".toList ++ body = ['\n', '\n'] ++ body from rfl, ← List.append_assoc,
          List.getLast?_append_of_ne_nil _ empty, ← printable.trimmed] at here
        exact Lines.strip_last here
    have split : Lines.split lineBreak (requirementBlock name.1 body ++ ['\n']) =
        (requirementHead ++ name.1) :: [] :: Lines.split lineBreak (body ++ ['\n']) := by
      rw [block, List.append_assoc, List.cons_append, Lines.split_append breaks, heading, List.cons_append]
      rfl
    refine ⟨_, split, ?_, ?_⟩
    · rw [List.forall_mem_cons]
      exact ⟨plainLine_empty, printable.plain⟩
    · have joined : joinLines (Lines.split lineBreak (body ++ ['\n'])) = body := Lines.join_split breaks printable.breaks
      obtain ⟨line, others, shape⟩ := List.exists_cons_of_ne_nil
        (show Lines.split lineBreak (body ++ ['\n']) ≠ [] from Lines.split_ne_nil (by simp))
      rw [shape] at joined ⊢
      rw [joinLines, Lines.join_cons, List.nil_append, ← joinLines, joined, stripText_ahead (by decide), printable.trimmed]

end Scanning

/-! ### A specification read back -/

section Specification

variable {scan : SpecScan} {kind : SpecKind} {lines : List DocText} {capability : String}

abbrev SpecItem := SpecName × DocText

def SpecItem.block (item : SpecItem) : DocText := requirementBlock item.1.1 item.2

def closedLines (lines : List DocText) : List DocText :=
  lines.flatMap fun line => Lines.split lineBreak (line ++ ['\n'])

theorem closedLines_cons (line : DocText) (lines : List DocText) :
    closedLines (line :: lines) = Lines.split lineBreak (line ++ ['\n']) ++ closedLines lines := List.flatMap_cons

theorem closedLines_append (lines rest : List DocText) :
    closedLines (lines ++ rest) = closedLines lines ++ closedLines rest := List.flatMap_append

theorem closedLines_blank (lines : List DocText) : closedLines ([] :: lines) = [] :: closedLines lines := by
  rw [closedLines_cons]
  rfl

namespace SpecScan

theorem blocks_parsed {items : List SpecItem} (printable : ∀ item ∈ items, Printable item.1 item.2)
    (inside : scan.kind = some kind) :
    (scan.lines (closedLines (items.map SpecItem.block))).parsed =
        scan.parsed ++ items.map (fun item => ⟨kind, item.1, item.2⟩) ∧
      (scan.lines (closedLines (items.map SpecItem.block))).kind = some kind := by
  induction items generalizing scan with
  | nil => exact ⟨(List.append_nil _).symm, inside⟩
  | cons item rest ih =>
    rw [List.forall_mem_cons] at printable
    obtain ⟨lines, split, plain, body⟩ := printable.1.block_lines
    have named : requirementName (requirementHead ++ item.1.1) = some item.1 :=
      requirementName_some.mpr printable.1.trimmed_heading
    have first := lines_requirement named inside plain
    rw [List.map_cons, closedLines_cons, SpecItem.block, split, lines_append]
    obtain ⟨parsed, kept⟩ := ih printable.2 first.2
    rw [parsed, first.1, body, List.append_assoc]
    exact ⟨rfl, kept⟩

theorem section_parsed {items : List SpecItem} (printable : ∀ item ∈ items, Printable item.1 item.2) :
    (scan.lines (closedLines (sectionLines kind (items.map SpecItem.block)))).parsed =
      scan.parsed ++ items.map fun item => ⟨kind, item.1, item.2⟩ := by
  unfold sectionLines
  by_cases none_ : items = []
  · rw [none_]
    exact (List.append_nil _).symm
  · have opens : sectionKind (sectionHeading kind) = some kind := by cases kind <;> decide
    have heading : Lines.split lineBreak (sectionHeading kind ++ ['\n']) = [sectionHeading kind] := by
      apply Lines.split_line (by decide)
      cases kind <;> exact each_of_all (by decide)
    have start := @line_section (sectionHeading kind) scan kind opens
    have blank := @line_blank (scan.line (sectionHeading kind))
    have entered : ((scan.line (sectionHeading kind)).line []).kind = some kind := blank.2.trans start.2
    rw [if_neg (by simpa using none_), closedLines_cons, heading, closedLines_blank, closedLines_append, lines_append,
      lines_cons, lines_append]
    have body := (blocks_parsed printable entered).1
    rw [blank.1, start.1] at body
    exact line_blank.1.trans body

theorem sections_parsed {items : SpecKind → List SpecItem}
    (printable : ∀ kind, ∀ item ∈ items kind, Printable item.1 item.2) (kinds : List SpecKind) :
    (scan.lines (closedLines (kinds.flatMap fun kind => sectionLines kind ((items kind).map SpecItem.block)))).parsed =
      scan.parsed ++ kinds.flatMap fun kind => (items kind).map fun item => ⟨kind, item.1, item.2⟩ := by
  induction kinds generalizing scan with
  | nil => exact (List.append_nil _).symm
  | cons kind rest ih =>
    rw [List.flatMap_cons, closedLines_append, lines_append, ih, section_parsed (printable kind), List.flatMap_cons,
      List.append_assoc]

/-- Lines that open no block leave a scan without one. -/
theorem lines_unnamed (unnamed : ∀ line ∈ lines, requirementName line = none) (outside : scan.name = none) :
    (scan.lines lines).parsed = scan.parsed ∧ (scan.lines lines).name = none := by
  induction lines generalizing scan with
  | nil => exact ⟨rfl, outside⟩
  | cons line rest ih =>
    rw [List.forall_mem_cons] at unnamed
    rw [lines_cons]
    cases opens : sectionKind line with
    | some kind =>
      have closes : (scan.line line).name = none := by
        unfold SpecScan.line
        rw [opens]
      obtain ⟨parsed, name⟩ := ih unnamed.2 closes
      exact ⟨parsed.trans (line_section opens).1, name⟩
    | none =>
      rw [line_outside ⟨opens, unnamed.1⟩ (Or.inr outside)]
      exact ih unnamed.2 outside

end SpecScan

theorem requirementName_colon {line : DocText} (free : ':' ∉ line) : requirementName line = none := by
  cases named : requirementName line with
  | none => rfl
  | some name =>
    have shape : Lines.strip Text.isSpace line = requirementHead ++ name.1 := requirementName_some.mp named
    have inside : ':' ∈ Lines.strip Text.isSpace line := by
      rw [shape]
      exact List.mem_append_left _ (by decide)
    exact absurd (Lines.mem_strip inside) free

theorem mem_newlines {text : DocText} {afterReturn : Bool} {c : Char} (member : c ∈ newlines afterReturn text) :
    c = '\n' ∨ c ∈ text := by
  induction text generalizing afterReturn with
  | nil => cases member
  | cons first rest ih =>
    rw [newlines] at member
    have later {afterReturn : Bool} (inside : c ∈ newlines afterReturn rest) : c = '\n' ∨ c ∈ first :: rest :=
      (ih inside).imp_right (List.mem_cons_of_mem _)
    split at member
    · exact (List.mem_cons.mp member).elim Or.inl later
    · split at member
      · exact later member
      · rcases List.mem_cons.mp member with rfl | inside
        · exact Or.inr List.mem_cons_self
        · exact later inside

theorem Printable.unreturned {name : SpecName} {body : DocText} (printable : Printable name body) :
    ∀ c ∈ requirementBlock name.1 body, c ≠ '\r' := by
  intro c member
  have inside : c ∈ requirementHead ++ name.1 ++ "\n\n".toList ++ body := Lines.mem_strip member
  simp only [List.mem_append, or_assoc] at inside
  rcases inside with head | own | blank | text
  · have every : ∀ c ∈ requirementHead, c ≠ '\r' := each_of_all (by decide)
    exact every c head
  · rintro rfl
    exact absurd (printable.inline _ own) (by decide)
  · have every : ∀ c ∈ "\n\n".toList, c ≠ '\r' := each_of_all (by decide)
    exact every c blank
  · rintro rfl
    exact absurd (printable.breaks _ text (by decide)) (by decide)

theorem sections_unreturned {items : SpecKind → List SpecItem}
    (printable : ∀ kind, ∀ item ∈ items kind, Printable item.1 item.2) :
    ∀ line ∈ specKinds.flatMap fun kind => sectionLines kind ((items kind).map SpecItem.block), ∀ c ∈ line, c ≠ '\r' := by
  intro line member
  obtain ⟨kind, -, inside⟩ := List.mem_flatMap.mp member
  unfold sectionLines at inside
  split at inside
  · cases inside
  · simp only [List.mem_cons, List.mem_append, List.not_mem_nil, or_false] at inside
    rcases inside with rfl | rfl | block | rfl
    · cases kind <;> exact each_of_all (by decide)
    · exact each_of_all (by decide)
    · obtain ⟨item, listed, rfl⟩ := List.mem_map.mp block
      exact (printable kind item listed).unreturned
    · exact each_of_all (by decide)

/-- What is printed of the blocks of a capability is parsed into these blocks, section by section. -/
theorem parseSpecSections_specText {items : SpecKind → List SpecItem} (separate : ':' ∉ capability.toList)
    (printable : ∀ kind, ∀ item ∈ items kind, Printable item.1 item.2) :
    parseSpecSections (specText capability fun kind => (items kind).map SpecItem.block) =
      specKinds.flatMap fun kind => (items kind).map fun item => ⟨kind, item.1, item.2⟩ := by
  let header : DocText := "# ".toList ++ capability.toList ++ " specification".toList
  let sections := specKinds.flatMap fun kind => sectionLines kind ((items kind).map SpecItem.block)
  have ending : header.getLast? = some 'n' := by
    rw [List.getLast?_append_of_ne_nil _ (by decide)]
    decide
  have colonless : ':' ∉ header := by
    simp only [header, List.mem_append, not_or]
    exact ⟨⟨by decide, separate⟩, by decide⟩
  have tail : ∀ c ∈ '\n' :: joinLines ([] :: sections), c ≠ '\r' := by
    rw [List.forall_mem_cons]
    refine ⟨by decide, fun c member => ?_⟩
    rcases Segments.mem_join member with rfl | ⟨line, listed, inside⟩
    · decide
    · rcases List.mem_cons.mp listed with rfl | here
      · cases inside
      · exact sections_unreturned printable line here c inside
  have read : newlines false (specText capability fun kind => (items kind).map SpecItem.block) =
      joinLines (newlines false header :: [] :: sections) := by
    have closed : ∀ last, header.getLast? = some last → last ≠ '\r' := by
      intro last here
      rw [ending] at here
      obtain rfl := Option.some.inj here
      decide
    show newlines false (joinLines (header :: [] :: sections)) = _
    have whole := newlines_id tail
    rw [joinLines] at whole
    rw [joinLines, Lines.join_cons, newlines_append closed (fun _ => rfl), whole, joinLines, Lines.join_cons]
  have unnamed : ∀ line ∈ Lines.split lineBreak (newlines false header ++ ['\n']), requirementName line = none := by
    intro line member
    apply requirementName_colon
    intro colon
    rcases List.mem_append.mp (Lines.mem_of_split member colon) with inside | last
    · exact (mem_newlines inside).elim (by decide) colonless
    · exact absurd (List.mem_singleton.mp last) (by decide)
  obtain ⟨none_, outside⟩ := @SpecScan.lines_unnamed {} _ unnamed rfl
  rw [parseSpecSections, splitlines, read, ← parsed_break, split_joined (List.cons_ne_nil _ _), ← closedLines,
    closedLines_cons, SpecScan.lines_append, closedLines_blank, SpecScan.lines_cons,
    SpecScan.line_outside plainLine_empty (Or.inr outside), SpecScan.sections_parsed printable, none_]
  rfl

end Specification

end DarkFactory
