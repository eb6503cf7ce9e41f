import DarkFactory.Documents.Anchors
import DarkFactory.Documents.Blocks
import DarkFactory.Documents.UiSpec
import DarkFactory.Lib.Outcome

namespace DarkFactory

section Statements

variable (safeLoad : DocText → Except String Yaml) (unicode : Unicode) (path : String) (content : DocText)

/-- The block of the text, if it has one between two delimiters, is valid YAML. -/
def BlockLoads : Prop :=
  ∀ block body, frontmatterBlock content = .ok (some (block, body)) → ∃ value, safeLoad block = .ok value

/-- The text opens a block that is not terminated, or that is no YAML mapping. -/
def Malformed : Prop :=
  (∃ failure, frontmatterBlock content = .error failure) ∨
    ∃ block body, frontmatterBlock content = .ok (some (block, body)) ∧ ∀ raw, loadMapping safeLoad block ≠ .ok raw

def AboutPath (path error : String) : Prop := (path ++ ": ").toList <+: error.toList

/-- The documents of a change: no path is empty, and none is given twice. -/
structure ChangeDocuments where
  entries : List (String × Option DocText)
  placed : ∀ document ∈ entries, document.1 ≠ ""
  distinct : (entries.map Prod.fst).Nodup

/-- The readers of one document return, and one with a malformed block is read as a whole, under an error. -/
structure DocumentRead (revision : Option String) : Prop where
  properties : ∃ read, documentProperties safeLoad content = .ok read
  anchors : ∃ found, anchorsOf safeLoad unicode content = .ok found
  card : ∃ card, parseDecisionCard safeLoad unicode path content revision = .ok card
  malformed : Malformed safeLoad content → ∃ message,
    documentProperties safeLoad content = .ok (none, content, some message) ∧
      anchorsOf safeLoad unicode content = .ok (Anchors.anchorsIn unicode content none content) ∧
      parseDecisionCard safeLoad unicode path content revision =
        Decisions.cardOf unicode path revision ["frontmatter: " ++ message] [] content

structure ReadModelReturns (documents : ChangeDocuments) (revision devUrl : Option String) : Prop where
  each : ∀ path content, (path, some content) ∈ documents.entries →
    DocumentRead safeLoad unicode path content revision
  spec : ∃ spec, buildUiSpec safeLoad unicode documents.entries devUrl = .ok spec ∧
    ∀ path content, (path, some content) ∈ documents.entries → Malformed safeLoad content →
      ∃ error ∈ spec.errors, AboutPath path error

structure ReadableDocument : Prop where
  loads : BlockLoads safeLoad content
  keys : ∀ raw body, splitDocument safeLoad content = .ok (some raw, body) → textKeys raw = true
  named : stem path ≠ "" ∨
    ∃ raw body, splitDocument safeLoad content = .ok (some raw, body) ∧ (raw.get "id").clean ≠ none

end Statements

/-! ## The splitter under its handler -/

section Split

variable {safeLoad : DocText → Except String Yaml} {content block body : DocText} {failure : SddFailure}

theorem frontmatterBlock_error (failed : frontmatterBlock content = .error failure) : failure.kind = .frontmatter := by
  unfold frontmatterBlock at failed
  cases lines : splitlines content with
  | nil => simp [lines] at failed
  | cons first rest =>
    simp only [lines] at failed
    split at failed
    · cases failed
    · split at failed
      · cases failed
        rfl
      · cases failed

theorem loadMapping_error {value : Yaml} (loaded : safeLoad block = .ok value)
    (failed : loadMapping safeLoad block = .error failure) : failure.kind = .frontmatter := by
  unfold loadMapping at failed
  rw [loaded] at failed
  cases value with
  | null => cases failed
  | mapping entries => cases failed
  | text characters => rw [← Except.error.inj failed]
  | scalar shown repr truthy decoded => rw [← Except.error.inj failed]
  | list items => rw [← Except.error.inj failed]

theorem not_malformed_none (cut : frontmatterBlock content = .ok none) : ¬ Malformed safeLoad content := by
  rintro (⟨failure, failed⟩ | ⟨block, body, found, -⟩)
  · rw [cut] at failed
    cases failed
  · rw [cut] at found
    cases found

theorem malformed_some (cut : frontmatterBlock content = .ok (some (block, body))) :
    Malformed safeLoad content ↔ ∀ raw, loadMapping safeLoad block ≠ .ok raw := by
  constructor
  · rintro (⟨failure, failed⟩ | ⟨block', body', found, unmapped⟩)
    · rw [cut] at failed
      cases failed
    · rw [cut] at found
      cases found
      exact unmapped
  · intro unmapped
    exact .inr ⟨block, body, cut, unmapped⟩

theorem blockLoads_some (cut : frontmatterBlock content = .ok (some (block, body))) :
    BlockLoads safeLoad content ↔ ∃ value, safeLoad block = .ok value := by
  constructor
  · intro loads
    exact loads block body cut
  · intro loads block' body' found
    rw [cut] at found
    cases found
    exact loads

theorem blockLoads_of_uncut (uncut : ∀ parts, frontmatterBlock content ≠ .ok (some parts)) :
    BlockLoads safeLoad content := fun block body found => absurd found (uncut (block, body))

/-- What the handler catches is a malformed block, and only invalid YAML gets past it. -/
theorem readFrontmatter_cases (safeLoad : DocText → Except String Yaml) (content : DocText) :
    (¬ BlockLoads safeLoad content ∧ ∃ failure, readFrontmatter safeLoad content = .error failure) ∨
    BlockLoads safeLoad content ∧
      ((Malformed safeLoad content ∧ ∃ message, readFrontmatter safeLoad content = .ok (.error message)) ∨
        ¬ Malformed safeLoad content ∧ ∃ split, splitDocument safeLoad content = .ok split ∧
          readFrontmatter safeLoad content = .ok (.ok split)) := by
  cases cut : frontmatterBlock content with
  | error failure =>
    refine .inr ⟨blockLoads_of_uncut (by simp [cut]), .inl ⟨.inl ⟨failure, cut⟩, failure.message, ?_⟩⟩
    rw [readFrontmatter, splitDocument, splitWith, cut]
    exact if_pos (frontmatterBlock_error cut)
  | ok found =>
    cases found with
    | none =>
      refine .inr ⟨blockLoads_of_uncut (by simp [cut]), .inr ⟨not_malformed_none cut, (none, content), ?_, ?_⟩⟩
      · rw [splitDocument, splitWith, cut]
      · rw [readFrontmatter, splitDocument, splitWith, cut]
    | some parts =>
      obtain ⟨block, body⟩ := parts
      rw [blockLoads_some cut, malformed_some cut]
      cases loaded : safeLoad block with
      | error message =>
        refine .inl ⟨by simp, ⟨.yaml, message⟩, ?_⟩
        rw [readFrontmatter, splitDocument, splitWith, cut]
        simp [loadMapping, loaded]
      | ok value =>
        refine .inr ⟨⟨value, rfl⟩, ?_⟩
        cases mapped : loadMapping safeLoad block with
        | error failure =>
          refine .inl ⟨fun raw => nofun, failure.message, ?_⟩
          rw [readFrontmatter, splitDocument, splitWith, cut]
          simp only [mapped]
          exact if_pos (loadMapping_error loaded mapped)
        | ok raw =>
          refine .inr ⟨by simp, (some raw, body), ?_, ?_⟩
          · rw [splitDocument, splitWith, cut]
            simp only [mapped]
          · rw [readFrontmatter, splitDocument, splitWith, cut]
            simp only [mapped]

end Split

/-! ## The titles of the alternatives -/

section Titles

open Regex Pattern

variable {unicode : Unicode} {text : DocText}

theorem sequence_silent (parts : List (Char → Bool)) : ∀ cursor, ∀ outcome ∈ run (sequence (parts.map .char)) cursor,
    outcome.groups = [] := by
  induction parts with
  | nil =>
    intro cursor outcome member
    rw [List.mem_singleton.mp member]
    rfl
  | cons part rest ih =>
    intro cursor outcome member
    obtain ⟨one, first, member⟩ := List.mem_flatMap.mp member
    obtain ⟨later, ran, rfl⟩ := List.mem_map.mp member
    have plain : one.groups = [] := by
      unfold run at first
      split at first
      · cases first
      · split at first
        · rw [List.mem_singleton.mp first]
          rfl
        · cases first
    rw [Outcome.next, plain, ih one.cursor later ran]
    rfl

theorem literal_silent (word : String) : ∀ cursor, ∀ outcome ∈ run (literal word) cursor, outcome.groups = [] := by
  have shape : literal word = Regex.sequence ((word.toList.map fun c d => decide (d = c)).map .char) := by
    rw [literal, List.map_map]
    rfl
  rw [shape]
  exact sequence_silent _

theorem stripText_ne_nil {c : Char} {rest : DocText} (ink : Text.isSpace c = false) : stripText (c :: rest) ≠ [] := by
  intro blank
  have weight : textWeight (stripText (c :: rest)) = textWeight (c :: rest) := Lines.weight_strip
  rw [blank] at weight
  simp [textWeight, Lines.weight, ink] at weight

/-- In a text that does not end with white space every heading has a title. -/
theorem subsectionAlternatives_ok (solid : ∀ last, text.getLast? = some last → Text.isSpace last = false) :
    ∃ found, Decisions.subsectionAlternatives unicode text = .ok found := by
  have each : ∀ piece ∈ (Decisions.h3.scan text).2,
      ∃ alternative, Decisions.subsectionAlternative unicode piece.1 piece.2 = .ok alternative := by
    rintro ⟨found, after⟩ member
    obtain ⟨place, one, inside, matched, same⟩ := pieces_origin member
    have consumes := (Option.filter_eq_some_iff.mp matched).2
    have occupied : place.ahead ≠ [] := by
      intro none_
      rw [none_] at consumes
      simp at consumes
    obtain ⟨word, last, ends⟩ : ∃ word last, place.ahead = word ++ [last] :=
      ⟨_, _, (List.dropLast_append_getLast occupied).symm⟩
    have ink : Text.isSpace last = false := by
      obtain ⟨front, suffix⟩ := inside
      have whole : front ++ place.ahead = text := suffix
      apply solid
      rw [← whole, ends, ← List.append_assoc, List.getLast?_concat]
    obtain ⟨d, rest, visible, titled⟩ := heading_title matched (literal_silent "###") ends ink
    have title : found.get 1 = d :: rest := by
      obtain ⟨others, groups⟩ := List.head?_eq_some_iff.mp titled
      have own : found = ⟨between place one.cursor, one.groups⟩ := same
      rw [own, Found.get, groups]
      rfl
    have named : String.ofList (stripText (found.get 1)) ≠ "" := by
      rw [title]
      intro blank
      exact stripText_ne_nil visible (by simpa using congrArg String.toList blank)
    dsimp only
    unfold Decisions.subsectionAlternative nonempty
    dsimp only
    rw [dif_pos named]
    exact ⟨_, rfl⟩
  obtain ⟨found, mapped, -⟩ := Outcome.mapM_ok each
  exact ⟨found, mapped⟩

theorem sectionOf_solid {body : DocText} {key : String} (found : Decisions.sectionOf unicode body key = some text) :
    ∀ last, text.getLast? = some last → Text.isSpace last = false := by
  obtain ⟨entry, listed, rfl⟩ := Option.map_eq_some_iff.mp found
  obtain ⟨piece, -, made⟩ := List.mem_filterMap.mp (List.mem_of_find?_eq_some listed)
  obtain ⟨known, -, rfl⟩ := Option.map_eq_some_iff.mp made
  intro last ends
  exact Lines.strip_last ends

theorem alternatives_ok (unicode : Unicode) (body : DocText) (key : String) :
    ∃ found, Decisions.alternatives unicode (Decisions.sectionOf unicode body key) = .ok found := by
  cases found : Decisions.sectionOf unicode body key with
  | none => exact ⟨[], rfl⟩
  | some text =>
    cases text with
    | nil => exact ⟨[], rfl⟩
    | cons c rest =>
      unfold Decisions.alternatives
      dsimp only
      by_cases tabled : Decisions.tableAlternatives (c :: rest) = []
      · rw [if_pos tabled]
        exact subsectionAlternatives_ok (sectionOf_solid found)
      · rw [if_neg tabled]
        exact ⟨_, rfl⟩

end Titles

/-! ## The readers -/

section Readers

variable {safeLoad : DocText → Except String Yaml} {unicode : Unicode} {path : String} {content body : DocText}
  {revision devUrl : Option String}

theorem nonempty_ok {field text : String} : (∃ value, nonempty field text = .ok value) ↔ text ≠ "" := by
  unfold nonempty
  by_cases named : text ≠ ""
  · rw [dif_pos named]
    exact iff_of_true ⟨_, rfl⟩ named
  · rw [dif_neg named]
    exact iff_of_false nofun named

theorem cardOf_ok {errors : List String} {raw : YamlMapping} :
    (∃ card, Decisions.cardOf unicode path revision errors raw body = .ok card) ↔
      ((raw.get "id").clean ≠ none ∨ stem path ≠ "") ∧ path ≠ "" := by
  obtain ⟨alternatives, made⟩ := alternatives_ok unicode body "alternatives"
  unfold Decisions.cardOf
  rw [made]
  cases identified : (raw.get "id").clean with
  | some id =>
    rw [← @nonempty_ok "path" path]
    cases placed : nonempty "path" path with
    | error failure => exact iff_of_false nofun fun named => nomatch named.2
    | ok place => exact iff_of_true ⟨_, rfl⟩ ⟨.inl (Option.some_ne_none id), place, rfl⟩
  | none =>
    rw [← @nonempty_ok "path" path, ← @nonempty_ok "id" (stem path)]
    cases named : nonempty "id" (stem path) with
    | error failure => exact iff_of_false nofun fun made => made.1.elim (absurd rfl) nofun
    | ok id =>
      cases placed : nonempty "path" path with
      | error failure => exact iff_of_false nofun fun named => nomatch named.2
      | ok place => exact iff_of_true ⟨_, rfl⟩ ⟨.inr ⟨id, rfl⟩, place, rfl⟩

theorem documentProperties_ok : (∃ read, documentProperties safeLoad content = .ok read) ↔
    BlockLoads safeLoad content ∧
      ∀ raw body, splitDocument safeLoad content = .ok (some raw, body) → textKeys raw = true := by
  unfold documentProperties
  rcases readFrontmatter_cases safeLoad content with
    ⟨invalid, failure, read⟩ | ⟨loads, ⟨malformed, message, read⟩ | ⟨-, ⟨raw, body⟩, splits, read⟩⟩
  · rw [read]
    exact iff_of_false nofun fun readable => invalid readable.1
  · rw [read]
    refine iff_of_true ⟨_, rfl⟩ ⟨loads, fun raw body splits => ?_⟩
    obtain ⟨block, cut, mapped⟩ := splitWith_some.mp splits
    exact absurd mapped ((malformed_some cut).mp malformed raw)
  · rw [read, splits]
    cases raw with
    | none => exact iff_of_true ⟨_, rfl⟩ ⟨loads, fun raw body same => by cases same⟩
    | some raw =>
      have keyed : (∀ raw' body', Except.ok (some raw, body) = (Except.ok (some raw', body') : Except SddFailure _) →
          textKeys raw' = true) ↔ textKeys raw = true := by
        constructor
        · intro keys
          exact keys raw body rfl
        · rintro keys raw' body' same
          cases same
          exact keys
      rw [keyed]
      dsimp only
      unfold DocumentProperties.ofMapping
      cases keys : textKeys raw with
      | false => exact iff_of_false nofun fun readable => Bool.false_ne_true readable.2
      | true => exact iff_of_true ⟨_, rfl⟩ ⟨loads, rfl⟩

theorem anchorsOf_ok : (∃ found, anchorsOf safeLoad unicode content = .ok found) ↔ BlockLoads safeLoad content := by
  unfold anchorsOf
  rcases readFrontmatter_cases safeLoad content with
    ⟨invalid, failure, read⟩ | ⟨loads, ⟨-, message, read⟩ | ⟨-, split, -, read⟩⟩
  · rw [read]
    exact iff_of_false nofun invalid
  · rw [read]
    exact iff_of_true ⟨_, rfl⟩ loads
  · rw [read]
    exact iff_of_true ⟨_, rfl⟩ loads

theorem parseDecisionCard_ok : (∃ card, parseDecisionCard safeLoad unicode path content revision = .ok card) ↔
    BlockLoads safeLoad content ∧ path ≠ "" ∧ (stem path ≠ "" ∨
      ∃ raw body, splitDocument safeLoad content = .ok (some raw, body) ∧ (raw.get "id").clean ≠ none) := by
  unfold parseDecisionCard
  rcases readFrontmatter_cases safeLoad content with
    ⟨invalid, failure, read⟩ | ⟨loads, ⟨malformed, message, read⟩ | ⟨-, ⟨raw, body⟩, splits, read⟩⟩
  · rw [read]
    exact iff_of_false nofun fun readable => invalid readable.1
  · rw [read]
    have unread : ¬ ∃ raw body, splitDocument safeLoad content = .ok (some raw, body) ∧ (raw.get "id").clean ≠ none := by
      rintro ⟨raw, body, splits, -⟩
      obtain ⟨block, cut, mapped⟩ := splitWith_some.mp splits
      exact (malformed_some cut).mp malformed raw mapped
    have anonymous : (YamlMapping.get [] "id").clean = none := rfl
    simp only [cardOf_ok, anonymous, unread, loads, ne_eq, not_true_eq_false, false_or, or_false, true_and, and_comm]
  · rw [read, splits]
    dsimp only
    rw [cardOf_ok]
    cases raw with
    | none =>
      have anonymous : (YamlMapping.get [] "id").clean = none := rfl
      simp [anonymous, loads, and_comm]
    | some raw =>
      have own : (∃ raw' body', (Except.ok (some raw, body) : Except SddFailure _) = .ok (some raw', body') ∧
          (raw'.get "id").clean ≠ none) ↔ (raw.get "id").clean ≠ none := by
        constructor
        · rintro ⟨raw', body', same, identified⟩
          cases same
          exact identified
        · intro identified
          exact ⟨raw, body, rfl, identified⟩
      rw [own]
      simp only [Option.getD_some, loads, true_and]
      exact ⟨fun made => ⟨made.2, made.1.symm⟩, fun made => ⟨made.2.symm, made.1⟩⟩

theorem malformed_read (loads : BlockLoads safeLoad content) (malformed : Malformed safeLoad content) : ∃ message,
    documentProperties safeLoad content = .ok (none, content, some message) ∧
      anchorsOf safeLoad unicode content = .ok (Anchors.anchorsIn unicode content none content) ∧
      parseDecisionCard safeLoad unicode path content revision =
        Decisions.cardOf unicode path revision ["frontmatter: " ++ message] [] content := by
  rcases readFrontmatter_cases safeLoad content with
    ⟨invalid, -⟩ | ⟨-, ⟨-, message, read⟩ | ⟨wellFormed, -⟩⟩
  · exact absurd loads invalid
  · refine ⟨message, ?_, ?_, ?_⟩
    · rw [documentProperties, read]
    · rw [anchorsOf, read]
    · rw [parseDecisionCard, read]
  · exact absurd malformed wellFormed

theorem documentRead_iff (placed : path ≠ "") :
    DocumentRead safeLoad unicode path content revision ↔ ReadableDocument safeLoad path content := by
  constructor
  · intro read
    have properties := documentProperties_ok.mp read.properties
    exact ⟨properties.1, properties.2, (parseDecisionCard_ok.mp read.card).2.2⟩
  · intro readable
    exact ⟨documentProperties_ok.mpr ⟨readable.loads, readable.keys⟩, anchorsOf_ok.mpr readable.loads,
      parseDecisionCard_ok.mpr ⟨readable.loads, placed, readable.named⟩, malformed_read readable.loads⟩

end Readers

/-! ## The spec of a change -/

section Spec

open UiNodes

variable {safeLoad : DocText → Except String Yaml} {unicode : Unicode} {path : String} {content : DocText}
  {devUrl : Option String} {parts after : UiParts}

theorem aboutPath_append {path text message : String} (shape : text = ": " ++ message) : AboutPath path (path ++ text) := by
  rw [AboutPath, shape, ← String.append_assoc, @String.toList_append (path ++ ": ")]
  exact List.prefix_append _ _

theorem AboutPath.append {path error : String} (about : AboutPath path error) (more : String) :
    AboutPath path (error ++ more) := by
  rw [AboutPath, @String.toList_append error]
  exact about.trans (List.prefix_append _ _)

theorem frontmatterOf_cases (path : String) (loads : BlockLoads safeLoad content) :
    (∃ error, frontmatterOf safeLoad path content = .ok ([error], none) ∧ AboutPath path error) ∨
      ¬ Malformed safeLoad content ∧ ∃ node, frontmatterOf safeLoad path content = .ok ([], some node) := by
  rcases readFrontmatter_cases safeLoad content with
    ⟨invalid, -⟩ | ⟨-, ⟨-, message, read⟩ | ⟨wellFormed, ⟨raw, body⟩, -, read⟩⟩
  · exact absurd loads invalid
  · refine .inl ⟨path ++ ": frontmatter: " ++ message, by rw [frontmatterOf, read], ?_⟩
    exact (@aboutPath_append path _ "frontmatter: " (by simp)).append message
  · cases raw with
    | none =>
      refine .inl ⟨path ++ ": no frontmatter — the node has no id", by rw [frontmatterOf, read], ?_⟩
      exact @aboutPath_append path _ "no frontmatter — the node has no id" (by simp)
    | some raw => exact .inr ⟨wellFormed, (raw, body), by rw [frontmatterOf, read]⟩

theorem parseUiScenario_ok (loads : BlockLoads safeLoad content) (placed : path ≠ "") :
    ∃ scenario, parseUiScenario safeLoad path content = .ok scenario ∧
      (Malformed safeLoad content → ∃ error ∈ scenario.1, AboutPath path error) := by
  unfold parseUiScenario
  rcases frontmatterOf_cases path loads with ⟨error, read, about⟩ | ⟨wellFormed, ⟨raw, body⟩, read⟩
  · rw [read]
    exact ⟨([error], none), rfl, fun _ => ⟨error, by simp, about⟩⟩
  · rw [read]
    obtain ⟨place, located⟩ := (@nonempty_ok "path" path).mpr placed
    dsimp only [Bind.bind, Except.bind]
    generalize identity path raw = identified
    obtain ⟨unnamed, named⟩ := identified
    cases named with
    | none => exact ⟨_, rfl, fun malformed => absurd malformed wellFormed⟩
    | some node =>
      rw [located]
      exact ⟨_, rfl, fun malformed => absurd malformed wellFormed⟩

theorem parseUiScreen_ok (loads : BlockLoads safeLoad content) (placed : path ≠ "") :
    ∃ screen, parseUiScreen unicode safeLoad path content devUrl = .ok screen ∧
      (Malformed safeLoad content → ∃ error ∈ screen.1, AboutPath path error) := by
  unfold parseUiScreen
  rcases frontmatterOf_cases path loads with ⟨error, read, about⟩ | ⟨wellFormed, ⟨raw, body⟩, read⟩
  · rw [read]
    exact ⟨([error], none), rfl, fun _ => ⟨error, by simp, about⟩⟩
  · rw [read]
    obtain ⟨place, located⟩ := (@nonempty_ok "path" path).mpr placed
    dsimp only [Bind.bind, Except.bind]
    generalize identity path raw = identified
    obtain ⟨unnamed, named⟩ := identified
    cases named with
    | none => exact ⟨_, rfl, fun malformed => absurd malformed wellFormed⟩
    | some node =>
      rw [located]
      exact ⟨_, rfl, fun malformed => absurd malformed wellFormed⟩

theorem nodeType_ok : (∃ type, nodeType unicode safeLoad path content = .ok type) ↔ BlockLoads safeLoad content := by
  unfold nodeType
  rcases readFrontmatter_cases safeLoad content with
    ⟨invalid, failure, read⟩ | ⟨loads, ⟨-, message, read⟩ | ⟨-, split, -, read⟩⟩
  · rw [read]
    exact iff_of_false nofun invalid
  · rw [read]
    exact iff_of_true ⟨_, rfl⟩ loads
  · rw [read]
    exact iff_of_true ⟨_, rfl⟩ loads

theorem addDocument_step (parts : UiParts) (loads : BlockLoads safeLoad content) (placed : path ≠ "") :
    ∃ after, addDocument unicode safeLoad devUrl parts (path, some content) = .ok after ∧
      ∃ errors, after.errors = parts.errors ++ errors ∧
        (Malformed safeLoad content → ∃ error ∈ errors, AboutPath path error) := by
  obtain ⟨type, typed⟩ := (@nodeType_ok safeLoad unicode path content).mpr loads
  unfold addDocument
  dsimp only
  rw [typed]
  cases type with
  | none =>
    refine ⟨_, rfl, [path ++ ": not a UI scenario or screen (type / SCN- / SCR-)"], rfl, fun _ => ?_⟩
    refine ⟨_, List.mem_singleton_self _, ?_⟩
    exact @aboutPath_append path _ "not a UI scenario or screen (type / SCN- / SCR-)" (by simp)
  | some known =>
    cases known with
    | scenario =>
      obtain ⟨⟨errors, scenario⟩, parsed, reported⟩ := parseUiScenario_ok loads placed
      refine ⟨_, Outcome.bind_ok.mpr ⟨some .scenario, rfl, Outcome.bind_ok.mpr ⟨_, parsed, rfl⟩⟩, errors, rfl, reported⟩
    | screen =>
      obtain ⟨⟨errors, screen⟩, parsed, reported⟩ := @parseUiScreen_ok safeLoad unicode path content devUrl loads placed
      refine ⟨_, Outcome.bind_ok.mpr ⟨some .screen, rfl, Outcome.bind_ok.mpr ⟨_, parsed, rfl⟩⟩, errors, rfl, reported⟩

theorem addDocument_loads (added : addDocument unicode safeLoad devUrl parts (path, some content) = .ok after) :
    BlockLoads safeLoad content := by
  unfold addDocument at added
  obtain ⟨type, typed, -⟩ := Outcome.bind_ok.mp added
  exact nodeType_ok.mp ⟨type, typed⟩

theorem addDocuments_ok (documents : List (String × Option DocText)) (parts : UiParts)
    (placed : ∀ document ∈ documents, document.1 ≠ "")
    (loads : ∀ path content, (path, some content) ∈ documents → BlockLoads safeLoad content) :
    ∃ after, documents.foldlM (addDocument unicode safeLoad devUrl) parts = .ok after ∧
      (∀ error ∈ parts.errors, error ∈ after.errors) ∧
      ∀ path content, (path, some content) ∈ documents → Malformed safeLoad content →
        ∃ error ∈ after.errors, AboutPath path error := by
  induction documents generalizing parts with
  | nil => exact ⟨parts, rfl, fun _ held => held, fun _ _ absent => absurd absent List.not_mem_nil⟩
  | cons document rest ih =>
    rw [List.forall_mem_cons] at placed
    have later := fun parts => ih parts placed.2 fun path content listed => loads path content (List.mem_cons_of_mem _ listed)
    obtain ⟨path, text⟩ := document
    cases text with
    | none =>
      obtain ⟨after, added, kept, reported⟩ :=
        later { parts with errors := parts.errors ++ [path ++ ": the document is absent at this revision"] }
      refine ⟨after, added, fun error held => kept error (List.mem_append_left _ held), ?_⟩
      intro other content listed
      rcases List.mem_cons.mp listed with same | listed
      · cases same
      · exact reported other content listed
    | some content =>
      obtain ⟨next, here, errors, grown, own⟩ :=
        @addDocument_step safeLoad unicode path content devUrl parts (loads path content List.mem_cons_self) placed.1
      obtain ⟨after, added, kept, reported⟩ := later next
      refine ⟨after, ?_, ?_, ?_⟩
      · rw [List.foldlM_cons, here]
        exact added
      · intro error held
        apply kept
        rw [grown]
        exact List.mem_append_left _ held
      · intro other content' listed malformed
        rcases List.mem_cons.mp listed with same | listed
        · cases same
          obtain ⟨error, among, about⟩ := own malformed
          refine ⟨error, kept error ?_, about⟩
          rw [grown]
          exact List.mem_append_right _ among
        · exact reported other content' listed malformed

theorem addDocuments_loads {documents : List (String × Option DocText)}
    (added : documents.foldlM (addDocument unicode safeLoad devUrl) parts = .ok after) :
    ∀ path content, (path, some content) ∈ documents → BlockLoads safeLoad content := by
  induction documents generalizing parts with
  | nil => exact fun _ _ absent => absurd absent List.not_mem_nil
  | cons document rest ih =>
    rw [List.foldlM_cons] at added
    obtain ⟨next, here, added⟩ := Outcome.bind_ok.mp added
    intro path content listed
    rcases List.mem_cons.mp listed with same | later
    · rw [← same] at here
      exact addDocument_loads here
    · exact ih added path content later

theorem buildUiSpec_ok (documents : ChangeDocuments) :
    (∃ spec, buildUiSpec safeLoad unicode documents.entries devUrl = .ok spec ∧
      ∀ path content, (path, some content) ∈ documents.entries → Malformed safeLoad content →
        ∃ error ∈ spec.errors, AboutPath path error) ↔
      ∀ path content, (path, some content) ∈ documents.entries → BlockLoads safeLoad content := by
  have among (document : String × Option DocText) :
      document ∈ documents.entries.insertionSort (fun first second => first.1 ≤ second.1) ↔ document ∈ documents.entries :=
    List.mem_insertionSort _
  constructor
  · rintro ⟨spec, built, -⟩
    obtain ⟨parts, added, -⟩ := Outcome.bind_ok.mp built
    intro path content listed
    exact addDocuments_loads added path content ((among _).mpr listed)
  · intro loads
    obtain ⟨parts, added, -, reported⟩ := @addDocuments_ok safeLoad unicode devUrl _ {}
      (fun document listed => documents.placed document ((among document).mp listed))
      (fun path content listed => loads path content ((among _).mp listed))
    refine ⟨_, Outcome.bind_ok.mpr ⟨parts, added, rfl⟩, ?_⟩
    intro path content listed malformed
    exact reported path content ((among _).mpr listed) malformed

end Spec

section Scene

def asciiUnicode : Unicode where
  isWord c := c.isAlphanum || c = '_'
  lower text := text.map Char.toLower
  upper text := text.map Char.toUpper
  sameLetter left right := left.toLower = right.toLower

def unclosedLoad (block : DocText) : Except String Yaml :=
  if block.contains '[' && !block.contains ']' then .error "while parsing a flow node: expected the node content"
  else .ok (.text (String.ofList block))

def unclosedDocument : DocText := "---\nid: [\n---\nText\n".toList

def unclosedChange : ChangeDocuments :=
  ⟨[("design/decisions/ADR-001.md", some unclosedDocument)], by decide, by decide⟩

end Scene

end DarkFactory
