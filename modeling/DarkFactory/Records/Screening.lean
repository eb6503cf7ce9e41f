import DarkFactory.Documents.ReadModel
import DarkFactory.Lib.RegexLanguage
import DarkFactory.Records.Writers

namespace DarkFactory

/-! ## The patterns of secrets -/

namespace Pattern

open Regex

def atLeast (n : Nat) (body : Regex Char) : Regex Char := .seq (sequence (List.replicate n body)) (.star body true)

def asciiUpper (c : Char) : Bool := 'A' ≤ c && c ≤ 'Z'

def asciiAlnum (c : Char) : Bool := ('a' ≤ c && c ≤ 'z') || asciiUpper c || ('0' ≤ c && c ≤ '9')

/-- `[A-Za-z0-9._~+/=-]` -/
def credentialChar (c : Char) : Bool := asciiAlnum c || "._~+/=-".toList.contains c

/-- `[A-Za-z0-9_-]` -/
def segmentChar (c : Char) : Bool := asciiAlnum c || c = '_' || c = '-'

def quoteMark (c : Char) : Bool := c = Text.quotation || c = Text.apostrophe

/-- A class under `IGNORECASE` takes whatever is one letter with a member. -/
def classFold (unicode : Unicode) (p : Char → Bool) : Regex Char :=
  .char fun c => p c || "abcdefghijklmnopqrstuvwxyz".toList.any fun letter => p letter && unicode.sameLetter letter c

/-- `[^/\s:@]` -/
def userinfoChar (c : Char) : Bool := !(c = '/' || Text.isSpace c || c = ':' || c = '@')

variable (unicode : Unicode)

def privateKey : Regex Char :=
  .seq (literal "-----BEGIN ") (.seq (.star (.char fun c => asciiUpper c || c = ' ') true) (literal "PRIVATE KEY-----"))

def githubToken : Regex Char :=
  .seq (wordBoundary unicode) (.seq (literal "gh") (.seq (.char fun c => "pousr".toList.contains c)
    (.seq (literal "_") (.seq (atLeast 20 (.char asciiAlnum)) (wordBoundary unicode)))))

def bearerToken : Regex Char :=
  .seq (wordBoundary unicode) (.seq (literal "Bearer") (.seq (plus space true) (atLeast 16 (.char credentialChar))))

def jwt : Regex Char :=
  .seq (wordBoundary unicode) (.seq (literal "eyJ") (.seq (atLeast 8 (.char segmentChar)) (.seq (literal ".")
    (.seq (atLeast 8 (.char segmentChar)) (.seq (literal ".") (.seq (atLeast 4 (.char segmentChar)) (wordBoundary unicode)))))))

def awsAccessKey : Regex Char :=
  .seq (wordBoundary unicode) (.seq (literal "AKIA")
    (.seq (sequence (List.replicate 16 (.char fun c => asciiUpper c || ('0' ≤ c && c ≤ '9')))) (wordBoundary unicode)))

/-- `api[_-]?key` and `access[_-]?token` -/
def joined (first second : String) : Regex Char :=
  .seq (literalFold unicode first) (.seq (optional (.char fun c => c = '_' || c = '-')) (literalFold unicode second))

def secretName : Regex Char :=
  oneOf [joined unicode "api" "key", joined unicode "access" "token", literalFold unicode "token",
    literalFold unicode "password", literalFold unicode "passwd", literalFold unicode "secret"]

def secretAssignment : Regex Char :=
  .seq (wordBoundary unicode) (.seq (secretName unicode) (.seq (wordBoundary unicode) (.seq (optional (.char quoteMark))
    (.seq spaces (.seq (.char fun c => c = ':' || c = '=') (.seq spaces (.seq (optional (.char quoteMark))
      (atLeast 12 (classFold unicode credentialChar)))))))))

def uriUserinfo : Regex Char :=
  .seq (literal "://") (.seq (plus (.char userinfoChar) true) (.seq (literal ":")
    (.seq (plus (.char userinfoChar) true) (literal "@"))))

end Pattern

/-- The patterns in the order they are tried, each with its kind. -/
def secretPatterns (unicode : Unicode) : List (String × Regex Char) :=
  [("private_key", Pattern.privateKey), ("github_token", Pattern.githubToken unicode),
    ("bearer_token", Pattern.bearerToken unicode), ("jwt", Pattern.jwt unicode),
    ("aws_access_key", Pattern.awsAccessKey unicode), ("secret_assignment", Pattern.secretAssignment unicode),
    ("uri_userinfo", Pattern.uriUserinfo)]

/-! ## The walk over a dumped record -/

/-- A value of a JSON-mode dump; a scalar is null, a truth value or a number. -/
inductive JsonValue
  | scalar (shown : String)
  | text (characters : DocText)
  | list (items : List JsonValue)
  | mapping (entries : List (String × JsonValue))

section Walk

variable (unicode : Unicode)

def matchKind (text : DocText) : Option String :=
  ((secretPatterns unicode).find? fun pattern => (pattern.2.search text).isSome).map Prod.fst

inductive JsonStep
  | key (name : String)
  | index (n : Nat)

def JsonStep.extend (path : String) : JsonStep → String
  | .key name => if path = "" then name else path ++ "." ++ name
  | .index n => path ++ "[" ++ toString n ++ "]"

mutual

def walk : JsonValue → String → List UnsafeValue → List UnsafeValue
  | .scalar _, _, found => found
  | .text characters, path, found =>
    match matchKind unicode characters with
    | some kind => found ++ [⟨path, kind⟩]
    | none => found
  | .list items, path, found => walkItems items 0 path found
  | .mapping entries, path, found => walkEntries entries path found

def walkItems : List JsonValue → Nat → String → List UnsafeValue → List UnsafeValue
  | [], _, _, found => found
  | item :: rest, index, path, found => walkItems rest (index + 1) path (walk item ((JsonStep.index index).extend path) found)

def walkEntries : List (String × JsonValue) → String → List UnsafeValue → List UnsafeValue
  | [], _, found => found
  | (key, value) :: rest, path, found => walkEntries rest path (walk value ((JsonStep.key key).extend path) found)

end

def findUnsafeValues (payload : JsonValue) : List UnsafeValue := walk unicode payload "" []

end Walk

inductive JsonValue.At : JsonValue → List JsonStep → JsonValue → Prop
  | here (value : JsonValue) : At value [] value
  | item {items : List JsonValue} {n : Nat} {inner leaf : JsonValue} {steps : List JsonStep} (there : items[n]? = some inner)
      (below : At inner steps leaf) : At (.list items) (.index n :: steps) leaf
  | entry {entries : List (String × JsonValue)} {name : String} {inner leaf : JsonValue} {steps : List JsonStep}
      (there : (name, inner) ∈ entries) (below : At inner steps leaf) : At (.mapping entries) (.key name :: steps) leaf

def FirstOccurring (unicode : Unicode) (text : DocText) (kind : String) : Prop :=
  ∃ before pattern after, secretPatterns unicode = before ++ (kind, pattern) :: after ∧ pattern.Occurs text ∧
    ∀ earlier ∈ before, ¬ earlier.2.Occurs text

section Patterns

open Regex Pattern

variable {unicode : Unicode} {text : DocText} {kind : String}

theorem literal_consuming (text : String) (named : text.toList ≠ []) : Consuming (literal text) := by
  obtain ⟨c, rest, shape⟩ := List.exists_cons_of_ne_nil named
  unfold literal
  rw [shape, List.map_cons]
  exact Consuming.front Consuming.char

theorem secretPatterns_consuming : ∀ pattern ∈ secretPatterns unicode, Consuming pattern.2 := by
  intro pattern member
  simp only [secretPatterns, List.mem_cons, List.not_mem_nil, or_false] at member
  rcases member with rfl | rfl | rfl | rfl | rfl | rfl | rfl
  · exact Consuming.front (literal_consuming _ (by decide))
  · exact Consuming.back (Consuming.front (literal_consuming _ (by decide)))
  · exact Consuming.back (Consuming.front (literal_consuming _ (by decide)))
  · exact Consuming.back (Consuming.front (literal_consuming _ (by decide)))
  · exact Consuming.back (Consuming.front (literal_consuming _ (by decide)))
  · -- The sign between the name and the value is one character of any match.
    exact Consuming.back (Consuming.back (Consuming.back (Consuming.back (Consuming.back (Consuming.front Consuming.char)))))
  · exact Consuming.front (literal_consuming _ (by decide))

theorem matchKind_iff : matchKind unicode text = some kind ↔ FirstOccurring unicode text kind := by
  have occurs (pattern : String × Regex Char) (member : pattern ∈ secretPatterns unicode) :
      (pattern.2.search text).isSome = true ↔ pattern.2.Occurs text :=
    search_isSome (secretPatterns_consuming pattern member)
  unfold matchKind FirstOccurring
  rw [Option.map_eq_some_iff]
  constructor
  · rintro ⟨pattern, found, rfl⟩
    obtain ⟨here, before, after, shape, none_⟩ := List.find?_eq_some_iff_append.mp found
    refine ⟨before, pattern.2, after, shape, (occurs pattern (by rw [shape]; simp)).mp here, fun earlier listed => ?_⟩
    rw [← occurs earlier (by rw [shape]; simp [listed])]
    simpa using none_ earlier listed
  · rintro ⟨before, pattern, after, shape, here, none_⟩
    refine ⟨(kind, pattern), List.find?_eq_some_iff_append.mpr ⟨(occurs (kind, pattern) (by rw [shape]; simp)).mpr here,
      before, after, shape, fun earlier listed => ?_⟩, rfl⟩
    have away := none_ earlier listed
    rw [← occurs earlier (by rw [shape]; simp [listed])] at away
    simpa using away

theorem matchKind_none : matchKind unicode text = none ↔ ∀ pattern ∈ secretPatterns unicode, ¬ pattern.2.Occurs text := by
  unfold matchKind
  rw [Option.map_eq_none_iff, List.find?_eq_none]
  refine forall₂_congr fun pattern member => ?_
  rw [search_isSome (secretPatterns_consuming pattern member)]

end Patterns

section Walked

variable {unicode : Unicode} {value : UnsafeValue} {path : String} {found : List UnsafeValue}

def ScreenedOut (unicode : Unicode) (node : JsonValue) (path : String) (value : UnsafeValue) : Prop :=
  ∃ steps text, node.At steps (.text text) ∧ FirstOccurring unicode text value.kind ∧
    steps.foldl JsonStep.extend path = value.path

theorem screenedOut_scalar {shown : String} : ¬ ScreenedOut unicode (.scalar shown) path value := by
  rintro ⟨steps, text, there, -⟩
  cases there

theorem screenedOut_text {text : DocText} :
    ScreenedOut unicode (.text text) path value ↔ FirstOccurring unicode text value.kind ∧ path = value.path := by
  constructor
  · rintro ⟨steps, other, there, first, same⟩
    cases there
    exact ⟨first, same⟩
  · rintro ⟨first, same⟩
    exact ⟨[], text, .here _, first, same⟩

theorem screenedOut_list {items : List JsonValue} : ScreenedOut unicode (.list items) path value ↔
    ∃ n inner, items[n]? = some inner ∧ ScreenedOut unicode inner ((JsonStep.index n).extend path) value := by
  constructor
  · rintro ⟨steps, text, there, rest⟩
    cases there with
    | item listed below => exact ⟨_, _, listed, _, text, below, rest⟩
  · rintro ⟨n, inner, listed, steps, text, below, rest⟩
    exact ⟨.index n :: steps, text, .item listed below, rest⟩

theorem screenedOut_mapping {entries : List (String × JsonValue)} : ScreenedOut unicode (.mapping entries) path value ↔
    ∃ name inner, (name, inner) ∈ entries ∧ ScreenedOut unicode inner ((JsonStep.key name).extend path) value := by
  constructor
  · rintro ⟨steps, text, there, rest⟩
    cases there with
    | entry listed below => exact ⟨_, _, listed, _, text, below, rest⟩
  · rintro ⟨name, inner, listed, steps, text, below, rest⟩
    exact ⟨.key name :: steps, text, .entry listed below, rest⟩

/-- The walk adds what is below the value, item by item and entry by entry. -/
theorem mem_walk (node : JsonValue) : ∀ path found value,
    value ∈ walk unicode node path found ↔ value ∈ found ∨ ScreenedOut unicode node path value := by
  refine @JsonValue.rec
    (fun node => ∀ path found value, value ∈ walk unicode node path found ↔ value ∈ found ∨ ScreenedOut unicode node path value)
    (fun items => ∀ index path found value, value ∈ walkItems unicode items index path found ↔
      value ∈ found ∨ ∃ n inner, items[n]? = some inner ∧ ScreenedOut unicode inner ((JsonStep.index (index + n)).extend path) value)
    (fun entries => ∀ path found value, value ∈ walkEntries unicode entries path found ↔
      value ∈ found ∨ ∃ name inner, (name, inner) ∈ entries ∧ ScreenedOut unicode inner ((JsonStep.key name).extend path) value)
    (fun entry => ∀ path found value, value ∈ walk unicode entry.2 path found ↔
      value ∈ found ∨ ScreenedOut unicode entry.2 path value)
    ?scalar ?text ?list ?mapping ?noItems ?item ?noEntries ?entry ?pair node
  case scalar =>
    intro shown path found value
    rw [walk, or_iff_left screenedOut_scalar]
  case text =>
    intro text path found value
    rw [walk, screenedOut_text]
    cases kind : matchKind unicode text with
    | none =>
      have absent : ¬ FirstOccurring unicode text value.kind := by
        rw [← matchKind_iff, kind]
        simp
      exact (or_iff_left fun both => absent both.1).symm
    | some name =>
      have first : FirstOccurring unicode text value.kind ↔ name = value.kind := by
        rw [← matchKind_iff, kind, Option.some.injEq]
      rw [List.mem_append, List.mem_singleton, first]
      refine or_congr_right ⟨fun same => by rw [same]; exact ⟨rfl, rfl⟩, fun both => ?_⟩
      rw [both.1, both.2]
  case list =>
    intro items each path found value
    rw [walk, each, screenedOut_list]
    simp only [Nat.zero_add]
  case mapping =>
    intro entries each path found value
    rw [walk, each, screenedOut_mapping]
  case noItems =>
    intro index path found value
    simp [walkItems]
  case item =>
    intro item rest one others index path found value
    rw [walkItems, others, one, or_assoc]
    refine or_congr_right ⟨?_, ?_⟩
    · rintro (here | ⟨n, inner, there, below⟩)
      · exact ⟨0, item, rfl, here⟩
      · refine ⟨n + 1, inner, there, ?_⟩
        rwa [show index + (n + 1) = index + 1 + n by omega]
    · rintro ⟨n, inner, there, below⟩
      cases n with
      | zero =>
        obtain rfl := Option.some.inj there
        exact Or.inl below
      | succ n =>
        rw [show index + (n + 1) = index + 1 + n by omega] at below
        exact Or.inr ⟨n, inner, there, below⟩
  case noEntries =>
    intro path found value
    simp [walkEntries]
  case entry =>
    intro entry rest one others path found value
    obtain ⟨key, inner⟩ := entry
    rw [walkEntries, others, one, or_assoc]
    simp only [List.mem_cons, Prod.mk.injEq]
    refine or_congr_right ⟨?_, ?_⟩
    · rintro (here | ⟨name, other, there, below⟩)
      · exact ⟨key, inner, Or.inl ⟨rfl, rfl⟩, here⟩
      · exact ⟨name, other, Or.inr there, below⟩
    · rintro ⟨name, other, ⟨rfl, rfl⟩ | there, below⟩
      · exact Or.inl below
      · exact Or.inr ⟨name, other, there, below⟩
  case pair =>
    intro key inner one
    exact one

/-- What is reported is each text in which a pattern occurs, by its path and the first such pattern. -/
theorem find_unsafe_values_iff (unicode : Unicode) (payload : JsonValue) (value : UnsafeValue) :
    value ∈ findUnsafeValues unicode payload ↔ ∃ steps text, payload.At steps (.text text) ∧
      FirstOccurring unicode text value.kind ∧ steps.foldl JsonStep.extend "" = value.path := by
  rw [findUnsafeValues, mem_walk]
  exact or_iff_right List.not_mem_nil

end Walked

/-! ## What is published -/

/-- The codec of a store that screens the dump of a record. -/
def RecordCodec.screening (codec : RecordCodec) (unicode : Unicode) (dump : RunRecord → JsonValue) : RecordCodec :=
  { codec with unsafeValues := fun record => findUnsafeValues unicode (dump record) }

structure Publishable (codec : RecordCodec) (unicode : Unicode) (dump : RunRecord → JsonValue) (record : RunRecord)
    (files : RecordFiles) : Prop where
  serialized : serialize codec record = .ok files
  size : (files.map fun file => file.2.utf8ByteSize).sum ≤ maxRunRecordBytes
  screened : ∀ steps text, (dump record).At steps (.text text) → ∀ pattern ∈ secretPatterns unicode, ¬ pattern.2.Occurs text
  chain : evidenceChainViolations record = []

section Published

variable {codec : RecordCodec} {unicode : Unicode} {dump : RunRecord → JsonValue} {record : RunRecord} {files : RecordFiles}
  {directory : TreePath}

theorem findUnsafeValues_nil {payload : JsonValue} : findUnsafeValues unicode payload = [] ↔
    ∀ steps text, payload.At steps (.text text) → ∀ pattern ∈ secretPatterns unicode, ¬ pattern.2.Occurs text := by
  rw [List.eq_nil_iff_forall_not_mem]
  constructor
  · intro none_ steps text there
    rw [← matchKind_none]
    cases kind : matchKind unicode text with
    | none => rfl
    | some name =>
      have listed := (find_unsafe_values_iff unicode payload ⟨steps.foldl JsonStep.extend "", name⟩).mpr
        ⟨steps, text, there, matchKind_iff.mp kind, rfl⟩
      exact absurd listed (none_ _)
  · intro clean value listed
    obtain ⟨steps, text, there, first, -⟩ := (find_unsafe_values_iff unicode payload value).mp listed
    have kind := matchKind_iff.mpr first
    rw [matchKind_none.mpr (clean steps text there)] at kind
    cases kind

theorem checkPayloadSize_ok {total : Nat} : checkPayloadSize total = .ok () ↔ total ≤ maxRunRecordBytes := by
  unfold checkPayloadSize
  by_cases large : maxRunRecordBytes < total
  · rw [if_pos large]
    exact iff_of_false (fun passed => by cases passed) (by omega)
  · rw [if_neg large]
    exact iff_of_true rfl (by omega)

/-- The checks pass exactly the records that may be published, at their addresses. -/
theorem checked_screening : checked (codec.screening unicode dump) record = .ok (directory, files) ↔
    runDir record = .ok directory ∧ Publishable (codec.screening unicode dump) unicode dump record files := by
  have screens : (codec.screening unicode dump).unsafeValues record = findUnsafeValues unicode (dump record) := rfl
  unfold checked
  simp only [Outcome.bind_ok, screens]
  constructor
  · rintro ⟨address, filed, tree, made, _, small, passed⟩
    rw [checkPayloadSize_ok] at small
    split at passed
    · cases passed
    · rename_i safe
      split at passed
      · cases passed
      · rename_i complete
        obtain ⟨rfl, rfl⟩ := Prod.mk.inj (Outcome.pure_ok.mp passed)
        exact ⟨filed, made, small, findUnsafeValues_nil.mp (by simpa using safe), by simpa using complete⟩
  · rintro ⟨filed, made, small, clean, complete⟩
    refine ⟨directory, filed, files, made, (), checkPayloadSize_ok.mpr small, ?_⟩
    rw [findUnsafeValues_nil.mpr clean, complete]
    rfl

def Writer.Part (writer : Writer codec) (file : String × String) : Prop :=
  ∃ whole ∈ writer.files, file = whole ∨ ∃ written, file = cutShort written whole

/-- Every tree outside the temporary directories is that of a call, and every file is one of a call or its beginning. -/
structure Depot.Written (depot : Depot codec) : Prop where
  trees : ∀ path files, path ∉ depot.drawn → depot.root.files path = some files →
    ∃ writer ∈ depot.writers, writer.files = files
  parts : ∀ path files, depot.root.files path = some files → ∀ file ∈ files, ∃ writer ∈ depot.writers, writer.Part file

section Origin

variable {root after : RunsRoot} {writer moved : Writer codec} {drawn : Option TreePath} {path : TreePath}

theorem Moved.file_origin (step : Moved root writer after moved drawn) (held : after.files path = some files)
    {file : String × String} (member : file ∈ files) :
    (∃ old tree, root.files old = some tree ∧ file ∈ tree) ∨ ∃ staging, writer.Wrote staging file := by
  cases step with
  | quiet => exact Or.inl ⟨path, files, held, member⟩
  | @made staging free =>
    by_cases here : path = staging
    · rw [here, RunsRoot.files_place_self, Option.some.injEq] at held
      rw [← held] at member
      cases member
    · rw [RunsRoot.files_place_other here] at held
      exact Or.inl ⟨path, files, held, member⟩
  | @touched staging tree phase own keeps grows part =>
    by_cases here : path = staging
    · rw [here, RunsRoot.files_place_self, Option.some.injEq] at held
      rw [← held] at member
      rcases part file member with old | wrote
      · cases before : root.files staging with
        | none =>
          rw [before] at old
          cases old
        | some others =>
          rw [before] at old
          exact Or.inl ⟨staging, others, before, old⟩
      · exact Or.inr ⟨staging, wrote⟩
    · rw [RunsRoot.files_place_other here] at held
      exact Or.inl ⟨path, files, held, member⟩
  | @renamed staging tree here present free =>
    by_cases there : path = writer.directory
    · rw [there, RunsRoot.files_place_self] at held
      exact Or.inl ⟨staging, files, present.trans held, member⟩
    · rw [RunsRoot.files_place_other there] at held
      by_cases own : path = staging
      · rw [own, RunsRoot.files_remove_self] at held
        cases held
      · rw [RunsRoot.files_remove_other own] at held
        exact Or.inl ⟨path, files, held, member⟩
  | @cleaned staging result here =>
    by_cases own : path = staging
    · rw [own, RunsRoot.files_remove_self] at held
      cases held
    · rw [RunsRoot.files_remove_other own] at held
      exact Or.inl ⟨path, files, held, member⟩

theorem Moved.tree_origin (step : Moved root writer after moved drawn) (apart : writer.staging? ≠ some path)
    (undrawn : drawn ≠ some path) (held : after.files path = some files) :
    root.files path = some files ∨ ∃ staging, writer.phase = .writing staging [] ∧ root.files staging = some files := by
  cases step with
  | quiet => exact Or.inl held
  | @made staging free =>
    have here : path ≠ staging := fun same => undrawn (congrArg some same.symm)
    rw [RunsRoot.files_place_other here] at held
    exact Or.inl held
  | @touched staging tree phase own =>
    have here : path ≠ staging := fun same => apart (same ▸ own)
    rw [RunsRoot.files_place_other here] at held
    exact Or.inl held
  | @renamed staging tree here present free =>
    by_cases there : path = writer.directory
    · rw [there, RunsRoot.files_place_self] at held
      exact Or.inr ⟨staging, here, present.trans held⟩
    · have own : path ≠ staging := fun same => apart (by rw [Writer.staging?, here, same])
      rw [RunsRoot.files_place_other there, RunsRoot.files_remove_other own] at held
      exact Or.inl held
  | @cleaned staging result here =>
    have own : path ≠ staging := fun same => apart (same ▸ here)
    rw [RunsRoot.files_remove_other own] at held
    exact Or.inl held

end Origin

theorem Depot.Written.next {depot : Depot codec} (written : depot.Written) (sound : depot.Sound) (action : DepotAction) :
    (depot.next action).Written := by
  cases action with
  | start record =>
    rcases depot.next_start record with same | ⟨new, -, -, same⟩
    · rw [same]
      exact written
    · rw [same]
      constructor
      · intro path files away held
        obtain ⟨writer, listed, own⟩ := written.trees path files away held
        exact ⟨writer, List.mem_append_left _ listed, own⟩
      · intro path files held file member
        obtain ⟨writer, listed, own⟩ := written.parts path files held file member
        exact ⟨writer, List.mem_append_left _ listed, own⟩
  | act index event =>
    cases found : depot.writers[index]? with
    | none =>
      rw [Depot.next_absent found]
      exact written
    | some writer =>
      rw [Depot.next_act found]
      have step := @step_moved _ depot.root writer event
      obtain ⟨phase, same⟩ := step.same
      have kept : (writer.step depot.root event).2.files = writer.files := by rw [same]; rfl
      -- Every call is still there, with the files it had.
      have carried (other : Writer codec) (listed : other ∈ depot.writers) :
          ∃ moved ∈ depot.writers.set index (writer.step depot.root event).2, moved.files = other.files := by
        obtain ⟨i, here⟩ := List.mem_iff_getElem?.mp listed
        by_cases mine : i = index
        · rw [mine, found] at here
          obtain rfl := Option.some.inj here
          exact ⟨_, List.mem_set (List.getElem?_eq_some_iff.mp found).1 _, kept⟩
        · refine ⟨other, List.mem_iff_getElem?.mpr ⟨i, ?_⟩, rfl⟩
          rw [List.getElem?_set_ne (Ne.symm mine)]
          exact here
      have mine := carried writer (List.mem_of_getElem? found)
      constructor
      · intro path files away held
        rw [List.mem_append, not_or] at away
        obtain ⟨old, undrawn⟩ := away
        have apart : writer.staging? ≠ some path := fun own => old (sound.trees index writer path found own)
        rcases step.tree_origin apart (by simpa using undrawn) held with there | ⟨staging, here, tree⟩
        · obtain ⟨other, listed, own⟩ := written.trees path files old there
          obtain ⟨moved, still, files⟩ := carried other listed
          exact ⟨moved, still, files.trans own⟩
        · obtain ⟨whole, placed, all⟩ := sound.staged index writer staging [] found here
          rw [tree, Option.some.injEq] at placed
          rw [List.append_nil] at all
          obtain ⟨moved, still, files⟩ := mine
          exact ⟨moved, still, files.trans (all.symm.trans placed.symm)⟩
      · intro path files held file member
        rcases step.file_origin held member with ⟨old, tree, there, listed⟩ | ⟨staging, whole, left, here, part⟩
        · obtain ⟨other, present, own⟩ := written.parts old tree there file listed
          obtain ⟨moved, still, files⟩ := carried other present
          refine ⟨moved, still, ?_⟩
          rw [Writer.Part, files]
          exact own
        · obtain ⟨tree, -, all⟩ := sound.staged index writer staging _ found here
          obtain ⟨moved, still, files⟩ := mine
          refine ⟨moved, still, whole, ?_, part⟩
          rw [files, ← all]
          exact List.mem_append_right _ List.mem_cons_self

theorem Depot.Written.after {depot : Depot codec} {actions : List DepotAction} (written : depot.Written)
    (sound : depot.Sound) (fresh : Trace.Along Depot.next DrawsFresh depot actions) : (depot.after actions).Written := by
  have step (depot : Depot codec) (action : DepotAction) (holding : depot.Sound ∧ depot.Written)
      (fresh : DrawsFresh depot action) : (depot.next action).Sound ∧ (depot.next action).Written :=
    ⟨holding.1.next fresh, holding.2.next holding.1 action⟩
  exact (Trace.invariant step ⟨sound, written⟩ fresh).2

end Published

/-- Every tree in the checkout, temporary directories apart, is that of a record that may be published; and every file,
    in a temporary directory too, is one of such a record, whole or cut short. -/
structure Depot.Screened {codec : RecordCodec} (depot : Depot codec) (unicode : Unicode) (dump : RunRecord → JsonValue) :
    Prop where
  trees : ∀ path files, path ∉ depot.drawn → depot.root.files path = some files →
    ∃ record, Publishable codec unicode dump record files
  parts : ∀ path files, depot.root.files path = some files → ∀ file ∈ files, ∃ record whole,
    Publishable codec unicode dump record whole ∧ ∃ full ∈ whole, file = full ∨ ∃ written, file = cutShort written full

/-- Whatever calls publish, wherever they stop and however their steps interleave, only records whose texts hold nothing
    that looks like a secret are published, and only files of such records get into the checkout at all. -/
theorem depot_screened (codec : RecordCodec) (unicode : Unicode) (dump : RunRecord → JsonValue) (actions : List DepotAction)
    (fresh : Trace.Along Depot.next DrawsFresh ({} : Depot (codec.screening unicode dump)) actions) :
    (Depot.after ({} : Depot (codec.screening unicode dump)) actions).Screened unicode dump := by
  have start : Depot.Written ({} : Depot (codec.screening unicode dump)) :=
    ⟨fun _ _ _ held => (by cases held), fun _ _ held => (by cases held)⟩
  have written := start.after (Depot.sound_idle {}) fresh
  constructor
  · intro path files away held
    obtain ⟨writer, -, rfl⟩ := written.trees path files away held
    exact ⟨writer.record, (checked_screening.mp writer.passed).2⟩
  · intro path files held file member
    obtain ⟨writer, -, part⟩ := written.parts path files held file member
    exact ⟨writer.record, writer.files, (checked_screening.mp writer.passed).2, part⟩

section Scene

def runDump (record : RunRecord) : JsonValue := .mapping [("run", .mapping [("id", .text record.run.id.toList)])]

/-- Three records, the run of the last named like an access key; the first call is cut short in its second file and
    cleans up in part, and the second publishes. -/
def interrupted : List DepotAction :=
  [.start (plainRecord "run-1" 1760000000000000), .start (plainRecord "run-2" 1760000000000001),
    .start (plainRecord "AKIA0123456789ABCDEF" 1760000000000001), .act 0 .look, .act 1 .look, .act 0 (.stage "k2"),
    .act 1 (.stage "m7"), .act 0 .write, .act 0 (.fail (some 7)), .act 0 (.unlink "manifest.yaml"), .act 0 .cleanup] ++
    List.replicate 4 (.act 1 .write) ++ [.act 1 .rename, .act 1 .cleanup]

theorem interrupted_screened :
    (Depot.after ({} : Depot ((plainCodec []).screening asciiUnicode runDump)) interrupted).Screened asciiUnicode runDump :=
  depot_screened (plainCodec []) asciiUnicode runDump interrupted (by decide +kernel)

end Scene

end DarkFactory
