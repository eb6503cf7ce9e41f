import DarkFactory.Conversations.Discussion
import DarkFactory.Documents.Markdown
import DarkFactory.Documents.Yaml

namespace DarkFactory

/-- An exception that no handler of the parser names. -/
inductive RaisedKind | typeError | attributeError
  deriving DecidableEq, Repr

structure Raised where
  kind : RaisedKind
  message : String
  deriving DecidableEq, Repr

/-- A value `yaml.safe_load` returns, by its Python type. A plain value is a number, a truth value or a date. -/
inductive AgentValue
  | null
  | plain (type shown : String) (truthy : Bool)
  | text (characters : String)
  | bytes (octets : List UInt8)
  | pair (first second : AgentValue)
  | list (items : List AgentValue)
  | set (members : List AgentValue)
  | mapping (entries : List (AgentValue × AgentValue))

abbrev AgentMapping := List (AgentValue × AgentValue)

namespace AgentValue

def typeName : AgentValue → String
  | .null => "NoneType"
  | .plain type _ _ => type
  | .text _ => "str"
  | .bytes _ => "bytes"
  | .pair _ _ => "tuple"
  | .list _ => "list"
  | .set _ => "set"
  | .mapping _ => "dict"

def truthy : AgentValue → Bool
  | .null => false
  | .plain _ _ truthy => truthy
  | .text characters => characters ≠ ""
  | .bytes octets => !octets.isEmpty
  | .pair _ _ => true
  | .list items => !items.isEmpty
  | .set members => !members.isEmpty
  | .mapping entries => !entries.isEmpty

def octet (byte : UInt8) : AgentValue := .plain "int" (toString byte.toNat) (byte ≠ 0)

def elements : AgentValue → Option (List AgentValue)
  | .null => none
  | .plain _ _ _ => none
  | .text characters => some (characters.toList.map fun c => .text (String.singleton c))
  | .bytes octets => some (octets.map octet)
  | .pair first second => some [first, second]
  | .list items => some items
  | .set members => some members
  | .mapping entries => some (entries.map Prod.fst)

def isText (name : String) : AgentValue → Bool
  | .text characters => characters = name
  | _ => false

/-- The white space of `bytes.strip`. -/
def isBlank (byte : UInt8) : Bool := byte = 32 || (9 ≤ byte && byte ≤ 13)

def strip : AgentValue → Except Raised AgentValue
  | .text characters => .ok (.text (Text.strip characters))
  | .bytes octets => .ok (.bytes ((octets.dropWhile isBlank).rdropWhile isBlank))
  | value => .error ⟨.attributeError, "'" ++ value.typeName ++ "' object has no attribute 'strip'"⟩

def cleanOptional : AgentValue → Except Raised AgentValue
  | .null => .ok .null
  | value => do
    let stripped ← value.strip
    return if stripped.truthy then stripped else .null

def cleanLines (value : AgentValue) : Except Raised (List AgentValue) :=
  match value.elements with
  | none => .error ⟨.typeError, "'" ++ value.typeName ++ "' object is not iterable"⟩
  | some items => do
    let stripped ← (items.filter truthy).mapM strip
    return stripped.filter truthy

def cleanField : AgentValue → Except Raised (List AgentValue)
  | .null => .ok []
  | value => value.cleanLines

def stripText : AgentValue → AgentValue
  | .text characters => .text (Text.strip characters)
  | value => value

end AgentValue

namespace AgentMapping

variable (entries : AgentMapping) (name : String)

def get? : Option AgentValue := (entries.find? fun entry => entry.1.isText name).map Prod.snd

def get : AgentValue := (AgentMapping.get? entries name).getD .null

end AgentMapping

/-- What the types of the models make of a value in lax mode, or the message of their error. -/
structure LaxTypes where
  str : AgentValue → Except String String
  kind : AgentValue → Except String AnswerKind
  bool : AgentValue → Except String Bool

structure AgentConversationOutput where
  questions : List QuestionDraft := []
  reworkSummary : Option ReworkSummary := none
  errors : List String := []
  deriving DecidableEq

section Models

variable (types : LaxTypes)

def atField {α : Type} (location : String) : Except String α → Except String α
  | .ok value => .ok value
  | .error message => .error (location ++ ": " ++ message)

def requiredText (location : String) : Option AgentValue → Except String NonemptyText
  | none => .error (location ++ ": Field required")
  | some value => do
    let text ← atField location (types.str value)
    if named : text ≠ "" then return ⟨text, named⟩
    else .error (location ++ ": String should have at least 1 character")

def optionalText (location : String) : AgentValue → Except String (Option String)
  | .null => .ok none
  | value => some <$> atField location (types.str value)

def textLines (location : String) (items : List AgentValue) : Except String (List String) :=
  items.zipIdx.mapM fun (item, index) => atField s!"{location}.{index}" (types.str item)

def ArtifactAnchor.modelValidate (fields : AgentMapping) : Except Raised (Except String ArtifactAnchor) := do
  let anchorId ← (AgentMapping.get fields "anchor_id").cleanOptional
  let revision ← (AgentMapping.get fields "revision").cleanOptional
  return do
    let artifact ← requiredText types "artifact" (AgentMapping.get? fields "artifact")
    let anchorId ← optionalText types "anchor_id" anchorId
    let revision ← optionalText types "revision" revision
    return { artifact := artifact.val, anchorId, revision }

def anchorParts (raw : String) : String × String :=
  let artifact := raw.toList.takeWhile (· ≠ '#')
  (String.ofList artifact, String.ofList (raw.toList.drop (artifact.length + 1)))

def anchorFrom : AgentValue → Except Raised (Except String (Option ArtifactAnchor))
  | .null => .ok (.ok none)
  | .text raw => do
    let (artifact, anchorId) := anchorParts raw
    let anchor ← ArtifactAnchor.modelValidate types
      [(.text "artifact", .text (Text.strip artifact)),
        (.text "anchor_id", if anchorId ≠ "" then .text anchorId else .null)]
    return some <$> anchor
  | .mapping fields => do
    let anchor ← ArtifactAnchor.modelValidate types fields
    return some <$> anchor
  | _ => .ok (.error "anchor must be 'path#id' or a mapping")

def draftOf (text : NonemptyText) (kind : AnswerKind) (options : List String) (anchor : Option ArtifactAnchor)
    (blocking : Bool) : Except String QuestionDraft :=
  if fits : if kind = .choice then 2 ≤ options.length else options = [] then
    .ok { text := text.val, kind, options, anchor, blocking, has_text := text.property, choice_has_options := fits }
  else if kind = .choice then .error "Value error, a choice question needs at least two options"
  else .error "Value error, options are only allowed on a choice question"

def QuestionDraft.modelValidate (fields : AgentMapping) (anchor : Option ArtifactAnchor) :
    Except Raised (Except String QuestionDraft) := do
  let options ← (AgentMapping.get fields "options").cleanField
  return do
    let text ← requiredText types "text" ((AgentMapping.get? fields "text").map AgentValue.stripText)
    let kind ← ((AgentMapping.get? fields "kind").map fun kind => atField "kind" (types.kind kind)).getD (.ok .text)
    let options ← textLines types "options" options
    let blocking ←
      ((AgentMapping.get? fields "blocking").map fun flag => atField "blocking" (types.bool flag)).getD (.ok true)
    draftOf text kind options anchor blocking

def readQuestion (fields : AgentMapping) : Except Raised (Except String QuestionDraft) := do
  match ← anchorFrom types (AgentMapping.get fields "anchor") with
  | .error message => return .error message
  | .ok anchor => QuestionDraft.modelValidate types fields anchor

def summaryField (fields : AgentMapping) (name : String) : AgentValue :=
  if name = "addressed_comment_ids" then
    (AgentMapping.get? fields name).getD (AgentMapping.get fields "addressed_comments")
  else AgentMapping.get fields name

def readSummary (fields : AgentMapping) : Except Raised (Except String ReworkSummary) := do
  let changed ← (summaryField fields "changed").cleanField
  let remaining ← (summaryField fields "remaining").cleanField
  let addressed ← (summaryField fields "addressed_comment_ids").cleanField
  return do
    let changed ← textLines types "changed" changed
    let remaining ← textLines types "remaining" remaining
    let addressedCommentIds ← textLines types "addressed_comment_ids" addressed
    return { changed, remaining, addressedCommentIds }

end Models

namespace AgentConversationOutput

variable (parsed : AgentConversationOutput)

def report (message : String) : AgentConversationOutput := { parsed with errors := parsed.errors ++ [message] }

def addQuestion (place : String) : Except String QuestionDraft → AgentConversationOutput
  | .ok draft => { parsed with questions := parsed.questions ++ [draft] }
  | .error message => parsed.report (place ++ ": " ++ message)

def addSummary (place : String) : Except String ReworkSummary → AgentConversationOutput
  | .ok summary => { parsed with reworkSummary := some summary }
  | .error message => parsed.report (place ++ ": " ++ message)

end AgentConversationOutput

section Parse

variable (types : LaxTypes) (safeLoad : DocText → Except String AgentValue)

open Regex Pattern

def fencedBlock (label : String) : Regex Char :=
  Regex.sequence [literal "```", literal label, .star (.char fun c => c = ' ' || c = '\t') true, literal "\n",
    .group 1 (.star (.char fun _ => true) false), literal "```"]

def fencedBlocks (output : DocText) (label : String) : List DocText :=
  ((fencedBlock label).matches_ output).map fun found => found.get 1

def questionsPlace (index : Nat) : String := s!"questions block {index + 1}"

def itemPlace (index position : Nat) : String := questionsPlace index ++ s!", item {position + 1}"

def summaryPlace (index : Nat) : String := s!"rework-summary block {index + 1}"

def itemOf : AgentValue → Except Raised (Except String QuestionDraft)
  | .mapping fields => readQuestion types fields
  | _ => .ok (.error "expected a mapping")

def addQuestionsBlock (parsed : AgentConversationOutput) (block : DocText × Nat) :
    Except Raised AgentConversationOutput :=
  match safeLoad block.1 with
  | .error name => .ok (parsed.report (questionsPlace block.2 ++ ": not valid YAML (" ++ name ++ ")"))
  | .ok .null => .ok parsed
  | .ok (.list items) =>
    items.zipIdx.foldlM (fun parsed (item, position) =>
      parsed.addQuestion (itemPlace block.2 position) <$> itemOf types item) parsed
  | .ok _ => .ok (parsed.report (questionsPlace block.2 ++ ": expected a list of questions"))

def summaryOf (block : DocText) : Except Raised (Except String ReworkSummary) :=
  match safeLoad block with
  | .error name => .ok (.error ("not valid YAML (" ++ name ++ ")"))
  | .ok (.mapping fields) => readSummary types fields
  | .ok _ => .ok (.error "expected a mapping")

def addSummaryBlock (parsed : AgentConversationOutput) (block : DocText × Nat) :
    Except Raised AgentConversationOutput :=
  parsed.addSummary (summaryPlace block.2) <$> summaryOf types safeLoad block.1

def parseAgentConversationOutput (output : DocText) : Except Raised AgentConversationOutput := do
  let asked ← (fencedBlocks output "questions").zipIdx.foldlM (addQuestionsBlock types safeLoad) {}
  (fencedBlocks output "rework-summary").zipIdx.foldlM (addSummaryBlock types safeLoad) asked

end Parse

section Statements

variable (types : LaxTypes) (safeLoad : DocText → Except String AgentValue)

def AgentValue.Strips : AgentValue → Prop
  | .text _ => True
  | .bytes _ => True
  | _ => False

def AgentValue.Optional : AgentValue → Prop
  | .null => True
  | value => value.Strips

/-- Nothing, or values of which each but the falsy ones has `strip`. -/
def AgentValue.Lines : AgentValue → Prop
  | .null => True
  | value => ∃ items, value.elements = some items ∧ ∀ item ∈ items, item.truthy = true → item.Strips

def CleanAnchor : AgentValue → Prop
  | .mapping fields => (AgentMapping.get fields "anchor_id").Optional ∧ (AgentMapping.get fields "revision").Optional
  | _ => True

def CleanQuestion (fields : AgentMapping) : Prop :=
  CleanAnchor (AgentMapping.get fields "anchor") ∧
    ((∃ anchor, anchorFrom types (AgentMapping.get fields "anchor") = .ok (.ok anchor)) →
      (AgentMapping.get fields "options").Lines)

def CleanSummary (fields : AgentMapping) : Prop :=
  (summaryField fields "changed").Lines ∧ (summaryField fields "remaining").Lines ∧
    (summaryField fields "addressed_comment_ids").Lines

def statedSummary (block : DocText) : Option ReworkSummary :=
  match summaryOf types safeLoad block with
  | .ok (.ok summary) => some summary
  | _ => none

structure CleanOutput (output : DocText) : Prop where
  questions : ∀ block ∈ fencedBlocks output "questions", ∀ items, safeLoad block = .ok (.list items) →
    ∀ fields, .mapping fields ∈ items → CleanQuestion types fields
  summaries : ∀ block ∈ fencedBlocks output "rework-summary", ∀ fields, safeLoad block = .ok (.mapping fields) →
    CleanSummary fields
  single : ∀ block ∈ fencedBlocks output "rework-summary", ∀ other ∈ fencedBlocks output "rework-summary",
    ∀ summary, statedSummary types safeLoad block = some summary →
      ∀ another, statedSummary types safeLoad other = some another → summary = another

/-- An item of a list of questions at its place, or a questions block that is no such list. -/
structure AgentStatement where
  place : String
  item : Option AgentValue

def statements (block : DocText × Nat) : List AgentStatement :=
  match safeLoad block.1 with
  | .ok .null => []
  | .ok (.list items) => items.zipIdx.map fun (item, position) => ⟨itemPlace block.2 position, some item⟩
  | _ => [⟨questionsPlace block.2, none⟩]

def NamesPlace (place error : String) : Prop := (place ++ ": ").toList <+: error.toList

def AgentStatement.Answered (statement : AgentStatement) : Except String QuestionDraft → Prop
  | .error error => NamesPlace statement.place error
  | .ok draft => ∃ fields text, statement.item = some (.mapping fields) ∧ AgentMapping.get? fields "text" = some text ∧
      types.str text.stripText = .ok draft.text

def SummaryAnswered (block : DocText × Nat) : Except String ReworkSummary → Prop
  | .error error => NamesPlace (summaryPlace block.2) error ∧ statedSummary types safeLoad block.1 = none
  | .ok summary => statedSummary types safeLoad block.1 = some summary

def accepted {α : Type} (outcomes : List (Except String α)) : List α := outcomes.filterMap Except.toOption

def refused {α : Type} (outcomes : List (Except String α)) : List String :=
  outcomes.filterMap fun outcome =>
    match outcome with
    | .ok _ => none
    | .error message => some message

structure OutputAccounted (output : DocText) (result : AgentConversationOutput) (questions : List (Except String QuestionDraft))
    (summaries : List (Except String ReworkSummary)) : Prop where
  statements : List.Forall₂ (AgentStatement.Answered types)
    ((fencedBlocks output "questions").zipIdx.flatMap (statements safeLoad)) questions
  blocks : List.Forall₂ (SummaryAnswered types safeLoad) (fencedBlocks output "rework-summary").zipIdx summaries
  taken : result.questions = accepted questions
  reported : result.errors = refused questions ++ refused summaries
  summary : ∀ summary, .ok summary ∈ summaries ↔ result.reworkSummary = some summary

def AccountsFor (output : DocText) : Prop :=
  ∃ result, parseAgentConversationOutput types safeLoad output = .ok result ∧
    ∃ questions summaries, OutputAccounted types safeLoad output result questions summaries

end Statements

/-! ## What can be cleaned -/

section Cleaning

variable {types : LaxTypes} {value : AgentValue} {fields : AgentMapping}

theorem strip_ok : (∃ stripped, value.strip = .ok stripped) ↔ value.Strips := by
  cases value with
  | text characters => exact iff_of_true ⟨_, rfl⟩ trivial
  | bytes octets => exact iff_of_true ⟨_, rfl⟩ trivial
  | _ => exact iff_of_false nofun id

theorem cleanOptional_ok : (∃ cleaned, value.cleanOptional = .ok cleaned) ↔ value.Optional := by
  have stripped (present : value.cleanOptional = do
      let stripped ← value.strip
      return if stripped.truthy then stripped else .null) :
      (∃ cleaned, value.cleanOptional = .ok cleaned) ↔ value.Strips := by
    rw [present, ← strip_ok]
    simp only [Outcome.bind_ok]
    constructor
    · rintro ⟨cleaned, stripped, done, -⟩
      exact ⟨stripped, done⟩
    · rintro ⟨stripped, done⟩
      exact ⟨_, stripped, done, rfl⟩
  cases value with
  | null => exact iff_of_true ⟨_, rfl⟩ trivial
  | _ => exact stripped rfl

theorem cleanLines_ok : (∃ lines, value.cleanLines = .ok lines) ↔
    ∃ items, value.elements = some items ∧ ∀ item ∈ items, item.truthy = true → item.Strips := by
  unfold AgentValue.cleanLines
  cases value.elements with
  | none => exact iff_of_false nofun nofun
  | some items =>
    have each : (∃ lines, (items.filter AgentValue.truthy).mapM AgentValue.strip = .ok lines) ↔
        ∀ item ∈ items, item.truthy = true → item.Strips := by
      constructor
      · rintro ⟨lines, mapped⟩ item among truthy
        exact strip_ok.mp (Outcome.mapM_each mapped item (List.mem_filter.mpr ⟨among, truthy⟩))
      · intro clean
        obtain ⟨lines, mapped, -⟩ := Outcome.mapM_ok (f := AgentValue.strip) fun item among =>
          strip_ok.mpr (clean item (List.mem_filter.mp among).1 (List.mem_filter.mp among).2)
        exact ⟨lines, mapped⟩
    simp only [Outcome.bind_ok, Option.some.injEq, exists_eq_left', ← each]
    constructor
    · rintro ⟨lines, stripped, mapped, -⟩
      exact ⟨stripped, mapped⟩
    · rintro ⟨stripped, mapped⟩
      exact ⟨_, stripped, mapped, rfl⟩

theorem cleanField_ok : (∃ lines, value.cleanField = .ok lines) ↔ value.Lines := by
  cases value with
  | null => exact iff_of_true ⟨_, rfl⟩ trivial
  | text characters => exact @cleanLines_ok (.text characters)
  | bytes octets => exact @cleanLines_ok (.bytes octets)
  | plain type shown truthy => exact @cleanLines_ok (.plain type shown truthy)
  | pair first second => exact @cleanLines_ok (.pair first second)
  | list items => exact @cleanLines_ok (.list items)
  | set members => exact @cleanLines_ok (.set members)
  | mapping entries => exact @cleanLines_ok (.mapping entries)

theorem anchorModel_ok : (∃ anchor, ArtifactAnchor.modelValidate types fields = .ok anchor) ↔
    (AgentMapping.get fields "anchor_id").Optional ∧ (AgentMapping.get fields "revision").Optional := by
  unfold ArtifactAnchor.modelValidate
  simp only [Outcome.bind_ok, ← cleanOptional_ok]
  constructor
  · rintro ⟨anchor, id, named, revision, revised, -⟩
    exact ⟨⟨id, named⟩, revision, revised⟩
  · rintro ⟨⟨id, named⟩, revision, revised⟩
    exact ⟨_, id, named, revision, revised, rfl⟩

theorem anchorFrom_ok : (∃ anchor, anchorFrom types value = .ok anchor) ↔ CleanAnchor value := by
  have model (fields : AgentMapping) : (∃ anchor, (do
      let anchor ← ArtifactAnchor.modelValidate types fields
      return some <$> anchor : Except Raised (Except String (Option ArtifactAnchor))) = .ok anchor) ↔
        (AgentMapping.get fields "anchor_id").Optional ∧ (AgentMapping.get fields "revision").Optional := by
    rw [← @anchorModel_ok types]
    simp only [Outcome.bind_ok]
    constructor
    · rintro ⟨anchor, made, done, -⟩
      exact ⟨made, done⟩
    · rintro ⟨made, done⟩
      exact ⟨_, made, done, rfl⟩
  cases value with
  | mapping fields => exact model fields
  | text raw =>
    refine iff_of_true ((model _).mpr ⟨?_, trivial⟩) trivial
    show (if (anchorParts raw).2 ≠ "" then AgentValue.text (anchorParts raw).2 else .null).Optional
    split <;> trivial
  | _ => exact iff_of_true ⟨_, rfl⟩ trivial

theorem draftModel_ok {anchor : Option ArtifactAnchor} :
    (∃ draft, QuestionDraft.modelValidate types fields anchor = .ok draft) ↔ (AgentMapping.get fields "options").Lines := by
  unfold QuestionDraft.modelValidate
  simp only [Outcome.bind_ok, ← cleanField_ok]
  constructor
  · rintro ⟨draft, options, cleaned, -⟩
    exact ⟨options, cleaned⟩
  · rintro ⟨options, cleaned⟩
    exact ⟨_, options, cleaned, rfl⟩

theorem readQuestion_ok : (∃ outcome, readQuestion types fields = .ok outcome) ↔ CleanQuestion types fields := by
  unfold readQuestion CleanQuestion
  rw [← @anchorFrom_ok types]
  cases read : anchorFrom types (AgentMapping.get fields "anchor") with
  | error raised => exact iff_of_false nofun fun clean => nomatch clean.1
  | ok anchor =>
    cases anchor with
    | error message => exact iff_of_true ⟨_, rfl⟩ ⟨⟨_, rfl⟩, nofun⟩
    | ok anchor =>
      have only : (∃ outcome, QuestionDraft.modelValidate types fields anchor = .ok outcome) ↔ _ := draftModel_ok
      constructor
      · intro done
        exact ⟨⟨_, rfl⟩, fun _ => only.mp done⟩
      · intro clean
        exact only.mpr (clean.2 ⟨anchor, rfl⟩)

theorem readSummary_ok : (∃ outcome, readSummary types fields = .ok outcome) ↔ CleanSummary fields := by
  unfold readSummary CleanSummary
  simp only [Outcome.bind_ok, ← cleanField_ok]
  constructor
  · rintro ⟨outcome, changed, first, remaining, second, addressed, third, -⟩
    exact ⟨⟨changed, first⟩, ⟨remaining, second⟩, addressed, third⟩
  · rintro ⟨⟨changed, first⟩, ⟨remaining, second⟩, addressed, third⟩
    exact ⟨_, changed, first, remaining, second, addressed, third, rfl⟩

theorem requiredText_ok {location : String} {given : Option AgentValue} {text : NonemptyText}
    (read : requiredText types location given = .ok text) : ∃ value, given = some value ∧ types.str value = .ok text.val := by
  unfold requiredText at read
  cases given with
  | none => cases read
  | some value =>
    obtain ⟨characters, made, named⟩ := Outcome.bind_ok.mp read
    cases outcome : types.str value with
    | error message =>
      rw [outcome] at made
      cases made
    | ok characters' =>
      rw [outcome] at made
      cases made
      split at named
      · cases named
        exact ⟨value, rfl, outcome⟩
      · cases named

theorem draftOf_text {text : NonemptyText} {kind : AnswerKind} {options : List String} {anchor : Option ArtifactAnchor}
    {blocking : Bool} {draft : QuestionDraft} (made : draftOf text kind options anchor blocking = .ok draft) :
    draft.text = text.val := by
  unfold draftOf at made
  by_cases fits : if kind = .choice then 2 ≤ options.length else options = []
  · rw [dif_pos fits] at made
    cases made
    rfl
  · rw [dif_neg fits] at made
    by_cases choice : kind = .choice
    · rw [if_pos choice] at made
      cases made
    · rw [if_neg choice] at made
      cases made

theorem readQuestion_text {draft : QuestionDraft} (read : readQuestion types fields = .ok (.ok draft)) :
    ∃ text, AgentMapping.get? fields "text" = some text ∧ types.str text.stripText = .ok draft.text := by
  unfold readQuestion at read
  obtain ⟨anchor, -, read⟩ := Outcome.bind_ok.mp read
  cases anchor with
  | error message => cases read
  | ok anchor =>
    obtain ⟨options, -, read⟩ := Outcome.bind_ok.mp read
    obtain ⟨text, named, read⟩ := Outcome.bind_ok.mp (Except.ok.inj read)
    obtain ⟨kind, -, read⟩ := Outcome.bind_ok.mp read
    obtain ⟨lines, -, read⟩ := Outcome.bind_ok.mp read
    obtain ⟨blocking, -, read⟩ := Outcome.bind_ok.mp read
    obtain ⟨value, given, made⟩ := requiredText_ok named
    obtain ⟨text', present, rfl⟩ := Option.map_eq_some_iff.mp given
    exact ⟨text', present, by rw [made, draftOf_text read]⟩

end Cleaning

/-! ## The questions -/

section Questions

variable {types : LaxTypes} {safeLoad : DocText → Except String AgentValue} {parsed after : AgentConversationOutput}
  {place : String} {block : DocText × Nat}

theorem namesPlace_append (place message : String) : NamesPlace place (place ++ ": " ++ message) := by
  have whole : (place ++ ": " ++ message).toList = (place ++ ": ").toList ++ message.toList := String.toList_append
  rw [NamesPlace, whole]
  exact List.prefix_append _ _

def AgentConversationOutput.take (parsed : AgentConversationOutput) (outcomes : List (Except String QuestionDraft)) :
    AgentConversationOutput :=
  { parsed with questions := parsed.questions ++ accepted outcomes, errors := parsed.errors ++ refused outcomes }

theorem take_nil (parsed : AgentConversationOutput) : parsed.take [] = parsed := by
  simp [AgentConversationOutput.take, accepted, refused]

theorem take_append (parsed : AgentConversationOutput) (first second : List (Except String QuestionDraft)) :
    (parsed.take first).take second = parsed.take (first ++ second) := by
  simp [AgentConversationOutput.take, accepted, refused]

theorem report_take (parsed : AgentConversationOutput) (message : String) :
    parsed.report message = parsed.take [.error message] := by
  simp [AgentConversationOutput.take, AgentConversationOutput.report, accepted, refused, Except.toOption]

theorem addQuestion_take (parsed : AgentConversationOutput) (place : String) (outcome : Except String QuestionDraft) :
    parsed.addQuestion place outcome = parsed.take [atField place outcome] := by
  cases outcome with
  | ok draft => simp [AgentConversationOutput.take, AgentConversationOutput.addQuestion, atField, accepted, refused, Except.toOption]
  | error message => exact report_take parsed _

theorem itemOf_answered {item : AgentValue} {outcome : Except String QuestionDraft}
    (read : itemOf types item = .ok outcome) : AgentStatement.Answered types ⟨place, some item⟩ (atField place outcome) := by
  cases outcome with
  | error message => exact namesPlace_append place message
  | ok draft =>
    cases item with
    | mapping fields =>
      obtain ⟨text, given, same⟩ := readQuestion_text read
      exact ⟨fields, text, rfl, given, same⟩
    | _ => cases read

theorem itemOf_ok {item : AgentValue} : (∃ outcome, itemOf types item = .ok outcome) ↔
    ∀ fields, item = .mapping fields → CleanQuestion types fields := by
  cases item with
  | mapping fields =>
    rw [itemOf, readQuestion_ok]
    constructor
    · rintro clean fields' same
      cases same
      exact clean
    · intro clean
      exact clean fields rfl
  | _ => exact iff_of_true ⟨_, rfl⟩ nofun

theorem addItems_answered {numbered : List (AgentValue × Nat)} {index : Nat}
    (read : numbered.foldlM (fun parsed (item, position) =>
      AgentConversationOutput.addQuestion parsed (itemPlace index position) <$> itemOf types item) parsed = .ok after) :
    ∃ outcomes, List.Forall₂ (AgentStatement.Answered types)
        (numbered.map fun (item, position) => ⟨itemPlace index position, some item⟩) outcomes ∧
      after = parsed.take outcomes := by
  induction numbered generalizing parsed with
  | nil => exact ⟨[], .nil, (Except.ok.inj read).symm.trans (take_nil parsed).symm⟩
  | cons entry rest ih =>
    obtain ⟨item, position⟩ := entry
    rw [List.foldlM_cons] at read
    obtain ⟨next, here, read⟩ := Outcome.bind_ok.mp read
    obtain ⟨outcome, one, rfl⟩ := Outcome.map_ok.mp here
    obtain ⟨outcomes, answered, rfl⟩ := ih read
    refine ⟨_ :: outcomes, .cons (itemOf_answered one) answered, ?_⟩
    rw [addQuestion_take, take_append]
    rfl

theorem addQuestionsBlock_answered (read : addQuestionsBlock types safeLoad parsed block = .ok after) :
    ∃ outcomes, List.Forall₂ (AgentStatement.Answered types) (statements safeLoad block) outcomes ∧
      after = parsed.take outcomes := by
  have misshapen (message : String) (done : parsed.report (questionsPlace block.2 ++ ": " ++ message) = after) :
      ∃ outcomes, List.Forall₂ (AgentStatement.Answered types) [⟨questionsPlace block.2, none⟩] outcomes ∧
        after = parsed.take outcomes := by
    rw [← done, report_take]
    have named : NamesPlace (questionsPlace block.2) (questionsPlace block.2 ++ ": " ++ message) :=
      namesPlace_append _ message
    exact ⟨[.error _], .cons named .nil, rfl⟩
  have other (done : parsed.report (questionsPlace block.2 ++ ": expected a list of questions") = after) :
      ∃ outcomes, List.Forall₂ (AgentStatement.Answered types) [⟨questionsPlace block.2, none⟩] outcomes ∧
        after = parsed.take outcomes := by
    apply misshapen "expected a list of questions"
    rw [String.append_assoc]
    exact done
  unfold addQuestionsBlock at read
  unfold statements
  cases loaded : safeLoad block.1 with
  | error name =>
    rw [loaded] at read
    refine misshapen ("not valid YAML (" ++ name ++ ")") ?_
    rw [← Except.ok.inj read]
    simp only [String.append_assoc]
    rfl
  | ok value =>
    rw [loaded] at read
    cases value with
    | null => exact ⟨[], .nil, (Except.ok.inj read).symm.trans (take_nil parsed).symm⟩
    | list items => exact addItems_answered read
    | _ => exact other (Except.ok.inj read)

theorem addQuestionsBlocks_answered {blocks : List (DocText × Nat)}
    (read : blocks.foldlM (addQuestionsBlock types safeLoad) parsed = .ok after) :
    ∃ outcomes, List.Forall₂ (AgentStatement.Answered types) (blocks.flatMap (statements safeLoad)) outcomes ∧
      after = parsed.take outcomes := by
  induction blocks generalizing parsed with
  | nil => exact ⟨[], .nil, (Except.ok.inj read).symm.trans (take_nil parsed).symm⟩
  | cons block rest ih =>
    rw [List.foldlM_cons] at read
    obtain ⟨next, here, read⟩ := Outcome.bind_ok.mp read
    obtain ⟨first, answered, rfl⟩ := addQuestionsBlock_answered here
    obtain ⟨later, others, rfl⟩ := ih read
    refine ⟨first ++ later, ?_, take_append parsed first later⟩
    rw [List.flatMap_cons]
    exact List.rel_append answered others

theorem addQuestionsBlock_ok : (∃ after, addQuestionsBlock types safeLoad parsed block = .ok after) ↔
    ∀ items, safeLoad block.1 = .ok (.list items) → ∀ fields, .mapping fields ∈ items → CleanQuestion types fields := by
  unfold addQuestionsBlock
  cases loaded : safeLoad block.1 with
  | error name => exact iff_of_true ⟨_, rfl⟩ nofun
  | ok value =>
    cases value with
    | list items =>
      have one (parsed : AgentConversationOutput) (entry : AgentValue × Nat) :
          (∃ after, AgentConversationOutput.addQuestion parsed (itemPlace block.2 entry.2) <$> itemOf types entry.1 =
            .ok after) ↔ ∀ fields, entry.1 = .mapping fields → CleanQuestion types fields := by
        rw [← itemOf_ok]
        simp only [Outcome.map_ok]
        constructor
        · rintro ⟨after, outcome, read, -⟩
          exact ⟨outcome, read⟩
        · rintro ⟨outcome, read⟩
          exact ⟨_, outcome, read, rfl⟩
      refine (Outcome.foldlM_ok_iff one).trans ?_
      constructor
      · intro clean items' same fields among
        cases same
        obtain ⟨position, bound, there⟩ := List.getElem_of_mem among
        exact clean (.mapping fields, position) (by
          rw [List.mem_zipIdx_iff_getElem?]
          exact List.getElem?_eq_some_iff.mpr ⟨bound, there⟩) fields rfl
      · rintro clean ⟨item, position⟩ member fields rfl
        exact clean items rfl fields (List.fst_mem_of_mem_zipIdx member)
    | _ => exact iff_of_true ⟨_, rfl⟩ nofun

end Questions

/-! ## The summary -/

section Summaries

variable {types : LaxTypes} {safeLoad : DocText → Except String AgentValue} {parsed after : AgentConversationOutput}
  {block : DocText × Nat} {blocks : List (DocText × Nat)} {outcomes : List (Except String ReworkSummary)}

def AgentConversationOutput.takeSummaries (parsed : AgentConversationOutput)
    (outcomes : List (Except String ReworkSummary)) : AgentConversationOutput :=
  { parsed with
    reworkSummary := (accepted outcomes).getLast?.or parsed.reworkSummary
    errors := parsed.errors ++ refused outcomes }

theorem addSummary_take (parsed : AgentConversationOutput) (place : String) (outcome : Except String ReworkSummary)
    (outcomes : List (Except String ReworkSummary)) :
    (parsed.addSummary place outcome).takeSummaries outcomes = parsed.takeSummaries (atField place outcome :: outcomes) := by
  cases outcome with
  | ok summary =>
    simp only [AgentConversationOutput.takeSummaries, AgentConversationOutput.addSummary, atField, accepted, refused,
      List.filterMap_cons, Except.toOption, List.getLast?_cons]
    cases (outcomes.filterMap Except.toOption).getLast? <;> simp
  | error message =>
    simp [AgentConversationOutput.takeSummaries, AgentConversationOutput.addSummary, AgentConversationOutput.report,
      atField, accepted, refused, Except.toOption]

theorem summaryOf_answered {outcome : Except String ReworkSummary} (read : summaryOf types safeLoad block.1 = .ok outcome) :
    SummaryAnswered types safeLoad block (atField (summaryPlace block.2) outcome) := by
  cases outcome with
  | ok summary =>
    show statedSummary types safeLoad block.1 = some summary
    rw [statedSummary, read]
  | error message =>
    refine ⟨namesPlace_append _ message, ?_⟩
    rw [statedSummary, read]

theorem addSummaryBlocks_answered (read : blocks.foldlM (addSummaryBlock types safeLoad) parsed = .ok after) :
    ∃ outcomes, List.Forall₂ (SummaryAnswered types safeLoad) blocks outcomes ∧ after = parsed.takeSummaries outcomes := by
  induction blocks generalizing parsed with
  | nil =>
    refine ⟨[], .nil, (Except.ok.inj read).symm.trans ?_⟩
    simp [AgentConversationOutput.takeSummaries, accepted, refused]
  | cons block rest ih =>
    rw [List.foldlM_cons] at read
    obtain ⟨next, here, read⟩ := Outcome.bind_ok.mp read
    obtain ⟨outcome, one, rfl⟩ := Outcome.map_ok.mp here
    obtain ⟨outcomes, answered, rfl⟩ := ih read
    exact ⟨_ :: outcomes, .cons (summaryOf_answered one) answered, addSummary_take parsed _ outcome outcomes⟩

theorem addSummaryBlock_ok : (∃ after, addSummaryBlock types safeLoad parsed block = .ok after) ↔
    ∀ fields, safeLoad block.1 = .ok (.mapping fields) → CleanSummary fields := by
  have read : (∃ after, addSummaryBlock types safeLoad parsed block = .ok after) ↔
      ∃ outcome, summaryOf types safeLoad block.1 = .ok outcome := by
    simp only [addSummaryBlock, Outcome.map_ok]
    constructor
    · rintro ⟨after, outcome, done, -⟩
      exact ⟨outcome, done⟩
    · rintro ⟨outcome, done⟩
      exact ⟨_, outcome, done, rfl⟩
  rw [read]
  unfold summaryOf
  cases safeLoad block.1 with
  | error name => exact iff_of_true ⟨_, rfl⟩ nofun
  | ok value =>
    cases value with
    | mapping fields =>
      dsimp only
      rw [readSummary_ok]
      constructor
      · intro clean fields' same
        cases same
        exact clean
      · intro clean
        exact clean fields rfl
    | _ => exact iff_of_true ⟨_, rfl⟩ nofun

theorem mem_summaries (answered : List.Forall₂ (SummaryAnswered types safeLoad) blocks outcomes) (summary : ReworkSummary) :
    .ok summary ∈ outcomes ↔ ∃ block ∈ blocks, statedSummary types safeLoad block.1 = some summary := by
  induction answered with
  | nil => simp
  | @cons block outcome rest others here _ ih =>
    rw [List.mem_cons, ih, List.exists_mem_cons_iff]
    have first : .ok summary = outcome ↔ statedSummary types safeLoad block.1 = some summary := by
      cases outcome with
      | ok own =>
        have states : statedSummary types safeLoad block.1 = some own := here
        rw [states, Except.ok.injEq, Option.some.injEq, eq_comm]
      | error message =>
        rw [here.2]
        exact iff_of_false nofun nofun
    rw [first]

theorem mem_accepted {α : Type} {outcomes : List (Except String α)} {value : α} :
    value ∈ accepted outcomes ↔ .ok value ∈ outcomes := by
  unfold accepted
  rw [List.mem_filterMap]
  constructor
  · rintro ⟨outcome, among, taken⟩
    cases outcome with
    | ok own =>
      rw [← Option.some.inj taken]
      exact among
    | error message => cases taken
  · intro among
    exact ⟨.ok value, among, rfl⟩

theorem getLast_of_single {α : Type} {values : List α} {value : α}
    (single : ∀ first ∈ values, ∀ second ∈ values, first = second) : value ∈ values ↔ values.getLast? = some value := by
  constructor
  · intro among
    have some_ : values ≠ [] := List.ne_nil_of_mem among
    rw [List.getLast?_eq_some_getLast some_, single _ (List.getLast_mem some_) value among]
  · exact List.mem_of_getLast?

end Summaries

/-! ## The whole output -/

section Output

variable {types : LaxTypes} {safeLoad : DocText → Except String AgentValue} {output : DocText}

theorem forall_numbered {blocks : List DocText} {fits : DocText → Prop} :
    (∀ block ∈ blocks.zipIdx, fits block.1) ↔ ∀ block ∈ blocks, fits block := by
  calc (∀ block ∈ blocks.zipIdx, fits block.1)
    _ ↔ ∀ block ∈ blocks.zipIdx.map Prod.fst, fits block := by rw [List.forall_mem_map]
    _ ↔ ∀ block ∈ blocks, fits block := by rw [List.zipIdx_map_fst]

theorem exists_numbered (blocks : List DocText) (fits : DocText → Prop) :
    (∃ block ∈ blocks.zipIdx, fits block.1) ↔ ∃ block ∈ blocks, fits block := by
  have none_ := @forall_numbered blocks fun block => ¬ fits block
  simpa only [not_exists, not_and, not_forall, not_not, exists_prop] using not_congr none_

theorem parse_ok : (∃ result, parseAgentConversationOutput types safeLoad output = .ok result) ↔
    (∀ block ∈ fencedBlocks output "questions", ∀ items, safeLoad block = .ok (.list items) →
      ∀ fields, .mapping fields ∈ items → CleanQuestion types fields) ∧
    ∀ block ∈ fencedBlocks output "rework-summary", ∀ fields, safeLoad block = .ok (.mapping fields) →
      CleanSummary fields := by
  rw [← forall_numbered, ← forall_numbered]
  unfold parseAgentConversationOutput
  simp only [Outcome.bind_ok]
  have asks (parsed : AgentConversationOutput) (block : DocText × Nat) := @addQuestionsBlock_ok types safeLoad parsed block
  have sums (parsed : AgentConversationOutput) (block : DocText × Nat) := @addSummaryBlock_ok types safeLoad parsed block
  constructor
  · rintro ⟨result, asked, first, second⟩
    exact ⟨(Outcome.foldlM_ok_iff asks).mp ⟨asked, first⟩, (Outcome.foldlM_ok_iff sums).mp ⟨result, second⟩⟩
  · rintro ⟨questions, summaries⟩
    obtain ⟨asked, first⟩ := (Outcome.foldlM_ok_iff asks).mpr questions
    obtain ⟨result, second⟩ := (Outcome.foldlM_ok_iff sums).mpr summaries
    exact ⟨result, asked, first, second⟩

theorem cleanOutput_of_accountsFor (accounts : AccountsFor types safeLoad output) : CleanOutput types safeLoad output := by
  obtain ⟨result, parsed, questions, summaries, accounted⟩ := accounts
  obtain ⟨asked, summed⟩ := parse_ok.mp ⟨result, parsed⟩
  refine ⟨asked, summed, ?_⟩
  intro block among other listed summary states another claims
  have taken (block : DocText) (among : block ∈ fencedBlocks output "rework-summary") (summary : ReworkSummary)
      (states : statedSummary types safeLoad block = some summary) : result.reworkSummary = some summary := by
    rw [← accounted.summary, mem_summaries accounted.blocks]
    exact (exists_numbered _ fun block => statedSummary types safeLoad block = some summary).mpr ⟨block, among, states⟩
  exact Option.some.inj ((taken block among summary states).symm.trans (taken other listed another claims))

theorem accountsFor_of_cleanOutput (clean : CleanOutput types safeLoad output) : AccountsFor types safeLoad output := by
  obtain ⟨result, parsed⟩ := parse_ok.mpr ⟨clean.questions, clean.summaries⟩
  obtain ⟨asked, first, second⟩ := Outcome.bind_ok.mp parsed
  obtain ⟨questions, answered, rfl⟩ := addQuestionsBlocks_answered first
  obtain ⟨summaries, blocks, rfl⟩ := addSummaryBlocks_answered second
  refine ⟨_, parsed, questions, summaries, answered, blocks, ?_, ?_, ?_⟩
  · exact List.nil_append _
  · show ([] ++ refused questions) ++ refused summaries = _
    rw [List.nil_append]
  · intro summary
    show _ ↔ (accepted summaries).getLast?.or none = some summary
    rw [Option.or_none, ← mem_accepted]
    apply getLast_of_single
    intro one first other second
    rw [mem_accepted, mem_summaries blocks] at first second
    obtain ⟨block, among, states⟩ := (exists_numbered _ fun block => statedSummary types safeLoad block = some one).mp first
    obtain ⟨another, listed, claims⟩ :=
      (exists_numbered _ fun block => statedSummary types safeLoad block = some other).mp second
    exact clean.single block among another listed one states other claims

/-- The parser accounts for everything that the agent states exactly where it can clean all of it and no two summary
    blocks state different summaries. -/
theorem agent_output_accounted_iff (types : LaxTypes) (safeLoad : DocText → Except String AgentValue) (output : DocText) :
    AccountsFor types safeLoad output ↔ CleanOutput types safeLoad output :=
  ⟨cleanOutput_of_accountsFor, accountsFor_of_cleanOutput⟩

end Output

section Scene

def sceneTypes : LaxTypes where
  str value :=
    match value with
    | .text characters => .ok characters
    | _ => .error "Input should be a valid string"
  kind value :=
    if value.isText "choice" then .ok .choice
    else if value.isText "text" then .ok .text
    else if value.isText "number" then .ok .number
    else .error "Input should be 'choice', 'text' or 'number'"
  bool value :=
    match value with
    | .plain "bool" _ truthy => .ok truthy
    | _ => .error "Input should be a valid boolean"

def roundingOutput : DocText := "Done.\n```questions\n- text: Which rounding?\n  options: 5\n```\n".toList

def roundingLoad (_ : DocText) : Except String AgentValue :=
  .ok (.list [.mapping [(.text "text", .text "Which rounding?"), (.text "options", .plain "int" "5" true)]])

def summariesOutput : DocText :=
  "```rework-summary\nchanged: [AC-1]\n```\n```rework-summary\nchanged: [AC-2]\n```\n".toList

def summariesLoad (block : DocText) : Except String AgentValue :=
  let changed := if block = "changed: [AC-1]\n".toList then "AC-1" else "AC-2"
  .ok (.mapping [(.text "changed", .list [.text changed])])

/-- The options of a question are no list: the parser raises. Two summary blocks: the first one is lost. -/
theorem agent_output_lost :
    parseAgentConversationOutput sceneTypes roundingLoad roundingOutput =
        .error ⟨.typeError, "'int' object is not iterable"⟩ ∧
      ¬ AccountsFor sceneTypes roundingLoad roundingOutput ∧
      ¬ AccountsFor sceneTypes summariesLoad summariesOutput := by
  have raises : parseAgentConversationOutput sceneTypes roundingLoad roundingOutput =
      .error ⟨.typeError, "'int' object is not iterable"⟩ := rfl
  refine ⟨raises, ?_, ?_⟩
  · rintro ⟨result, parsed, -⟩
    rw [raises] at parsed
    cases parsed
  · intro accounts
    have blocks : fencedBlocks summariesOutput "rework-summary" =
        ["changed: [AC-1]\n".toList, "changed: [AC-2]\n".toList] := rfl
    have single := (cleanOutput_of_accountsFor accounts).single
    rw [blocks] at single
    have same := single _ List.mem_cons_self _ (List.mem_cons_of_mem _ List.mem_cons_self)
      { changed := ["AC-1"] } rfl { changed := ["AC-2"] } rfl
    exact absurd same (by decide)

end Scene

end DarkFactory
