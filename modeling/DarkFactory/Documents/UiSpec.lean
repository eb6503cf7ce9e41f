import DarkFactory.Documents.Decisions
import Mathlib.Data.List.Sort
import Mathlib.Data.String.Basic

namespace DarkFactory

inductive UiStateKind | loading | empty | error | success | access
  deriving DecidableEq, Repr

def UiStateKind.value : UiStateKind → String
  | .loading => "loading"
  | .empty => "empty"
  | .error => "error"
  | .success => "success"
  | .access => "access"

def stateKinds : List UiStateKind := [.loading, .empty, .error, .success, .access]

structure UiStep where
  id : NonemptyText
  text : NonemptyText
  screen : Option NonemptyText := none
  deriving DecidableEq

structure UiScenario where
  id : NonemptyText
  path : NonemptyText
  title : String
  summary : Option String := none
  steps : List UiStep := []
  screens : List NonemptyText := []
  deriving DecidableEq

structure UiState where
  kind : UiStateKind
  description : Option NonemptyText := none
  deriving DecidableEq

structure UiElement where
  id : NonemptyText
  kind : Option NonemptyText := none
  label : Option NonemptyText := none
  component : Option NonemptyText := none
  deriving DecidableEq

structure UiScreen where
  id : NonemptyText
  path : NonemptyText
  title : String
  purpose : Option String := none
  route : Option NonemptyText := none
  previewUrl : Option String := none
  states : List UiState := []
  elements : List UiElement := []
  components : List NonemptyText := []
  deriving DecidableEq

structure UiLink where
  id : NonemptyText
  fromScreen : NonemptyText
  toScreen : NonemptyText
  trigger : Option NonemptyText := none
  condition : Option NonemptyText := none
  deriving DecidableEq

structure UiComponentUse where
  name : NonemptyText
  screens : List NonemptyText := []
  deriving DecidableEq

structure UiSpec where
  scenarios : List UiScenario := []
  screens : List UiScreen := []
  links : List UiLink := []
  components : List UiComponentUse := []
  errors : List String := []
  deriving DecidableEq

structure UiTransition where
  fromScreen : NonemptyText
  toScreen : NonemptyText
  trigger : Option NonemptyText := none
  condition : Option NonemptyText := none
  deriving DecidableEq

abbrev Reported (α : Type) := List String × α

namespace UiNodes

open Regex Pattern

variable (unicode : Unicode)

def headingLine : Regex Char :=
  sequence [lineStart, .seq (literal "#") (upTo (literal "#") 5), plus space true, .star dot true, lineEnd]

def blankLine : Regex Char := sequence [literal "\n", spaces, literal "\n"]

def firstParagraph (body : DocText) : Option String :=
  let text := headingLine.sub [] (fence.sub [] body)
  let paragraphs := (blankLine.split text).map fun chunk => ((splitlines chunk).map stripText).filter (· ≠ [])
  (paragraphs.find? (· ≠ [])).map fun lines => Text.join " " (lines.map String.ofList)

def absoluteUrl : Regex Char :=
  .seq (literalFold unicode "http") (.seq (optional (literalFold unicode "s")) (literal "://"))

def resolvePreviewUrl (value : Yaml) (devUrl : Option String) : Option String :=
  value.clean.map fun text =>
    if ((absoluteUrl unicode).matchStart text.val.toList).isSome then text.val
    else
      match (devUrl.map Text.strip).filter (· ≠ "") with
      | none => text.val
      | some base =>
        String.ofList (base.toList.rdropWhile (· = '/')) ++ "/" ++ String.ofList (text.val.toList.dropWhile (· = '/'))

def frontmatterOf (safeLoad : DocText → Except String Yaml) (path : String) (content : DocText) :
    Except SddFailure (Reported (Option (YamlMapping × DocText))) :=
  match readFrontmatter safeLoad content with
  | .error failure => .error failure
  | .ok (.error message) => .ok ([path ++ ": frontmatter: " ++ message], none)
  | .ok (.ok (none, _)) => .ok ([path ++ ": no frontmatter — the node has no id"], none)
  | .ok (.ok (some raw, body)) => .ok ([], some (raw, body))

def identity (path : String) (raw : YamlMapping) : Reported (Option (NonemptyText × String)) :=
  match (raw.get "id").clean with
  | none => ([path ++ ": frontmatter has no id"], none)
  | some identifier => ([], some (identifier, ((raw.get "title").clean.map Subtype.val).getD (stem path)))

/-- The items of a field that is to be a list; what is empty or absent has none. -/
def itemsOf (path field : String) (value : Yaml) : Reported (List Yaml) :=
  if !value.truthy then ([], [])
  else
    match value with
    | .list items => ([], items)
    | _ => ([path ++ ": " ++ field ++ " must be a list"], [])

/-- The values of the items that have one, and the errors of the others; items are numbered from one. -/
def collect {α : Type} (read : Nat → Yaml → Except String α) (items : List Yaml) : Reported (List α) :=
  items.zipIdx.foldl (fun (errors, values) (item, index) =>
    match read (index + 1) item with
    | .ok value => (errors, values ++ [value])
    | .error message => (errors ++ [message], values)) ([], [])

theorem numbered_nonempty (index : Nat) : "S" ++ toString index ≠ "" := by
  intro none_
  have lists := congrArg String.toList none_
  rw [String.toList_append] at lists
  exact List.cons_ne_nil _ _ lists

def stepId (index : Nat) : NonemptyText := ⟨"S" ++ toString index, numbered_nonempty index⟩

def stepOf (path : String) (index : Nat) : Yaml → Except String UiStep
  | .mapping entries =>
    match (YamlMapping.get entries "text").clean with
    | none => .error (path ++ s!": step {index} has no text")
    | some text =>
      .ok { id := (YamlMapping.get entries "id").clean.getD (stepId index), text
            screen := (YamlMapping.get entries "screen").clean }
  | .text characters =>
    match cleanText characters with
    | some text => .ok { id := stepId index, text }
    | none => .error (path ++ s!": step {index} is not a mapping")
  | _ => .error (path ++ s!": step {index} is not a mapping")

def parseUiScenario (safeLoad : DocText → Except String Yaml) (path : String) (content : DocText) :
    Except SddFailure (Reported (Option UiScenario)) := do
  let (errors, parsed) ← frontmatterOf safeLoad path content
  match parsed with
  | none => return (errors, none)
  | some (raw, body) =>
    let (unnamed, named) := identity path raw
    match named with
    | none => return (errors ++ unnamed, none)
    | some (id, title) =>
      let (unlisted, items) := itemsOf path "steps" (raw.get "steps")
      let (unread, steps) := collect (stepOf path) items
      let place ← nonempty "path" path
      let scenario : UiScenario :=
        { id, path := place, title, summary := firstParagraph body, steps
          screens := keepFirst (steps.filterMap UiStep.screen) }
      return (errors ++ unlisted ++ unread, some scenario)

def statePairs (path : String) : Yaml → Reported (List (String × Yaml))
  | .null => ([], [])
  | .mapping entries => ([], entries.map fun (kind, description) => (kind.str, description))
  | .list items =>
    collect (fun _ item =>
      match item with
      | .mapping entries =>
        match YamlMapping.get entries "kind" with
        | .null => .error (path ++ ": state entry " ++ item.repr ++ " needs a kind")
        | kind => .ok (kind.str, YamlMapping.get entries "description")
      | item => .error (path ++ ": state entry " ++ item.repr ++ " needs a kind")) items
  | _ => ([path ++ ": states must be a mapping kind -> description"], [])

def stateKind (kind : String) : Option UiStateKind :=
  stateKinds.find? fun known => known.value.toList = unicode.lower (stripText kind.toList)

/-- The declared states in display order; the first of a kind counts. -/
def statesOf (path : String) (raw : YamlMapping) : Reported (List UiState) :=
  let (errors, pairs) := statePairs path (raw.get "states")
  let unknown := pairs.filterMap fun (kind, _) =>
    if (stateKind unicode kind).isNone then some (path ++ ": unknown state kind " ++ Text.repr kind) else none
  let states := stateKinds.filterMap fun known =>
    (pairs.find? fun (kind, _) => stateKind unicode kind = some known).map fun (_, description) =>
      { kind := known, description := description.clean }
  (errors ++ unknown, states)

def elementOf (path : String) (index : Nat) : Yaml → Except String UiElement
  | .mapping entries =>
    match (YamlMapping.get entries "id").clean with
    | none => .error (path ++ s!": element {index} has no id")
    | some id =>
      .ok { id, kind := (YamlMapping.get entries "kind").clean, label := (YamlMapping.get entries "label").clean
            component := (YamlMapping.get entries "component").clean }
  | _ => .error (path ++ s!": element {index} is not a mapping")

def elementsOf (path : String) (raw : YamlMapping) : Reported (List UiElement) :=
  let (unlisted, items) := itemsOf path "elements" (raw.get "elements")
  let (unread, elements) := collect (elementOf path) items
  (unlisted ++ unread, elements)

def transitionOf (path : String) (screenId : NonemptyText) (index : Nat) : Yaml → Except String UiTransition
  | .mapping entries =>
    match (YamlMapping.get entries "to").clean with
    | none => .error (path ++ s!": transition {index} has no target screen (to)")
    | some target =>
      .ok { fromScreen := screenId, toScreen := target, trigger := (YamlMapping.get entries "trigger").clean
            condition := (YamlMapping.get entries "condition").clean }
  | _ => .error (path ++ s!": transition {index} is not a mapping")

def transitionsOf (path : String) (screenId : NonemptyText) (raw : YamlMapping) : Reported (List UiTransition) :=
  let (unlisted, items) := itemsOf path "transitions" (raw.get "transitions")
  let (unread, transitions) := collect (transitionOf path screenId) items
  (unlisted ++ unread, transitions)

def parseUiScreen (safeLoad : DocText → Except String Yaml) (path : String) (content : DocText)
    (devUrl : Option String) : Except SddFailure (Reported (Option (UiScreen × List UiTransition))) := do
  let (errors, parsed) ← frontmatterOf safeLoad path content
  match parsed with
  | none => return (errors, none)
  | some (raw, body) =>
    let (unnamed, named) := identity path raw
    match named with
    | none => return (errors ++ unnamed, none)
    | some (id, title) =>
      let (unreadElements, elements) := elementsOf path raw
      let (unreadStates, states) := statesOf unicode path raw
      let place ← nonempty "path" path
      let screen : UiScreen :=
        { id, path := place, title, purpose := firstParagraph body, route := (raw.get "route").clean
          previewUrl := resolvePreviewUrl unicode (raw.get "preview_url") devUrl, states, elements
          components := keepFirst (elements.filterMap UiElement.component) }
      let (unreadTransitions, transitions) := transitionsOf path id raw
      return (errors ++ unreadElements ++ unreadStates ++ unreadTransitions, some (screen, transitions))

inductive NodeType | scenario | screen
  deriving DecidableEq, Repr

def nodeType (safeLoad : DocText → Except String Yaml) (path : String) (content : DocText) :
    Except SddFailure (Option NodeType) := do
  let split ← readFrontmatter safeLoad content
  let declared : Option NonemptyText := match split with
    | .ok (some raw, _) => (raw.get "type").clean
    | _ => none
  let name := unicode.upper (stem path).toList
  let under (folder : String) : Bool := path.toList.tails.any folder.toList.isPrefixOf
  return (
    if declared.any (·.val = "ui_scenario") then some .scenario
    else if declared.any (·.val = "ui_screen") then some .screen
    else if "SCN-".toList.isPrefixOf name || under "/scenarios/" then some .scenario
    else if "SCR-".toList.isPrefixOf name || under "/screens/" then some .screen
    else none)

structure UiParts where
  errors : List String := []
  scenarios : List UiScenario := []
  screens : List UiScreen := []
  transitions : List UiTransition := []

def addDocument (safeLoad : DocText → Except String Yaml) (devUrl : Option String) (parts : UiParts)
    (document : String × Option DocText) : Except SddFailure UiParts :=
  match document.2 with
  | none => .ok { parts with errors := parts.errors ++ [document.1 ++ ": the document is absent at this revision"] }
  | some content => do
    match ← nodeType unicode safeLoad document.1 content with
    | some .scenario =>
      let (errors, scenario) ← parseUiScenario safeLoad document.1 content
      return { parts with errors := parts.errors ++ errors, scenarios := parts.scenarios ++ scenario.toList }
    | some .screen =>
      let (errors, screen) ← parseUiScreen unicode safeLoad document.1 content devUrl
      return { parts with
        errors := parts.errors ++ errors
        screens := parts.screens ++ (screen.map Prod.fst).toList
        transitions := parts.transitions ++ (screen.map Prod.snd).getD [] }
    | none =>
      return { parts with
        errors := parts.errors ++ [document.1 ++ ": not a UI scenario or screen (type / SCN- / SCR-)"] }

theorem link_nonempty (left right : String) : left ++ "->" ++ right ≠ "" := by
  intro none_
  have lists := congrArg String.toList none_
  rw [String.toList_append, String.toList_append] at lists
  simp at lists

/-- A pair that repeats is numbered from its second link on. -/
def linkId (base : NonemptyText) (count : Nat) : NonemptyText :=
  if count = 1 then base
  else ⟨base.val ++ s!"#{count}", fun none_ => base.property (by
    have lists := congrArg String.toList none_
    rw [String.toList_append] at lists
    exact String.toList_inj.mp (List.append_eq_nil_iff.mp lists).1)⟩

def linkBase (transition : UiTransition) : NonemptyText :=
  ⟨transition.fromScreen.val ++ "->" ++ transition.toScreen.val, link_nonempty _ _⟩

def linksOf (transitions : List UiTransition) : List UiLink :=
  transitions.zipIdx.map fun (transition, index) =>
    { id := linkId (linkBase transition)
        (((transitions.take (index + 1)).map linkBase).count (linkBase transition))
      fromScreen := transition.fromScreen, toScreen := transition.toScreen, trigger := transition.trigger
      condition := transition.condition }

/-- Each component with the screens that use it, in the order of their first uses. -/
def componentsOf (screens : List UiScreen) : List UiComponentUse :=
  (keepFirst (screens.flatMap UiScreen.components)).map fun name =>
    { name, screens := keepFirst ((screens.filter fun screen => name ∈ screen.components).map UiScreen.id) }

end UiNodes

def buildUiSpec (safeLoad : DocText → Except String Yaml) (unicode : Unicode)
    (documents : List (String × Option DocText)) (devUrl : Option String) : Except SddFailure UiSpec := do
  let parts ← (documents.insertionSort fun first second => first.1 ≤ second.1).foldlM
    (UiNodes.addDocument unicode safeLoad devUrl) {}
  return {
    scenarios := parts.scenarios, screens := parts.screens, links := UiNodes.linksOf parts.transitions
    components := UiNodes.componentsOf parts.screens, errors := parts.errors }

end DarkFactory
