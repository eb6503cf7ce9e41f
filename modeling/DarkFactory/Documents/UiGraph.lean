import DarkFactory.Changes.Keys
import DarkFactory.Documents.ReadModel
import DarkFactory.Lib.Labels

namespace DarkFactory

structure DeclaredNode where
  path : String
  type : UiNodes.NodeType
  id : NonemptyText
  raw : YamlMapping

section Declarations

variable (safeLoad : DocText → Except String Yaml) (unicode : Unicode)

def declaredIdentity (content : DocText) : Option (NonemptyText × YamlMapping) :=
  match readFrontmatter safeLoad content with
  | .ok (.ok (some raw, _)) => (raw.get "id").clean.map (·, raw)
  | _ => none

def declaredNode (document : String × Option DocText) : Option DeclaredNode :=
  match document.2 with
  | none => none
  | some content =>
    match UiNodes.nodeType unicode safeLoad document.1 content with
    | .ok (some type) =>
      (declaredIdentity safeLoad content).map fun (id, raw) => { path := document.1, type, id, raw }
    | _ => none

def declaredNodes (type : UiNodes.NodeType) (documents : List (String × Option DocText)) : List DeclaredNode :=
  (documents.filterMap (declaredNode safeLoad unicode)).filter (·.type = type)

def inPathOrder (documents : List (String × Option DocText)) : List (String × Option DocText) :=
  documents.insertionSort fun first second => first.1 ≤ second.1

def declaredItems (raw : YamlMapping) (field : String) : List Yaml :=
  match raw.get field with
  | .list items => items
  | _ => []

def declaredStep : Yaml → Option (Option NonemptyText)
  | .mapping entries => (YamlMapping.get entries "text").clean.map fun _ => (YamlMapping.get entries "id").clean
  | .text characters => (cleanText characters).map fun _ => none
  | _ => none

/-- The steps of a scenario: where each stands in the list, counted from one, and the id that it declares. -/
def DeclaredNode.steps (node : DeclaredNode) : List (Nat × Option NonemptyText) :=
  (declaredItems node.raw "steps").zipIdx.filterMap fun (item, index) => (declaredStep item).map (index + 1, ·)

def declaredTransition (source : NonemptyText) : Yaml → Option UiTransition
  | .mapping entries =>
    (YamlMapping.get entries "to").clean.map fun target =>
      { fromScreen := source, toScreen := target, trigger := (YamlMapping.get entries "trigger").clean
        condition := (YamlMapping.get entries "condition").clean }
  | _ => none

def DeclaredNode.transitions (node : DeclaredNode) : List UiTransition :=
  (declaredItems node.raw "transitions").filterMap (declaredTransition node.id)

def declaredComponent : Yaml → Option NonemptyText
  | .mapping entries => (YamlMapping.get entries "id").clean.bind fun _ => (YamlMapping.get entries "component").clean
  | _ => none

def DeclaredNode.components (node : DeclaredNode) : List NonemptyText :=
  (declaredItems node.raw "elements").filterMap declaredComponent

def declaredLinks (documents : List (String × Option DocText)) : List UiTransition :=
  (declaredNodes safeLoad unicode .screen (inPathOrder documents)).flatMap DeclaredNode.transitions

end Declarations

section Statements

variable (safeLoad : DocText → Except String Yaml) (unicode : Unicode)

def UiLink.transition (link : UiLink) : UiTransition :=
  { fromScreen := link.fromScreen, toScreen := link.toScreen, trigger := link.trigger, condition := link.condition }

def nodesAt (path : String) (scenarios : List UiScenario) (screens : List UiScreen) : Nat × Nat :=
  (scenarios.countP (·.path.val = path), screens.countP (·.path.val = path))

def UiSpec.Lists (spec : UiSpec) (component : NonemptyText) (screen : UiScreen) : Prop :=
  ∃ use ∈ spec.components, use.name = component ∧ screen.id ∈ use.screens

structure WellFormedGraph (spec : UiSpec) (documents : List (String × Option DocText)) : Prop where
  nodes : ∀ document ∈ documents,
    nodesAt document.1 spec.scenarios spec.screens = (1, 0) ∨ nodesAt document.1 spec.scenarios spec.screens = (0, 1) ∨
      nodesAt document.1 spec.scenarios spec.screens = (0, 0) ∧ ∃ error ∈ spec.errors, AboutPath document.1 error
  distinctLinks : (spec.links.map UiLink.id).Nodup
  declaredLinks : spec.links.map UiLink.transition = declaredLinks safeLoad unicode documents
  distinctSteps : ∀ scenario ∈ spec.scenarios, (scenario.steps.map UiStep.id).Nodup
  components : ∀ screen ∈ spec.screens, ∀ name,
    spec.Lists name screen ↔ ∃ element ∈ screen.elements, element.component = some name

def LinksApart (pairs : List NonemptyText) : Prop :=
  ∀ first ∈ pairs, ∀ second ∈ pairs, ∀ number, 2 ≤ number → number ≤ pairs.count second →
    first.val ≠ second.val ++ s!"#{number}"

structure GraphIdsApart (documents : List (String × Option DocText)) : Prop where
  placed : ∀ document ∈ documents, declaredNode safeLoad unicode document ≠ none → document.1 ≠ ""
  steps : ∀ node ∈ declaredNodes safeLoad unicode .scenario documents, Labels.Apart UiNodes.stepId node.steps
  links : LinksApart ((declaredLinks safeLoad unicode documents).map UiNodes.linkBase)
  screens : ∀ screen ∈ declaredNodes safeLoad unicode .screen documents,
    ∀ other ∈ declaredNodes safeLoad unicode .screen documents, screen.id = other.id →
      ∀ name ∈ other.components, name ∈ screen.components

end Statements

/-! ## The items of a node -/

section Items

open UiNodes

variable {path : String} {source : NonemptyText} {raw : YamlMapping} {index : Nat}

theorem foldl_appends {α β γ : Type} {step : α × List γ → β → α × List γ} {given : β → Option γ}
    (appends : ∀ state item, (step state item).2 = state.2 ++ (given item).toList) (items : List β) (state : α × List γ) :
    (items.foldl step state).2 = state.2 ++ items.filterMap given := by
  induction items generalizing state with
  | nil => simp
  | cons item rest ih =>
    rw [List.foldl_cons, ih, appends, List.filterMap_cons]
    cases given item <;> simp

theorem collect_values {α : Type} (read : Nat → Yaml → Except String α) (items : List Yaml) :
    (collect read items).2 = items.zipIdx.filterMap fun entry => (read (entry.2 + 1) entry.1).toOption := by
  unfold collect
  refine (foldl_appends (fun state entry => ?_) items.zipIdx ([], [])).trans (List.nil_append _)
  dsimp only
  cases read (entry.2 + 1) entry.1 <;> simp [Except.toOption]

theorem filterMap_positions {α : Type} (read : Yaml → Option α) (items : List Yaml) :
    items.zipIdx.filterMap (fun entry => read entry.1) = items.filterMap read := by
  calc items.zipIdx.filterMap (fun entry => read entry.1)
    _ = (items.zipIdx.map Prod.fst).filterMap read := by
        rw [List.filterMap_map]
        rfl
    _ = items.filterMap read := by rw [List.zipIdx_map_fst]

theorem itemsOf_items (path field : String) (raw : YamlMapping) :
    (itemsOf path field (raw.get field)).2 = declaredItems raw field := by
  unfold itemsOf declaredItems
  cases raw.get field with
  | null => rfl
  | text characters => by_cases empty : characters = "" <;> simp [Yaml.truthy, empty]
  | scalar shown repr truthy decoded => cases truthy <;> rfl
  | list items => cases items <;> rfl
  | mapping entries => cases entries <;> rfl

theorem stepOf_id (item : Yaml) : (stepOf path index item).toOption.map UiStep.id =
    (declaredStep item).map fun named => Labels.label stepId (index, named) := by
  cases item with
  | null => rfl
  | text characters =>
    unfold stepOf declaredStep
    dsimp only
    cases cleanText characters <;> rfl
  | scalar shown repr truthy decoded => rfl
  | list items => rfl
  | mapping entries =>
    unfold stepOf declaredStep
    dsimp only
    cases (YamlMapping.get entries "text").clean <;> rfl

theorem transitionOf_declared (item : Yaml) :
    (transitionOf path source index item).toOption = declaredTransition source item := by
  cases item with
  | null => rfl
  | text characters => rfl
  | scalar shown repr truthy decoded => rfl
  | list items => rfl
  | mapping entries =>
    unfold transitionOf declaredTransition
    dsimp only
    cases (YamlMapping.get entries "to").clean <;> rfl

theorem elementOf_component (item : Yaml) :
    (elementOf path index item).toOption.bind UiElement.component = declaredComponent item := by
  cases item with
  | null => rfl
  | text characters => rfl
  | scalar shown repr truthy decoded => rfl
  | list items => rfl
  | mapping entries =>
    unfold elementOf declaredComponent
    dsimp only
    cases (YamlMapping.get entries "id").clean <;> rfl

end Items

/-! ## One document -/

section Documents

open UiNodes

variable {safeLoad : DocText → Except String Yaml} {unicode : Unicode} {path : String} {content : DocText}
  {devUrl : Option String} {id : NonemptyText} {raw : YamlMapping} {parts after : UiParts}

/-- A text has an identity, or an error about its document comes first. -/
theorem identity_cases (path : String) (loads : BlockLoads safeLoad content) :
    (declaredIdentity safeLoad content = none ∧
      ((∃ error, frontmatterOf safeLoad path content = .ok ([error], none) ∧ AboutPath path error) ∨
        ∃ raw body error, frontmatterOf safeLoad path content = .ok ([], some (raw, body)) ∧
          identity path raw = ([error], none) ∧ AboutPath path error)) ∨
      ∃ id raw body title, declaredIdentity safeLoad content = some (id, raw) ∧
        frontmatterOf safeLoad path content = .ok ([], some (raw, body)) ∧ identity path raw = ([], some (id, title)) := by
  unfold declaredIdentity
  rcases readFrontmatter_cases safeLoad content with
    ⟨invalid, -⟩ | ⟨-, ⟨-, message, read⟩ | ⟨-, ⟨raw, body⟩, -, read⟩⟩
  · exact absurd loads invalid
  · rcases frontmatterOf_cases path loads with unread | ⟨-, node, found⟩
    · rw [read]
      exact .inl ⟨rfl, .inl unread⟩
    · rw [frontmatterOf, read] at found
      cases found
  · cases raw with
    | none =>
      rcases frontmatterOf_cases path loads with unread | ⟨-, node, found⟩
      · rw [read]
        exact .inl ⟨rfl, .inl unread⟩
      · rw [frontmatterOf, read] at found
        cases found
    | some raw =>
      have found : frontmatterOf safeLoad path content = .ok ([], some (raw, body)) := by rw [frontmatterOf, read]
      rw [read]
      unfold identity
      cases named : (raw.get "id").clean with
      | none =>
        refine .inl ⟨by simp [named], .inr ⟨raw, body, path ++ ": frontmatter has no id", found, by rw [named], ?_⟩⟩
        exact @aboutPath_append path _ "frontmatter has no id" (by simp)
      | some id => exact .inr ⟨id, raw, body, _, by simp [named], found, by rw [named]⟩

theorem parseUiScenario_none (loads : BlockLoads safeLoad content) (anonymous : declaredIdentity safeLoad content = none) :
    ∃ errors, parseUiScenario safeLoad path content = .ok (errors, none) ∧ ∃ error ∈ errors, AboutPath path error := by
  unfold parseUiScenario
  rcases identity_cases path loads with
    ⟨-, ⟨error, read, about⟩ | ⟨raw, body, error, read, unnamed, about⟩⟩ | ⟨id, raw, body, title, found, -⟩
  · rw [read]
    exact ⟨[error], rfl, error, List.mem_singleton_self error, about⟩
  · rw [read]
    dsimp only [Bind.bind, Except.bind]
    rw [unnamed]
    exact ⟨[error], rfl, error, List.mem_singleton_self error, about⟩
  · rw [anonymous] at found
    cases found

theorem parseUiScenario_some (loads : BlockLoads safeLoad content) (placed : path ≠ "")
    (identified : declaredIdentity safeLoad content = some (id, raw)) :
    ∃ errors scenario, parseUiScenario safeLoad path content = .ok (errors, some scenario) ∧
      scenario.path.val = path ∧ scenario.steps = (collect (stepOf path) (declaredItems raw "steps")).2 := by
  unfold parseUiScenario
  rcases identity_cases path loads with ⟨anonymous, -⟩ | ⟨id', raw', body, title, found, read, named⟩
  · rw [anonymous] at identified
    cases identified
  · rw [found] at identified
    cases identified
    have located : nonempty "path" path = .ok ⟨path, placed⟩ := dif_pos placed
    rw [read]
    dsimp only [Bind.bind, Except.bind]
    rw [named, located, ← itemsOf_items path]
    exact ⟨_, _, rfl, rfl, rfl⟩

theorem parseUiScenario_unplaced {parsed : Reported (Option UiScenario)} (loads : BlockLoads safeLoad content)
    (parsing : parseUiScenario safeLoad "" content = .ok parsed) : declaredIdentity safeLoad content = none := by
  unfold parseUiScenario at parsing
  rcases identity_cases "" loads with ⟨anonymous, -⟩ | ⟨id, raw, body, title, found, read, named⟩
  · exact anonymous
  · rw [read] at parsing
    dsimp only [Bind.bind, Except.bind] at parsing
    rw [named] at parsing
    cases parsing

theorem parseUiScreen_none (loads : BlockLoads safeLoad content) (anonymous : declaredIdentity safeLoad content = none) :
    ∃ errors, parseUiScreen unicode safeLoad path content devUrl = .ok (errors, none) ∧
      ∃ error ∈ errors, AboutPath path error := by
  unfold parseUiScreen
  rcases identity_cases path loads with
    ⟨-, ⟨error, read, about⟩ | ⟨raw, body, error, read, unnamed, about⟩⟩ | ⟨id, raw, body, title, found, -⟩
  · rw [read]
    exact ⟨[error], rfl, error, List.mem_singleton_self error, about⟩
  · rw [read]
    dsimp only [Bind.bind, Except.bind]
    rw [unnamed]
    exact ⟨[error], rfl, error, List.mem_singleton_self error, about⟩
  · rw [anonymous] at found
    cases found

theorem parseUiScreen_some (loads : BlockLoads safeLoad content) (placed : path ≠ "")
    (identified : declaredIdentity safeLoad content = some (id, raw)) :
    ∃ errors screen, parseUiScreen unicode safeLoad path content devUrl =
        .ok (errors, some (screen, (collect (transitionOf path id) (declaredItems raw "transitions")).2)) ∧
      screen.path.val = path ∧ screen.id = id ∧
      screen.elements = (collect (elementOf path) (declaredItems raw "elements")).2 ∧
      screen.components = keepFirst (screen.elements.filterMap UiElement.component) := by
  unfold parseUiScreen
  rcases identity_cases path loads with ⟨anonymous, -⟩ | ⟨id', raw', body, title, found, read, named⟩
  · rw [anonymous] at identified
    cases identified
  · rw [found] at identified
    cases identified
    have located : nonempty "path" path = .ok ⟨path, placed⟩ := dif_pos placed
    rw [read]
    dsimp only [Bind.bind, Except.bind]
    rw [named, located, ← itemsOf_items path "transitions", ← itemsOf_items path "elements"]
    exact ⟨_, _, rfl, rfl, rfl, rfl, rfl⟩

theorem parseUiScreen_unplaced {parsed : Reported (Option (UiScreen × List UiTransition))}
    (loads : BlockLoads safeLoad content) (parsing : parseUiScreen unicode safeLoad "" content devUrl = .ok parsed) :
    declaredIdentity safeLoad content = none := by
  unfold parseUiScreen at parsing
  rcases identity_cases "" loads with ⟨anonymous, -⟩ | ⟨id, raw, body, title, found, read, named⟩
  · exact anonymous
  · rw [read] at parsing
    dsimp only [Bind.bind, Except.bind] at parsing
    rw [named] at parsing
    cases parsing

/-- What a document adds to the parts: nothing but errors, one of them its own, or the node that it declares. -/
inductive Adds (safeLoad : DocText → Except String Yaml) (unicode : Unicode) :
    String × Option DocText → UiParts → Prop
  | nothing {document : String × Option DocText} {errors : List String} {error : String}
      (undeclared : declaredNode safeLoad unicode document = none) (reported : error ∈ errors)
      (about : AboutPath document.1 error) : Adds safeLoad unicode document { errors }
  | scenario {document : String × Option DocText} {node : DeclaredNode} {scenario : UiScenario} {errors : List String}
      (declared : declaredNode safeLoad unicode document = some node) (type : node.type = .scenario)
      (located : scenario.path.val = document.1)
      (steps : scenario.steps.map UiStep.id = node.steps.map (Labels.label stepId)) :
      Adds safeLoad unicode document { errors, scenarios := [scenario] }
  | screen {document : String × Option DocText} {node : DeclaredNode} {screen : UiScreen} {errors : List String}
      (declared : declaredNode safeLoad unicode document = some node) (type : node.type = .screen)
      (located : screen.path.val = document.1) (identified : screen.id = node.id)
      (elements : screen.elements.filterMap UiElement.component = node.components)
      (components : screen.components = keepFirst node.components) :
      Adds safeLoad unicode document { errors, screens := [screen], transitions := node.transitions }

def UiNodes.UiParts.append (parts added : UiParts) : UiParts where
  errors := parts.errors ++ added.errors
  scenarios := parts.scenarios ++ added.scenarios
  screens := parts.screens ++ added.screens
  transitions := parts.transitions ++ added.transitions

theorem UiNodes.UiParts.append_assoc (first second third : UiParts) :
    (first.append second).append third = first.append (second.append third) := by
  simp [UiParts.append]

theorem UiNodes.UiParts.append_none (parts : UiParts) : parts.append {} = parts := by
  simp [UiParts.append]

theorem declaredSteps_collect (node : DeclaredNode) (path : String) :
    (collect (stepOf path) (declaredItems node.raw "steps")).2.map UiStep.id = node.steps.map (Labels.label stepId) := by
  rw [collect_values, List.map_filterMap, DeclaredNode.steps, List.map_filterMap]
  apply List.filterMap_congr
  rintro ⟨item, index⟩ -
  rw [stepOf_id, Option.map_map]
  rfl

theorem declaredTransitions_collect (node : DeclaredNode) (path : String) :
    (collect (transitionOf path node.id) (declaredItems node.raw "transitions")).2 = node.transitions := by
  rw [collect_values, DeclaredNode.transitions, ← filterMap_positions]
  apply List.filterMap_congr
  rintro ⟨item, index⟩ -
  exact transitionOf_declared item

theorem declaredComponents_collect (node : DeclaredNode) (path : String) :
    (collect (elementOf path) (declaredItems node.raw "elements")).2.filterMap UiElement.component = node.components := by
  rw [collect_values, List.filterMap_filterMap, DeclaredNode.components, ← filterMap_positions]
  apply List.filterMap_congr
  rintro ⟨item, index⟩ -
  exact elementOf_component item

theorem declaredNode_typed {type : NodeType} (typed : nodeType unicode safeLoad path content = .ok (some type)) :
    declaredNode safeLoad unicode (path, some content) =
      (declaredIdentity safeLoad content).map fun (id, raw) => { path, type, id, raw } := by
  simp only [declaredNode, typed]

theorem addDocument_adds (parts : UiParts) (loads : BlockLoads safeLoad content)
    (placed : declaredNode safeLoad unicode (path, some content) ≠ none → path ≠ "") :
    ∃ added, addDocument unicode safeLoad devUrl parts (path, some content) = .ok (parts.append added) ∧
      Adds safeLoad unicode (path, some content) added := by
  obtain ⟨type, typed⟩ := (@nodeType_ok safeLoad unicode path content).mpr loads
  unfold addDocument
  dsimp only
  rw [typed]
  cases type with
  | none =>
    have undeclared : declaredNode safeLoad unicode (path, some content) = none := by simp only [declaredNode, typed]
    refine ⟨{ errors := [path ++ ": not a UI scenario or screen (type / SCN- / SCR-)"] }, ?_, ?_⟩
    · simp [UiParts.append, Bind.bind, Except.bind, Pure.pure, Except.pure]
    · apply Adds.nothing undeclared (List.mem_singleton_self _)
      exact @aboutPath_append path _ "not a UI scenario or screen (type / SCN- / SCR-)" (by simp)
  | some type =>
    have node := declaredNode_typed typed
    cases identified : declaredIdentity safeLoad content with
    | none =>
      rw [identified, Option.map_none] at node
      cases type with
      | scenario =>
        obtain ⟨errors, parsed, error, reported, about⟩ := @parseUiScenario_none safeLoad path content loads identified
        refine ⟨{ errors }, ?_, .nothing node reported about⟩
        dsimp only [Bind.bind, Except.bind]
        rw [parsed]
        simp [UiParts.append, Pure.pure, Except.pure]
      | screen =>
        obtain ⟨errors, parsed, error, reported, about⟩ :=
          @parseUiScreen_none safeLoad unicode path content devUrl loads identified
        refine ⟨{ errors }, ?_, .nothing node reported about⟩
        dsimp only [Bind.bind, Except.bind]
        rw [parsed]
        simp [UiParts.append, Pure.pure, Except.pure]
    | some identity =>
      obtain ⟨id, raw⟩ := identity
      rw [identified, Option.map_some] at node
      have named : path ≠ "" := placed (by simp [node])
      cases type with
      | scenario =>
        obtain ⟨errors, scenario, parsed, located, steps⟩ := parseUiScenario_some loads named identified
        refine ⟨{ errors, scenarios := [scenario] }, ?_, .scenario node rfl located ?_⟩
        · dsimp only [Bind.bind, Except.bind]
          rw [parsed]
          simp [UiParts.append, Pure.pure, Except.pure]
        · rw [steps]
          exact declaredSteps_collect ⟨path, .scenario, id, raw⟩ path
      | screen =>
        obtain ⟨errors, screen, parsed, located, own, elements, components⟩ :=
          @parseUiScreen_some safeLoad unicode path content devUrl id raw loads named identified
        have among := declaredComponents_collect ⟨path, .screen, id, raw⟩ path
        have leads := declaredTransitions_collect ⟨path, .screen, id, raw⟩ path
        dsimp only at leads among
        rw [leads] at parsed
        rw [← elements] at among
        rw [among] at components
        refine ⟨{ errors, screens := [screen], transitions := _ }, ?_, .screen node rfl located own among components⟩
        dsimp only [Bind.bind, Except.bind]
        rw [parsed]
        simp [UiParts.append, Pure.pure, Except.pure]

theorem addDocument_absent (parts : UiParts) (path : String) :
    ∃ added, addDocument unicode safeLoad devUrl parts (path, none) = .ok (parts.append added) ∧
      Adds safeLoad unicode (path, none) added := by
  refine ⟨{ errors := [path ++ ": the document is absent at this revision"] }, ?_, ?_⟩
  · simp [addDocument, UiParts.append]
  · apply Adds.nothing rfl (List.mem_singleton_self _)
    exact @aboutPath_append path _ "the document is absent at this revision" (by simp)

theorem addDocument_placed (loads : BlockLoads safeLoad content)
    (added : addDocument unicode safeLoad devUrl parts (path, some content) = .ok after)
    (declared : declaredNode safeLoad unicode (path, some content) ≠ none) : path ≠ "" := by
  rintro rfl
  obtain ⟨type, typed⟩ := (@nodeType_ok safeLoad unicode "" content).mpr loads
  unfold addDocument at added
  dsimp only at added
  rw [typed] at added
  cases type with
  | none => exact declared (by simp only [declaredNode, typed])
  | some type =>
    apply declared
    rw [declaredNode_typed typed, Option.map_eq_none_iff]
    obtain ⟨_, same, added⟩ := Outcome.bind_ok.mp added
    cases same
    cases type with
    | scenario =>
      obtain ⟨parsed, parsing, -⟩ := Outcome.bind_ok.mp added
      exact parseUiScenario_unplaced loads parsing
    | screen =>
      obtain ⟨parsed, parsing, -⟩ := Outcome.bind_ok.mp added
      exact parseUiScreen_unplaced loads parsing

end Documents

/-! ## All documents -/

section Run

open UiNodes

variable {safeLoad : DocText → Except String Yaml} {unicode : Unicode} {path : String} {devUrl : Option String}
  {documents : List (String × Option DocText)} {additions : List UiParts} {parts after : UiParts}

def total (additions : List UiParts) : UiParts where
  errors := additions.flatMap UiParts.errors
  scenarios := additions.flatMap UiParts.scenarios
  screens := additions.flatMap UiParts.screens
  transitions := additions.flatMap UiParts.transitions

theorem total_cons (added : UiParts) (additions : List UiParts) : total (added :: additions) = added.append (total additions) := by
  simp [total, UiParts.append]

theorem addDocuments_adds (parts : UiParts)
    (loads : ∀ path content, (path, some content) ∈ documents → BlockLoads safeLoad content)
    (placed : ∀ document ∈ documents, declaredNode safeLoad unicode document ≠ none → document.1 ≠ "") :
    ∃ additions, documents.foldlM (addDocument unicode safeLoad devUrl) parts = .ok (parts.append (total additions)) ∧
      List.Forall₂ (Adds safeLoad unicode) documents additions := by
  induction documents generalizing parts with
  | nil => exact ⟨[], congrArg Except.ok parts.append_none.symm, .nil⟩
  | cons document rest ih =>
    rw [List.forall_mem_cons] at placed
    have here : ∃ added, addDocument unicode safeLoad devUrl parts document = .ok (parts.append added) ∧
        Adds safeLoad unicode document added := by
      obtain ⟨path, content⟩ := document
      cases content with
      | none => exact addDocument_absent parts path
      | some content => exact addDocument_adds parts (loads path content List.mem_cons_self) placed.1
    obtain ⟨added, first, adds⟩ := here
    obtain ⟨additions, others, later⟩ :=
      ih (parts.append added) (fun path content listed => loads path content (List.mem_cons_of_mem _ listed)) placed.2
    refine ⟨added :: additions, ?_, .cons adds later⟩
    rw [List.foldlM_cons, first, total_cons, ← UiParts.append_assoc]
    exact others

theorem addDocuments_placed (loads : ∀ path content, (path, some content) ∈ documents → BlockLoads safeLoad content)
    (added : documents.foldlM (addDocument unicode safeLoad devUrl) parts = .ok after) :
    ∀ document ∈ documents, declaredNode safeLoad unicode document ≠ none → document.1 ≠ "" := by
  induction documents generalizing parts with
  | nil => exact fun _ absent => absurd absent List.not_mem_nil
  | cons document rest ih =>
    rw [List.foldlM_cons] at added
    obtain ⟨next, here, added⟩ := Outcome.bind_ok.mp added
    intro other listed declared
    rcases List.mem_cons.mp listed with rfl | later
    · obtain ⟨path, content⟩ := other
      cases content with
      | none => exact absurd rfl declared
      | some content => exact addDocument_placed (loads path content listed) here declared
    · exact ih (fun path content listed => loads path content (List.mem_cons_of_mem _ listed)) added other later declared

theorem nodesAt_cons (path : String) (added : UiParts) (additions : List UiParts) :
    nodesAt path (total (added :: additions)).scenarios (total (added :: additions)).screens =
      ((nodesAt path added.scenarios added.screens).1 +
          (nodesAt path (total additions).scenarios (total additions).screens).1,
        (nodesAt path added.scenarios added.screens).2 +
          (nodesAt path (total additions).scenarios (total additions).screens).2) := by
  rw [total_cons]
  simp only [nodesAt, UiParts.append, List.countP_append]

theorem adds_elsewhere {document : String × Option DocText} {one : UiParts} (adds : Adds safeLoad unicode document one)
    (apart : document.1 ≠ path) : nodesAt path one.scenarios one.screens = (0, 0) := by
  cases adds with
  | nothing _ _ _ => rfl
  | scenario _ _ located _ => simp [nodesAt, located, apart]
  | screen _ _ located _ _ _ => simp [nodesAt, located, apart]

theorem declaredNodes_cons (type : NodeType) (document : String × Option DocText) :
    declaredNodes safeLoad unicode type (document :: documents) =
      ((declaredNode safeLoad unicode document).toList.filter (·.type = type)) ++
        declaredNodes safeLoad unicode type documents := by
  unfold declaredNodes
  rw [List.filterMap_cons]
  cases declaredNode safeLoad unicode document with
  | none => rfl
  | some node =>
    show (node :: _).filter _ = [node].filter _ ++ _
    rw [← List.filter_append]
    rfl

variable (added : List.Forall₂ (Adds safeLoad unicode) documents additions)

include added

theorem total_steps : (total additions).scenarios.map (fun scenario => scenario.steps.map UiStep.id) =
    (declaredNodes safeLoad unicode .scenario documents).map fun node => node.steps.map (Labels.label stepId) := by
  induction added with
  | nil => rfl
  | cons adds _ ih =>
    rw [total_cons, declaredNodes_cons, List.map_append, ← ih, UiParts.append, List.map_append]
    congr 1
    cases adds with
    | nothing undeclared _ _ => simp [undeclared]
    | scenario declared type _ steps => simp [declared, type, steps]
    | screen declared type _ _ _ _ => simp [declared, type]

theorem total_transitions : (total additions).transitions =
    (declaredNodes safeLoad unicode .screen documents).flatMap DeclaredNode.transitions := by
  induction added with
  | nil => rfl
  | cons adds _ ih =>
    rw [total_cons, declaredNodes_cons, List.flatMap_append, ← ih, UiParts.append]
    cases adds with
    | nothing undeclared _ _ => simp [undeclared]
    | scenario declared type _ _ => simp [declared, type]
    | screen declared type _ _ _ _ => simp [declared, type]

theorem total_screens :
    (total additions).screens.map (fun screen => (screen.id, screen.elements.filterMap UiElement.component)) =
      (declaredNodes safeLoad unicode .screen documents).map fun node => (node.id, node.components) := by
  induction added with
  | nil => rfl
  | cons adds _ ih =>
    rw [total_cons, declaredNodes_cons, List.map_append, ← ih, UiParts.append, List.map_append]
    congr 1
    cases adds with
    | nothing undeclared _ _ => simp [undeclared]
    | scenario declared type _ _ => simp [declared, type]
    | screen declared type _ identified elements _ => simp [declared, type, identified, elements]

theorem total_components : ∀ screen ∈ (total additions).screens,
    screen.components = keepFirst (screen.elements.filterMap UiElement.component) := by
  induction added with
  | nil => exact fun _ absent => absurd absent List.not_mem_nil
  | cons adds _ ih =>
    rw [total_cons]
    intro screen member
    rcases List.mem_append.mp member with here | later
    · cases adds with
      | nothing _ _ _ => cases here
      | scenario _ _ _ _ => cases here
      | screen _ _ _ _ elements components =>
        rw [List.mem_singleton.mp here, elements]
        exact components
    · exact ih screen later

theorem total_elsewhere (absent : path ∉ documents.map Prod.fst) :
    nodesAt path (total additions).scenarios (total additions).screens = (0, 0) := by
  induction added with
  | nil => rfl
  | cons adds _ ih =>
    rw [List.map_cons, List.mem_cons, not_or] at absent
    rw [nodesAt_cons, ih absent.2, adds_elsewhere adds (Ne.symm absent.1)]
    rfl

theorem total_nodes (distinct : (documents.map Prod.fst).Nodup) : ∀ document ∈ documents,
    nodesAt document.1 (total additions).scenarios (total additions).screens = (1, 0) ∨
      nodesAt document.1 (total additions).scenarios (total additions).screens = (0, 1) ∨
        nodesAt document.1 (total additions).scenarios (total additions).screens = (0, 0) ∧
          ∃ error ∈ (total additions).errors, AboutPath document.1 error := by
  induction added with
  | nil => exact fun _ absent => absurd absent List.not_mem_nil
  | @cons document one rest others adds later ih =>
    rw [List.map_cons, List.nodup_cons] at distinct
    intro other member
    rw [nodesAt_cons]
    rcases List.mem_cons.mp member with rfl | elsewhere
    · rw [total_elsewhere later distinct.1]
      cases adds with
      | nothing _ reported about =>
        refine .inr (.inr ⟨rfl, _, ?_, about⟩)
        rw [total_cons]
        exact List.mem_append_left _ reported
      | scenario _ _ located _ => simp [nodesAt, located]
      | screen _ _ located _ _ _ => simp [nodesAt, located]
    · have apart : other.1 ≠ document.1 := by
        intro same
        apply distinct.1
        rw [← same]
        exact List.mem_map_of_mem elsewhere
      rw [adds_elsewhere adds apart.symm]
      simp only [Nat.zero_add, Prod.mk.eta]
      rcases ih distinct.2 other elsewhere with scenario | screen | ⟨nothing, error, reported, about⟩
      · exact .inl scenario
      · exact .inr (.inl screen)
      · refine .inr (.inr ⟨nothing, error, ?_, about⟩)
        rw [total_cons]
        exact List.mem_append_right _ reported

end Run

/-! ## The ids of the links -/

section Links

open UiNodes

variable {base other : NonemptyText} {count number : Nat} {transitions : List UiTransition}

theorem linksOf_transition (transitions : List UiTransition) : (linksOf transitions).map UiLink.transition = transitions := by
  unfold linksOf
  rw [List.map_map]
  exact List.zipIdx_map_fst 0 transitions

theorem linksOf_id (transitions : List UiTransition) : (linksOf transitions).map UiLink.id =
    (Labels.occurrences (transitions.map linkBase)).map fun (base, count) => linkId base count := by
  unfold linksOf Labels.occurrences
  rw [List.zipIdx_map, List.map_map, List.map_map, List.map_map]
  apply List.map_congr_left
  rintro ⟨transition, index⟩ -
  show linkId _ (((transitions.take (index + 1)).map linkBase).count _) =
    linkId _ (((transitions.map linkBase).take (index + 1)).count _)
  rw [List.map_take]

theorem linkId_first (base : NonemptyText) : linkId base 1 = base := if_pos rfl

theorem linkId_later (later : count ≠ 1) : (linkId base count).val = base.val ++ s!"#{count}" := by
  rw [linkId, if_neg later]

theorem numbered_injective (same : base.val ++ s!"#{count}" = other.val ++ s!"#{number}") : base = other ∧ count = number := by
  have letters := congrArg String.toList same
  simp only [String.toList_append] at letters
  obtain ⟨bases, counts⟩ := (Delimited.cut_last (digits_free count rfl) (digits_free number rfl)).mp letters
  exact ⟨Subtype.ext (String.toList_injective bases), toString_nat_injective (String.toList_injective counts)⟩

theorem linkIds_nodup {pairs : List NonemptyText} :
    ((Labels.occurrences pairs).map fun (base, count) => linkId base count).Nodup ↔ LinksApart pairs := by
  rw [Labels.occurrence_labels_nodup]
  constructor
  · intro injective first among second _ number repeated counted same
    have plain : (first, 1) ∈ Labels.occurrences pairs :=
      Labels.mem_occurrences.mpr ⟨Nat.one_pos, List.count_pos_iff.mpr among⟩
    have numbered : (second, number) ∈ Labels.occurrences pairs := Labels.mem_occurrences.mpr ⟨by omega, counted⟩
    have one := injective _ plain _ numbered (by
      apply Subtype.ext
      show (linkId first 1).val = (linkId second number).val
      rw [linkId_first, linkId_later (by omega)]
      exact same)
    have two : 1 = number := congrArg Prod.snd one
    omega
  · rintro apart ⟨base, count⟩ first ⟨other, number⟩ second same
    rw [Labels.mem_occurrences] at first second
    have among : base ∈ pairs := List.count_pos_iff.mp (by omega)
    have listed : other ∈ pairs := List.count_pos_iff.mp (by omega)
    dsimp only at same
    have texts := congrArg Subtype.val same
    by_cases plain : count = 1
    · subst plain
      by_cases single : number = 1
      · subst single
        rw [linkId_first, linkId_first] at same
        rw [same]
      · rw [linkId_first, linkId_later single] at texts
        exact absurd texts (apart base among other listed number (by omega) second.2)
    · by_cases single : number = 1
      · subst single
        rw [linkId_first, linkId_later plain] at texts
        exact absurd texts.symm (apart other listed base among count (by omega) first.2)
      · rw [linkId_later plain, linkId_later single] at texts
        obtain ⟨rfl, rfl⟩ := numbered_injective texts
        rfl

end Links

/-! ## The graph -/

section Graph

open UiNodes

variable {safeLoad : DocText → Except String Yaml} {unicode : Unicode} {devUrl : Option String}
  {documents : List (String × Option DocText)} {screens : List UiScreen} {name id : NonemptyText}

theorem componentsOf_lists : (∃ use ∈ componentsOf screens, use.name = name ∧ id ∈ use.screens) ↔
    ∃ screen ∈ screens, name ∈ screen.components ∧ screen.id = id := by
  constructor
  · rintro ⟨use, listed, rfl, among⟩
    obtain ⟨name, -, rfl⟩ := List.mem_map.mp listed
    obtain ⟨screen, uses, own⟩ := List.mem_map.mp (mem_keepFirst.mp among)
    obtain ⟨member, named⟩ := List.mem_filter.mp uses
    exact ⟨screen, member, of_decide_eq_true named, own⟩
  · rintro ⟨screen, member, named, rfl⟩
    have used : name ∈ keepFirst (screens.flatMap UiScreen.components) :=
      mem_keepFirst.mpr (List.mem_flatMap.mpr ⟨screen, member, named⟩)
    refine ⟨_, List.mem_map_of_mem used, rfl, mem_keepFirst.mpr (List.mem_map_of_mem ?_)⟩
    exact List.mem_filter.mpr ⟨member, decide_eq_true named⟩

theorem stepId_injective : Function.Injective stepId := by
  intro index other same
  have letters := congrArg (fun id => String.toList id.val) same
  simp only [stepId, String.toList_append] at letters
  exact toString_nat_injective (String.toList_injective (List.append_cancel_left letters))

theorem declaredSteps_positions (node : DeclaredNode) : (node.steps.map Prod.fst).Nodup := by
  have positions : (node.steps.map Prod.fst).Sublist
      ((declaredItems node.raw "steps").zipIdx.map fun entry => entry.2 + 1) := by
    unfold DeclaredNode.steps
    generalize (declaredItems node.raw "steps").zipIdx = numbered
    induction numbered with
    | nil => exact .slnil
    | cons entry rest ih =>
      obtain ⟨item, index⟩ := entry
      rw [List.filterMap_cons]
      cases declared : declaredStep item with
      | none =>
        simp only [declared, Option.map_none]
        exact ih.cons _
      | some named =>
        simp only [declared, Option.map_some]
        exact ih.cons_cons _
  apply positions.nodup
  have indexes : (declaredItems node.raw "steps").zipIdx.map (fun entry => entry.2 + 1) =
      ((declaredItems node.raw "steps").zipIdx.map Prod.snd).map (· + 1) := by
    rw [List.map_map]
    rfl
  rw [indexes, List.zipIdx_map_snd]
  exact (List.nodup_range').map (add_left_injective 1)

theorem mem_inPathOrder {document : String × Option DocText} : document ∈ inPathOrder documents ↔ document ∈ documents :=
  List.mem_insertionSort _

theorem mem_declaredNodes_inPathOrder {type : NodeType} {node : DeclaredNode} :
    node ∈ declaredNodes safeLoad unicode type (inPathOrder documents) ↔
      node ∈ declaredNodes safeLoad unicode type documents := by
  simp only [declaredNodes, List.mem_filter, List.mem_filterMap, mem_inPathOrder]

theorem screens_agree {additions : List UiParts}
    (added : List.Forall₂ (Adds safeLoad unicode) (inPathOrder documents) additions) :
    (∀ screen ∈ (total additions).screens, ∀ name,
      (∃ use ∈ componentsOf (total additions).screens, use.name = name ∧ screen.id ∈ use.screens) ↔
        ∃ element ∈ screen.elements, element.component = some name) ↔
      ∀ screen ∈ declaredNodes safeLoad unicode .screen documents,
        ∀ other ∈ declaredNodes safeLoad unicode .screen documents, screen.id = other.id →
          ∀ name ∈ other.components, name ∈ screen.components := by
  have listed := total_screens added
  have named := total_components added
  generalize (total additions).screens = screens at listed named
  have node_of (screen : UiScreen) (member : screen ∈ screens) :
      ∃ node ∈ declaredNodes safeLoad unicode .screen documents,
        node.id = screen.id ∧ node.components = screen.elements.filterMap UiElement.component := by
    have pair : (screen.id, screen.elements.filterMap UiElement.component) ∈
        (declaredNodes safeLoad unicode .screen (inPathOrder documents)).map fun node => (node.id, node.components) := by
      rw [← listed]
      exact List.mem_map.mpr ⟨screen, member, rfl⟩
    obtain ⟨node, declared, same⟩ := List.mem_map.mp pair
    rw [Prod.mk.injEq] at same
    exact ⟨node, mem_declaredNodes_inPathOrder.mp declared, same.1, same.2⟩
  have screen_of (node : DeclaredNode) (declared : node ∈ declaredNodes safeLoad unicode .screen documents) :
      ∃ screen ∈ screens, screen.id = node.id ∧ screen.elements.filterMap UiElement.component = node.components := by
    have pair : (node.id, node.components) ∈
        screens.map fun screen => (screen.id, screen.elements.filterMap UiElement.component) := by
      rw [listed]
      exact List.mem_map.mpr ⟨node, mem_declaredNodes_inPathOrder.mpr declared, rfl⟩
    obtain ⟨screen, member, same⟩ := List.mem_map.mp pair
    rw [Prod.mk.injEq] at same
    exact ⟨screen, member, same.1, same.2⟩
  have uses (screen : UiScreen) (member : screen ∈ screens) (name : NonemptyText) :
      name ∈ screen.components ↔ name ∈ screen.elements.filterMap UiElement.component := by
    rw [named screen member, mem_keepFirst]
  simp only [componentsOf_lists, ← List.mem_filterMap]
  constructor
  · intro exact_ node declared other declared' same name among
    obtain ⟨screen, member, own, components⟩ := screen_of node declared
    obtain ⟨screen', member', own', components'⟩ := screen_of other declared'
    rw [← components, ← exact_ screen member]
    rw [← components'] at among
    exact ⟨screen', member', (uses screen' member' name).mpr among, by rw [own, own', same]⟩
  · intro agree screen member name
    constructor
    · rintro ⟨other, member', among, same⟩
      obtain ⟨node, declared, own, components⟩ := node_of screen member
      obtain ⟨node', declared', own', components'⟩ := node_of other member'
      rw [← components]
      apply agree node declared node' declared' (by rw [own, own', same])
      rw [components']
      exact (uses other member' name).mp among
    · intro among
      exact ⟨screen, member, (uses screen member name).mpr among, rfl⟩

/-- The ids of the steps of each scenario are distinct exactly where the declared and the generated ones are. -/
theorem steps_apart {additions : List UiParts}
    (added : List.Forall₂ (Adds safeLoad unicode) (inPathOrder documents) additions) :
    (∀ scenario ∈ (total additions).scenarios, (scenario.steps.map UiStep.id).Nodup) ↔
      ∀ node ∈ declaredNodes safeLoad unicode .scenario documents, Labels.Apart stepId node.steps := by
  calc (∀ scenario ∈ (total additions).scenarios, (scenario.steps.map UiStep.id).Nodup)
    _ ↔ ∀ ids ∈ (total additions).scenarios.map (fun scenario => scenario.steps.map UiStep.id), ids.Nodup := by
        rw [List.forall_mem_map]
    _ ↔ ∀ node ∈ declaredNodes safeLoad unicode .scenario (inPathOrder documents),
          (node.steps.map (Labels.label stepId)).Nodup := by
        rw [total_steps added, List.forall_mem_map]
    _ ↔ ∀ node ∈ declaredNodes safeLoad unicode .scenario documents, Labels.Apart stepId node.steps := by
        simp only [mem_declaredNodes_inPathOrder, Labels.labels_nodup stepId_injective (declaredSteps_positions _)]

theorem wellFormed_idsApart {spec : UiSpec}
    (loads : ∀ path content, (path, some content) ∈ documents → BlockLoads safeLoad content)
    (built : buildUiSpec safeLoad unicode documents devUrl = .ok spec)
    (graph : WellFormedGraph safeLoad unicode spec documents) : GraphIdsApart safeLoad unicode documents := by
  have loads' : ∀ path content, (path, some content) ∈ inPathOrder documents → BlockLoads safeLoad content :=
    fun path content listed => loads path content (mem_inPathOrder.mp listed)
  obtain ⟨parts, adding, made⟩ := Outcome.bind_ok.mp built
  have placed := addDocuments_placed loads' adding
  obtain ⟨additions, whole, added⟩ := @addDocuments_adds safeLoad unicode devUrl _ {} loads' placed
  obtain rfl : UiParts.append {} (total additions) = parts := Except.ok.inj (whole.symm.trans adding)
  rw [← Outcome.pure_ok.mp made] at graph
  refine ⟨fun document listed => placed document (mem_inPathOrder.mpr listed), ?_, ?_, ?_⟩
  · exact (steps_apart added).mp graph.distinctSteps
  · rw [declaredLinks, ← total_transitions added, ← linkIds_nodup, ← linksOf_id]
    exact graph.distinctLinks
  · exact (screens_agree added).mp graph.components

theorem idsApart_wellFormed (distinct : (documents.map Prod.fst).Nodup)
    (loads : ∀ path content, (path, some content) ∈ documents → BlockLoads safeLoad content)
    (apart : GraphIdsApart safeLoad unicode documents) :
    ∃ spec, buildUiSpec safeLoad unicode documents devUrl = .ok spec ∧ WellFormedGraph safeLoad unicode spec documents := by
  have loads' : ∀ path content, (path, some content) ∈ inPathOrder documents → BlockLoads safeLoad content :=
    fun path content listed => loads path content (mem_inPathOrder.mp listed)
  have distinct' : ((inPathOrder documents).map Prod.fst).Nodup :=
    (((List.perm_insertionSort _ documents).map Prod.fst).nodup_iff).mpr distinct
  have placed : ∀ document ∈ inPathOrder documents, declaredNode safeLoad unicode document ≠ none → document.1 ≠ "" :=
    fun document listed => apart.placed document (mem_inPathOrder.mp listed)
  obtain ⟨additions, whole, added⟩ := @addDocuments_adds safeLoad unicode devUrl _ {} loads' placed
  refine ⟨_, Outcome.bind_ok.mpr ⟨_, whole, rfl⟩, ?_⟩
  refine ⟨?_, ?_, ?_, (steps_apart added).mpr apart.steps, (screens_agree added).mpr apart.screens⟩
  · intro document listed
    exact total_nodes added distinct' document (mem_inPathOrder.mpr listed)
  · show ((linksOf (total additions).transitions).map UiLink.id).Nodup
    rw [linksOf_id, linkIds_nodup, total_transitions added]
    exact apart.links
  · show (linksOf (total additions).transitions).map UiLink.transition = _
    rw [linksOf_transition, total_transitions added, declaredLinks]

end Graph

section Scene

open UiNodes

def loadsAs (entries : YamlMapping) (_ : DocText) : Except String Yaml := .ok (.mapping entries)

def signInDocument : String × Option DocText :=
  ("design/ui/scenarios/SCN-1.md",
    some "---\nid: SCN-1\nsteps:\n- id: S2\n  text: Open the form\n- Send the form\n---\nSign in\n".toList)

def signInEntries : YamlMapping :=
  [(.text "id", .text "SCN-1"),
    (.text "steps",
      .list [.mapping [(.text "id", .text "S2"), (.text "text", .text "Open the form")], .text "Send the form"])]

def formDocument : String × Option DocText :=
  ("design/ui/screens/SCR-1.md",
    some "---\nid: SCR-1\ntransitions:\n- to: SCR-2\n- to: SCR-2\n- to: SCR-2#2\n---\nForm\n".toList)

def formEntries : YamlMapping :=
  [(.text "id", .text "SCR-1"),
    (.text "transitions",
      .list [.mapping [(.text "to", .text "SCR-2")], .mapping [(.text "to", .text "SCR-2")],
        .mapping [(.text "to", .text "SCR-2#2")]])]

theorem loadsAs_loads (entries : YamlMapping) (documents : List (String × Option DocText)) :
    ∀ path content, (path, some content) ∈ documents → BlockLoads (loadsAs entries) content :=
  fun _ _ _ _ _ _ => ⟨_, rfl⟩

def siteBlock (lines : List String) : DocText := joinLines (lines.map String.toList)

def scenarioBlock : DocText := siteBlock ["id: SCN-1", "steps:", "- {id: S1, text: Open the form}", "- Send the form"]

def formBlock : DocText :=
  siteBlock ["id: SCR-1", "transitions: [{to: SCR-2}, {to: SCR-2}, {to: SCR-3}]",
    "elements: [{id: E1, component: Field}, {id: E2, component: Button}]"]

def doneBlock : DocText :=
  siteBlock ["id: SCR-2", "transitions: [{to: SCR-1}]", "elements: [{id: E1, component: Button}]"]

def draftBlock : DocText := siteBlock ["title: Draft"]

def siteElement (id component : String) : Yaml := .mapping [(.text "id", .text id), (.text "component", .text component)]

def siteTransition (target : String) : Yaml := .mapping [(.text "to", .text target)]

def siteYaml (source : DocText) : Except String Yaml :=
  if source = scenarioBlock then
    .ok (.mapping [(.text "id", .text "SCN-1"),
      (.text "steps", .list [.mapping [(.text "id", .text "S1"), (.text "text", .text "Open the form")], .text "Send the form"])])
  else if source = formBlock then
    .ok (.mapping [(.text "id", .text "SCR-1"),
      (.text "transitions", .list [siteTransition "SCR-2", siteTransition "SCR-2", siteTransition "SCR-3"]),
      (.text "elements", .list [siteElement "E1" "Field", siteElement "E2" "Button"])])
  else if source = doneBlock then
    .ok (.mapping [(.text "id", .text "SCR-2"), (.text "transitions", .list [siteTransition "SCR-1"]),
      (.text "elements", .list [siteElement "E1" "Button"])])
  else if source = draftBlock then .ok (.mapping [(.text "title", .text "Draft")])
  else .ok .null

def siteText (source : DocText) : DocText := "---\n".toList ++ source ++ "\n---\nText\n".toList

def siteDocuments : List (String × Option DocText) :=
  [("design/ui/scenarios/SCN-1.md", some (siteText scenarioBlock)), ("design/ui/screens/SCR-1.md", some (siteText formBlock)),
    ("design/ui/screens/SCR-2.md", some (siteText doneBlock)), ("design/ui/screens/SCR-3.md", some (siteText draftBlock)),
    ("design/ui/screens/SCR-4.md", none)]

theorem siteYaml_loads : ∀ path content, (path, some content) ∈ siteDocuments → BlockLoads siteYaml content := by
  intro path content listed source body found
  unfold siteYaml
  split_ifs <;> exact ⟨_, rfl⟩

theorem site_declares :
    (declaredNodes siteYaml asciiUnicode .scenario siteDocuments).map DeclaredNode.steps =
        [[(1, some ⟨"S1", by decide⟩), (2, none)]] ∧
      (∀ screen ∈ declaredNodes siteYaml asciiUnicode .screen siteDocuments,
        ∀ other ∈ declaredNodes siteYaml asciiUnicode .screen siteDocuments, screen.id = other.id →
          ∀ name ∈ other.components, name ∈ screen.components) ∧
      (declaredLinks siteYaml asciiUnicode siteDocuments).map (fun link => (linkBase link).val) =
        ["SCR-1->SCR-2", "SCR-1->SCR-2", "SCR-1->SCR-3", "SCR-2->SCR-1"] := by
  decide +kernel

end Scene

end DarkFactory
