import Mathlib.Data.List.Lex
import Mathlib.Data.String.Basic
import DarkFactory.Changes.Decimals
import DarkFactory.Lib.Trace
import DarkFactory.Sdd.Writes

namespace DarkFactory

structure YamlModel (β : Type) where
  dump : β → DocText
  load : DocText → Except SddFailure β

inductive YamlSlot
  | delta | tasks | verification | evidence | reconciliation
  deriving DecidableEq, Repr

def YamlSlot.path : YamlSlot → String
  | .delta => "spec/delta.yaml"
  | .tasks => "tasks/graph.yaml"
  | .verification => "verification/plan.yaml"
  | .evidence => "evidence/index.yaml"
  | .reconciliation => "reconciliation/plan.yaml"

def yamlSlots : List YamlSlot := [.delta, .tasks, .verification, .evidence, .reconciliation]

def idParts (id : String) : List DocText := id.toList.splitOnP (· = ':')

def lowerOrDigit (c : Char) : Bool := c.isLower || c.isDigit

/-- `chg:[a-z0-9][a-z0-9-]*:\d{4}:\d{4}` -/
def isChangeId (id : String) : Bool :=
  match idParts id with
  | [front, product, year, number] =>
    front = "chg".toList && product.head?.any lowerOrDigit && product.all (fun c => lowerOrDigit c || c = '-') &&
      year.length = 4 && year.all decimal && number.length = 4 && number.all decimal
  | _ => false

/-- `[a-z0-9]+(-[a-z0-9]+)*` -/
def isSlug (slug : String) : Bool :=
  (slug.toList.splitOnP (· = '-')).all fun part => part ≠ [] && part.all lowerOrDigit

/-- The manifest of a change; `rest` holds the fields that name no place. -/
structure ChangeManifest (ρ : Type) where
  id : String
  slug : String
  rest : ρ
  identified : isChangeId id = true := by decide
  slugged : isSlug slug = true := by decide

structure Document (α : Type) where
  path : String
  frontmatter : Option (Frontmatter α) := none
  body : DocText := []
  located : path ≠ "" := by decide

structure SddModels (α : Type) where
  Rest : Type
  Artifact : YamlSlot → Type
  packages : Packages α
  manifest : YamlModel (ChangeManifest Rest)
  artifact : ∀ slot, YamlModel (Artifact slot)

structure ChangeSet {α : Type} (models : SddModels α) where
  manifest : ChangeManifest models.Rest
  artifacts : ∀ slot, Option (models.Artifact slot) := fun _ => none
  documents : List (Document α) := []

/-! ## The adapter -/

section Adapter

variable {α : Type} (models : SddModels α) (root : TreePath)

def changeDirName {ρ : Type} (manifest : ChangeManifest ρ) : String :=
  "CHG-" ++ String.ofList ((idParts manifest.id).getLastD []) ++ "-" ++ manifest.slug

def changesRoot : TreePath := root ++ ["changes"]

def changeDir {ρ : Type} (manifest : ChangeManifest ρ) : TreePath :=
  changesRoot root ++ [String.ofList ((idParts manifest.id).getD 2 []), changeDirName manifest]

def documentText (packages : Packages α) (document : Document α) : DocText :=
  match document.frontmatter with
  | none => document.body
  | some frontmatter => renderDocument packages frontmatter document.body

variable {models}

def ChangeSet.files (change : ChangeSet models) : List (String × DocText) :=
  ("change.yaml", models.manifest.dump change.manifest) ::
    ((change.documents.map fun document => (document.path, documentText models.packages document)) ++
      yamlSlots.filterMap fun slot => (change.artifacts slot).map fun artifact =>
        (slot.path, (models.artifact slot).dump artifact))

def createChange (change : ChangeSet models) : EStateM SddFailure Tree String := do
  let directory := changeDir root change.manifest
  let tree ← get
  if tree.isFile directory || tree.isDir directory then
    throw ⟨.sdd, "ChangeSet directory already exists: /" ++ posixPath directory⟩
  makeDirectories directory
  placeAll (change.files.map fun file => (joinPath directory file.1, file.2))
  return change.manifest.id

/-- `changes/*/*/change.yaml`, in path order. -/
def manifestPaths (tree : Tree) : List TreePath :=
  (tree.entries.filter fun path => (changesRoot root).isPrefixOf path &&
    path.length = (changesRoot root).length + 3 && path.getLast? = some "change.yaml").insertionSort (· ≤ ·)

def FieldValue.isText (value : FieldValue α) (characters : String) : Bool :=
  match value with
  | .text held => held = characters
  | _ => false

variable (models)

def searchChange (changeId : String) (tree : Tree) : List TreePath → Except SddFailure TreePath
  | [] => .error ⟨.changeNotFound, "no ChangeSet " ++ Text.repr changeId ++ " under /" ++ posixPath root⟩
  | path :: rest => do
    let text ← tree.readText path
    match models.packages.safeLoad text with
    | .error message => throw ⟨.yaml, message⟩
    | .ok (.mapping raw) =>
      if (raw.get "id").isText changeId then return path.dropLast else searchChange changeId tree rest
    | .ok _ => searchChange changeId tree rest

def findChangeDir (changeId : String) (tree : Tree) : Except SddFailure TreePath :=
  searchChange models root changeId tree (manifestPaths root tree)

def markdownFiles (directory : TreePath) (tree : Tree) : List TreePath :=
  ((tree.files.map Prod.fst).filter fun path => directory.isPrefixOf path && path ≠ directory &&
    isMarkdown path).insertionSort (· ≤ ·)

def loadDocument (directory : TreePath) (tree : Tree) (path : TreePath) : Except SddFailure (Document α) := do
  let text ← tree.readText path
  let (frontmatter, body) ← readDocument models.packages text
  let relative := posixPath (path.drop directory.length)
  if located : relative ≠ "" then return { path := relative, frontmatter, body := stripText body, located }
  else throw ⟨.validation, "String should have at least 1 character"⟩

def readOptional (directory : TreePath) (tree : Tree) (slot : YamlSlot) :
    Except SddFailure (Option (models.Artifact slot)) := do
  let path := joinPath directory slot.path
  if !tree.isFile path then return none
  let text ← tree.readText path
  let artifact ← (models.artifact slot).load text
  return some artifact

def readChange (changeId : String) (tree : Tree) : Except SddFailure (ChangeSet models) := do
  let directory ← findChangeDir models root changeId tree
  let text ← tree.readText (directory ++ ["change.yaml"])
  let manifest ← models.manifest.load text
  let documents ← (markdownFiles directory tree).mapM (loadDocument models directory tree)
  let delta ← readOptional models directory tree .delta
  let tasks ← readOptional models directory tree .tasks
  let verification ← readOptional models directory tree .verification
  let evidence ← readOptional models directory tree .evidence
  let reconciliation ← readOptional models directory tree .reconciliation
  let artifacts : ∀ slot, Option (models.Artifact slot)
    | .delta => delta
    | .tasks => tasks
    | .verification => verification
    | .evidence => evidence
    | .reconciliation => reconciliation
  return { manifest, artifacts, documents }

end Adapter

/-! ## What a change is read as -/

section Statements

variable {α : Type} {models : SddModels α} (root : TreePath)

/-- `from_yaml` inverts `to_yaml` on the text as it is read, and the mapping it reads names the id. -/
structure SddModels.Lawful (models : SddModels α) : Prop where
  manifest : ∀ manifest, models.manifest.load (newlines false (models.manifest.dump manifest)) = .ok manifest
  identified : ∀ manifest, ∃ raw, models.packages.safeLoad (newlines false (models.manifest.dump manifest)) =
    .ok (.mapping raw) ∧ raw.get "id" = .text manifest.id
  artifact : ∀ slot artifact,
    (models.artifact slot).load (newlines false ((models.artifact slot).dump artifact)) = .ok artifact

theorem SddModels.Lawful.injective (lawful : models.Lawful) {manifest other : ChangeManifest models.Rest}
    (same : models.manifest.dump manifest = models.manifest.dump other) : manifest = other := by
  have first := lawful.manifest manifest
  rw [same, lawful.manifest other] at first
  exact (Except.ok.inj first).symm

def Document.trimmed (document : Document α) : Document α := { document with body := stripText document.body }

/-- The same manifest and artifacts, and the same documents up to outer white space, in path order. -/
structure Restores (change read : ChangeSet models) : Prop where
  manifest : read.manifest = change.manifest
  artifacts : ∀ slot, read.artifacts slot = change.artifacts slot
  documents : read.documents.Perm (change.documents.map Document.trimmed)
  ordered : read.documents.Pairwise fun first second => joinPath [] first.path ≤ joinPath [] second.path

def ReadsChange (change : ChangeSet models) (tree : Tree) : Prop :=
  ∃ read, readChange models root change.manifest.id tree = .ok read ∧ Restores change read

def RoundTrips (change : ChangeSet models) (tree : Tree) : Prop :=
  ∃ after, createChange root change tree = .ok change.manifest.id after ∧ ReadsChange root change after

/-- A relative path of a markdown file, as it is written for its names. -/
structure MarkdownPath (path : String) : Prop where
  written : path = posixPath (joinPath [] path)
  named : ∀ part ∈ joinPath [] path, SafePart part
  markdown : isMarkdown (joinPath [] path) = true

/-- A document that its text is read as: one without frontmatter does not open with a delimiter. -/
def Document.Kept (packages : Packages α) (document : Document α) : Prop :=
  match document.frontmatter with
  | none => ∀ line, (splitlines document.body).head? = some line → isDelimiter line = false
  | some frontmatter => ReadsBack packages frontmatter

structure ChangeSet.Fits (change : ChangeSet models) (tree : Tree) : Prop where
  free : ∀ way, way <+: changeDir root change.manifest → tree.isFile way = false
  fresh : tree.isDir (changeDir root change.manifest) = false
  paths : ∀ document ∈ change.documents, MarkdownPath document.path
  distinct : (change.documents.map Document.path).Nodup
  apart : change.files.Pairwise fun first second => Apart (joinPath [] first.1) (joinPath [] second.1)
  kept : ∀ document ∈ change.documents, document.Kept models.packages

structure Sound (models : SddModels α) (tree : Tree) : Prop where
  named : ∀ path, tree.isFile path = true → ∀ part ∈ path, SafePart part
  manifests : ∀ path ∈ manifestPaths root tree, ∃ manifest, tree.content path = some (.text (models.manifest.dump manifest))

def HoldsId (models : SddModels α) (tree : Tree) (path : TreePath) (id : String) : Prop :=
  path ∈ manifestPaths root tree ∧
    ∃ manifest, tree.content path = some (.text (models.manifest.dump manifest)) ∧ manifest.id = id

def NoDirectory (models : SddModels α) (tree : Tree) (id : String) : Prop := ∀ path, ¬ HoldsId root models tree path id

def OneDirectory (models : SddModels α) (tree : Tree) : Prop :=
  ∀ id path other, HoldsId root models tree path id → HoldsId root models tree other id → path = other

end Statements

end DarkFactory
