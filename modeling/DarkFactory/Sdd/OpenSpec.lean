import DarkFactory.Changes.Decimals
import DarkFactory.Sdd.Normalized
import DarkFactory.Sdd.SpecSections

namespace DarkFactory

/-! ## The native core behind the adapter -/

structure FactoryManifest where
  product : String
  named : product ≠ "" := by decide

/-- The native core of an adapter: its root, the year of the clock, and `factory.yaml` as it is loaded. -/
structure NativeCore where
  factoryRoot : TreePath
  year : Nat
  loadManifest : DocText → Except SddFailure FactoryManifest

structure NativeView where
  product : String
  changeId : String
  revision : String
  named : product ≠ ""
  identified : changeId ≠ ""
  pinned : revision ≠ ""

theorem append_ne_empty {front : String} (occupied : front.toList ≠ []) (back : String) : front ++ back ≠ "" := by
  intro same
  have letters := congrArg String.toList same
  rw [String.toList_append] at letters
  exact occupied (List.append_eq_nil_iff.mp letters).1

/-- `^CHG-(?P<num>\d{4})-` -/
def changeNumber (name : String) : Option Nat :=
  let letters := name.toList
  let number := (letters.drop 4).take 4
  if "CHG-".toList.isPrefixOf letters && number.length = 4 && number.all decimal && letters[8]? = some '-' then
    (parseInt (String.ofList number)).map Int.toNat
  else none

def directoryNames (directory : TreePath) (tree : Tree) : List String :=
  (tree.entries.filter fun path => directory.isPrefixOf path && path.length = directory.length + 1).filterMap
    List.getLast?

namespace NativeCore

variable (core : NativeCore)

def readFactoryManifest (tree : Tree) : Except SddFailure FactoryManifest := do
  let text ← tree.readText (core.factoryRoot ++ ["factory.yaml"])
  core.loadManifest text

def nextChangeId (product : String) (tree : Tree) : String :=
  let year := toString core.year
  let yearRoot := core.factoryRoot ++ ["changes", year]
  let numbers := if tree.isDir yearRoot then (directoryNames yearRoot tree).filterMap changeNumber else []
  "chg:" ++ product ++ ":" ++ year ++ ":" ++ Text.digits 4 (numbers.foldl max 0 + 1)

theorem nextChangeId_named (product : String) (tree : Tree) : core.nextChangeId product tree ≠ "" := by
  unfold nextChangeId
  simp only [String.append_assoc]
  exact append_ne_empty (by decide) _

def view (tree : Tree) : Except SddFailure NativeView := do
  let manifest ← core.readFactoryManifest tree
  return {
    product := manifest.product
    changeId := core.nextChangeId manifest.product tree
    revision := currentRevision core.factoryRoot tree
    named := manifest.named
    identified := core.nextChangeId_named manifest.product tree
    pinned := currentRevision_ne }

end NativeCore

/-! ## Models of an OpenSpec change -/

/-- The fields of the manifest of an import, besides its id and its slug. -/
structure OpenSpecFields extends ManifestFields where
  title : String
  product : String
  kind : String := "product-feature"
  titled : title ≠ "" := by decide

structure OpenSpecCodec (α : Type) where
  packages : Packages α
  manifest : YamlModel (ChangeManifest OpenSpecFields)
  artifact : ∀ slot, YamlModel (SddArtifact slot)

abbrev OpenSpecCodec.models {α : Type} (codec : OpenSpecCodec α) : SddModels α where
  Rest := OpenSpecFields
  Artifact := SddArtifact
  packages := codec.packages
  manifest := codec.manifest
  artifact := codec.artifact

def deltaAlone (delta : Delta) : ∀ slot, Option (SddArtifact slot)
  | .delta => some delta
  | _ => none

def writeFile (path : TreePath) (text : DocText) : EStateM SddFailure Tree Unit := do
  let tree ← get
  if !tree.isDir path.dropLast then throw ⟨.os, "No such file or directory"⟩
  writeText path text

/-! ## Import -/

section Import

variable (methods : CaseMethods) {α : Type} (view : NativeView) (capability : String) (entry : SpecEntry)

def requirementArtifact (name : DocText) : String :=
  "requirements/" ++ capability ++ "/" ++ String.ofList (kebab methods name) ++ ".md"

theorem requirementId_named (product : String) (name : DocText) : requirementId methods product capability name ≠ "" := by
  unfold requirementId
  simp only [String.append_assoc]
  exact append_ne_empty (by decide) _

theorem requirementArtifact_placed (name : DocText) : requirementArtifact methods capability name ≠ "" := by
  unfold requirementArtifact
  simp only [String.append_assoc]
  exact append_ne_empty (by decide) _

def SpecEntry.target : String := requirementId methods view.product capability entry.name.1

def SpecEntry.artifact : String := requirementArtifact methods capability entry.name.1

def SpecEntry.operation : DeltaOperation :=
  match entry.kind with
  | .added => .add
    { target := entry.target methods view capability, artifact := entry.artifact methods capability
      named := requirementId_named methods capability view.product entry.name.1
      placed := requirementArtifact_placed methods capability entry.name.1 }
  | .modified => .modify
    { target := entry.target methods view capability, artifact := entry.artifact methods capability
      named := requirementId_named methods capability view.product entry.name.1
      placed := requirementArtifact_placed methods capability entry.name.1 }
  | .removed => .retire
    { target := entry.target methods view capability
      named := requirementId_named methods capability view.product entry.name.1 }

theorem SpecName.text_named (name : SpecName) : String.ofList name.1 ≠ "" := by
  intro empty
  exact name.2 (by simpa using congrArg String.toList empty)

def SpecEntry.frontmatter : Frontmatter α :=
  { schema := "dark-factory.dev/requirement/v1", id := entry.target methods view capability, type := "requirement"
    title := String.ofList entry.name.1, product := view.product, status := "proposed", change := view.changeId
    complete := by
      have target : entry.target methods view capability ≠ "" :=
        requirementId_named methods capability view.product entry.name.1
      simp only [List.mem_cons, List.not_mem_nil, or_false, not_or]
      exact ⟨by decide, target.symm, by decide, entry.name.text_named.symm, view.named.symm, by decide, view.identified.symm⟩ }

def SpecEntry.document : Option (Document α) :=
  match entry.kind with
  | .added | .modified => some
    { path := "spec/" ++ entry.artifact methods capability
      frontmatter := some (entry.frontmatter methods view capability)
      body := entry.body
      located := append_ne_empty (by decide) _ }
  | .removed => none

end Import

section Adapter

variable (methods : CaseMethods) {α : Type} (codec : OpenSpecCodec α) (core : NativeCore) (root : TreePath)

def openSpecChange (name : String) : TreePath := root ++ ["changes", name]

/-- `specs/*/spec.md`, in path order. -/
def specFiles (directory : TreePath) (tree : Tree) : List TreePath :=
  (tree.entries.filter fun path => (directory ++ ["specs"]).isPrefixOf path && path.length = directory.length + 3 &&
    path.getLast? = some "spec.md").insertionSort (· ≤ ·)

def capabilityOf (path : TreePath) : String := path.dropLast.getLastD ""

def readEntries (tree : Tree) (path : TreePath) : Except SddFailure (List (String × SpecEntry)) := do
  let text ← tree.readText path
  return (parseSpecSections text).map fun entry => (capabilityOf path, entry)

def importedManifest (view : NativeView) (changeName : String) : Except SddFailure (ChangeManifest OpenSpecFields) :=
  if valid : isChangeId view.changeId = true ∧ changeName ≠ "" ∧
      isSlug (String.ofList (kebab methods changeName.toList)) = true then
    .ok
      { id := view.changeId, slug := String.ofList (kebab methods changeName.toList)
        rest :=
          { title := changeName, product := view.product, riskClass := .r1, status := .proposed
            baseline := { revision := view.revision, pinned := view.pinned }
            workflow := ⟨.productFeature⟩
            artifacts := fun slot => if slot = .spec then some "spec/delta.yaml" else none
            titled := valid.2.1 }
        identified := valid.1, slugged := valid.2.2 }
  else .error ⟨.validation, "the manifest of " ++ Text.repr changeName ++ " is invalid"⟩

def importedChange (view : NativeView) (manifest : ChangeManifest OpenSpecFields) (entries : List (String × SpecEntry)) :
    ChangeSet codec.models where
  manifest := manifest
  artifacts := deltaAlone
    { baselineRevision := view.revision
      operations := entries.map fun entry => entry.2.operation methods view entry.1
      pinned := view.pinned }
  documents := entries.filterMap fun entry => entry.2.document methods view entry.1

def OpenSpecAdapter.importChange (changeName : String) : EStateM SddFailure Tree (ChangeSet codec.models) := do
  let directory := openSpecChange root changeName
  let tree ← get
  if !tree.isDir (directory ++ ["specs"]) then
    throw ⟨.missingArtifact, "OpenSpec change " ++ Text.repr changeName ++ " has no specs/ under /" ++ posixPath directory⟩
  let view ← Outcome.lift (core.view tree)
  let read ← Outcome.lift ((specFiles directory tree).mapM (readEntries tree))
  let manifest ← Outcome.lift (importedManifest methods view changeName)
  writeFile (directory ++ ["change.yaml"]) (codec.manifest.dump manifest)
  return importedChange methods codec view manifest read.flatten

/-! ## Export -/

/-- An export fails in the file system, or at a target that has too few parts. -/
inductive ExportFailure
  | index
  | sdd (failure : SddFailure)

def exporting {β : Type} (step : EStateM SddFailure Tree β) : EStateM ExportFailure Tree β := fun tree =>
  match step tree with
  | .ok value after => .ok value after
  | .error failure after => .error (.sdd failure) after

/-- `target.split(":")[index]` -/
def targetPart (target : String) (index : Nat) : Except ExportFailure String :=
  match (idParts target)[index]? with
  | some part => .ok (String.ofList part)
  | none => .error .index

def documentOf (documents : List (Document α)) (path : String) : Option (Document α) :=
  documents.reverse.find? fun document => document.path = path

structure SpecBlock where
  capability : String
  kind : SpecKind
  text : DocText

def writtenBlock (documents : List (Document α)) (kind : SpecKind) (target artifact : String) :
    Except ExportFailure (Option SpecBlock) := do
  let capability ← targetPart target 2
  let document := documentOf documents ("spec/" ++ artifact)
  let title := ((document.bind Document.frontmatter).map Frontmatter.title).getD target
  let body := (document.map Document.body).getD []
  return some { capability, kind, text := requirementBlock title.toList body }

def blockOf (documents : List (Document α)) : DeltaOperation → Except ExportFailure (Option SpecBlock)
  | .retire operation => do
    let capability ← targetPart operation.target 2
    let name ← targetPart operation.target 3
    return some { capability, kind := .removed, text := requirementHead ++ titled methods name.toList }
  | .supersede _ => .ok none
  | .add operation => writtenBlock documents .added operation.target operation.artifact
  | .modify operation => writtenBlock documents .modified operation.target operation.artifact

abbrev Sections := List (String × (SpecKind → List DocText))

def addBlock (sections : Sections) (block : SpecBlock) : Sections :=
  Table.update Prod.fst block.capability
    (fun held => (held.1, fun kind => if kind = block.kind then held.2 kind ++ [block.text] else held.2 kind))
    (Table.insertNew Prod.fst (block.capability, fun _ => []) sections)

def sectionsOf (change : ChangeSet codec.models) (delta : Delta) : Except ExportFailure Sections := do
  let blocks ← delta.operations.mapM (blockOf methods change.documents)
  return (blocks.filterMap id).foldl addBlock []

def specPlace (directory : TreePath) (capability : String) : List String :=
  joinPath (directory ++ ["specs"]) capability ++ ["spec.md"]

def OpenSpecAdapter.exportChange (change : ChangeSet codec.models) : EStateM ExportFailure Tree TreePath := do
  match change.artifacts .delta with
  | none => throw (.sdd ⟨.missingArtifact, "ChangeSet " ++ Text.repr change.manifest.id ++ " has no delta to export"⟩)
  | some delta =>
    let directory := openSpecChange root change.manifest.slug
    let sections ← Outcome.lift (sectionsOf methods codec change delta)
    exporting (placeAll (sections.map fun held => (specPlace directory held.1, specText held.1 held.2)))
    exporting (writeFile (directory ++ ["change.yaml"]) (codec.manifest.dump change.manifest))
    return directory

end Adapter

end DarkFactory
