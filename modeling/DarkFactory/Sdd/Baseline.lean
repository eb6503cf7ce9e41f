import DarkFactory.Sdd.Tree
import Mathlib.Data.List.Lex
import Mathlib.Data.String.Basic

namespace DarkFactory

structure AddOperation where
  target : String
  artifact : String
  named : target ≠ "" := by decide
  placed : artifact ≠ "" := by decide

structure ModifyOperation where
  target : String
  artifact : String
  named : target ≠ "" := by decide
  placed : artifact ≠ "" := by decide

structure SupersedeOperation where
  target : String
  supersededBy : String
  named : target ≠ "" := by decide
  succeeded : supersededBy ≠ "" := by decide

structure RetireOperation where
  target : String
  named : target ≠ "" := by decide

inductive DeltaOperation
  | add (operation : AddOperation)
  | modify (operation : ModifyOperation)
  | supersede (operation : SupersedeOperation)
  | retire (operation : RetireOperation)

inductive BaselineStatus
  | active | superseded | retired
  deriving DecidableEq, Repr

def BaselineStatus.value : BaselineStatus → String
  | .active => "active"
  | .superseded => "superseded"
  | .retired => "retired"

theorem BaselineStatus.value_ne (status : BaselineStatus) : status.value ≠ "" := by
  cases status <;> decide

namespace DeltaOperation

def target : DeltaOperation → String
  | add operation => operation.target
  | modify operation => operation.target
  | supersede operation => operation.target
  | retire operation => operation.target

def artifact : DeltaOperation → Option String
  | add operation => some operation.artifact
  | modify operation => some operation.artifact
  | _ => none

def withdrawal : DeltaOperation → Option BaselineStatus
  | supersede _ => some .superseded
  | retire _ => some .retired
  | _ => none

theorem not_withdrawal {operation : DeltaOperation} {artifact : String} {status : BaselineStatus}
    (copies : operation.artifact = some artifact) : operation.withdrawal ≠ some status := by
  cases operation with
  | add _ => exact nofun
  | modify _ => exact nofun
  | supersede _ => cases copies
  | retire _ => cases copies

end DeltaOperation

structure ReconciliationResult where
  schema : String := "dark-factory.dev/reconciliation-result/v1"
  changeId : String
  originalRevision : String
  newRevision : String
  appliedOperations : Nat
  conflicts : List String := []
  complete : "" ∉ [changeId, originalRevision, newRevision]

section Baseline

variable {α : Type} (packages : Packages α) (root : TreePath) (changeDir : List String)

def baselineDocuments (tree : Tree) : List TreePath :=
  (tree.entries.filter fun path => inProduct root path && isMarkdown path).insertionSort (· ≤ ·)

def searchDocuments (tree : Tree) (target : String) : List TreePath → Except SddFailure TreePath
  | [] => .error ⟨.missingArtifact, "baseline document " ++ Text.repr target ++ " not found under product/"⟩
  | path :: rest => do
    let text ← tree.readText path
    let document ← parseFrontmatter packages text
    if document.any fun document => document.id = target then return path else searchDocuments tree target rest

def findBaselineDoc (target : String) (tree : Tree) : Except SddFailure TreePath :=
  searchDocuments packages tree target (baselineDocuments root tree)

def setBaselineDocStatus (path : TreePath) (status : BaselineStatus) : EStateM SddFailure Tree Unit := do
  let missing : SddFailure := ⟨.missingArtifact, "baseline document /" ++ posixPath path ++ " has no frontmatter"⟩
  let tree ← get
  let text ← Outcome.lift (tree.readText path)
  let (raw, body) ← Outcome.lift (splitFrontmatter packages text)
  if raw.isNone then throw missing
  match ← Outcome.lift (parseFrontmatter packages text) with
  | none => throw missing
  | some document => writeText path (renderDocument packages (withStatus document status.value status.value_ne) body)

/-- `change_dir / "spec" / artifact`, if it is a file. -/
def changeArtifact (artifact : String) (tree : Tree) : Except SddFailure TreePath :=
  match tree.locate [] (joinPath (changeDir ++ ["spec"]) artifact) with
  | some source =>
    if tree.isFile source then .ok source
    else .error ⟨.missingArtifact, "change artifact " ++ Text.repr artifact ++ " not found in /" ++ posixPath changeDir⟩
  | none => .error ⟨.missingArtifact, "change artifact " ++ Text.repr artifact ++ " not found in /" ++ posixPath changeDir⟩

def copyArtifact (artifact : String) : EStateM SddFailure Tree Unit := do
  let tree ← get
  let source ← Outcome.lift (changeArtifact changeDir artifact tree)
  let sourceText ← Outcome.lift (tree.readText source)
  match ← Outcome.lift (parseFrontmatter packages sourceText) with
  | none => throw ⟨.missingArtifact, "change artifact " ++ Text.repr artifact ++ " has no frontmatter"⟩
  | some document =>
    let target := joinPath (productRoot root) artifact
    makeDirectories target.dropLast
    -- the whole text of the source, not its body, is rendered behind the new frontmatter
    writeText (Tree.lexical target) (renderDocument packages (withStatus document BaselineStatus.active.value) sourceText)

def withdrawDocument (target : String) (status : BaselineStatus) : EStateM SddFailure Tree Unit := do
  let tree ← get
  let path ← Outcome.lift (findBaselineDoc packages root target tree)
  setBaselineDocStatus packages path status

def applyOperation : DeltaOperation → EStateM SddFailure Tree Unit
  | .add operation => copyArtifact packages root changeDir operation.artifact
  | .modify operation => copyArtifact packages root changeDir operation.artifact
  | .supersede operation => withdrawDocument packages root operation.target .superseded
  | .retire operation => withdrawDocument packages root operation.target .retired

def applyOperations (operations : List DeltaOperation) : EStateM SddFailure Tree Unit :=
  Outcome.forEach (applyOperation packages root changeDir) operations

def applyDeltaOperations (operations : List DeltaOperation) (changeId expectedRevision : String) :
    EStateM SddFailure Tree ReconciliationResult := do
  let originalRevision := currentRevision root (← get)
  if originalRevision ≠ expectedRevision then
    throw ⟨.baselineMismatch, "baseline revision mismatch: expected " ++ Text.repr expectedRevision ++ ", actual " ++
      Text.repr originalRevision⟩
  applyOperations packages root changeDir operations
  let newRevision := currentRevision root (← get)
  if complete : "" ∉ [changeId, originalRevision, newRevision] then
    return { changeId, originalRevision, newRevision, appliedOperations := operations.length, complete }
  else throw ⟨.validation, "String should have at least 1 character"⟩

def documentAt (tree : Tree) (path : TreePath) : Except SddFailure (Option (Frontmatter α) × DocText) :=
  tree.readText path >>= readDocument packages

def artifactPath (artifact : String) : TreePath := Tree.lexical (joinPath (productRoot root) artifact)

inductive Written (before : Tree) (operation : DeltaOperation) : TreePath → Frontmatter α → DocText → Prop
  | copied {artifact : String} {source : TreePath} {text body : DocText} {document : Frontmatter α}
      (copies : operation.artifact = some artifact) (located : changeArtifact changeDir artifact before = .ok source)
      (read : before.readText source = .ok text) (parsed : readDocument packages text = .ok (some document, body)) :
      Written before operation (artifactPath root artifact) (withStatus document BaselineStatus.active.value) text
  | withdrawn {status : BaselineStatus} {path : TreePath} {text body : DocText} {document : Frontmatter α}
      (withdraws : operation.withdrawal = some status)
      (found : findBaselineDoc packages root operation.target before = .ok path)
      (read : before.readText path = .ok text) (parsed : readDocument packages text = .ok (some document, body)) :
      Written before operation path (withStatus document status.value status.value_ne) body

end Baseline

section Written

variable {α : Type} {packages : Packages α} {root path : TreePath} {changeDir : List String} {before after : Tree}
  {operation : DeltaOperation} {artifact : String} {status : BaselineStatus}

theorem Written.of_copy {source : TreePath} {text behind body : DocText} {document rendered : Frontmatter α}
    (writes : Written packages root changeDir before operation path rendered behind)
    (copies : operation.artifact = some artifact) (located : changeArtifact changeDir artifact before = .ok source)
    (read : before.readText source = .ok text) (parsed : readDocument packages text = .ok (some document, body)) :
    path = artifactPath root artifact ∧ rendered = withStatus document BaselineStatus.active.value ∧ behind = text := by
  cases writes with
  | copied copies' located' read' parsed' =>
    rw [copies, Option.some.injEq] at copies'
    subst copies'
    rw [located, Except.ok.injEq] at located'
    subst located'
    rw [read, Except.ok.injEq] at read'
    subst read'
    rw [parsed] at parsed'
    cases parsed'
    exact ⟨rfl, rfl, rfl⟩
  | withdrawn withdraws _ _ _ => exact absurd withdraws (DeltaOperation.not_withdrawal copies)

theorem Written.of_withdrawal {found : TreePath} {text behind body : DocText} {document rendered : Frontmatter α}
    (writes : Written packages root changeDir before operation path rendered behind)
    (withdraws : operation.withdrawal = some status)
    (located : findBaselineDoc packages root operation.target before = .ok found) (read : before.readText found = .ok text)
    (parsed : readDocument packages text = .ok (some document, body)) :
    path = found ∧ rendered = withStatus document status.value status.value_ne ∧ behind = body := by
  cases writes with
  | copied copies _ _ _ => exact absurd withdraws (DeltaOperation.not_withdrawal copies)
  | withdrawn withdraws' located' read' parsed' =>
    rw [withdraws, Option.some.injEq] at withdraws'
    subst withdraws'
    rw [located, Except.ok.injEq] at located'
    subst located'
    rw [read, Except.ok.injEq] at read'
    subst read'
    rw [parsed] at parsed'
    cases parsed'
    exact ⟨rfl, rfl, rfl⟩

/-- The state says what an operation renders and where. -/
theorem Written.unique {found : TreePath} {first second : Frontmatter α} {front back : DocText}
    (writes : Written packages root changeDir before operation path first front)
    (also : Written packages root changeDir before operation found second back) :
    path = found ∧ first = second ∧ front = back := by
  cases also with
  | copied copies located read parsed => exact writes.of_copy copies located read parsed
  | withdrawn withdraws located read parsed => exact writes.of_withdrawal withdraws located read parsed

theorem Written.placed {rendered : Frontmatter α} {body : DocText}
    (writes : Written packages root changeDir before operation path rendered body) (copies : operation.artifact = some artifact) :
    path = artifactPath root artifact := by
  cases writes with
  | copied copies' located read parsed =>
    rw [copies, Option.some.injEq] at copies'
    rw [copies']
  | withdrawn withdraws _ _ _ => exact absurd withdraws (DeltaOperation.not_withdrawal copies)

theorem copyArtifact_ok (done : copyArtifact packages root changeDir artifact before = .ok () after) :
    ∃ source text document, changeArtifact changeDir artifact before = .ok source ∧ before.readText source = .ok text ∧
      parseFrontmatter packages text = .ok (some document) ∧
      KeepsFiles (before.write (artifactPath root artifact)
        (.text (renderDocument packages (withStatus document BaselineStatus.active.value) text))) after := by
  unfold copyArtifact at done
  rw [Outcome.state_get_bind] at done
  obtain ⟨source, _, found, done⟩ := Outcome.state_bind_ok.mp done
  obtain ⟨located, rfl⟩ := Outcome.lift_ok.mp found
  obtain ⟨text, _, loaded, done⟩ := Outcome.state_bind_ok.mp done
  obtain ⟨read, rfl⟩ := Outcome.lift_ok.mp loaded
  obtain ⟨document, _, split, done⟩ := Outcome.state_bind_ok.mp done
  obtain ⟨parsed, rfl⟩ := Outcome.lift_ok.mp split
  cases document with
  | none => cases done
  | some document =>
    obtain ⟨_, middle, made, done⟩ := Outcome.state_bind_ok.mp done
    refine ⟨source, text, document, located, read, parsed, ?_⟩
    rw [writeText_ok done]
    exact Tree.write_files (makeDirectories_files.ok made)

theorem setBaselineDocStatus_ok (done : setBaselineDocStatus packages path status before = .ok () after) :
    ∃ text document body, before.readText path = .ok text ∧ readDocument packages text = .ok (some document, body) ∧
      after = before.write path (.text (renderDocument packages (withStatus document status.value status.value_ne) body)) := by
  unfold setBaselineDocStatus at done
  rw [Outcome.state_get_bind] at done
  obtain ⟨text, _, loaded, done⟩ := Outcome.state_bind_ok.mp done
  obtain ⟨read, rfl⟩ := Outcome.lift_ok.mp loaded
  obtain ⟨⟨raw, body⟩, _, split, done⟩ := Outcome.state_bind_ok.mp done
  obtain ⟨splits, rfl⟩ := Outcome.lift_ok.mp split
  cases raw with
  | none => cases done
  | some raw =>
    obtain ⟨document, _, loaded, done⟩ := Outcome.state_bind_ok.mp done
    obtain ⟨parsed, rfl⟩ := Outcome.lift_ok.mp loaded
    cases document with
    | none => cases done
    | some document =>
      obtain ⟨own, reads⟩ := parseFrontmatter_iff.mp parsed
      obtain ⟨found, same, -⟩ := readDocument_some reads
      rw [splits] at same
      obtain ⟨-, rfl⟩ := Prod.mk.inj (Except.ok.inj same)
      exact ⟨text, document, body, read, reads, writeText_ok done⟩

theorem withdrawDocument_ok {target : String}
    (done : withdrawDocument packages root target status before = .ok () after) :
    ∃ path text document body, findBaselineDoc packages root target before = .ok path ∧
      before.readText path = .ok text ∧ readDocument packages text = .ok (some document, body) ∧
      after = before.write path (.text (renderDocument packages (withStatus document status.value status.value_ne) body)) := by
  unfold withdrawDocument at done
  rw [Outcome.state_get_bind] at done
  obtain ⟨path, _, search, done⟩ := Outcome.state_bind_ok.mp done
  obtain ⟨found, rfl⟩ := Outcome.lift_ok.mp search
  obtain ⟨text, document, body, written⟩ := setBaselineDocStatus_ok done
  exact ⟨path, text, document, body, found, written⟩

/-- An operation that goes through writes one file. -/
theorem applyOperation_ok (done : applyOperation packages root changeDir operation before = .ok () after) :
    ∃ path rendered body, Written packages root changeDir before operation path rendered body ∧
      KeepsFiles (before.write path (.text (renderDocument packages rendered body))) after := by
  have copied {artifact : String} (copies : operation.artifact = some artifact)
      (done : copyArtifact packages root changeDir artifact before = .ok () after) :
      ∃ path rendered body, Written packages root changeDir before operation path rendered body ∧
        KeepsFiles (before.write path (.text (renderDocument packages rendered body))) after := by
    obtain ⟨source, text, document, located, read, parsed, kept⟩ := copyArtifact_ok done
    obtain ⟨body, reads⟩ := parseFrontmatter_iff.mp parsed
    exact ⟨_, _, _, Written.copied copies located read reads, kept⟩
  have withdrawn {status : BaselineStatus} (withdraws : operation.withdrawal = some status)
      (done : withdrawDocument packages root operation.target status before = .ok () after) :
      ∃ path rendered body, Written packages root changeDir before operation path rendered body ∧
        KeepsFiles (before.write path (.text (renderDocument packages rendered body))) after := by
    obtain ⟨path, text, document, body, found, read, reads, rfl⟩ := withdrawDocument_ok done
    exact ⟨_, _, _, Written.withdrawn withdraws found read reads, rfl⟩
  cases operation with
  | add _ => exact copied rfl done
  | modify _ => exact copied rfl done
  | supersede _ => exact withdrawn rfl done
  | retire _ => exact withdrawn rfl done

theorem keepsFiles_refl (tree : Tree) : KeepsFiles tree tree := rfl

theorem keepsFiles_trans {first second third : Tree} (front : KeepsFiles first second) (back : KeepsFiles second third) :
    KeepsFiles first third := Eq.trans front back

theorem writeText_fails {text : DocText} : Outcome.FailsWithin KeepsFiles (writeText path text) :=
  Outcome.fails_perform keepsFiles_refl

theorem reads_fails {β : Type} {x : Except SddFailure β} {f : β → EStateM SddFailure Tree Unit}
    (later : ∀ value, Outcome.FailsWithin KeepsFiles (f value)) : Outcome.FailsWithin KeepsFiles (Outcome.lift x >>= f) :=
  Outcome.fails_bind keepsFiles_trans (Outcome.within_lift keepsFiles_refl x) later

theorem throw_fails {failure : SddFailure} : Outcome.FailsWithin KeepsFiles (throw failure : EStateM SddFailure Tree Unit) :=
  (Outcome.within_throw keepsFiles_refl failure).fails

theorem copyArtifact_fails : Outcome.FailsWithin KeepsFiles (copyArtifact packages root changeDir artifact) := by
  refine Outcome.fails_bind keepsFiles_trans (Outcome.within_get keepsFiles_refl) fun tree => ?_
  refine reads_fails fun source => reads_fails fun text => reads_fails fun document => ?_
  cases document with
  | none => exact throw_fails
  | some document =>
    exact Outcome.fails_bind keepsFiles_trans makeDirectories_files fun _ => writeText_fails

theorem setBaselineDocStatus_fails : Outcome.FailsWithin KeepsFiles (setBaselineDocStatus packages path status) := by
  refine Outcome.fails_bind keepsFiles_trans (Outcome.within_get keepsFiles_refl) fun tree => ?_
  refine reads_fails fun text => reads_fails fun parts => ?_
  obtain ⟨raw, body⟩ := parts
  cases raw with
  | none => exact throw_fails
  | some raw =>
    refine reads_fails fun document => ?_
    cases document with
    | none => exact throw_fails
    | some document => exact writeText_fails

/-- An operation that fails touches no file. -/
theorem applyOperation_fails : Outcome.FailsWithin KeepsFiles (applyOperation packages root changeDir operation) := by
  have withdrawn (target : String) (status : BaselineStatus) :
      Outcome.FailsWithin KeepsFiles (withdrawDocument packages root target status) :=
    Outcome.fails_bind keepsFiles_trans (Outcome.within_get keepsFiles_refl) fun _ =>
      reads_fails fun _ => setBaselineDocStatus_fails
  cases operation with
  | add _ => exact copyArtifact_fails
  | modify _ => exact copyArtifact_fails
  | supersede _ => exact withdrawn _ _
  | retire _ => exact withdrawn _ _

end Written

end DarkFactory
