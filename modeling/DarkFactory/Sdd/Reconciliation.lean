import DarkFactory.Sdd.Baseline

namespace DarkFactory

section Delta

variable {α : Type} {packages : Packages α} {root path : TreePath} {changeDir : List String} {before after : Tree}
  {operations : List DeltaOperation} {changeId expectedRevision : String} {result : ReconciliationResult}
  {failure : SddFailure}

theorem applyDeltaOperations_ok
    (done : applyDeltaOperations packages root changeDir operations changeId expectedRevision before = .ok result after) :
    currentRevision root before = expectedRevision ∧
      applyOperations packages root changeDir operations before = .ok () after := by
  unfold applyDeltaOperations at done
  rw [Outcome.state_get_bind] at done
  by_cases current : currentRevision root before = expectedRevision
  · refine ⟨current, ?_⟩
    simp only [current, ne_eq, not_true_eq_false, if_false] at done
    obtain ⟨_, middle, applied, done⟩ := Outcome.state_bind_ok.mp done
    rw [Outcome.state_get_bind] at done
    split at done
    · obtain ⟨-, rfl⟩ := Outcome.state_pure_ok.mp done
      exact applied
    · cases done
  · simp only [ne_eq, current, not_false_eq_true, if_true] at done
    cases done

theorem applyDeltaOperations_error
    (failed : applyDeltaOperations packages root changeDir operations changeId expectedRevision before = .error failure after) :
    (expectedRevision ≠ currentRevision root before ∧ after = before) ∨
      (expectedRevision = currentRevision root before ∧
        (applyOperations packages root changeDir operations before = .error failure after ∨
          (changeId = "" ∧ applyOperations packages root changeDir operations before = .ok () after))) := by
  unfold applyDeltaOperations at failed
  rw [Outcome.state_get_bind] at failed
  by_cases current : currentRevision root before = expectedRevision
  · refine Or.inr ⟨current.symm, ?_⟩
    simp only [current, ne_eq, not_true_eq_false, if_false] at failed
    rcases Outcome.state_bind_failed.mp failed with stopped | ⟨_, middle, applied, failed⟩
    · exact Or.inl stopped
    · rw [Outcome.state_get_bind] at failed
      split at failed
      · cases failed
      · rename_i incomplete
        rw [not_not] at incomplete
        cases failed
        have first : expectedRevision ≠ "" := current ▸ currentRevision_ne
        have second : currentRevision root after ≠ "" := currentRevision_ne
        simp only [List.mem_cons, List.not_mem_nil, or_false, first.symm, second.symm] at incomplete
        exact Or.inr ⟨incomplete.symm, applied⟩
  · refine Or.inl ⟨Ne.symm current, ?_⟩
    simp only [ne_eq, current, not_false_eq_true, if_true] at failed
    cases failed
    rfl

/-- A delta that fails leaves the files as the operations before the failing one left them. -/
theorem failed_delta_keeps_earlier_operations
    (failed : applyDeltaOperations packages root changeDir operations changeId expectedRevision before = .error failure after) :
    (expectedRevision ≠ currentRevision root before ∧ after = before) ∨
    (expectedRevision = currentRevision root before ∧ ∃ earlier operation later middle,
      operations = earlier ++ operation :: later ∧
      applyOperations packages root changeDir earlier before = .ok () middle ∧
      applyOperation packages root changeDir operation middle = .error failure after ∧
      KeepsFiles middle after ∧ currentRevision root after = currentRevision root middle) ∨
    (expectedRevision = currentRevision root before ∧ changeId = "" ∧
      applyOperations packages root changeDir operations before = .ok () after) := by
  rcases applyDeltaOperations_error failed with mismatch | ⟨current, stopped | ⟨unnamed, applied⟩⟩
  · exact Or.inl mismatch
  · obtain ⟨earlier, operation, later, middle, split, passed, here⟩ := Outcome.forEach_error stopped
    have kept : KeepsFiles middle after := applyOperation_fails middle failure after here
    exact Or.inr (Or.inl ⟨current, earlier, operation, later, middle, split, passed, here, kept, kept.revision⟩)
  · exact Or.inr (Or.inr ⟨current, unnamed, applied⟩)

theorem applyDeltaOperations_failed (failed : applyOperations packages root changeDir operations before = .error failure after) :
    applyDeltaOperations packages root changeDir operations changeId (currentRevision root before) before =
      .error failure after := by
  unfold applyDeltaOperations
  rw [Outcome.state_get_bind]
  simp only [ne_eq, not_true_eq_false, if_false]
  exact Outcome.state_bind_error failed

theorem applyDeltaOperations_done (named : changeId ≠ "")
    (done : applyOperations packages root changeDir operations before = .ok () after) :
    ∃ result, applyDeltaOperations packages root changeDir operations changeId (currentRevision root before) before =
      .ok result after := by
  have complete : "" ∉ [changeId, currentRevision root before, currentRevision root after] := by
    simp only [List.mem_cons, List.not_mem_nil, or_false, not_or]
    exact ⟨named.symm, currentRevision_ne.symm, currentRevision_ne.symm⟩
  refine ⟨{ changeId, originalRevision := currentRevision root before, newRevision := currentRevision root after,
            appliedOperations := operations.length, complete }, ?_⟩
  unfold applyDeltaOperations
  rw [Outcome.state_get_bind]
  simp only [ne_eq, not_true_eq_false, if_false]
  refine (Outcome.state_bind_eq done).trans ?_
  rw [Outcome.state_get_bind]
  simp only [complete, not_false_eq_true, dif_pos]
  rfl

end Delta

section Scene

def splitEntry : DocText → Option (DocText × DocText)
  | [] => none
  | ':' :: ' ' :: value => some ([], value)
  | c :: rest => (splitEntry rest).map fun entry => (c :: entry.1, entry.2)

def plainYaml : Packages Empty where
  safeLoad block :=
    match (Lines.split (· = '\n') block).mapM splitEntry with
    | none => .ok .other
    | some [] => .ok .null
    | some entries =>
      .ok (.mapping { entries := entries.map fun entry => (String.ofList entry.1, .text (String.ofList entry.2)) })
  safeDump entries := entries.flatMap fun entry =>
    match entry.2 with
    | .text value => entry.1.toList ++ ": ".toList ++ value.toList ++ ['\n']
    | _ => entry.1.toList ++ ": null\n".toList
  json := Empty.elim

def pilotRoot : TreePath := [".factory"]

def timeoutChange : List String := pilotRoot ++ ["changes", "2026", "CHG-0002-timeout"]

def timeoutText : DocText :=
  joinLines (["---", "schema: req/v1", "id: req-timeout", "type: req", "title: Timeout", "product: pilot", "status: new",
    "change: chg-2", "---", "Expire."].map String.toList)

def timeoutSource : TreePath := timeoutChange ++ ["spec", "timeout.md"]

def proposedTree : Tree := Tree.empty.write timeoutSource (.text timeoutText)

theorem timeout_named : "req-timeout" ≠ "" := by decide

theorem timeout_placed : "timeout.md" ≠ "" := by decide

def timeoutAdded : DeltaOperation :=
  .add { target := "req-timeout", artifact := "timeout.md", named := timeout_named, placed := timeout_placed }

def legacyRetired : DeltaOperation := .retire { target := "req-legacy" }

def timeoutPath : TreePath := pilotRoot ++ ["product", "timeout.md"]

def failsAfterWriting : Bool :=
  match applyOperations plainYaml pilotRoot timeoutChange [timeoutAdded, legacyRetired] proposedTree with
  | .ok _ _ => false
  | .error failure after => failure.kind = .missingArtifact && after.isFile timeoutPath

theorem retirement_fails : failsAfterWriting = true := by decide +kernel

theorem half_applied : ∃ failure after,
    applyDeltaOperations plainYaml pilotRoot timeoutChange [timeoutAdded, legacyRetired] "chg-2"
      (currentRevision pilotRoot proposedTree) proposedTree = .error failure after ∧ after.isFile timeoutPath = true := by
  have ran := retirement_fails
  unfold failsAfterWriting at ran
  split at ran
  · cases ran
  · rename_i failure after failed
    exact ⟨failure, after, applyDeltaOperations_failed failed, (Bool.and_eq_true_iff.mp ran).2⟩

end Scene

theorem retirement_of_unknown_document_fails : ∃ failure after middle,
    applyDeltaOperations plainYaml pilotRoot timeoutChange [timeoutAdded, legacyRetired] "chg-2"
      (currentRevision pilotRoot proposedTree) proposedTree = .error failure after ∧
    applyOperations plainYaml pilotRoot timeoutChange [timeoutAdded] proposedTree = .ok () middle ∧
    KeepsFiles middle after := by
  obtain ⟨failure, after, failed, written⟩ := half_applied
  rcases failed_delta_keeps_earlier_operations failed with
    ⟨mismatch, -⟩ | ⟨-, earlier, operation, later, middle, split, reached, -, kept, -⟩ | ⟨-, unnamed, -⟩
  · exact absurd rfl mismatch
  · refine ⟨failure, after, middle, failed, ?_, kept⟩
    match earlier, split with
    | [], _ =>
      rw [← Outcome.forEach_nil_ok.mp reached] at kept
      rw [Tree.isFile, ← Tree.content_of_files kept] at written
      exact absurd written (by decide)
    | [first], split =>
      cases split
      exact reached
    | _ :: _ :: _, split => simp at split
  · exact absurd unnamed (by decide)

theorem delta_half_applied : ¬ ∀ (root : TreePath) (changeDir : List String) (operations : List DeltaOperation)
    (changeId expectedRevision : String) (before after : Tree) (failure : SddFailure),
    applyDeltaOperations plainYaml root changeDir operations changeId expectedRevision before = .error failure after →
    ∀ path, after.content path = before.content path := by
  intro whole
  obtain ⟨failure, after, failed, written⟩ := half_applied
  have same := whole _ _ _ _ _ _ _ _ failed timeoutPath
  rw [Tree.isFile, same] at written
  exact absurd written (by decide)

section Copies

variable {α : Type} (packages : Packages α) (root : TreePath) (changeDir : List String)

def Names (operation : DeltaOperation) (tree : Tree) (path : TreePath) : Prop :=
  (∃ artifact, operation.artifact = some artifact ∧ path = artifactPath root artifact) ∨
    (operation.withdrawal.isSome = true ∧ findBaselineDoc packages root operation.target tree = .ok path)

def Stands (operation : DeltaOperation) (artifact : String) (later : List DeltaOperation) : Prop :=
  ∀ other ∈ later, (∀ own, other.artifact = some own → artifactPath root own ≠ artifactPath root artifact) ∧
    (other.withdrawal.isSome = true → other.target ≠ operation.target)

/-- The document reads as another one with a status, up to the white space around its body. -/
def ReadsAs (tree : Tree) (path : TreePath) (document : Frontmatter α) (status : BaselineStatus) (body : DocText) : Prop :=
  ∃ own, documentAt packages tree path = .ok (some (withStatus document status.value status.value_ne), own) ∧
    stripText own = stripText body

def DeltaTurn (operations : List DeltaOperation) (before : Tree) (operation : DeltaOperation) (later : List DeltaOperation)
    (middle : Tree) : Prop :=
  ∃ earlier, operations = earlier ++ operation :: later ∧
    applyOperations packages root changeDir earlier before = .ok () middle

structure Reconciles (operations : List DeltaOperation) (before after : Tree) : Prop where
  copied : ∀ operation later middle artifact source text document body,
    DeltaTurn packages root changeDir operations before operation later middle → operation.artifact = some artifact →
    Stands root operation artifact later → changeArtifact changeDir artifact middle = .ok source →
    middle.readText source = .ok text → readDocument packages text = .ok (some document, body) →
    ReadsAs packages after (artifactPath root artifact) document .active body
  untouched : ∀ path, (∀ operation later middle, DeltaTurn packages root changeDir operations before operation later middle →
    ¬ Names packages root operation middle path) → after.content path = before.content path
  withdrawn : ∀ operation later middle next status path document body,
    DeltaTurn packages root changeDir operations before operation later middle → operation.withdrawal = some status →
    applyOperation packages root changeDir operation middle = .ok () next →
    findBaselineDoc packages root operation.target middle = .ok path →
    documentAt packages middle path = .ok (some document, body) → ReadsAs packages next path document status body

/-- However the file is read, the body behind its frontmatter weighs no less. -/
def BodyWeighs (tree : Tree) (path : TreePath) (weight : Nat) : Prop :=
  ∀ text raw body, tree.readText path = .ok text → splitFrontmatter packages text = .ok (raw, body) → weight ≤ textWeight body

end Copies

section Copies

variable {α : Type} {packages : Packages α} {root path written : TreePath} {changeDir : List String}
  {before middle next after : Tree} {operation : DeltaOperation} {operations later : List DeltaOperation}
  {artifact changeId expectedRevision : String} {result : ReconciliationResult} {text body : DocText}
  {document : Frontmatter α} {status : BaselineStatus} {weight : Nat}

theorem documentAt_eq : documentAt packages before path = .ok (some document, body) ↔
    ∃ text, before.readText path = .ok text ∧ readDocument packages text = .ok (some document, body) := Outcome.bind_ok

theorem readText_written {rendered : DocText} (kept : KeepsFiles (before.write path (.text rendered)) after) :
    after.readText path = .ok (newlines false rendered) := by
  apply Tree.readText_text
  rw [← Tree.content_of_files kept, Tree.content_write_self]

theorem content_elsewhere {content : Content} (kept : KeepsFiles (before.write written content) after)
    (apart : path ≠ written) : after.content path = before.content path := by
  rw [← Tree.content_of_files kept, Tree.content_write_other apart]

theorem weighs_rendered (kept : KeepsFiles (before.write path (.text (renderDocument packages document body))) after)
    (heavy : weight ≤ textWeight body) : BodyWeighs packages after path weight := by
  intro text raw own read splits
  rw [readText_written kept] at read
  have same : splitlines text = splitlines (renderDocument packages document body) := by
    rw [← Except.ok.inj read, splitlines_newlines]
  exact heavy.trans (splitFrontmatter_render_weight same splits).1

theorem weighs_elsewhere (held : BodyWeighs packages before path weight) (same : after.content path = before.content path) :
    BodyWeighs packages after path weight := by
  intro text raw own read splits
  obtain ⟨characters, present, rfl⟩ := Tree.readText_ok read
  rw [same] at present
  exact held _ raw own (Tree.readText_text present) splits

/-- Whatever a later operation does, the body at the path does not get lighter, if no artifact is copied there. -/
theorem applyOperation_weighs (held : BodyWeighs packages before path weight)
    (spared : ∀ own, operation.artifact = some own → artifactPath root own ≠ path)
    (done : applyOperation packages root changeDir operation before = .ok () after) : BodyWeighs packages after path weight := by
  obtain ⟨written, rendered, behind, writes, kept⟩ := applyOperation_ok done
  by_cases here : path = written
  · subst here
    cases writes with
    | copied copies located read parsed => exact absurd rfl (spared _ copies)
    | withdrawn withdraws found read parsed =>
      obtain ⟨raw, splits, -⟩ := readDocument_some parsed
      exact weighs_rendered kept (held _ _ _ read splits)
  · exact weighs_elsewhere held (content_elsewhere kept here)

theorem applyOperations_weighs (held : BodyWeighs packages before path weight)
    (spared : ∀ other ∈ operations, ∀ own, other.artifact = some own → artifactPath root own ≠ path)
    (done : applyOperations packages root changeDir operations before = .ok () after) : BodyWeighs packages after path weight := by
  induction operations generalizing before with
  | nil =>
    rw [← Outcome.forEach_nil_ok.mp done]
    exact held
  | cons first rest ih =>
    obtain ⟨middle, here, others⟩ := Outcome.forEach_cons_ok.mp done
    rw [List.forall_mem_cons] at spared
    exact ih (applyOperation_weighs held spared.1 here) spared.2 others

theorem DeltaTurn.around (turn : DeltaTurn packages root changeDir operations before operation later middle)
    (done : applyOperations packages root changeDir operations before = .ok () after) :
    ∃ next, applyOperation packages root changeDir operation middle = .ok () next ∧
      applyOperations packages root changeDir later next = .ok () after := by
  obtain ⟨earlier, rfl, reached⟩ := turn
  obtain ⟨own, first, rest⟩ := Outcome.forEach_append_ok.mp done
  have same : own = middle := by
    rw [applyOperations, first] at reached
    cases reached
    rfl
  subst same
  exact Outcome.forEach_cons_ok.mp rest

/-- A copied document that stands holds the text of its source, frontmatter and all. -/
theorem standing_copy_differs {source : TreePath}
    (done : applyOperations packages root changeDir operations before = .ok () after)
    (turn : DeltaTurn packages root changeDir operations before operation later middle)
    (copies : operation.artifact = some artifact) (stands : Stands root operation artifact later)
    (located : changeArtifact changeDir artifact middle = .ok source) (read : middle.readText source = .ok text)
    (parsed : readDocument packages text = .ok (some document, body)) :
    ¬ ReadsAs packages after (artifactPath root artifact) document .active body := by
  rintro ⟨own, reads, trimmed⟩
  obtain ⟨next, here, rest⟩ := turn.around done
  obtain ⟨path, rendered, behind, writes, kept⟩ := applyOperation_ok here
  obtain ⟨placed, shown, whole⟩ := writes.of_copy copies located read parsed
  rw [placed, shown, whole] at kept
  have held : BodyWeighs packages after (artifactPath root artifact) (textWeight text) :=
    applyOperations_weighs (weighs_rendered kept (Nat.le_refl _)) (fun other member => (stands other member).1) rest
  obtain ⟨found, written, splits⟩ := documentAt_eq.mp reads
  obtain ⟨raw, splits, -⟩ := readDocument_some splits
  obtain ⟨_, given, -⟩ := readDocument_some parsed
  have heavy : textWeight text ≤ textWeight own := held found (some raw) own written splits
  have lighter : textWeight body + 6 ≤ textWeight text := splitFrontmatter_weight given
  have equal : textWeight own = textWeight body := by
    rw [textWeight, ← Lines.weight_strip, show Lines.strip Text.isSpace own = stripText body from trimmed, stripText,
      Lines.weight_strip]
  omega

theorem unnamed_untouched (done : applyOperations packages root changeDir operations before = .ok () after)
    (unnamed : ∀ operation later middle, DeltaTurn packages root changeDir operations before operation later middle →
      ¬ Names packages root operation middle path) : after.content path = before.content path := by
  induction operations generalizing before with
  | nil => rw [← Outcome.forEach_nil_ok.mp done]
  | cons first rest ih =>
    obtain ⟨middle, here, others⟩ := Outcome.forEach_cons_ok.mp done
    have spared : ¬ Names packages root first before path := unnamed first rest before ⟨[], rfl, rfl⟩
    have later := ih others fun operation later next turn => by
      obtain ⟨earlier, split, reached⟩ := turn
      exact unnamed operation later next ⟨first :: earlier, by rw [split]; rfl, Outcome.forEach_cons_ok.mpr ⟨middle, here, reached⟩⟩
    rw [later]
    obtain ⟨written, rendered, behind, writes, kept⟩ := applyOperation_ok here
    apply content_elsewhere kept
    rintro rfl
    apply spared
    cases writes with
    | copied copies _ _ _ => exact Or.inl ⟨_, copies, rfl⟩
    | withdrawn withdraws found _ _ => exact Or.inr ⟨by rw [withdraws]; rfl, found⟩

/-- A withdrawn document differs in its status only exactly if its frontmatter reads back. -/
theorem withdrawn_reads_iff (done : applyOperation packages root changeDir operation before = .ok () after)
    (withdraws : operation.withdrawal = some status)
    (found : findBaselineDoc packages root operation.target before = .ok path)
    (held : documentAt packages before path = .ok (some document, body)) :
    ReadsAs packages after path document status body ↔
      ReadsBack packages (withStatus document status.value status.value_ne) := by
  obtain ⟨written, rendered, trailing, writes, kept⟩ := applyOperation_ok done
  obtain ⟨text, read, parsed⟩ := documentAt_eq.mp held
  obtain ⟨placed, shown, behind⟩ := writes.of_withdrawal withdraws found read parsed
  rw [placed, shown, behind] at kept
  obtain ⟨raw, splits, -⟩ := readDocument_some parsed
  have same : splitlines (newlines false (renderDocument packages (withStatus document status.value status.value_ne) body)) =
      splitlines (renderDocument packages (withStatus document status.value status.value_ne) body) := splitlines_newlines
  rw [← readsBack_iff (splitFrontmatter_plain splits) same]
  have read := readText_written kept
  constructor
  · rintro ⟨own, reads, trimmed⟩
    obtain ⟨text, again, reads⟩ := documentAt_eq.mp reads
    rw [read, Except.ok.injEq] at again
    subst again
    exact ⟨own, reads, trimmed⟩
  · rintro ⟨own, reads, trimmed⟩
    exact ⟨own, documentAt_eq.mpr ⟨_, read, reads⟩, trimmed⟩

theorem Reconciles.replaced (reconciles : Reconciles packages root changeDir operations before after)
    (applied : applyOperations packages root changeDir operations before = .ok () after)
    (turn : DeltaTurn packages root changeDir operations before operation later middle)
    (copies : operation.artifact = some artifact) : ¬ Stands root operation artifact later := by
  intro stands
  obtain ⟨next, here, -⟩ := turn.around applied
  obtain ⟨path, rendered, behind, writes, -⟩ := applyOperation_ok here
  cases writes with
  | copied copies' located read parsed =>
    rw [copies, Option.some.injEq] at copies'
    subst copies'
    exact standing_copy_differs applied turn copies stands located read parsed
      (reconciles.copied operation later middle _ _ _ _ _ turn copies stands located read parsed)
  | withdrawn withdraws _ _ _ => exact absurd withdraws (DeltaOperation.not_withdrawal copies)

/-- The delta is reconciled exactly if no copy stands and every withdrawn document reads back. -/
theorem delta_reconciles_iff
    (done : applyDeltaOperations packages root changeDir operations changeId expectedRevision before = .ok result after) :
    Reconciles packages root changeDir operations before after ↔
      (∀ operation later middle artifact, DeltaTurn packages root changeDir operations before operation later middle →
        operation.artifact = some artifact → ¬ Stands root operation artifact later) ∧
      (∀ operation later middle status path document body,
        DeltaTurn packages root changeDir operations before operation later middle → operation.withdrawal = some status →
        findBaselineDoc packages root operation.target middle = .ok path →
        documentAt packages middle path = .ok (some document, body) →
        ReadsBack packages (withStatus document status.value status.value_ne)) := by
  obtain ⟨-, applied⟩ := applyDeltaOperations_ok done
  constructor
  · intro reconciles
    refine ⟨fun operation later middle artifact turn copies => reconciles.replaced applied turn copies, ?_⟩
    intro operation later middle status path document body turn withdraws found held
    obtain ⟨next, here, -⟩ := turn.around applied
    rw [← withdrawn_reads_iff here withdraws found held]
    exact reconciles.withdrawn operation later middle next status path document body turn withdraws here found held
  · rintro ⟨replaced, readsBack⟩
    constructor
    · intro operation later middle artifact source text document body turn copies stands
      exact absurd stands (replaced operation later middle artifact turn copies)
    · exact fun path unnamed => unnamed_untouched applied unnamed
    · intro operation later middle next status path document body turn withdraws here found held
      rw [withdrawn_reads_iff here withdraws found held]
      exact readsBack operation later middle status path document body turn withdraws found held

theorem DeltaTurn.lone {only : DeltaOperation}
    (turn : DeltaTurn packages root changeDir [only] before operation later middle) : operation = only ∧ middle = before := by
  obtain ⟨earlier, split, reached⟩ := turn
  cases earlier with
  | nil =>
    cases split
    exact ⟨rfl, (Outcome.forEach_nil_ok.mp reached).symm⟩
  | cons first rest => cases rest <;> cases split

end Copies

section Documents

def legacyDocument : Frontmatter Empty :=
  { schema := "req/v1", id := "req-legacy", type := "req", title := "Legacy", product := "pilot", status := "active"
    change := "chg-1" }

def legacyPath : TreePath := pilotRoot ++ ["product", "legacy.md"]

def legacyTree : Tree := Tree.empty.write legacyPath (.text (renderDocument plainYaml legacyDocument "Old.".toList))

def proposalTree : Tree := legacyTree.write timeoutSource (.text timeoutText)

theorem legacy_found : findBaselineDoc plainYaml pilotRoot "req-legacy" legacyTree = .ok legacyPath := by
  decide +kernel

theorem legacy_held : documentAt plainYaml legacyTree legacyPath = .ok (some legacyDocument, "\nOld.".toList) := by
  decide +kernel

theorem legacy_readsBack : ReadsBack plainYaml (withStatus legacyDocument "retired") where
  undelimited := by decide +kernel
  loads := by decide +kernel

theorem legacy_retired : Outcome.succeeds (applyOperations plainYaml pilotRoot [] [legacyRetired]) legacyTree = true := by
  decide +kernel

theorem timeout_added :
    ∃ after, applyOperations plainYaml pilotRoot timeoutChange [timeoutAdded] proposedTree = .ok () after := by
  have ran : Outcome.succeeds (applyOperations plainYaml pilotRoot timeoutChange [timeoutAdded]) proposedTree = true := by
    decide +kernel
  obtain ⟨_, after, done⟩ := Outcome.succeeds_iff.mp ran
  exact ⟨after, done⟩

end Documents

/-- A delta of a retirement is reconciled. -/
theorem retirement_reconciled : ∃ result after,
    applyDeltaOperations plainYaml pilotRoot [] [legacyRetired] "chg-2" (currentRevision pilotRoot legacyTree) legacyTree =
      .ok result after ∧ Reconciles plainYaml pilotRoot [] [legacyRetired] legacyTree after := by
  obtain ⟨_, after, applied⟩ := Outcome.succeeds_iff.mp legacy_retired
  have named : "chg-2" ≠ "" := by decide
  obtain ⟨result, done⟩ := applyDeltaOperations_done named applied
  refine ⟨result, after, done, (delta_reconciles_iff done).mpr ⟨?_, ?_⟩⟩
  · intro operation later middle artifact turn copies
    rw [turn.lone.1] at copies
    cases copies
  · intro operation later middle status path document body turn withdraws found held
    obtain ⟨rfl, rfl⟩ := turn.lone
    have here : path = legacyPath := Except.ok.inj (found.symm.trans legacy_found)
    rw [here, legacy_held] at held
    cases held
    cases withdraws
    exact legacy_readsBack

/-- The added document is not what its source says. -/
theorem added_document_not_reconciled : ∃ result after,
    applyDeltaOperations plainYaml pilotRoot timeoutChange [timeoutAdded] "chg-2" (currentRevision pilotRoot proposedTree)
      proposedTree = .ok result after ∧
    ¬ Reconciles plainYaml pilotRoot timeoutChange [timeoutAdded] proposedTree after := by
  obtain ⟨after, applied⟩ := timeout_added
  have named : "chg-2" ≠ "" := by decide
  obtain ⟨result, done⟩ := applyDeltaOperations_done named applied
  refine ⟨result, after, done, ?_⟩
  intro reconciles
  have turn : DeltaTurn plainYaml pilotRoot timeoutChange [timeoutAdded] proposedTree timeoutAdded [] proposedTree :=
    ⟨[], rfl, rfl⟩
  exact reconciles.replaced applied turn rfl nofun

end DarkFactory
