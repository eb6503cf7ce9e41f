import DarkFactory.Sdd.Reconciliation

namespace DarkFactory

section Identity

variable {α : Type} (packages : Packages α) (root : TreePath)

def documentId (tree : Tree) (path : TreePath) : Option String :=
  if inProduct root path && isMarkdown path then
    (tree.readText path >>= parseFrontmatter packages).toOption.join.map Frontmatter.id
  else none

def renderedId (path : TreePath) (frontmatter : Frontmatter α) : Option String :=
  if inProduct root path && isMarkdown path then (rereadFrontmatter packages frontmatter).toOption.map Frontmatter.id
  else none

def DistinctIds (tree : Tree) : Prop := ∀ first second id,
  documentId packages root tree first = some id → documentId packages root tree second = some id → first = second

structure Applied where
  changeDir : List String
  before : Tree
  operation : DeltaOperation
  after : Tree

def trail (changeDir : List String) : List DeltaOperation → Tree → List Applied
  | [], _ => []
  | operation :: rest, before =>
    match applyOperation packages root changeDir operation before with
    | .ok _ after => ⟨changeDir, before, operation, after⟩ :: trail changeDir rest after
    | .error _ _ => []

inductive History (start : Tree) : List Applied → Tree → Prop
  | start : History start [] start
  | edited {steps : List Applied} {before after : Tree} (past : History start steps before)
      (outside : ∀ path, inProduct root path = true → after.content path = before.content path) : History start steps after
  | called {steps : List Applied} {before after : Tree} {changeDir : List String} {operations : List DeltaOperation}
      {changeId expectedRevision : String} {result : ReconciliationResult} (past : History start steps before)
      (done : applyDeltaOperations packages root changeDir operations changeId expectedRevision before = .ok result after) :
      History start (steps ++ trail packages root changeDir operations before) after

def DeltaOperation.modifies : DeltaOperation → Bool
  | .modify _ => true
  | _ => false

/-- The operation leaves the ids distinct, one document with the target it copies, no old version of what it modifies,
    and the files outside the baseline alone. -/
structure Applied.KeepsIdentity (step : Applied) : Prop where
  distinct : DistinctIds packages root step.after
  one : step.operation.artifact.isSome = true →
    ∃ path, documentId packages root step.after path = some step.operation.target ∧
      ∀ other, documentId packages root step.after other = some step.operation.target → other = path
  moved : ∀ artifact, step.operation.artifact = some artifact → step.operation.modifies = true →
    ∀ path, path ≠ artifactPath root artifact →
      documentId packages root step.before path = some step.operation.target →
      documentId packages root step.after path ≠ some step.operation.target
  confined : ∀ path, inProduct root path = false → step.after.content path = step.before.content path

/-- The document that the operation renders is a baseline document with an id that no other has, the target of the
    operation if it copies. -/
def Applied.Fits (step : Applied) : Prop := ∀ path frontmatter body,
  Written packages root step.changeDir step.before step.operation path frontmatter body →
  (∀ id, renderedId packages root path frontmatter = some id →
    ∀ other, documentId packages root step.before other = some id → other = path) ∧
  (step.operation.artifact.isSome = true →
    renderedId packages root path frontmatter = some step.operation.target ∨
      (step.operation.modifies = false ∧
        ∃ other, other ≠ path ∧ documentId packages root step.before other = some step.operation.target)) ∧
  (inProduct root path = true ∨
    step.before.content path = some (.text (renderDocument packages frontmatter body)))

end Identity

section Identity

variable {α : Type} {packages : Packages α} {root path written : TreePath} {changeDir : List String}
  {start before after final : Tree} {operation : DeltaOperation} {operations : List DeltaOperation}
  {frontmatter : Frontmatter α} {body : DocText} {steps : List Applied}

theorem documentId_congr (same : after.content path = before.content path) :
    documentId packages root after path = documentId packages root before path := by
  unfold documentId
  have read : (after.readText path >>= parseFrontmatter packages).toOption =
      (before.readText path >>= parseFrontmatter packages).toOption := by
    unfold Tree.readText
    rw [same]
    cases before.content path with
    | none => rfl
    | some content => cases content <;> rfl
  rw [read]

theorem documentId_written (kept : KeepsFiles (before.write path (.text (renderDocument packages frontmatter body))) after) :
    documentId packages root after path = renderedId packages root path frontmatter := by
  unfold documentId renderedId
  rw [readText_written kept]
  have same : splitlines (newlines false (renderDocument packages frontmatter body)) =
      splitlines (renderDocument packages frontmatter body) := splitlines_newlines
  rw [show (Except.ok (newlines false (renderDocument packages frontmatter body)) >>= parseFrontmatter packages) =
    parseFrontmatter packages (newlines false (renderDocument packages frontmatter body)) from rfl,
    parseFrontmatter_render same]
  cases rereadFrontmatter packages frontmatter <;> rfl

theorem documentId_product {id : String} (held : documentId packages root before path = some id) :
    inProduct root path = true := by
  unfold documentId at held
  split at held
  · rename_i placed
    exact (Bool.and_eq_true_iff.mp placed).1
  · cases held

theorem documentId_file {id : String} (held : documentId packages root before path = some id) :
    ∃ file ∈ before.files, file.1 = path := by
  cases present : Table.find Prod.fst path before.files with
  | some file =>
    obtain ⟨member, same⟩ := Table.find_some present
    exact ⟨file, member, same⟩
  | none =>
    have absent : before.content path = none := by rw [Tree.content, present, Option.map_none]
    unfold documentId Tree.readText at held
    rw [absent] at held
    split at held <;> cases held

theorem DistinctIds.of_files (apart : ∀ file ∈ before.files, ∀ other ∈ before.files,
    documentId packages root before file.1 ≠ none →
      documentId packages root before other.1 = documentId packages root before file.1 → other.1 = file.1) :
    DistinctIds packages root before := by
  intro first second id front back
  obtain ⟨file, member, rfl⟩ := documentId_file front
  obtain ⟨other, listed, rfl⟩ := documentId_file back
  exact (apart file member other listed (by simp [front]) (back.trans front.symm)).symm

/-- The ids after an operation: a new one where it writes, the old ones elsewhere. -/
theorem documentId_after {other : TreePath}
    (kept : KeepsFiles (before.write path (.text (renderDocument packages frontmatter body))) after) :
    documentId packages root after other =
      if other = path then renderedId packages root path frontmatter else documentId packages root before other := by
  split
  · rename_i here
    rw [here, documentId_written kept]
  · rename_i apart
    exact documentId_congr (content_elsewhere kept apart)

theorem Applied.KeepsIdentity.fits
    (keeps : (Applied.mk changeDir before operation after).KeepsIdentity packages root)
    (done : applyOperation packages root changeDir operation before = .ok () after) :
    (Applied.mk changeDir before operation after).Fits packages root := by
  obtain ⟨path, frontmatter, body, writes, kept⟩ := applyOperation_ok done
  intro written rendered behind also
  obtain ⟨rfl, rfl, rfl⟩ := also.unique writes
  have ids (other : TreePath) : documentId packages root after other =
      if other = written then renderedId packages root written rendered else documentId packages root before other :=
    documentId_after kept
  refine ⟨?_, ?_, ?_⟩
  · intro id shown other held
    by_contra apart
    apply apart
    apply keeps.distinct other written id
    · rw [ids, if_neg apart]
      exact held
    · rw [ids, if_pos rfl]
      exact shown
  · intro copies
    obtain ⟨place, held, -⟩ := keeps.one copies
    rw [ids] at held
    split at held
    · exact Or.inl held
    · rename_i apart
      refine Or.inr ⟨?_, place, apart, held⟩
      obtain ⟨artifact, named⟩ := Option.isSome_iff_exists.mp copies
      by_contra modifies
      rw [Bool.not_eq_false] at modifies
      have moved := keeps.moved artifact named modifies place (writes.placed named ▸ apart) held
      apply moved
      rw [ids, if_neg apart]
      exact held
  · cases inside : inProduct root written with
    | true => exact Or.inl rfl
    | false =>
      refine Or.inr ?_
      rw [← keeps.confined written inside, ← Tree.content_of_files kept, Tree.content_write_self]

/-- An operation that renders a document that fits keeps the identities. -/
theorem Applied.Fits.keepsIdentity (fits : (Applied.mk changeDir before operation after).Fits packages root)
    (distinct : DistinctIds packages root before)
    (done : applyOperation packages root changeDir operation before = .ok () after) :
    (Applied.mk changeDir before operation after).KeepsIdentity packages root := by
  obtain ⟨path, frontmatter, body, writes, kept⟩ := applyOperation_ok done
  obtain ⟨fresh, meets, within⟩ := fits path frontmatter body writes
  have ids (other : TreePath) : documentId packages root after other =
      if other = path then renderedId packages root path frontmatter else documentId packages root before other :=
    documentId_after kept
  have apart : DistinctIds packages root after := by
    intro first second id front back
    rw [ids] at front back
    split at front
    · rename_i here
      split at back
      · rename_i there
        rw [here, there]
      · rw [here, fresh id front second back]
    · split at back
      · rename_i there
        rw [there, fresh id back first front]
      · exact distinct first second id front back
  refine ⟨apart, ?_, ?_, ?_⟩
  · intro copies
    have placed : ∃ place, documentId packages root after place = some operation.target := by
      rcases meets copies with shown | ⟨-, place, away, held⟩
      · refine ⟨path, ?_⟩
        rw [ids, if_pos rfl]
        exact shown
      · refine ⟨place, ?_⟩
        rw [ids, if_neg away]
        exact held
    obtain ⟨place, held⟩ := placed
    exact ⟨place, held, fun other also => apart other place _ also held⟩
  · intro artifact named modifies place away held _
    rw [← writes.placed named] at away
    have copies : operation.artifact.isSome = true := by
      rw [show operation.artifact = some artifact from named]
      rfl
    rcases meets copies with shown | ⟨adds, -⟩
    · exact away (fresh _ shown place held)
    · rw [show operation.modifies = true from modifies] at adds
      cases adds
  · intro other outside
    by_cases here : other = path
    · subst here
      rcases within with inside | same
      · rw [outside] at inside
        cases inside
      · rw [show before.content other = _ from same, ← Tree.content_of_files kept, Tree.content_write_self]
    · exact content_elsewhere kept here

/-- The steps of a delta keep the identities exactly if what they render fits, and then the ids are distinct at its end. -/
theorem trail_keepsIdentity_iff (distinct : DistinctIds packages root before)
    (done : applyOperations packages root changeDir operations before = .ok () after) :
    ((∀ step ∈ trail packages root changeDir operations before, step.KeepsIdentity packages root) ↔
      ∀ step ∈ trail packages root changeDir operations before, step.Fits packages root) ∧
    ((∀ step ∈ trail packages root changeDir operations before, step.KeepsIdentity packages root) →
      DistinctIds packages root after) := by
  induction operations generalizing before with
  | nil =>
    rw [← Outcome.forEach_nil_ok.mp done]
    exact ⟨by simp [trail], fun _ => distinct⟩
  | cons first rest ih =>
    obtain ⟨next, here, others⟩ := Outcome.forEach_cons_ok.mp done
    have shape : trail packages root changeDir (first :: rest) before =
        ⟨changeDir, before, first, next⟩ :: trail packages root changeDir rest next := by
      rw [trail, here]
    rw [shape]
    simp only [List.forall_mem_cons]
    refine ⟨⟨?_, ?_⟩, ?_⟩
    · rintro ⟨keeps, later⟩
      exact ⟨keeps.fits here, (ih keeps.distinct others).1.mp later⟩
    · rintro ⟨fits, later⟩
      have keeps := fits.keepsIdentity distinct here
      exact ⟨keeps, (ih keeps.distinct others).1.mpr later⟩
    · rintro ⟨keeps, later⟩
      exact (ih keeps.distinct others).2 later

theorem DistinctIds.congr (distinct : DistinctIds packages root before)
    (same : ∀ path, inProduct root path = true → after.content path = before.content path) :
    DistinctIds packages root after := by
  have ids (path : TreePath) (id : String) (held : documentId packages root after path = some id) :
      documentId packages root before path = some id := by
    rw [← documentId_congr (same path (documentId_product held))]
    exact held
  intro first second id front back
  exact distinct first second id (ids first id front) (ids second id back)

/-- Over a whole history, the identities of the baseline are kept exactly if every document rendered fits. -/
theorem history_keepsIdentity_iff (distinct : DistinctIds packages root start)
    (history : History packages root start steps final) :
    ((∀ step ∈ steps, step.KeepsIdentity packages root) ∧ DistinctIds packages root final) ↔
      ∀ step ∈ steps, step.Fits packages root := by
  have kept : ((∀ step ∈ steps, step.KeepsIdentity packages root) ↔ ∀ step ∈ steps, step.Fits packages root) ∧
      ((∀ step ∈ steps, step.KeepsIdentity packages root) → DistinctIds packages root final) := by
    induction history with
    | start => exact ⟨by simp, fun _ => distinct⟩
    | edited past outside ih => exact ⟨ih.1, fun keeps => (ih.2 keeps).congr outside⟩
    | called past done ih =>
      obtain ⟨-, applied⟩ := applyDeltaOperations_ok done
      simp only [List.forall_mem_append]
      refine ⟨⟨?_, ?_⟩, ?_⟩
      · rintro ⟨earlier, later⟩
        exact ⟨ih.1.mp earlier, (trail_keepsIdentity_iff (ih.2 earlier) applied).1.mp later⟩
      · rintro ⟨earlier, later⟩
        have keeps := ih.1.mpr earlier
        exact ⟨keeps, (trail_keepsIdentity_iff (ih.2 keeps) applied).1.mpr later⟩
      · rintro ⟨earlier, later⟩
        exact (trail_keepsIdentity_iff (ih.2 earlier) applied).2 later
  constructor
  · rintro ⟨keeps, -⟩
    exact kept.1.mp keeps
  · intro fits
    have keeps := kept.1.mpr fits
    exact ⟨keeps, kept.2 keeps⟩

end Identity

section Cases

def timeoutDocument : Frontmatter Empty :=
  { schema := "req/v1", id := "req-timeout", type := "req", title := "Timeout", product := "pilot", status := "new"
    change := "chg-2" }

def timeoutModified : DeltaOperation :=
  .modify { target := "req-timeout", artifact := "timeout.md", named := timeout_named, placed := timeout_placed }

def olderTimeout : Frontmatter Empty :=
  { schema := "req/v1", id := "req-timeout", type := "req", title := "Timeout", product := "pilot", status := "active"
    change := "chg-1" }

def revisedTree : Tree := proposalTree.write timeoutPath (.text (renderDocument plainYaml olderTimeout "Wait.".toList))

def modifiedTree : Tree :=
  match applyOperation plainYaml pilotRoot timeoutChange timeoutModified revisedTree with
  | .ok _ after | .error _ after => after

theorem timeout_modified :
    applyOperation plainYaml pilotRoot timeoutChange timeoutModified revisedTree = .ok () modifiedTree := by
  have ran : Outcome.succeeds (applyOperation plainYaml pilotRoot timeoutChange timeoutModified) revisedTree = true := by
    decide +kernel
  obtain ⟨_, after, done⟩ := Outcome.succeeds_iff.mp ran
  unfold modifiedTree
  simp only [done]

theorem revisedTree_distinct : DistinctIds plainYaml pilotRoot revisedTree := by
  apply DistinctIds.of_files
  decide +kernel

theorem revisedTree_scene : changeArtifact timeoutChange "timeout.md" revisedTree = .ok timeoutSource ∧
    revisedTree.readText timeoutSource = .ok timeoutText ∧
    readDocument plainYaml timeoutText = .ok (some timeoutDocument, "Expire.".toList) ∧
    renderedId plainYaml pilotRoot timeoutPath (withStatus timeoutDocument "active") = some "req-timeout" ∧
    documentId plainYaml pilotRoot revisedTree timeoutPath = some "req-timeout" := by
  decide +kernel

theorem modifiedTree_scene : findBaselineDoc plainYaml pilotRoot "req-legacy" modifiedTree = .ok legacyPath ∧
    documentAt plainYaml modifiedTree legacyPath = .ok (some legacyDocument, "\nOld.".toList) ∧
    renderedId plainYaml pilotRoot legacyPath (withStatus legacyDocument "retired") = some "req-legacy" ∧
    documentId plainYaml pilotRoot modifiedTree legacyPath = some "req-legacy" ∧
    Outcome.succeeds (applyOperation plainYaml pilotRoot timeoutChange legacyRetired) modifiedTree = true := by
  decide +kernel

/-- The proposed version takes the place of the older one, which alone has its id. -/
theorem timeout_fits : Applied.Fits plainYaml pilotRoot ⟨timeoutChange, revisedTree, timeoutModified, modifiedTree⟩ := by
  obtain ⟨located, read, parsed, rendered, held⟩ := revisedTree_scene
  intro path frontmatter body writes
  obtain ⟨rfl, rfl, -⟩ := writes.of_copy rfl located read parsed
  refine ⟨fun id own other same => ?_, fun _ => Or.inl rendered, Or.inl (by decide)⟩
  obtain rfl : "req-timeout" = id := Option.some.inj (rendered.symm.trans own)
  exact revisedTree_distinct other timeoutPath "req-timeout" same held

/-- A document that is withdrawn keeps its id. -/
theorem legacy_fits {after : Tree} :
    Applied.Fits plainYaml pilotRoot ⟨timeoutChange, modifiedTree, legacyRetired, after⟩ := by
  obtain ⟨located, document, rendered, held, -⟩ := modifiedTree_scene
  obtain ⟨text, read, parsed⟩ := Outcome.bind_ok.mp document
  have distinct := (timeout_fits.keepsIdentity revisedTree_distinct timeout_modified).distinct
  intro path frontmatter body writes
  obtain ⟨rfl, rfl, -⟩ := writes.of_withdrawal rfl located read parsed
  refine ⟨fun id own other same => ?_, nofun, Or.inl (by decide)⟩
  obtain rfl : "req-legacy" = id := Option.some.inj (rendered.symm.trans own)
  exact distinct other legacyPath "req-legacy" same held

end Cases

/-- A modification in place and a retirement keep the identities of two documents. -/
theorem revised_baseline_identified : ∃ steps final, History plainYaml pilotRoot revisedTree steps final ∧
    steps.map (·.operation) = [timeoutModified, legacyRetired] ∧
    (∀ step ∈ steps, step.KeepsIdentity plainYaml pilotRoot) ∧ DistinctIds plainYaml pilotRoot final := by
  obtain ⟨-, -, -, -, succeeds⟩ := modifiedTree_scene
  obtain ⟨_, final, withdrawn⟩ := Outcome.succeeds_iff.mp succeeds
  have applied : applyOperations plainYaml pilotRoot timeoutChange [timeoutModified, legacyRetired] revisedTree = .ok () final :=
    Outcome.forEach_cons_ok.mpr ⟨modifiedTree, timeout_modified,
      Outcome.forEach_cons_ok.mpr ⟨final, withdrawn, Outcome.forEach_nil_ok.mpr rfl⟩⟩
  have named : "chg-2" ≠ "" := by decide
  obtain ⟨result, done⟩ := applyDeltaOperations_done named applied
  have shape : trail plainYaml pilotRoot timeoutChange [timeoutModified, legacyRetired] revisedTree =
      [⟨timeoutChange, revisedTree, timeoutModified, modifiedTree⟩, ⟨timeoutChange, modifiedTree, legacyRetired, final⟩] := by
    simp only [trail, timeout_modified, withdrawn]
  have history := History.called History.start done
  rw [shape] at history
  refine ⟨_, final, history, rfl, (history_keepsIdentity_iff revisedTree_distinct history).mpr ?_⟩
  intro step member
  rw [List.nil_append, List.mem_cons, List.mem_singleton] at member
  rcases member with rfl | rfl
  · exact timeout_fits
  · exact legacy_fits

section Cases

def expiryPath : TreePath := pilotRoot ++ ["product", "expiry.md"]

def renamedTree : Tree := proposedTree.write expiryPath (.text (renderDocument plainYaml timeoutDocument "Old.".toList))

def leavesTwoVersions : Bool :=
  match applyOperations plainYaml pilotRoot timeoutChange [timeoutModified] renamedTree with
  | .ok _ after =>
    documentId plainYaml pilotRoot after timeoutPath = some "req-timeout" &&
      documentId plainYaml pilotRoot after expiryPath = some "req-timeout"
  | .error _ _ => false

theorem modification_leaves_two_versions : leavesTwoVersions = true := by decide +kernel

theorem renamed_distinct : DistinctIds plainYaml pilotRoot renamedTree := by
  apply DistinctIds.of_files
  decide +kernel

end Cases

/-- A document that is modified at another path is in the baseline twice. -/
theorem modified_document_duplicated : ∃ steps final, DistinctIds plainYaml pilotRoot renamedTree ∧
    History plainYaml pilotRoot renamedTree steps final ∧ ¬ DistinctIds plainYaml pilotRoot final := by
  have ran := modification_leaves_two_versions
  unfold leavesTwoVersions at ran
  split at ran
  · rename_i after applied
    obtain ⟨front, back⟩ := Bool.and_eq_true_iff.mp ran
    have named : "chg-2" ≠ "" := by decide
    obtain ⟨result, done⟩ := applyDeltaOperations_done named applied
    refine ⟨_, after, renamed_distinct, History.called History.start done, ?_⟩
    intro distinct
    have same := distinct timeoutPath expiryPath _ (of_decide_eq_true front) (of_decide_eq_true back)
    revert same
    decide
  · cases ran

end DarkFactory
