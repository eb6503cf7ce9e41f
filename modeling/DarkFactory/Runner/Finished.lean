import DarkFactory.Runner.Scripts

namespace DarkFactory

structure Finished (store : Store) : Prop where
  wellFormed : WellFormed store
  clean : ∀ id execution, store.execution id = some execution → execution.status = .succeeded →
    ∀ row ∈ store.results, row.runId = id → row.payload.clean = true

def newResults (before after : Store) : List StageResult :=
  (after.results.filter fun row => !decide (row ∈ before.results)).map (·.payload)

def committedAlong (store : Store) : List Drive → List StageResult
  | [] => []
  | drive :: rest =>
    let after := afterDrive store drive
    newResults store after ++ committedAlong after rest

def committedOf (runId : String) (drives : List Drive) : List StageResult :=
  (committedAlong {} drives).filter (·.runId = runId)

/-- An item that would hold completion back and that no later result resolves or replaces. -/
def StageResult.forgotten (result : StageResult) (later : List StageResult) : Bool :=
  (result.evidence.any fun item => item.missing &&
      later.all fun other => other.evidence.all fun held => held.id ≠ item.id || held.missing) ||
    result.findings.any fun finding => finding.openBlocker &&
      later.all fun other => other.findings.all fun held => held.id ≠ finding.id || held.openBlocker

def forgetful : List StageResult → Bool
  | [] => false
  | result :: later => result.forgotten later || forgetful later

def Drive.resolvesClean (store : Store) : Drive → Prop
  | .create _ => True
  | .advance input => ((attempted input store).bind Attempted.checkpoint).all StageResult.clean = true

theorem forgotten_clean {result : StageResult} (clean : result.clean = true) (later : List StageResult) :
    result.forgotten later = false := by
  simp only [StageResult.clean, Bool.and_eq_true, Bool.not_eq_true', List.any_eq_false] at clean
  simp only [StageResult.forgotten, Bool.or_eq_false_iff, List.any_eq_false, Bool.and_eq_true, not_and]
  exact ⟨fun item member missing => absurd missing (clean.1 item member),
    fun finding member blocker => absurd blocker (clean.2 finding member)⟩

theorem forgetful_clean {results : List StageResult} (clean : ∀ result ∈ results, result.clean = true) :
    forgetful results = false := by
  induction results with
  | nil => rfl
  | cons result later ih =>
    rw [List.forall_mem_cons] at clean
    rw [forgetful, forgotten_clean clean.1 later, ih clean.2]
    rfl

section Effect

variable {input : AdvanceInput} {before after : Store} {attempt : Attempted} {row : StageRow} {reached : Verdict}

theorem AdvanceEffect.replaces (effect : AdvanceEffect input before after attempt row reached)
    (wf : WellFormed before) {held : StageResultRow} (member : held ∈ before.results)
    (same : held.id = (resultRow attempt.result).id) : attempt.checkpoint = some held.payload := by
  have free := effect.runId_free wf
  rw [effect.answers.rowId] at same
  have answers := (wf.resultsSound held member).answers free same
  have committed := wf.committed_of_row member answers
  obtain ⟨run, stage, loaded, -, current, plans⟩ := attempted_some effect.plan
  rw [effect.loaded, Option.some.injEq] at loaded
  subst loaded
  rw [effect.current, Option.some.injEq] at current
  subst current
  obtain ⟨execution, -, runId, -⟩ := load_some effect.loaded
  have pinned : pinnedRevision input attempt.run attempt.stage = attempt.inputRevision := by
    rw [effect.revision, pinnedRevision, effect.flight]
    rfl
  rw [runId, ← effect.number, pinned, committed] at plans
  rcases plans with ⟨absent, -⟩ | ⟨checkpoint, there, plan⟩
  · cases absent
  · obtain ⟨first, resolver, resolution, -, -, -, made⟩ := resumed_some plan
    rw [made, there]

theorem AdvanceEffect.result_kept (effect : AdvanceEffect input before after attempt row reached)
    (wf : WellFormed before) {held : StageResultRow} (member : held ∈ before.results) :
    held ∈ after.results ∨ attempt.checkpoint = some held.payload := by
  by_cases same : held.id = (resultRow attempt.result).id
  · exact Or.inr (effect.replaces wf member same)
  · exact Or.inl ((effect.results wf held).mpr (Or.inl ⟨member, same⟩))

theorem AdvanceEffect.completes (effect : AdvanceEffect input before after attempt row reached)
    (wf : WellFormed before) (succeeded : reached.runStatus = .succeeded) {held : StageResultRow}
    (member : held ∈ after.results) (owner : held.runId = input.runId) : held.payload.clean = true := by
  obtain ⟨-, -, -, clean⟩ := effect.reaches.succeeded succeeded
  rcases (effect.results wf held).mp member with ⟨listed, -⟩ | rfl
  · exact clean _ (List.mem_append_left _ (mem_loadHistory.mpr ⟨held, listed, owner, rfl⟩))
  · exact clean _ (List.mem_append_right _ (List.mem_singleton.mpr rfl))

theorem AdvanceEffect.finished (effect : AdvanceEffect input before after attempt row reached)
    (finished : Finished before) : Finished after := by
  have wf := finished.wellFormed
  refine ⟨effect.wellFormed wf, ?_⟩
  intro id execution found succeeded held member owner
  rcases effect.execution_cases found with ⟨rfl, status⟩ | ⟨own, kept⟩
  · exact effect.completes wf (status.symm.trans succeeded) member owner
  · rcases (effect.results wf held).mp member with ⟨listed, -⟩ | rfl
    · exact finished.clean id execution kept succeeded held listed owner
    · exact absurd (owner.symm.trans effect.answers.runId_eq) own

end Effect

theorem afterDrive_finished {before : Store} (drive : Drive) (finished : Finished before)
    (faithful : drive.faithful) : Finished (afterDrive before drive) := by
  have wf := finished.wellFormed
  rcases afterDrive_cases wf drive faithful with frame | ⟨input, -, effect⟩ |
    ⟨input, report, attempt, row, reached, -, -, effect, -⟩
  · refine ⟨frame.wellFormed wf, ?_⟩
    rw [frame.results]
    simp only [Store.execution, frame.executions]
    exact finished.clean
  · refine ⟨effect.wellFormed, ?_⟩
    intro id execution found succeeded
    rw [effect.results]
    rcases effect.execution_cases found with pending | old
    · rw [pending] at succeeded
      cases succeeded
    · exact finished.clean id execution old succeeded
  · exact effect.finished finished

theorem afterDrive_keeps {before : Store} (wf : WellFormed before) (drive : Drive) (faithful : drive.faithful)
    (resolves : drive.resolvesClean before) {held : StageResultRow} (member : held ∈ before.results) :
    held ∈ (afterDrive before drive).results ∨ held.payload.clean = true := by
  rcases afterDrive_cases wf drive faithful with frame | ⟨input, -, effect⟩ |
    ⟨input, report, attempt, row, reached, rfl, -, effect, -⟩
  · rw [frame.results]
    exact Or.inl member
  · rw [effect.results]
    exact Or.inl member
  · rcases effect.result_kept wf member with kept | checkpoint
    · exact Or.inl kept
    · rw [Drive.resolvesClean, effect.plan, Option.bind_some, checkpoint, Option.all_some] at resolves
      exact Or.inr resolves

section Runs

variable {store : Store} {drives : List Drive}

theorem kept_along (wf : WellFormed store)
    (along : Trace.Along afterDrive (fun store drive => drive.faithful ∧ drive.resolvesClean store) store drives)
    {held : StageResultRow} (member : held ∈ store.results) :
    held ∈ (drives.foldl afterDrive store).results ∨ held.payload.clean = true := by
  have step (s : Store) (drive : Drive)
      (carried : WellFormed s ∧ (held ∈ s.results ∨ held.payload.clean = true))
      (met : drive.faithful ∧ drive.resolvesClean s) :
      WellFormed (afterDrive s drive) ∧
        (held ∈ (afterDrive s drive).results ∨ held.payload.clean = true) := by
    obtain ⟨sound, here | clean⟩ := carried
    · exact ⟨afterDrive_wellFormed sound drive met.1, afterDrive_keeps sound drive met.1 met.2 here⟩
    · exact ⟨afterDrive_wellFormed sound drive met.1, Or.inr clean⟩
  exact (Trace.invariant step ⟨wf, Or.inl member⟩ along).2

theorem committed_kept (wf : WellFormed store)
    (along : Trace.Along afterDrive (fun store drive => drive.faithful ∧ drive.resolvesClean store) store drives)
    {result : StageResult} (committed : result ∈ committedAlong store drives) :
    (∃ row ∈ (drives.foldl afterDrive store).results, row.payload = result) ∨ result.clean = true := by
  induction drives generalizing store with
  | nil => cases committed
  | cons drive rest ih =>
    have sound := afterDrive_wellFormed wf drive along.1.1
    rcases List.mem_append.mp committed with first | later
    · obtain ⟨row, listed, rfl⟩ := List.mem_map.mp first
      rcases kept_along sound along.2 (List.mem_filter.mp listed).1 with kept | clean
      · exact Or.inl ⟨row, kept, rfl⟩
      · exact Or.inr clean
    · exact ih sound along.2 later

end Runs

theorem driven_finished {drives : List Drive}
    (along : Trace.Along afterDrive (fun _ drive => drive.faithful) {} drives) : Finished (driven drives) :=
  Trace.invariant (fun _ drive held met => afterDrive_finished drive held met)
    ⟨WellFormed.empty, by simp [Store.execution, Table.find]⟩ along

/-- A run that resolves clean checkpoints alone and succeeds has forgotten nothing: no result it ever
    committed left an item open that a later one did not answer. -/
theorem completion_forgets_nothing {drives : List Drive}
    (along : Trace.Along afterDrive (fun store drive => drive.faithful ∧ drive.resolvesClean store) {} drives)
    {runId : String} {execution : Execution} (found : (driven drives).execution runId = some execution)
    (succeeded : execution.status = .succeeded) : forgetful (committedOf runId drives) = false := by
  have finished := driven_finished (along.mono fun _ _ met => met.1)
  apply forgetful_clean
  intro result listed
  obtain ⟨committed, own⟩ := List.mem_filter.mp listed
  rcases committed_kept WellFormed.empty along committed with ⟨row, member, rfl⟩ | clean
  · refine finished.clean runId execution found succeeded row member ?_
    rw [(finished.wellFormed.resultsSound row member).columns]
    simpa [resultRow] using own
  · exact clean

theorem resolvesClean_without_facts {input : AdvanceInput} (unobserved : input.facts = {}) (store : Store) :
    (Drive.advance input).resolvesClean store := by
  rw [Drive.resolvesClean]
  cases planned : attempted input store with
  | none => rfl
  | some attempt =>
    obtain ⟨run, stage, plan⟩ := attempted_without_facts unobserved planned
    obtain ⟨result, -, made⟩ := executed_some plan
    rw [Option.bind_some, made]
    rfl

def parkedConstruction (findings : List Finding) : List Drive :=
  [.create quickRun,
    .advance (scripted quickRun.runId 1 "c1"
      { status := .succeeded, nextAction := .executeStage .planning none
        gateResults := [Gate.passed .specification] }),
    .advance (scripted quickRun.runId 2 "c2"
      { status := .succeeded, nextAction := .executeStage .construction none
        gateResults := [Gate.passed .planning] }),
    .advance (scripted quickRun.runId 3 "c3"
      { status := .waiting, nextAction := .waitForCi "waiting for the pipeline" none, findings })]

def greenPipeline : WaitFacts :=
  { gate := some fun _ _ _ => some { headSha := some "c2", merged := false, pipelineStatus := some .success } }

def pipelineResolved : AdvanceInput :=
  { scripted quickRun.runId 4 "c3" { status := .failed, nextAction := .stop .failed "no attempt is open" } with
    facts := greenPipeline, leasedFacts := greenPipeline }

def openBlocker : Finding := { id := "finding-1", origin := .agent, severity := .blocker, status := .open }

def quickResolved (findings : List Finding) : List Drive :=
  parkedConstruction findings ++ [.advance pipelineResolved, .advance quickMerge, .advance quickRelease]

theorem quickResolved_faithful (findings : List Finding) : ∀ drive ∈ quickResolved findings, drive.faithful := by
  simp only [quickResolved, parkedConstruction, List.cons_append, List.nil_append, List.forall_mem_cons,
    List.not_mem_nil, false_implies, implies_true, and_true]
  exact ⟨trivial, scripted_faithful _ _ _ _, scripted_faithful _ _ _ _, scripted_faithful _ _ _ _,
    scripted_faithful quickRun.runId 4 "c3" _, scripted_faithful quickRun.runId 4 "c4" _,
    scripted_faithful _ _ _ _⟩

theorem quick_run_forgets_nothing :
    ((driven (quickResolved [])).execution quickRun.runId).map (·.status) = some .succeeded ∧
      forgetful (committedOf quickRun.runId (quickResolved [])) = false := by
  obtain ⟨done, resolved⟩ :
      ((driven (quickResolved [])).execution quickRun.runId).map (·.status) = some .succeeded ∧
        ((attempted pipelineResolved (driven (parkedConstruction []))).bind Attempted.checkpoint).all
          StageResult.clean = true := by decide +kernel
  have faithful := quickResolved_faithful []
  have along : Trace.Along afterDrive (fun store drive => drive.faithful ∧ drive.resolvesClean store) {}
      (quickResolved []) := by
    unfold quickResolved at faithful ⊢
    rw [List.forall_mem_append, List.forall_mem_cons] at faithful
    obtain ⟨parked, resolving, rest⟩ := faithful
    refine Trace.along_append.mpr ⟨Trace.along_of_forall ?_, ⟨resolving, resolved⟩, Trace.along_of_forall ?_⟩
    · intro drive member store
      refine ⟨parked drive member, ?_⟩
      simp only [parkedConstruction, List.mem_cons, List.not_mem_nil, or_false] at member
      rcases member with rfl | rfl | rfl | rfl
      · trivial
      all_goals exact resolvesClean_without_facts rfl store
    · intro drive member store
      refine ⟨rest drive member, ?_⟩
      simp only [List.mem_cons, List.not_mem_nil, or_false] at member
      rcases member with rfl | rfl <;> exact resolvesClean_without_facts rfl store
  obtain ⟨execution, found, succeeded⟩ := Option.map_eq_some_iff.mp done
  exact ⟨done, completion_forgets_nothing along found succeeded⟩

/-- An open blocker of a checkpoint is gone once its wait resolves, and the run succeeds. -/
theorem resolved_blocker_forgotten :
    (∀ drive ∈ quickResolved [openBlocker], drive.faithful) ∧
      ((driven (quickResolved [openBlocker])).execution quickRun.runId).map (·.status) = some .succeeded ∧
      forgetful (committedOf quickRun.runId (quickResolved [openBlocker])) = true :=
  ⟨quickResolved_faithful _, by decide +kernel⟩

end DarkFactory
