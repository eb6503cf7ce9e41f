import DarkFactory.Runner.Settle

namespace DarkFactory

theorem applyTo_ok {run after : ChangeRun} {result : StageResult} {history : List StageResult}
    {now : Timestamp} {context : Option MergeRequestContext} {decisions : List Decision}
    {decision : FlowDecision} {store final : Store}
    (done : applyTo run result history now context decisions store = .ok (decision, after) final) :
    applyResult result history now context decisions run = .ok decision after ∧ final = store := by
  unfold applyTo at done
  cases applied : applyResult result history now context decisions run with
  | error failure partway => simp [applied] at done
  | ok decided moved =>
    simp only [applied, EStateM.Result.ok.injEq, Prod.mk.injEq] at done
    obtain ⟨⟨rfl, rfl⟩, rfl⟩ := done
    exact ⟨rfl, rfl⟩

theorem advanceableRun_ok {runId : String} {store after : Store} {run : ChangeRun}
    (done : advanceableRun runId store = .ok run after) :
    after = store ∧ store.load runId = some run ∧ runTerminal run.status = false := by
  rw [advanceableRun, Outcome.state_get_bind] at done
  cases loaded : store.load runId with
  | none =>
    simp only [loaded] at done
    exact absurd done (by simp [Outcome.state_throw_ok])
  | some found =>
    simp only [loaded] at done
    by_cases terminal : runTerminal found.status = true
    · rw [if_pos terminal] at done
      exact absurd done (by simp [Outcome.state_throw_ok])
    · rw [if_neg terminal] at done
      obtain ⟨rfl, rfl⟩ := Outcome.state_pure_ok.mp done
      exact ⟨rfl, rfl, by simpa using terminal⟩

theorem nextStageToExecute_ok {run : ChangeRun} {store after : Store} {stage : Stage}
    (done : nextStageToExecute run store = .ok stage after) : after = store ∧ nextStage run = some stage := by
  unfold nextStageToExecute at done
  cases next : nextStage run with
  | none =>
    simp only [next] at done
    exact absurd done (by simp [Outcome.state_throw_ok])
  | some found =>
    simp only [next] at done
    obtain ⟨rfl, rfl⟩ := Outcome.state_pure_ok.mp done
    exact ⟨rfl, rfl⟩

theorem loadHistory_congr {store other : Store} (same : other.results = store.results) (runId : String) :
    other.loadHistory runId = store.loadHistory runId := by
  simp only [Store.loadHistory, same]

section Paths

variable {input : AdvanceInput} {before leased after : Store} {run : ChangeRun} {stage : Stage}
  {report : RunAdvance} {token : Nat}

theorem WellFormed.runId_free (wf : WellFormed before) (loaded : before.load input.runId = some run) :
    ColonFree input.runId := by
  obtain ⟨execution, found, -⟩ := load_some loaded
  obtain ⟨member, same⟩ := Table.find_some found
  rw [← same]
  exact wf.executionIds execution member

theorem WaitResolver.resolve_answers {resolver : WaitResolver} {checkpoint : StageResult}
    {facts : WaitFacts} {change : Change} (attempt : WaitingAttempt) {history : List StageResult}
    {resolution : WaitResolution}
    (waits : resolvedWait checkpoint run stage change facts = some resolver)
    (held : Answers run.id stage attempt.attemptNumber attempt.inputRevision checkpoint)
    (resolved : resolver.resolve (moveRun .running run) stage change attempt history = .ok resolution) :
    Answers run.id stage attempt.attemptNumber attempt.inputRevision resolution.result ∧
      resolution.result.status ≠ .waiting ∧ checkpoint.status = .waiting := by
  unfold resolvedWait at waits
  by_cases settled : checkpoint.status ≠ .waiting
  · rw [if_pos settled] at waits
    cases waits
  rw [if_neg settled] at waits
  have checkpointWaits := not_not.mp settled
  by_cases release : stage = .release
  · rw [if_pos release] at waits
    dsimp only at waits
    by_cases ready : releaseResolved (facts.release.bind fun observe => observe run stage change) = true
    · rw [if_pos ready] at waits
      obtain ⟨observation, -, rfl⟩ := Option.map_eq_some_iff.mp waits
      obtain ⟨result, built, made⟩ := Outcome.bind_ok.mp resolved
      cases Outcome.pure_ok.mp made
      obtain ⟨stages, runs, numbers, revisions, final⟩ := buildReleaseResolution_ok built
      exact ⟨⟨runs.trans held.runId_eq, stages.trans held.stage_eq, numbers.trans held.attemptNumber_eq,
        revisions.trans held.inputRevision_eq⟩, final, checkpointWaits⟩
    · rw [if_neg ready] at waits
      cases waits
  · rw [if_neg release] at waits
    dsimp only at waits
    by_cases ready : gateResolved (facts.gate.bind fun observe => observe run stage change) stage run.route
        (riskClassOf run) = true
    · rw [if_pos ready] at waits
      obtain ⟨observation, -, rfl⟩ := Option.map_eq_some_iff.mp waits
      obtain ⟨gates, built, made⟩ := Outcome.bind_ok.mp resolved
      cases Outcome.pure_ok.mp made
      obtain ⟨stages, runs, numbers, revisions, final⟩ := buildGateResolution_completes built
      exact ⟨⟨runs.trans (moveRun_id _ _), stages, numbers, revisions⟩, final, checkpointWaits⟩
    · rw [if_neg ready] at waits
      cases waits

theorem attempted_planned {attempt : Attempted} (wf : WellFormed before) (faithful : Faithful input)
    (plan : attempted input before = some attempt) : ∃ row, Planned input before attempt row := by
  obtain ⟨run, stage, loaded, live, current, plans⟩ := attempted_some plan
  have runId : run.id = input.runId := (load_some loaded).choose_spec.2.1
  obtain ⟨stageRun, flight⟩ := inFlight_some (nextStage_eq_some.mp current).1
  obtain ⟨row, member, owner, own, active, rfl⟩ := inFlight_row loaded flight
  refine ⟨row, ?_⟩
  rcases plans with ⟨absent, executes⟩ | ⟨checkpoint, committed, resumes⟩
  · obtain ⟨result, answer, rfl⟩ := executed_some executes
    have identity := faithful _ _ answer
    have answers : Answers input.runId stage (attemptNumberOf run stage) (pinnedRevision input run stage) result :=
      ⟨identity.1.trans ((moveRun_id _ _).trans runId), identity.2.1, identity.2.2.1, identity.2.2.2⟩
    refine ⟨plan, loaded, live, current, flight, member, owner, own, active, rfl, pinnedRevision_row flight,
      answers, ?_⟩
    intro noted replayed
    obtain ⟨held, found, -⟩ := (recordOutcome_ok replayed).2
    rw [answers.rowId, wf.uncommitted (wf.runId_free loaded) (by rw [← runId]; exact absent)] at found
    cases found
  · obtain ⟨first, resolver, resolution, -, waits, resolved, rfl⟩ := resumed_some resumes
    obtain ⟨held, present, payload, sound, holds⟩ := wf.committed_row committed
    obtain ⟨answers, settled, waiting⟩ := WaitResolver.resolve_answers
      ⟨attemptNumberOf run stage, pinnedRevision input run stage, input.now⟩ waits holds resolved
    rw [runId] at answers
    refine ⟨plan, loaded, live, current, flight, member, owner, own, active, rfl, pinnedRevision_row flight,
      answers, ?_⟩
    intro noted replayed
    obtain ⟨found, located, unchanged⟩ := (recordOutcome_ok replayed).2
    have rowId : held.id = attemptId (operationKey input.runId stage (pinnedRevision input run stage))
        (attemptNumberOf run stage) := by
      rw [sound.columns, payload, ← runId]
      exact holds.rowId
    rw [answers.rowId, ← rowId, wf.resultsUnique.find present] at located
    cases located
    rcases unchanged with waits | final
    · exact settled waits
    · rw [sound.columns, payload] at final
      exact final waiting

theorem execute_ok (wf : WellFormed before) (faithful : Faithful input)
    (acquired : acquire leaseResourceType run.id input.ownerId input.leaseTtl input.leasedAt before = .ok token leased)
    (loaded : before.load input.runId = some run) (live : runTerminal run.status = false)
    (current : nextStage run = some stage)
    (absent : before.committedResult run.id stage (attemptNumberOf run stage) (pinnedRevision input run stage) =
      none)
    (done : execute input (leasedIdentity input run stage token) leased = .ok report after) :
    ∃ attempt row trace, AdvanceSteps input before after report attempt row trace := by
  have runId : run.id = input.runId := (load_some loaded).choose_spec.2.1
  obtain ⟨opened, opening, opens, rest⟩ := Outcome.state_bind_ok.mp done
  obtain ⟨result, same, executing, rest⟩ := Outcome.state_bind_ok.mp rest
  obtain ⟨answer, rfl⟩ := Outcome.lift_ok.mp executing
  rw [Outcome.state_get_bind] at rest
  obtain ⟨⟨decision, final⟩, kept, applying, persists⟩ := Outcome.state_bind_ok.mp rest
  obtain ⟨applied, keptEq⟩ := applyTo_ok applying
  rw [keptEq] at persists
  obtain ⟨openedRun, results, -⟩ := openIdentity_frame opens
  rw [openedRun] at answer applied
  rw [loadHistory_congr (results.trans (acquire_frame acquired).results),
    show (leasedIdentity input run stage token).run.id = input.runId from runId] at applied
  let attempt : Attempted :=
    { run, stage, attemptNumber := attemptNumberOf run stage, inputRevision := pinnedRevision input run stage
      result, mergeContext := input.mergeContext, humanDecisions := input.humanDecisions, checkpoint := none }
  have plan : attempted input before = some attempt := by
    have produced : input.executor (buildContext input (moveRun .running run) stage
        (attemptNumberOf run stage) (pinnedRevision input run stage)) = .ok result := answer
    simp only [attempted, loaded, live, current, absent, executed, produced, Bool.false_eq_true, ↓reduceIte]
    rfl
  obtain ⟨row, planned⟩ := attempted_planned wf faithful plan
  exact ⟨attempt, row, ⟨token, leased, opened, opening, decision, final⟩, ⟨planned, acquired, opens, applied⟩,
    persists⟩

theorem resume_ok {checkpoint : StageResult} {resolver first : WaitResolver} (wf : WellFormed before)
    (faithful : Faithful input)
    (acquired : acquire leaseResourceType run.id input.ownerId input.leaseTtl input.leasedAt before = .ok token leased)
    (loaded : before.load input.runId = some run) (live : runTerminal run.status = false)
    (current : nextStage run = some stage)
    (committed : before.committedResult run.id stage (attemptNumberOf run stage)
      (pinnedRevision input run stage) = some checkpoint)
    (early : resolvedWait checkpoint run stage input.change input.facts = some first)
    (waits : resolvedWait checkpoint run stage input.change input.leasedFacts = some resolver)
    (done : resume input (leasedIdentity input run stage token) resolver leased = .ok report after) :
    ∃ attempt row trace, AdvanceSteps input before after report attempt row trace := by
  have runId : run.id = input.runId := (load_some loaded).choose_spec.2.1
  obtain ⟨opened, opening, opens, rest⟩ := Outcome.state_bind_ok.mp done
  obtain ⟨openedRun, results, -⟩ := openIdentity_frame opens
  rw [Outcome.state_get_bind] at rest
  dsimp only at rest
  rw [openedRun, loadHistory_congr (results.trans (acquire_frame acquired).results)] at rest
  obtain ⟨resolution, same, resolving, rest⟩ := Outcome.state_bind_ok.mp rest
  obtain ⟨resolved, rfl⟩ := Outcome.lift_ok.mp resolving
  obtain ⟨⟨decision, final⟩, kept, applying, persists⟩ := Outcome.state_bind_ok.mp rest
  obtain ⟨applied, keptEq⟩ := applyTo_ok applying
  rw [keptEq] at persists
  rw [show (leasedIdentity input run stage token).run.id = input.runId from runId] at applied
  let attempt : Attempted :=
    { run, stage, attemptNumber := attemptNumberOf run stage, inputRevision := pinnedRevision input run stage
      result := resolution.result, mergeContext := resolution.mergeContext.or input.mergeContext
      humanDecisions := input.humanDecisions ++ resolution.approvals, checkpoint := some checkpoint }
  have plan : attempted input before = some attempt := by
    have produced : resolver.resolve (moveRun .running run) stage input.change
        ⟨attemptNumberOf run stage, pinnedRevision input run stage, input.now⟩ (before.loadHistory run.id) =
          .ok resolution := resolved
    simp only [attempted, loaded, live, current, committed, resumed, early, waits, produced,
      Bool.false_eq_true, ↓reduceIte]
    rfl
  obtain ⟨row, planned⟩ := attempted_planned wf faithful plan
  exact ⟨attempt, row, ⟨token, leased, opened, opening, decision, final⟩, ⟨planned, acquired, opens, applied⟩,
    persists⟩

end Paths

/-- An advance replays a committed result, before the lease or under it, or goes through the steps of one
    decision. -/
theorem advanceRun_steps {input : AdvanceInput} {before after : Store} {report : RunAdvance}
    (wf : WellFormed before) (faithful : Faithful input)
    (done : advanceRun input before = .ok report after) :
    (report.decision = none ∧ (after = before ∨ ∃ token leased released,
        acquire leaseResourceType input.runId input.ownerId input.leaseTtl input.leasedAt before =
          .ok token leased ∧
        release leaseResourceType input.runId input.ownerId token leased = .ok released after)) ∨
      ∃ attempt row trace, AdvanceSteps input before after report attempt row trace := by
  obtain ⟨run, first, loading, driven⟩ := Outcome.state_bind_ok.mp done
  obtain ⟨rfl, loaded, live⟩ := advanceableRun_ok loading
  have runId : run.id = input.runId := (load_some loaded).choose_spec.2.1
  obtain ⟨stage, second, choosing, rest⟩ := Outcome.state_bind_ok.mp driven
  obtain ⟨rfl, current⟩ := nextStageToExecute_ok choosing
  rw [Outcome.state_get_bind] at rest
  cases early : (second.committedResult run.id stage (attemptNumberOf run stage)
      (pinnedRevision input run stage)).filter
        fun result => (resolvedWait result run stage input.change input.facts).isNone with
  | some result =>
    simp only [early] at rest
    obtain ⟨rfl, rfl⟩ := Outcome.state_pure_ok.mp rest
    exact Or.inl ⟨rfl, Or.inl rfl⟩
  | none =>
    simp only [early] at rest
    unfold advanceLeased at rest
    obtain ⟨token, leased, acquired, held⟩ := Outcome.state_bind_ok.mp rest
    have leasedEq := (acquire_ok acquired).2.2
    obtain ⟨again, third, reloading, derived⟩ := Outcome.state_bind_ok.mp held
    obtain ⟨rfl, reloaded, -⟩ := advanceableRun_ok reloading
    have same : again = run := by
      rw [show third.load input.runId = second.load input.runId by rw [leasedEq]; rfl, loaded] at reloaded
      exact (Option.some.inj reloaded).symm
    subst same
    obtain ⟨chosen, fourth, rechoosing, attempts⟩ := Outcome.state_bind_ok.mp derived
    obtain ⟨rfl, rechosen⟩ := nextStageToExecute_ok rechoosing
    rw [current, Option.some.injEq] at rechosen
    subst rechosen
    rw [Outcome.state_get_bind] at attempts
    have committedSame : fourth.committedResult again.id stage (attemptNumberOf again stage)
        (pinnedRevision input again stage) = second.committedResult again.id stage
          (attemptNumberOf again stage) (pinnedRevision input again stage) := by
      rw [leasedEq]
      rfl
    rw [committedSame] at attempts
    cases committed : second.committedResult again.id stage (attemptNumberOf again stage)
        (pinnedRevision input again stage) with
    | none =>
      simp only [committed] at attempts
      exact Or.inr (execute_ok wf faithful acquired loaded live current committed attempts)
    | some checkpoint =>
      simp only [committed] at attempts
      cases waits : resolvedWait checkpoint again stage input.change input.leasedFacts with
      | some resolver =>
        simp only [waits] at attempts
        rw [committed, Option.filter_some] at early
        cases first : resolvedWait checkpoint again stage input.change input.facts with
        | none => simp [first] at early
        | some observed =>
          exact Or.inr (resume_ok wf faithful acquired loaded live current committed first waits attempts)
      | none =>
        simp only [waits] at attempts
        obtain ⟨released, freed, releasing, returned⟩ := Outcome.state_bind_ok.mp attempts
        obtain ⟨rfl, rfl⟩ := Outcome.state_pure_ok.mp returned
        rw [runId] at acquired releasing
        exact Or.inl ⟨rfl, Or.inr ⟨token, fourth, released, acquired, releasing⟩⟩

/-- An advance either leaves the tables of the flow alone, or has the effect of one decision. -/
theorem advanceRun_ok {input : AdvanceInput} {before after : Store} {report : RunAdvance}
    (wf : WellFormed before) (faithful : Faithful input)
    (done : advanceRun input before = .ok report after) :
    (report.decision = none ∧ Untouched before after) ∨
      ∃ attempt row reached, AdvanceEffect input before after attempt row reached ∧
        report.decision = some (reached.decision attempt.stage) ∧ report.stage = attempt.stage := by
  rcases advanceRun_steps wf faithful done with ⟨replayed, frame⟩ | ⟨attempt, row, trace, steps⟩
  · refine Or.inl ⟨replayed, ?_⟩
    rcases frame with rfl | ⟨token, leased, released, acquired, releasing⟩
    · exact ⟨rfl, rfl, rfl⟩
    · have leasing := acquire_frame acquired
      have freeing := release_frame releasing
      exact ⟨freeing.executions.trans leasing.executions, freeing.stages.trans leasing.stages,
        freeing.results.trans leasing.results⟩
  · obtain ⟨reached, effect, reported⟩ := steps.effect wf
    exact Or.inr ⟨attempt, row, reached, effect, reported⟩

end DarkFactory
