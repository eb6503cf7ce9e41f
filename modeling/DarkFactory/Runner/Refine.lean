import DarkFactory.Runner.Order
import DarkFactory.Runner.Progress

namespace DarkFactory

/-- What the rows and the run in memory both say of an occurrence of a stage. -/
structure Occurrence where
  stage : Stage
  status : StageStatus
  attemptNumber : Nat
  inputRevision : Option String
  deriving DecidableEq, Repr

def StageRun.occurrence (stageRun : StageRun) : Occurrence :=
  { stage := stageRun.stage, status := stageRun.status, attemptNumber := stageRun.attemptNumber
    inputRevision := stageRun.inputRevision }

def ChangeRun.occurrencesAt (run : ChangeRun) (stage : Stage) (revision : String) : List Occurrence :=
  (run.stages.filter fun item => item.stage = stage && item.inputRevision = some revision).map StageRun.occurrence

/-- The rows after a decision say what the run in memory says: the executed row and the run row have the statuses
    of the decision, and a reload gives the same occurrences wherever the run in memory has only one. -/
structure Refines (runId rowId : String) (before after : Store) (decision : FlowDecision) (run : ChangeRun) : Prop where
  stageRow : (after.stageRow rowId).map (·.status) = some decision.stageStatus
  runRow : (after.execution runId).map (·.status) = some decision.runStatus
  grows : ∃ old new, before.execution runId = some old ∧ after.execution runId = some new ∧
    old.stateRevision < new.stateRevision
  pinned : ∀ item ∈ run.stages, item.inputRevision ≠ none
  reload : ∃ reloaded, after.load runId = some reloaded ∧ reloaded.status = run.status ∧
    reloaded.budget = run.budget ∧
    ∀ stage revision, (run.occurrencesAt stage revision).length ≤ 1 →
      reloaded.occurrencesAt stage revision = run.occurrencesAt stage revision

theorem mem_occurrencesAt {run : ChangeRun} {stage : Stage} {revision : String} {occurrence : Occurrence} :
    occurrence ∈ run.occurrencesAt stage revision ↔
      ∃ item ∈ run.stages, item.stage = stage ∧ item.inputRevision = some revision ∧ item.occurrence = occurrence := by
  simp [ChangeRun.occurrencesAt, and_assoc]

theorem WellFormed.load_unique {store : Store} {runId : String} {run : ChangeRun} (wf : WellFormed store)
    (loaded : store.load runId = some run) : Table.Unique StageRun.id run.stages := by
  obtain ⟨execution, -, -, -, -, rows⟩ := load_some loaded
  have ids : run.stages.map StageRun.id = (store.runRows runId execution.route).map StageRow.id := by
    rw [rows, List.map_map]
    rfl
  rw [Table.Unique, ids]
  refine ((List.perm_insertionSort _ _).map StageRow.id).nodup_iff.mpr ?_
  exact wf.stagesUnique.sublist (List.filter_sublist.map _)

theorem WellFormed.occurrences_le {store : Store} {runId : String} {run : ChangeRun} (wf : WellFormed store)
    (loaded : store.load runId = some run) (stage : Stage) (revision : String) :
    (run.occurrencesAt stage revision).length ≤ 1 := by
  rw [ChangeRun.occurrencesAt, List.length_map]
  have unique : Table.Unique StageRun.id
      (run.stages.filter fun item => item.stage = stage && item.inputRevision = some revision) :=
    (wf.load_unique loaded).sublist (List.filter_sublist.map _)
  refine unique.length_le_one (k := operationKey runId stage revision) ?_
  intro item member
  obtain ⟨listed, named⟩ := List.mem_filter.mp member
  obtain ⟨row, there, owner, rfl⟩ := (mem_stages loaded).mp listed
  rw [Bool.and_eq_true, decide_eq_true_eq, decide_eq_true_eq] at named
  obtain ⟨own, pinned⟩ := named
  rw [← own, ← Option.some.inj pinned, ← owner]
  exact wf.stageKeys row there

theorem eq_of_length_le_one {α : Type} {first second : List α} (short : first.length ≤ 1)
    (also : second.length ≤ 1) (same : ∀ item, item ∈ first ↔ item ∈ second) : first = second := by
  cases first with
  | nil =>
    symm
    rw [List.eq_nil_iff_forall_not_mem]
    intro item there
    exact List.not_mem_nil ((same item).mpr there)
  | cons item rest =>
    rw [List.length_cons] at short
    obtain rfl := List.length_eq_zero_iff.mp (show rest.length = 0 by omega)
    cases second with
    | nil => exact absurd ((same item).mp List.mem_cons_self) List.not_mem_nil
    | cons other more =>
      rw [List.length_cons] at also
      obtain rfl := List.length_eq_zero_iff.mp (show more.length = 0 by omega)
      have equal := (same item).mp List.mem_cons_self
      rw [List.mem_singleton] at equal
      rw [equal]

theorem attemptNumberOf_bound {run : ChangeRun} {stage : Stage} {row : StageRow}
    (flight : inFlight run stage = some row.stageRun) :
    max (max row.attemptCount (attemptNumberOf run stage)) 1 = attemptNumberOf run stage := by
  rw [attemptNumberOf, flight]
  dsimp only [StageRow.stageRun]
  split <;> omega

def Attempted.inMemory (attempt : Attempted) (input : AdvanceInput) (final : ChangeRun) : ChangeRun :=
  (createdStages input attempt.run.stages.length final).2

def settledRun (row : StageRow) (attemptNumber : Nat) (status : StageStatus) : StageRun :=
  (row.stageRun.enter attemptNumber).moved status

section Steps

variable {input : AdvanceInput} {before after : Store} {report : RunAdvance} {attempt : Attempted} {row : StageRow}
  {trace : AdvanceTrace} {reached : Verdict} {base : ChangeRun} {index : Nat}

theorem inMemory_stages (input : AdvanceInput)
    (baseStages : base.stages = attempt.run.stages.set index
      (settledRun row attempt.attemptNumber reached.stageStatus))
    (starts : (reached.nextStage.filter fun target => reached.fresh || (inFlight base target).isNone) =
      attempt.starts reached) :
    (attempt.inMemory input (moveRun reached.runStatus (enterNext reached base))).stages =
      attempt.run.stages.set index (settledRun row attempt.attemptNumber reached.stageStatus) ++
        ((attempt.starts reached).map (startedRun input base)).toList := by
  have length : attempt.run.stages.length = base.stages.length := by simp [baseStages]
  rw [Attempted.inMemory, length, (createdStages_enterNext input reached base reached.runStatus).2, starts, baseStages]

theorem AdvanceEffect.mem_settled (effect : AdvanceEffect input before after attempt row reached)
    (wf : WellFormed before) (there : attempt.run.stages[index]? = some row.stageRun) {item : StageRun} :
    item ∈ attempt.run.stages.set index (settledRun row attempt.attemptNumber reached.stageStatus) ↔
      (∃ old ∈ before.stages, old.executionId = input.runId ∧ old.id ≠ row.id ∧ old.stageRun = item) ∨
        item = settledRun row attempt.attemptNumber reached.stageStatus := by
  rw [(wf.load_unique effect.loaded).mem_set there, mem_stages effect.loaded]
  constructor
  · rintro (⟨⟨old, member, owner, rfl⟩, apart⟩ | settled)
    · exact Or.inl ⟨old, member, owner, apart, rfl⟩
    · exact Or.inr settled
  · rintro (⟨old, member, owner, apart, rfl⟩ | settled)
    · exact Or.inl ⟨⟨old, member, owner, rfl⟩, apart⟩
    · exact Or.inr settled

theorem Settles.occurrence {settled : StageRow} {number : Nat} {status : StageStatus}
    (settles : Settles row settled status number) (bound : max (max row.attemptCount number) 1 = number) :
    settled.stageRun.occurrence = (settledRun row number status).occurrence := by
  simp only [StageRun.occurrence, StageRow.stageRun, settledRun, StageRun.moved, StageRun.enter, settles.stage_eq,
    settles.status_eq, settles.inputRevision_eq, settles.attemptCount_eq, bound]

theorem AdvanceEffect.started_absent (effect : AdvanceEffect input before after attempt row reached)
    (wf : WellFormed before) (there : attempt.run.stages[index]? = some row.stageRun) {memory : ChangeRun}
    (stages : memory.stages = attempt.run.stages.set index (settledRun row attempt.attemptNumber reached.stageStatus) ++
      ((attempt.starts reached).map (startedRun input base)).toList)
    {target stage : Stage} {revision : String} (starts : attempt.starts reached = some target)
    (own : (startedRun input base target).stage = stage)
    (pinned : (startedRun input base target).inputRevision = some revision)
    (single : (memory.occurrencesAt stage revision).length ≤ 1) :
    ∀ old ∈ before.stages, old.id ≠ (startedRow input target).id := by
  intro old member same
  obtain ⟨owner, at_, fresh⟩ := effect.started_key wf member same
  obtain ⟨item, listed, first, second⟩ : ∃ item ∈ attempt.run.stages.set index
      (settledRun row attempt.attemptNumber reached.stageStatus),
        item.stage = stage ∧ item.inputRevision = some revision := by
    by_cases executed : old.id = row.id
    · have equal := wf.stagesUnique.eq member effect.member executed
      subst equal
      exact ⟨_, (effect.mem_settled wf there).mpr (Or.inr rfl), at_.trans own, (congrArg some fresh).trans pinned⟩
    · exact ⟨old.stageRun, (effect.mem_settled wf there).mpr (Or.inl ⟨old, member, owner, executed, rfl⟩),
        at_.trans own, (congrArg some fresh).trans pinned⟩
  -- The row there is shows up in memory beside the started occurrence: two at one operation.
  have one : 0 < ((attempt.run.stages.set index
      (settledRun row attempt.attemptNumber reached.stageStatus)).filter fun item =>
        item.stage = stage && item.inputRevision = some revision).length :=
    List.length_pos_of_mem (List.mem_filter.mpr ⟨listed, by simp [first, second]⟩)
  rw [ChangeRun.occurrencesAt, stages, List.length_map, List.filter_append, List.length_append, starts,
    Option.map_some, Option.toList_some, List.filter_singleton] at single
  simp only [own, pinned, decide_true, Bool.and_self, cond_true, List.length_singleton] at single
  omega

/-- Where the run in memory has one occurrence, the rows have it, and no other. -/
theorem AdvanceEffect.same_occurrences (effect : AdvanceEffect input before after attempt row reached)
    (wf : WellFormed before) (there : attempt.run.stages[index]? = some row.stageRun) {memory reloaded : ChangeRun}
    (stages : memory.stages = attempt.run.stages.set index (settledRun row attempt.attemptNumber reached.stageStatus) ++
      ((attempt.starts reached).map (startedRun input base)).toList)
    (loaded : after.load input.runId = some reloaded) {stage : Stage} {revision : String}
    (single : (memory.occurrencesAt stage revision).length ≤ 1) :
    reloaded.occurrencesAt stage revision = memory.occurrencesAt stage revision := by
  have sound := effect.wellFormed wf
  obtain ⟨settled, settles, rows⟩ := effect.rows wf
  have bound : max (max row.attemptCount attempt.attemptNumber) 1 = attempt.attemptNumber := by
    rw [effect.number]
    exact attemptNumberOf_bound effect.flight
  have agrees := settles.occurrence bound
  refine eq_of_length_le_one (sound.occurrences_le loaded stage revision) single ?_
  intro occurrence
  rw [mem_occurrencesAt, mem_occurrencesAt, stages]
  constructor
  · rintro ⟨item, listed, own, pinned, rfl⟩
    obtain ⟨held, member, owner, rfl⟩ := (mem_stages loaded).mp listed
    rcases (rows held).mp member with ⟨old, apart⟩ | rfl | ⟨target, starts, -, rfl⟩
    · exact ⟨held.stageRun, List.mem_append_left _ ((effect.mem_settled wf there).mpr
        (Or.inl ⟨held, old, owner, apart, rfl⟩)), own, pinned, rfl⟩
    · refine ⟨settledRun row attempt.attemptNumber reached.stageStatus, List.mem_append_left _
        ((effect.mem_settled wf there).mpr (Or.inr rfl)), ?_, ?_, agrees.symm⟩
      · rw [← own]
        exact settles.stage_eq.symm
      · rw [← pinned]
        exact congrArg some settles.inputRevision_eq.symm
    · refine ⟨startedRun input base target, List.mem_append_right _ ?_, own, pinned, rfl⟩
      simp [starts]
  · rintro ⟨item, listed, own, pinned, rfl⟩
    rw [List.mem_append] at listed
    rcases listed with kept | started
    · rcases (effect.mem_settled wf there).mp kept with ⟨old, member, owner, apart, rfl⟩ | rfl
      · exact ⟨old.stageRun, (mem_stages loaded).mpr ⟨old, (rows old).mpr (Or.inl ⟨member, apart⟩), owner, rfl⟩,
          own, pinned, rfl⟩
      · refine ⟨settled.stageRun, (mem_stages loaded).mpr ⟨settled, (rows settled).mpr (Or.inr (Or.inl rfl)),
          settles.executionId_eq.trans effect.owner, rfl⟩, ?_, ?_, agrees⟩
        · rw [← own]
          exact settles.stage_eq
        · rw [← pinned]
          exact congrArg some settles.inputRevision_eq
    · obtain ⟨target, starts, rfl⟩ : ∃ target, attempt.starts reached = some target ∧
          startedRun input base target = item := by simpa using started
      have absent := effect.started_absent wf there stages starts own pinned single
      exact ⟨(startedRow input target).stageRun, (mem_stages loaded).mpr ⟨startedRow input target,
        (rows _).mpr (Or.inr (Or.inr ⟨target, starts, absent, rfl⟩)), rfl, rfl⟩, own, pinned, rfl⟩

theorem AdvanceSteps.execution (steps : AdvanceSteps input before after report attempt row trace)
    (wf : WellFormed before) :
    ∃ old new, before.execution input.runId = some old ∧ after.execution input.runId = some new ∧
      new.status = trace.decision.runStatus ∧ old.stateRevision < new.stateRevision ∧
      new.budget = some (attempt.inMemory input trace.final).budget := by
  obtain ⟨writes, written, released, leads, releasing⟩ := steps.leads wf
  obtain ⟨-, known, openingEq⟩ := steps.opened wf
  obtain ⟨old, present, stored⟩ := leads.execution
  have freed := (release_frame releasing).executions
  rw [steps.final_id] at present stored
  rw [Store.execution, ← freed] at stored
  refine ⟨old, _, ?_, stored, rfl, ?_, ?_⟩
  · rw [← present, openingEq]
    exact congrArg (Table.find Execution.id input.runId) (acquire_frame steps.acquired).executions.symm
  · exact lt_of_lt_of_le (Nat.lt_succ_self _) (Nat.le_max_left _ _)
  · rw [Attempted.inMemory, known]

theorem AdvanceSteps.refines (steps : AdvanceSteps input before after report attempt row trace)
    (wf : WellFormed before) :
    Refines input.runId row.id before after trace.decision (attempt.inMemory input trace.final) := by
  obtain ⟨reached, base, index, effect, decided, finalEq, there, baseStages, starts, -⟩ := steps.settles wf
  obtain ⟨old, new, present, stored, status, grows, budget⟩ := steps.execution wf
  obtain ⟨settled, settles, rows⟩ := effect.rows wf
  have stages := inMemory_stages input baseStages starts
  rw [← finalEq] at stages
  have runStatus : (attempt.inMemory input trace.final).status = trace.decision.runStatus := by
    rw [Attempted.inMemory, (createdStages_frame input _ _).status, finalEq, moveRun_status, decided]
    rfl
  constructor
  · have member : settled ∈ after.stages := (rows settled).mpr (Or.inr (Or.inl rfl))
    have found := (effect.wellFormed wf).stagesUnique.find member
    rw [settles.id_eq] at found
    rw [Store.stageRow, found, Option.map_some, settles.status_eq, decided]
    rfl
  · rw [stored, Option.map_some, status]
  · exact ⟨old, new, present, stored, grows⟩
  · intro item member
    rw [stages, List.mem_append] at member
    rcases member with kept | started
    · rcases (effect.mem_settled wf there).mp kept with ⟨held, -, -, -, rfl⟩ | rfl <;> exact Option.some_ne_none _
    · obtain ⟨target, -, rfl⟩ : ∃ target, attempt.starts reached = some target ∧
          startedRun input base target = item := by simpa using started
      exact Option.some_ne_none _
  · obtain ⟨reloaded, loaded, same, spent⟩ : ∃ reloaded, after.load input.runId = some reloaded ∧
        reloaded.status = new.status ∧ reloaded.budget = new.budget.getD {} := by
      simp [Store.load, stored]
    refine ⟨reloaded, loaded, by rw [same, status, runStatus], by rw [spent, budget]; rfl, ?_⟩
    intro stage revision single
    exact effect.same_occurrences wf there stages loaded single

end Steps

/-- Over any creations and faithful advances: an advance whose result the flow accepts on the loaded run walks its
    rows to the decision, and the rows reload to the run in memory. Nothing stops it but an event of the outbox whose
    text is another and has the same digest. -/
theorem rows_refine_flow {drives : List Drive} (faithful : ∀ drive ∈ drives, drive.faithful)
    {input : AdvanceInput} (answering : Faithful input) {attempt : Attempted}
    (planned : attempted input (driven drives) = some attempt) {decision : FlowDecision} {final : ChangeRun}
    (accepted : applyResult attempt.result ((driven drives).loadHistory input.runId) input.now attempt.mergeContext
      attempt.humanDecisions (moveRun .running attempt.run) = .ok decision final) :
    (∃ report after, advanceRun input (driven drives) = .ok report after ∧ report.decision = some decision ∧
        Refines input.runId (operationKey input.runId attempt.stage attempt.inputRevision) (driven drives) after
          decision (attempt.inMemory input final)) ∨
      (driven drives).EventCollides attempt.result ∧
      ∃ failure partway, advanceRun input (driven drives) = .error failure partway ∧ failure.kind = .integrity := by
  have openable := driven_openable faithful
  have wf := openable.published.wellFormed
  obtain ⟨row, plan⟩ := attempted_planned wf answering planned
  obtain ⟨leased, opened, opening, ready⟩ := plan.ready openable accepted
  rw [ready.advance_eq]
  rcases ready.persists_total openable.published with ⟨report, after, persists, reported⟩ | refused
  · have refines := AdvanceSteps.refines ⟨ready, persists⟩ wf
    have key : row.id = operationKey input.runId attempt.stage attempt.inputRevision := by
      rw [wf.stageKeys row plan.member, plan.owner, plan.own, plan.revision]
    rw [key] at refines
    exact Or.inl ⟨report, after, persists, reported, refines⟩
  · exact Or.inr refused

def specificationPassed : AdvanceInput :=
  scripted quickRun.runId 1 "c1"
    { status := .succeeded, nextAction := .executeStage .planning none, gateResults := [Gate.passed .specification] }

/-- The first decision of the quick run is written and reloads to the run in memory. -/
theorem first_decision_refines :
    ∃ attempt decision final report after, attempted specificationPassed (driven [.create quickRun]) = some attempt ∧
      advanceRun specificationPassed (driven [.create quickRun]) = .ok report after ∧
      report.decision = some decision ∧
      Refines quickRun.runId (operationKey quickRun.runId attempt.stage attempt.inputRevision)
        (driven [.create quickRun]) after decision (attempt.inMemory specificationPassed final) := by
  have faithful : ∀ drive ∈ [Drive.create quickRun], drive.faithful := by
    simp [Drive.faithful]
  have facts : (attempted specificationPassed (driven [.create quickRun])).any (fun attempt =>
      Outcome.succeeds (applyResult attempt.result ((driven [.create quickRun]).loadHistory quickRun.runId) 1
        attempt.mergeContext attempt.humanDecisions) (moveRun .running attempt.run)) = true ∧
      (driven [.create quickRun]).outbox = [] := by decide +kernel
  obtain ⟨accepts, unpublished⟩ := facts
  obtain ⟨attempt, planned, succeeds⟩ := (Option.any_eq_true _ _).mp accepts
  obtain ⟨decision, final, accepted⟩ := Outcome.succeeds_iff.mp succeeds
  rcases rows_refine_flow faithful (scripted_faithful _ _ _ _) planned accepted with
    ⟨report, after, done, decided, refines⟩ | ⟨⟨held, listed, -⟩, -⟩
  · exact ⟨attempt, decision, final, report, after, planned, done, decided, refines⟩
  · rw [unpublished] at listed
    cases listed

end DarkFactory
