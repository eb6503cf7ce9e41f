import DarkFactory.Runner.NextStage

namespace DarkFactory

/-- An accepted result closes its stage and takes the run on to the target. -/
def Attempted.PassesOn (attempt : Attempted) (now : Timestamp) (target : Stage) : Prop :=
  Leaves attempt.charged attempt.result now attempt.mergeContext attempt.humanDecisions target ∨
    ∃ phase reason, attempt.result.nextAction = .phaseRound phase reason ∧ target = attempt.stage

def Attempted.hasOther (attempt : Attempted) : Bool :=
  attempt.run.stages.any fun item => item.active && inFlight attempt.run attempt.stage ≠ some item

/-- The stage an accepted result passes the run on to is entered at a revision it has not had, unless other work
    of the run is open anyway. -/
def Drive.opensWork (store : Store) : Drive → Prop
  | .create _ => True
  | .advance input => ∀ attempt, attempted input store = some attempt → FlowAccepts attempt.result → ∀ target,
      attempt.PassesOn input.now target → Unused input store target ∨ attempt.hasOther = true

/-- A run that is running has a stage to go on with, and an advance gets past the check for one. -/
def HasWork (store : Store) : Prop :=
  ∀ id run, store.load id = some run → run.status = .running →
    ∃ stage, nextStage run = some stage ∧ nextStageToExecute run store = .ok stage store

theorem hasWork_iff {store : Store} :
    HasWork store ↔ ∀ id execution, store.execution id = some execution → execution.status = .running →
      ∃ stage row, store.Opens id stage row := by
  constructor
  · intro works id execution found running
    obtain ⟨run, loaded, status⟩ : ∃ run, store.load id = some run ∧ run.status = execution.status := by
      simp [Store.load, found]
    obtain ⟨stage, next, -⟩ := works id run loaded (status.trans running)
    obtain ⟨⟨row, opens⟩, -⟩ := (nextStage_opens loaded).mp next
    exact ⟨stage, row, opens⟩
  · intro works id run loaded running
    obtain ⟨execution, found, -, -, status, -⟩ := load_some loaded
    obtain ⟨stage, row, opens⟩ := works id execution found (status ▸ running)
    have occupied : nextStage run ≠ none := by
      intro none
      rw [nextStage, List.find?_eq_none] at none
      obtain ⟨listed, active⟩ := (opens_stageRun loaded).mpr ⟨row, opens, rfl⟩
      refine none stage ?_ (List.any_eq_true.mpr ⟨_, listed, active⟩)
      rw [routeProfile_stages]
      cases stage <;> decide
    obtain ⟨next, chosen⟩ := Option.ne_none_iff_exists'.mp occupied
    refine ⟨next, chosen, ?_⟩
    rw [nextStageToExecute, chosen]
    rfl

section Effect

variable {input : AdvanceInput} {before after : Store} {attempt : Attempted} {row : StageRow} {reached : Verdict}

theorem AdvanceEffect.stays_open (effect : AdvanceEffect input before after attempt row reached)
    (wf : WellFormed before) {id : String} {stage : Stage} {item : StageRow} (opens : before.Opens id stage item)
    (apart : item.id ≠ row.id) : after.Opens id stage item := by
  obtain ⟨settled, -, rows⟩ := effect.rows wf
  exact ⟨(rows item).mpr (Or.inl ⟨opens.member, apart⟩), opens.owner, opens.own, opens.live⟩

theorem AdvanceEffect.settled_open (effect : AdvanceEffect input before after attempt row reached)
    (wf : WellFormed before) (live : stageTerminal reached.stageStatus = false) :
    ∃ item, after.Opens input.runId attempt.stage item := by
  obtain ⟨settled, settles, rows⟩ := effect.rows wf
  refine ⟨settled, (rows settled).mpr (Or.inr (Or.inl rfl)), settles.executionId_eq.trans effect.owner,
    settles.stage_eq.trans effect.own, ?_⟩
  rw [StageRow.open, settles.status_eq, live]
  rfl

theorem AdvanceEffect.started_open (effect : AdvanceEffect input before after attempt row reached)
    (wf : WellFormed before) {target : Stage} (starts : attempt.starts reached = some target)
    (unused : Unused input before target) : after.Opens input.runId target (startedRow input target) := by
  obtain ⟨settled, -, rows⟩ := effect.rows wf
  exact ⟨(rows _).mpr (Or.inr (Or.inr ⟨target, starts, effect.absent wf unused, rfl⟩)), rfl, rfl, rfl⟩

theorem AdvanceEffect.next_open (effect : AdvanceEffect input before after attempt row reached)
    (wf : WellFormed before) {target : Stage} (next : reached.nextStage = some target)
    (unused : Unused input before target) : ∃ item, after.Opens input.runId target item := by
  by_cases creates : target = attempt.stage ∨ inFlight attempt.run target = none
  · exact ⟨_, effect.started_open wf ((effect.starts_iff next).mpr ⟨creates, rfl⟩) unused⟩
  · rw [not_or] at creates
    obtain ⟨elsewhere, idle⟩ := creates
    obtain ⟨current, flight⟩ := Option.ne_none_iff_exists'.mp idle
    obtain ⟨held, member, owner, own, live, -⟩ := inFlight_row effect.loaded flight
    refine ⟨held, effect.stays_open wf ⟨member, owner, own, live⟩ ?_⟩
    intro same
    apply elsewhere
    rw [← own, wf.stagesUnique.eq member effect.member same, effect.own]

theorem AdvanceEffect.other_open (effect : AdvanceEffect input before after attempt row reached)
    (wf : WellFormed before) (other : attempt.hasOther = true) :
    ∃ stage item, after.Opens input.runId stage item := by
  obtain ⟨stageRun, listed, facts⟩ := List.any_eq_true.mp other
  obtain ⟨active, apart⟩ := Bool.and_eq_true_iff.mp facts
  obtain ⟨item, opens, rfl⟩ :=
    (opens_stageRun effect.loaded).mp ⟨listed, activeAt_iff.mpr ⟨rfl, active⟩⟩
  refine ⟨_, item, effect.stays_open wf opens ?_⟩
  intro same
  have here := wf.stagesUnique.eq opens.member effect.member same
  subst here
  exact of_decide_eq_true apart effect.flight

/-- A decision that leaves the run running: it passes on, or it reworks and the failed row stays open. -/
theorem AdvanceEffect.works (effect : AdvanceEffect input before after attempt row reached)
    (wf : WellFormed before) (running : reached.runStatus = .running)
    (opensWork : (Drive.advance input).opensWork before) : ∃ stage item, after.Opens input.runId stage item := by
  have passed (target : Stage) (next : reached.nextStage = some target)
      (passes : attempt.PassesOn input.now target) : ∃ stage item, after.Opens input.runId stage item := by
    rcases opensWork attempt effect.plan effect.accepted target passes with unused | other
    · exact ⟨target, effect.next_open wf next unused⟩
    · exact effect.other_open wf other
  have stage_eq := effect.answers.stage_eq
  cases next : reached.nextStage with
  | none =>
    have reaches := effect.reaches
    cases reaches with
    | blocked | parked | deferred | released => cases running
    | stopped outcome => cases outcome <;> cases running
    | left | reworked | nextPhase => cases next
  | some target =>
    rcases effect.reaches.next next with ⟨leaves, -⟩ | ⟨action, asked, -, failed, -⟩ |
      ⟨phase, reason, asked, -, rfl⟩
    · exact passed target next (Or.inl leaves)
    · exact ⟨_, effect.settled_open wf (by rw [failed]; rfl)⟩
    · exact passed _ next (Or.inr ⟨phase, reason, asked, stage_eq⟩)

end Effect

theorem afterDrive_hasWork {before : Store} (drive : Drive) (wf : WellFormed before) (works : HasWork before)
    (faithful : drive.faithful) (opensWork : drive.opensWork before) : HasWork (afterDrive before drive) := by
  rw [hasWork_iff] at works ⊢
  intro id execution found running
  rcases afterDrive_cases wf drive faithful with frame | ⟨input, -, effect⟩ |
    ⟨input, report, attempt, row, reached, rfl, -, effect, -⟩
  · rw [Store.execution, frame.executions] at found
    obtain ⟨stage, row, opens⟩ := works id execution found running
    exact ⟨stage, row, by rw [frame.stages]; exact opens.member, opens.owner, opens.own, opens.live⟩
  · rcases effect.execution_cases found with pending | old
    · rw [pending] at running
      cases running
    · obtain ⟨stage, row, opens⟩ := works id execution old running
      obtain ⟨first, -, rows⟩ := effect.rows
      exact ⟨stage, row, (rows row).mpr (Or.inl opens.member), opens.owner, opens.own, opens.live⟩
  · rcases effect.execution_cases found with ⟨rfl, status⟩ | ⟨own, kept⟩
    · exact effect.works wf (status.symm.trans running) opensWork
    · obtain ⟨stage, item, opens⟩ := works id execution kept running
      refine ⟨stage, item, effect.stays_open wf opens ?_⟩
      intro same
      apply own
      rw [← opens.owner, wf.stagesUnique.eq opens.member effect.member same, effect.owner]

structure Working (store : Store) : Prop where
  wellFormed : WellFormed store
  hasWork : HasWork store

/-- Over any creations and faithful advances, each of which opens work for the run it passes on, a running
    run always has a stage to go on with. -/
theorem running_run_has_work {drives : List Drive}
    (along : Trace.Along afterDrive (fun store drive => drive.faithful ∧ drive.opensWork store) {} drives) :
    HasWork (driven drives) := by
  have start : Working {} := ⟨WellFormed.empty, fun _ _ loaded => by cases loaded⟩
  have step (store : Store) (drive : Drive) (working : Working store)
      (met : drive.faithful ∧ drive.opensWork store) : Working (afterDrive store drive) :=
    ⟨afterDrive_wellFormed working.wellFormed drive met.1,
      afterDrive_hasWork drive working.wellFormed working.hasWork met.1 met.2⟩
  exact (Trace.invariant step start along).hasWork

def specificationRound (revision : String) : AdvanceInput :=
  scripted quickRun.runId 1 revision { status := .succeeded, nextAction := .phaseRound .architecture none }

/-- A round that moved the branch is there to be executed. -/
theorem moved_round_has_work :
    HasWork (driven [.create quickRun, .advance (specificationRound "c1")]) ∧
      ((driven [.create quickRun, .advance (specificationRound "c1")]).load quickRun.runId).map
        (fun run => (run.status, nextStage run)) = some (.running, some .specification) := by
  have facts : (attempted (specificationRound "c1") (driven [.create quickRun])).map (·.stage) =
      some .specification ∧ Unused (specificationRound "c1") (driven [.create quickRun]) .specification := by
    decide +kernel
  refine ⟨running_run_has_work ⟨⟨trivial, trivial⟩, ⟨scripted_faithful _ _ _ _, ?_⟩, trivial⟩, by decide +kernel⟩
  intro attempt planned accepted target passes
  have planning : attempted (specificationRound "c1") (driven [.create quickRun]) = some attempt := planned
  obtain ⟨context, answer⟩ := scripted_attempted planned
  have asked : attempt.result.nextAction = .phaseRound .architecture none := by rw [answer]; rfl
  rw [planning, Option.map_some, Option.some.injEq] at facts
  rcases passes with leaves | ⟨phase, reason, -, rfl⟩
  · cases leaves with
    | executed _ action => rw [asked] at action; cases action
    | merged _ _ action => rw [asked] at action; cases action
  · rw [facts.1]
    exact Or.inl facts.2

/-- A round that did not move the branch finds its own closed row: the run is running with nothing to do. -/
theorem unmoved_round_stranded :
    (∀ drive ∈ [Drive.create quickRun, .advance (specificationRound "c0")], drive.faithful) ∧
      ((driven [.create quickRun, .advance (specificationRound "c0")]).load quickRun.runId).map
        (fun run => (run.status, nextStage run)) = some (.running, none) ∧
      ¬ HasWork (driven [.create quickRun, .advance (specificationRound "c0")]) := by
  have stranded : ((driven [.create quickRun, .advance (specificationRound "c0")]).load quickRun.runId).map
      (fun run => (run.status, nextStage run)) = some (.running, none) := by decide +kernel
  refine ⟨?_, stranded, ?_⟩
  · simp only [List.forall_mem_cons, List.not_mem_nil, false_implies, implies_true, and_true]
    exact ⟨trivial, scripted_faithful _ _ _ _⟩
  · intro works
    obtain ⟨run, loaded, facts⟩ := Option.map_eq_some_iff.mp stranded
    obtain ⟨running, idle⟩ := Prod.mk.inj facts
    obtain ⟨stage, next, -⟩ := works quickRun.runId run loaded running
    rw [idle] at next
    cases next

end DarkFactory
