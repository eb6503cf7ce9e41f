import DarkFactory.Runner.Order
import DarkFactory.Runner.Scripts

namespace DarkFactory

def startedOccurrence (input : AdvanceInput) (run : ChangeRun) (stage target : Stage) : Option StageRun :=
  if target = stage ∨ inFlight run target = none then some (startedRow input target).stageRun
  else inFlight run target

/-- The reloaded run goes on with the stage the decision named, at the occurrence it started. -/
def Agrees (input : AdvanceInput) (attempt : Attempted) (after : Store) (target : Stage) : Prop :=
  ∃ run, after.load input.runId = some run ∧ nextStage run = some target ∧
    inFlight run target = startedOccurrence input attempt.run attempt.stage target

def Unused (input : AdvanceInput) (store : Store) (target : Stage) : Prop :=
  ∀ row ∈ store.stages, row.executionId = input.runId → row.stage = target →
    row.inputRevision ≠ freshRevision input target

instance {input : AdvanceInput} {store : Store} {target : Stage} : Decidable (Unused input store target) :=
  inferInstanceAs (Decidable (∀ row ∈ store.stages, row.executionId = input.runId → row.stage = target →
    row.inputRevision ≠ freshRevision input target))

def SoleInFlight (run : ChangeRun) (stage : Stage) : Prop :=
  ∀ item ∈ run.stages, activeAt stage item = true → inFlight run stage = some item

instance {run : ChangeRun} {stage : Stage} : Decidable (SoleInFlight run stage) :=
  inferInstanceAs (Decidable (∀ item ∈ run.stages, activeAt stage item = true → inFlight run stage = some item))

/-- The row of a new round sorts after the rows of its stage that stay open. -/
def RoundLast (input : AdvanceInput) (store : Store) (attempt : Attempted) : Prop :=
  ∀ row, store.Opens input.runId attempt.stage row →
    (attempt.result.nextAction.type = .phaseRound → inFlight attempt.run attempt.stage ≠ some row.stageRun) →
    rowBefore attempt.run.route (startedRow input attempt.stage) row = false

/-- A result that moves on leaves no open occurrence behind, and one that starts a round of its own stage
    puts it last. -/
def StepsClear (input : AdvanceInput) (store : Store) (attempt : Attempted) : Prop :=
  match attempt.result.nextAction.type with
  | .executeStage | .merge => SoleInFlight attempt.run attempt.stage
  | .rework => reworkTarget attempt.stage = attempt.stage → RoundLast input store attempt
  | .phaseRound => RoundLast input store attempt
  | _ => True

/-- The rounds of the executed stage are exactly the fresh transitions. -/
theorem Reaches.fresh_iff {run : ChangeRun} {result : StageResult} {now : Timestamp}
    {history : List StageResult} {context : Option MergeRequestContext} {decisions : List Decision}
    {reached : Verdict} {target : Stage} (reaches : Reaches run result now history context decisions reached)
    (next : reached.nextStage = some target) : reached.fresh = true ↔ target = result.stage := by
  constructor
  · intro fresh
    cases reaches with
    | blocked | parked | deferred | released | stopped => cases next
    | left => cases fresh
    | reworked action asked =>
      cases next
      simpa using fresh
    | nextPhase phase reason asked =>
      cases next
      rfl
  · intro same
    rw [← Bool.not_eq_false]
    intro stale
    exact reaches.elsewhere next stale same

section Effect

variable {input : AdvanceInput} {before after : Store} {attempt : Attempted} {row : StageRow} {reached : Verdict}
  {target : Stage}

theorem AdvanceEffect.starts_iff (effect : AdvanceEffect input before after attempt row reached)
    (next : reached.nextStage = some target) {stage : Stage} :
    attempt.starts reached = some stage ↔
      (target = attempt.stage ∨ inFlight attempt.run target = none) ∧ stage = target := by
  have round := effect.reaches.fresh_iff next
  rw [effect.answers.stage_eq] at round
  rw [Attempted.starts, next, Option.filter_some, Option.ite_none_right_eq_some, Bool.or_eq_true, round,
    Option.isNone_iff_eq_none, Option.some.injEq]
  exact and_congr_right fun _ => eq_comm

theorem AdvanceEffect.reload (effect : AdvanceEffect input before after attempt row reached) :
    ∃ run, after.load input.runId = some run ∧ run.route = attempt.run.route := by
  obtain ⟨execution, found, -, route, -⟩ := load_some effect.loaded
  obtain ⟨revision, budget, moved⟩ := effect.execution_self
  rw [found, Option.map_some] at moved
  refine ⟨_, by rw [Store.load, moved, Option.map_some], ?_⟩
  rw [route]
  rfl

theorem AdvanceEffect.least (effect : AdvanceEffect input before after attempt row reached) {stage : Stage}
    {item : StageRow} (opens : before.Opens input.runId stage item) :
    stageIndex attempt.stage ≤ stageIndex stage :=
  ((nextStage_opens effect.loaded).mp effect.current).2 stage item opens

theorem AdvanceEffect.opens (effect : AdvanceEffect input before after attempt row reached) :
    before.Opens input.runId attempt.stage row :=
  ⟨effect.member, effect.owner, effect.own, effect.live⟩

theorem AdvanceEffect.absent (effect : AdvanceEffect input before after attempt row reached)
    (wf : WellFormed before) (unused : Unused input before target) :
    ∀ old ∈ before.stages, old.id ≠ (startedRow input target).id := by
  intro old member same
  obtain ⟨owner, own, fresh⟩ := effect.started_key wf member same
  exact unused old member owner own fresh

theorem AdvanceEffect.opens_after (effect : AdvanceEffect input before after attempt row reached)
    (wf : WellFormed before) (next : reached.nextStage = some target)
    (unused : target = attempt.stage ∨ inFlight attempt.run target = none → Unused input before target) :
    ∃ settled, Settles row settled reached.stageStatus attempt.attemptNumber ∧
      ∀ stage item, after.Opens input.runId stage item ↔
        (before.Opens input.runId stage item ∧ item.id ≠ row.id) ∨
          (item = settled ∧ stage = attempt.stage ∧ stageTerminal reached.stageStatus = false) ∨
          ((target = attempt.stage ∨ inFlight attempt.run target = none) ∧ stage = target ∧
            item = startedRow input target) := by
  obtain ⟨settled, settles, rows⟩ := effect.rows wf
  have settledOpen : settled.open = true ↔ stageTerminal reached.stageStatus = false := by
    simp [StageRow.open, settles.status_eq]
  refine ⟨settled, settles, ?_⟩
  intro stage item
  constructor
  · rintro ⟨member, owner, own, live⟩
    rcases (rows item).mp member with ⟨kept, apart⟩ | rfl | ⟨started, starts, -, rfl⟩
    · exact Or.inl ⟨⟨kept, owner, own, live⟩, apart⟩
    · refine Or.inr (Or.inl ⟨rfl, ?_, settledOpen.mp live⟩)
      rw [← own, settles.stage_eq, effect.own]
    · obtain ⟨creates, rfl⟩ := (effect.starts_iff next).mp starts
      exact Or.inr (Or.inr ⟨creates, own.symm, rfl⟩)
  · rintro (⟨⟨member, owner, own, live⟩, apart⟩ | ⟨rfl, rfl, open_⟩ | ⟨creates, rfl, rfl⟩)
    · exact ⟨(rows item).mpr (Or.inl ⟨member, apart⟩), owner, own, live⟩
    · exact ⟨(rows item).mpr (Or.inr (Or.inl rfl)), settles.executionId_eq.trans effect.owner,
        settles.stage_eq.trans effect.own, settledOpen.mpr open_⟩
    · exact ⟨(rows _).mpr (Or.inr (Or.inr ⟨_, (effect.starts_iff next).mpr ⟨creates, rfl⟩, effect.absent wf (unused creates), rfl⟩)),
        rfl, rfl, rfl⟩

/-- A row of the stage is in flight before the decision exactly when it is the executed one. -/
theorem AdvanceEffect.flight_iff (effect : AdvanceEffect input before after attempt row reached)
    (wf : WellFormed before) {item : StageRow} (opens : before.Opens input.runId attempt.stage item) :
    inFlight attempt.run attempt.stage = some item.stageRun ↔ item.id = row.id := by
  rw [effect.flight, Option.some.injEq]
  constructor
  · intro same
    exact (congrArg StageRun.id same).symm
  · intro same
    rw [wf.stagesUnique.eq opens.member effect.member same]

theorem AdvanceEffect.sole_iff (effect : AdvanceEffect input before after attempt row reached)
    (wf : WellFormed before) :
    SoleInFlight attempt.run attempt.stage ↔
      ∀ item, before.Opens input.runId attempt.stage item → item.id = row.id := by
  constructor
  · intro sole item opens
    obtain ⟨listed, active⟩ := (opens_stageRun effect.loaded).mpr ⟨item, opens, rfl⟩
    exact (effect.flight_iff wf opens).mp (sole item.stageRun listed active)
  · intro sole stageRun listed active
    obtain ⟨item, opens, rfl⟩ := (opens_stageRun effect.loaded).mp ⟨listed, active⟩
    exact (effect.flight_iff wf opens).mpr (sole item opens)

theorem AdvanceEffect.started_flight (effect : AdvanceEffect input before after attempt row reached)
    (wf : WellFormed before) (next : reached.nextStage = some target) (elsewhere : target ≠ attempt.stage)
    (unused : target = attempt.stage ∨ inFlight attempt.run target = none → Unused input before target)
    {run : ChangeRun} (loaded : after.load input.runId = some run) (route : run.route = attempt.run.route) :
    inFlight run target = startedOccurrence input attempt.run attempt.stage target := by
  obtain ⟨settled, settles, opens⟩ := effect.opens_after wf next unused
  have sound := effect.wellFormed wf
  unfold startedOccurrence
  cases flight : inFlight attempt.run target with
  | none =>
    rw [if_pos (Or.inr rfl)]
    have idle := (inFlight_none_opens effect.loaded).mp flight
    have here : after.Opens input.runId target (startedRow input target) :=
      (opens target _).mpr (Or.inr (Or.inr ⟨Or.inr flight, rfl, rfl⟩))
    refine (inFlight_opens sound loaded here).mpr ?_
    intro other opened
    rcases (opens target other).mp opened with ⟨old, -⟩ | ⟨-, same, -⟩ | ⟨-, -, rfl⟩
    · exact absurd old (idle other)
    · exact absurd same elsewhere
    · exact rowBefore_refl _
  | some current =>
    rw [if_neg (by simp [elsewhere])]
    obtain ⟨held, member, owner, own, live, rfl⟩ := inFlight_row effect.loaded flight
    have old : before.Opens input.runId target held := ⟨member, owner, own, live⟩
    have apart {item : StageRow} (opened : before.Opens input.runId target item) : item.id ≠ row.id := by
      intro same
      apply elsewhere
      rw [← opened.own, wf.stagesUnique.eq opened.member effect.member same, effect.own]
    have here : after.Opens input.runId target held := (opens target held).mpr (Or.inl ⟨old, apart old⟩)
    refine (inFlight_opens sound loaded here).mpr ?_
    intro other opened
    rw [route]
    rcases (opens target other).mp opened with ⟨earlier, -⟩ | ⟨-, same, -⟩ | ⟨creates, -, -⟩
    · exact (inFlight_opens wf effect.loaded old).mp flight other earlier
    · exact absurd same elsewhere
    · rcases creates with same | none
      · exact absurd same elsewhere
      · rw [flight] at none
        cases none

/-- Moving on to the next stage agrees exactly when nothing of the executed stage stays open. -/
theorem AdvanceEffect.agrees_forward (effect : AdvanceEffect input before after attempt row reached)
    (wf : WellFormed before) (next : reached.nextStage = some target)
    (forward : stageIndex target = stageIndex attempt.stage + 1) (closed : reached.stageStatus = .succeeded)
    (unused : target = attempt.stage ∨ inFlight attempt.run target = none → Unused input before target) :
    Agrees input attempt after target ↔ SoleInFlight attempt.run attempt.stage := by
  obtain ⟨settled, settles, opens⟩ := effect.opens_after wf next unused
  obtain ⟨run, loaded, route⟩ := effect.reload
  have elsewhere : target ≠ attempt.stage := by
    rintro rfl
    omega
  rw [effect.sole_iff wf]
  constructor
  · rintro ⟨other, again, current, -⟩ item opened
    by_contra apart
    have stays := (opens attempt.stage item).mpr (Or.inl ⟨opened, apart⟩)
    have bound := ((nextStage_opens again).mp current).2 attempt.stage item stays
    omega
  · intro sole
    have flight := effect.started_flight wf next elsewhere unused loaded route
    refine ⟨run, loaded, (nextStage_opens loaded).mpr ⟨?_, ?_⟩, flight⟩
    · by_contra none
      rw [(inFlight_none_opens loaded).mpr fun item opened => none ⟨item, opened⟩] at flight
      unfold startedOccurrence at flight
      split at flight
      · cases flight
      · rename_i held
        exact held (Or.inr flight.symm)
    · intro stage item opened
      rcases (opens stage item).mp opened with ⟨old, apart⟩ | ⟨-, -, live⟩ | ⟨-, rfl, -⟩
      · have bound := effect.least old
        by_cases here : stage = attempt.stage
        · subst here
          exact absurd (sole item old) apart
        · have distinct : stageIndex stage ≠ stageIndex attempt.stage := fun same => here (stageIndex_injective same)
          omega
      · rw [closed] at live
        cases live
      · exact Nat.le_refl _

theorem AdvanceEffect.agrees_back (effect : AdvanceEffect input before after attempt row reached)
    (wf : WellFormed before) (next : reached.nextStage = some target)
    (back : stageIndex target < stageIndex attempt.stage)
    (unused : target = attempt.stage ∨ inFlight attempt.run target = none → Unused input before target) :
    Agrees input attempt after target := by
  obtain ⟨settled, settles, opens⟩ := effect.opens_after wf next unused
  obtain ⟨run, loaded, route⟩ := effect.reload
  have elsewhere : target ≠ attempt.stage := by
    rintro rfl
    omega
  have idle : inFlight attempt.run target = none := by
    refine (inFlight_none_opens effect.loaded).mpr ?_
    intro item opened
    have bound := effect.least opened
    omega
  refine ⟨run, loaded, (nextStage_opens loaded).mpr ⟨?_, ?_⟩,
    effect.started_flight wf next elsewhere unused loaded route⟩
  · exact ⟨_, (opens target _).mpr (Or.inr (Or.inr ⟨Or.inr idle, rfl, rfl⟩))⟩
  · intro stage item opened
    rcases (opens stage item).mp opened with ⟨old, -⟩ | ⟨-, rfl, -⟩ | ⟨-, rfl, -⟩
    · have bound := effect.least old
      omega
    · omega
    · exact Nat.le_refl _

/-- A round of the executed stage agrees exactly when its row sorts after the rows that stay open. -/
theorem AdvanceEffect.agrees_round (effect : AdvanceEffect input before after attempt row reached)
    (wf : WellFormed before) (next : reached.nextStage = some attempt.stage)
    (unused : attempt.stage = attempt.stage ∨ inFlight attempt.run attempt.stage = none →
      Unused input before attempt.stage) :
    Agrees input attempt after attempt.stage ↔
      ∀ item, before.Opens input.runId attempt.stage item →
        (item.id = row.id → stageTerminal reached.stageStatus = false) →
          rowBefore attempt.run.route (startedRow input attempt.stage) item = false := by
  obtain ⟨settled, settles, opens⟩ := effect.opens_after wf next unused
  obtain ⟨run, loaded, route⟩ := effect.reload
  have sound := effect.wellFormed wf
  have started : after.Opens input.runId attempt.stage (startedRow input attempt.stage) :=
    (opens attempt.stage _).mpr (Or.inr (Or.inr ⟨Or.inl rfl, rfl, rfl⟩))
  have current : nextStage run = some attempt.stage := by
    refine (nextStage_opens loaded).mpr ⟨⟨_, started⟩, ?_⟩
    intro stage item opened
    rcases (opens stage item).mp opened with ⟨old, -⟩ | ⟨-, rfl, -⟩ | ⟨-, rfl, -⟩
    · exact effect.least old
    · exact Nat.le_refl _
    · exact Nat.le_refl _
  have absent (item : StageRow) (opened : before.Opens input.runId attempt.stage item) :
      item.id ≠ (startedRow input attempt.stage).id := by
    intro same
    rw [wf.stageKeys item opened.member, opened.owner, opened.own] at same
    exact unused (Or.inl rfl) item opened.member opened.owner opened.own
      (operationKey_injective (effect.runId_free wf) (effect.runId_free wf) same).2.2
  have agrees : Agrees input attempt after attempt.stage ↔
      inFlight run attempt.stage = some (startedRow input attempt.stage).stageRun := by
    unfold Agrees startedOccurrence
    rw [if_pos (Or.inl rfl)]
    constructor
    · rintro ⟨other, again, -, flight⟩
      rw [loaded, Option.some.injEq] at again
      subst again
      exact flight
    · intro flight
      exact ⟨run, loaded, current, flight⟩
  rw [agrees, inFlight_opens sound loaded started, route]
  have moved : rowBefore attempt.run.route settled (startedRow input attempt.stage) =
      rowBefore attempt.run.route row (startedRow input attempt.stage) :=
    rowBefore_congr settles.stage_eq settles.id_eq settles.createdAt_eq
  constructor
  · intro before_ item opened stays
    rw [← rowBefore_swap (absent item opened)]
    by_cases same : item.id = row.id
    · have equal := wf.stagesUnique.eq opened.member effect.member same
      subst equal
      rw [← moved]
      exact before_ settled ((opens attempt.stage settled).mpr (Or.inr (Or.inl ⟨rfl, rfl, stays rfl⟩)))
    · exact before_ item ((opens attempt.stage item).mpr (Or.inl ⟨opened, same⟩))
  · intro last item opened
    rcases (opens attempt.stage item).mp opened with ⟨old, apart⟩ | ⟨rfl, -, live⟩ | ⟨-, -, rfl⟩
    · rw [rowBefore_swap (absent item old)]
      exact last item old fun same => absurd same apart
    · rw [moved, rowBefore_swap (absent row effect.opens)]
      exact last row effect.opens fun _ => live
    · exact rowBefore_refl _

/-- Over a whole decision: the driver goes on where the flow said exactly when the step is clear. -/
theorem AdvanceEffect.agrees_iff (effect : AdvanceEffect input before after attempt row reached)
    (wf : WellFormed before) (next : reached.nextStage = some target)
    (unused : target = attempt.stage ∨ inFlight attempt.run target = none → Unused input before target) :
    Agrees input attempt after target ↔ StepsClear input before attempt := by
  have stage_eq := effect.answers.stage_eq
  rcases effect.reaches.next next with ⟨leaves, rfl⟩ | ⟨action, asked, -, failed, rfl⟩ |
    ⟨phase, reason, asked, succeeded, rfl⟩
  · have forward := nextStage_some leaves.successor
    rw [stage_eq] at forward
    rw [effect.agrees_forward wf next forward rfl unused]
    cases leaves with
    | executed reason action _ _ => simp only [StepsClear, show attempt.result.nextAction.type = .executeStage by
        rw [action]; rfl]
    | merged request reason action _ _ _ => simp only [StepsClear, show attempt.result.nextAction.type = .merge by
        rw [action]; rfl]
  · have kind : attempt.result.nextAction.type = .rework := by
      rw [asked]
      rfl
    rw [stage_eq] at next unused ⊢
    simp only [StepsClear, kind]
    by_cases same : reworkTarget attempt.stage = attempt.stage
    · rw [same] at next unused ⊢
      rw [effect.agrees_round wf next unused]
      simp [RoundLast, kind, failed, stageTerminal, stageStatusTransitions]
    · have back : stageIndex (reworkTarget attempt.stage) < stageIndex attempt.stage := by
        have bound := reworkTarget_index attempt.stage
        have distinct : stageIndex (reworkTarget attempt.stage) ≠ stageIndex attempt.stage :=
          fun equal => same (stageIndex_injective equal)
        omega
      simp only [same, false_implies, iff_true]
      exact effect.agrees_back wf next back unused
  · have kind : attempt.result.nextAction.type = .phaseRound := by
      rw [asked]
      rfl
    rw [stage_eq] at next unused ⊢
    simp only [StepsClear, kind]
    rw [effect.agrees_round wf next unused]
    have closed : stageTerminal reached.stageStatus = true := by
      rw [succeeded]
      rfl
    constructor
    · intro last item opened apart
      refine last item opened fun same => ?_
      exact absurd ((effect.flight_iff wf opened).mpr same) (apart kind)
    · intro last item opened stays
      refine last item opened fun _ flight => ?_
      rw [stays ((effect.flight_iff wf opened).mp flight)] at closed
      cases closed

end Effect

/-- In every state reachable by creations and faithful advances, an advance whose decision names a next
    stage, with an unused revision for what it creates, is followed by that stage at the occurrence it
    started exactly when the step is clear. -/
theorem driver_follows_flow_iff {drives : List Drive} (faithful : ∀ drive ∈ drives, drive.faithful)
    {input : AdvanceInput} (answering : Faithful input) {attempt : Attempted}
    (planned : attempted input (driven drives) = some attempt) {report : RunAdvance} {after : Store}
    (advanced : advanceRun input (driven drives) = .ok report after) {decision : FlowDecision}
    (decided : report.decision = some decision) {target : Stage} (next : decision.nextStage = some target)
    (unused : target = attempt.stage ∨ inFlight attempt.run target = none → Unused input (driven drives) target) :
    Agrees input attempt after target ↔ StepsClear input (driven drives) attempt := by
  have wf := driven_wellFormed faithful
  rcases advanceRun_ok wf answering advanced with ⟨replayed, -⟩ | ⟨made, row, reached, effect, reported, -⟩
  · rw [decided] at replayed
    cases replayed
  · have plan := effect.plan
    rw [planned, Option.some.injEq] at plan
    subst plan
    rw [decided, Option.some.injEq] at reported
    subst reported
    exact effect.agrees_iff wf next unused

def specificationAccepted (revision : String) : AdvanceInput :=
  scripted quickRun.runId 2 revision
    { status := .succeeded, nextAction := .executeStage .planning none
      gateResults := [Gate.passed .specification] }

theorem first_specification_agrees :
    ∃ attempt report after, attempted (specificationAccepted "c1") (driven [.create quickRun]) = some attempt ∧
      advanceRun (specificationAccepted "c1") (driven [.create quickRun]) = .ok report after ∧
      Agrees (specificationAccepted "c1") attempt after .planning := by
  have faithful : ∀ drive ∈ [Drive.create quickRun], drive.faithful := by
    simp [Drive.faithful]
  have facts : (attempted (specificationAccepted "c1") (driven [.create quickRun])).map (fun attempt =>
      (attempt.result.nextAction.type, decide (SoleInFlight attempt.run attempt.stage))) =
        some (.executeStage, true) ∧
      ((reportOf (specificationAccepted "c1") (driven [.create quickRun])).bind (·.decision)).bind
        (·.nextStage) = some .planning ∧
      Unused (specificationAccepted "c1") (driven [.create quickRun]) .planning := by decide +kernel
  obtain ⟨plan, reported, unused⟩ := facts
  obtain ⟨attempt, planned, facts⟩ := Option.map_eq_some_iff.mp plan
  obtain ⟨kind, sole⟩ := Prod.mk.inj facts
  obtain ⟨decision, made, next⟩ := Option.bind_eq_some_iff.mp reported
  obtain ⟨report, advanced, decided⟩ := Option.bind_eq_some_iff.mp made
  obtain ⟨after, done⟩ : ∃ after, advanceRun (specificationAccepted "c1") (driven [.create quickRun]) =
      .ok report after := by
    unfold reportOf at advanced
    split at advanced
    · rename_i held after done
      cases advanced
      exact ⟨after, done⟩
    · cases advanced
  refine ⟨attempt, report, after, planned, done, ?_⟩
  refine (driver_follows_flow_iff faithful (scripted_faithful _ _ _ _) planned done decided next
    fun _ => unused).mpr ?_
  simpa only [StepsClear, kind] using of_decide_eq_true sole

def specificationRework : AdvanceInput :=
  scripted quickRun.runId 1 "c1" { status := .failed, nextAction := .rework ⟨1, 3, "fix", firstRound, thirdRound⟩ }

/-- After a rework round the flow goes on to the planning, while the driver falls back to the occurrence of
    the specification that the round left failed. -/
theorem reworked_specification_disagrees :
    (∀ drive ∈ [Drive.create quickRun, .advance specificationRework, .advance (specificationAccepted "c2")],
        drive.faithful) ∧
      Unused specificationRework (driven [.create quickRun]) .specification ∧
      Unused (specificationAccepted "c2") (driven [.create quickRun, .advance specificationRework]) .planning ∧
      ((reportOf (specificationAccepted "c2") (driven [.create quickRun, .advance specificationRework])).bind
        (·.decision)).bind (·.nextStage) = some .planning ∧
      ((driven [.create quickRun, .advance specificationRework, .advance (specificationAccepted "c2")]).load
        quickRun.runId).bind nextStage = some .specification := by
  refine ⟨?_, by decide +kernel⟩
  simp only [List.forall_mem_cons, List.not_mem_nil, false_implies, implies_true, and_true]
  exact ⟨trivial, scripted_faithful _ _ _ _, scripted_faithful _ _ _ _⟩

end DarkFactory
