import DarkFactory.Runner.Scripts

namespace DarkFactory

def Passed (store : Store) (runId : String) (stage : Stage) : Prop :=
  ∃ row ∈ store.stages, row.executionId = runId ∧ row.stage = stage ∧ row.status = .succeeded

/-- Every row stands on succeeded rows of the stages before its own; a succeeded run passed them all. -/
structure Ladder (store : Store) : Prop where
  wellFormed : WellFormed store
  climbed : ∀ row ∈ store.stages, ∀ earlier, stageIndex earlier < stageIndex row.stage →
    Passed store row.executionId earlier
  completed : ∀ id execution, store.execution id = some execution → execution.status = .succeeded →
    ∀ stage, Passed store id stage

/-- The decision moved a row of the stage before on the route to succeeded. -/
def MovesPredecessor (route : Route) (before after : Store) (decision : FlowDecision) (row : StageRow) : Prop :=
  (routeProfile route).nextStage decision.stage = some row.stage ∧
    ∃ old ∈ before.stages, ∃ moved ∈ after.stages, moved.id = old.id ∧ moved.executionId = row.executionId ∧
      moved.stage = decision.stage ∧ old.status ≠ .succeeded ∧ moved.status = .succeeded

/-- The decision reworks from the stage itself or from a later one. -/
def ReworksInto (decision : FlowDecision) (stage : Stage) : Prop :=
  (∃ action, decision.action = .rework action) ∧ reworkTarget decision.stage = stage ∧
    stageIndex stage ≤ stageIndex decision.stage

/-- The gates, the class and the stage the policy weighs are those of the run. -/
def MergeRequestContext.anchored (context : MergeRequestContext) (run : ChangeRun) (result : StageResult) :
    MergeRequestContext :=
  { context with
    route := run.route, stage := result.stage, riskClass := riskClassOf run, gateResults := result.gateResults }

def MergeGranted (attempt : Attempted) (decision : FlowDecision) : Prop :=
  (∃ request reason, decision.action = .merge request reason) ∧
    ∃ context, attempt.mergeContext = some context ∧
      (evaluateMerge (context.anchored attempt.run attempt.result) mergePolicy).kind.authorized = true

theorem Attempted.charged_route (attempt : Attempted) : attempt.charged.route = attempt.run.route := by
  unfold Attempted.charged chargeUsage moveRun
  split <;> rfl

theorem Attempted.charged_risk (attempt : Attempted) : riskClassOf attempt.charged = riskClassOf attempt.run := by
  unfold Attempted.charged chargeUsage moveRun riskClassOf
  split <;> rfl

section Effect

variable {input : AdvanceInput} {before after : Store} {attempt : Attempted} {row : StageRow} {reached : Verdict}

/-- A succeeded row is never in flight, so no decision moves it. -/
theorem AdvanceEffect.passed (effect : AdvanceEffect input before after attempt row reached)
    (wf : WellFormed before) {id : String} {stage : Stage} (passed : Passed before id stage) :
    Passed after id stage := by
  obtain ⟨settled, -, rows⟩ := effect.rows wf
  obtain ⟨done, member, owner, own, succeeded⟩ := passed
  refine ⟨done, (rows done).mpr (Or.inl ⟨member, ?_⟩), owner, own, succeeded⟩
  intro same
  have live := effect.live
  rw [← wf.stagesUnique.eq member effect.member same, StageRow.open, succeeded] at live
  cases live

theorem AdvanceEffect.passes (effect : AdvanceEffect input before after attempt row reached)
    (wf : WellFormed before) (succeeded : reached.stageStatus = .succeeded) :
    Passed after input.runId attempt.stage := by
  obtain ⟨settled, settles, rows⟩ := effect.rows wf
  exact ⟨settled, (rows settled).mpr (Or.inr (Or.inl rfl)), settles.executionId_eq.trans effect.owner,
    settles.stage_eq.trans effect.own, settles.status_eq.trans succeeded⟩

theorem AdvanceEffect.released (effect : AdvanceEffect input before after attempt row reached)
    (succeeded : reached.runStatus = .succeeded) :
    attempt.stage = .release ∧ reached.stageStatus = .succeeded := by
  obtain ⟨released, settled, -, -⟩ := effect.reaches.succeeded succeeded
  have listed := effect.listed
  rw [released] at listed
  exact ⟨release_listed listed, settled⟩

theorem AdvanceEffect.ladder (effect : AdvanceEffect input before after attempt row reached)
    (ladder : Ladder before) : Ladder after := by
  have wf := ladder.wellFormed
  obtain ⟨settled, settles, rows⟩ := effect.rows wf
  have below (earlier : Stage) (under : stageIndex earlier < stageIndex attempt.stage) :
      Passed after input.runId earlier := by
    rw [← effect.own] at under
    have climbed := ladder.climbed row effect.member earlier under
    rw [effect.owner] at climbed
    exact effect.passed wf climbed
  constructor
  · exact effect.wellFormed wf
  · intro item member earlier under
    rcases (rows item).mp member with ⟨kept, -⟩ | rfl | ⟨target, starts, -, rfl⟩
    · exact effect.passed wf (ladder.climbed item kept earlier under)
    · rw [settles.executionId_eq, effect.owner]
      rw [settles.stage_eq, effect.own] at under
      exact below earlier under
    · change stageIndex earlier < stageIndex target at under
      change Passed after input.runId earlier
      rcases effect.reaches.next (starts_next starts) with ⟨leaves, rfl⟩ | ⟨action, -, -, -, rfl⟩ |
        ⟨phase, reason, -, -, rfl⟩
      · have index := nextStage_some leaves.successor
        rw [effect.answers.stage_eq] at index
        by_cases last : earlier = attempt.stage
        · rw [last]
          exact effect.passes wf rfl
        · have apart : stageIndex earlier ≠ stageIndex attempt.stage := fun same => last (stageIndex_injective same)
          exact below earlier (by omega)
      · have bound := reworkTarget_index attempt.result.stage
        rw [effect.answers.stage_eq] at under bound
        exact below earlier (by omega)
      · rw [effect.answers.stage_eq] at under
        exact below earlier under
  · intro id execution found succeeded stage
    rcases effect.execution_cases found with ⟨rfl, status⟩ | ⟨-, kept⟩
    · obtain ⟨last, settledStatus⟩ := effect.released (status.symm.trans succeeded)
      by_cases final : stage = .release
      · rw [final, ← last]
        exact effect.passes wf settledStatus
      · refine below stage ?_
        rw [last]
        cases stage <;> first | decide | exact absurd rfl final
    · exact effect.passed wf (ladder.completed id execution kept succeeded stage)

theorem AdvanceEffect.brings (effect : AdvanceEffect input before after attempt row reached)
    (wf : WellFormed before) {item : StageRow} (member : item ∈ after.stages)
    (fresh : ∀ old ∈ before.stages, old.id ≠ item.id) (later : item.stage ≠ .specification) :
    item.executionId = input.runId ∧
      (MovesPredecessor attempt.run.route before after (reached.decision attempt.stage) item ∨
        ReworksInto (reached.decision attempt.stage) item.stage) ∧
      (item.stage = .release → MergeGranted attempt (reached.decision attempt.stage)) := by
  obtain ⟨settled, settles, rows⟩ := effect.rows wf
  have stage_eq := effect.answers.stage_eq
  have listed := effect.listed
  rcases (rows item).mp member with ⟨kept, -⟩ | rfl | ⟨target, starts, -, rfl⟩
  · exact absurd rfl (fresh item kept)
  · exact absurd settles.id_eq.symm (fresh row effect.member)
  refine ⟨rfl, ?_⟩
  change target ≠ .specification at later
  rcases effect.reaches.next (starts_next starts) with ⟨leaves, rfl⟩ | ⟨action, asked, kept, -, rfl⟩ |
    ⟨phase, reason, asked, -, rfl⟩
  · have successor := leaves.successor
    rw [attempt.charged_route, stage_eq] at successor
    constructor
    · refine Or.inl ⟨successor, row, effect.member, settled, (rows settled).mpr (Or.inr (Or.inl rfl)),
        settles.id_eq, settles.executionId_eq.trans effect.owner, settles.stage_eq.trans effect.own, ?_,
        settles.status_eq⟩
      intro succeeded
      have live := effect.live
      rw [StageRow.open, succeeded] at live
      cases live
    · intro released
      change target = .release at released
      subst released
      cases leaves with
      | executed reason action _ _ =>
        rw [action] at listed
        have early := executeStage_listed listed
        have index := nextStage_some successor
        have last : stageIndex .release = 4 := rfl
        omega
      | merged request reason action _ _ authorized =>
        refine ⟨⟨request, reason, action⟩, ?_⟩
        unfold mergeAuthorized mergePolicyDecision at authorized
        cases given : attempt.mergeContext with
        | none => simp [given, MergeDecisionKind.authorized] at authorized
        | some context =>
          simp only [given, attempt.charged_route, attempt.charged_risk] at authorized
          exact ⟨context, rfl, authorized⟩
  · rw [asked] at listed
    have target := rework_listed listed
    rw [stage_eq] at later ⊢
    refine ⟨Or.inr ⟨⟨action, kept⟩, rfl, reworkTarget_index attempt.stage⟩, ?_⟩
    intro released
    exact absurd released target
  · rw [asked] at listed
    rw [stage_eq, phaseRound_listed listed] at later
    exact absurd rfl later

end Effect

theorem afterDrive_ladder {before : Store} (drive : Drive) (ladder : Ladder before) (faithful : drive.faithful) :
    Ladder (afterDrive before drive) := by
  have wf := ladder.wellFormed
  rcases afterDrive_cases wf drive faithful with frame | ⟨input, -, effect⟩ |
    ⟨input, report, attempt, row, reached, -, -, effect, -⟩
  · have kept {id : String} {stage : Stage} (passed : Passed before id stage) :
        Passed (afterDrive before drive) id stage := by
      rw [Passed, frame.stages]
      exact passed
    refine ⟨frame.wellFormed wf, ?_, ?_⟩
    · intro row member earlier under
      rw [frame.stages] at member
      exact kept (ladder.climbed row member earlier under)
    · intro id execution found succeeded stage
      rw [Store.execution, frame.executions] at found
      exact kept (ladder.completed id execution found succeeded stage)
  · obtain ⟨first, rfl, rows⟩ := effect.rows
    have kept {id : String} {stage : Stage} (passed : Passed before id stage) :
        Passed (afterDrive before drive) id stage := by
      obtain ⟨done, member, facts⟩ := passed
      exact ⟨done, (rows done).mpr (Or.inl member), facts⟩
    refine ⟨effect.wellFormed, ?_, ?_⟩
    · intro row member earlier under
      rcases (rows row).mp member with listed | rfl
      · exact kept (ladder.climbed row listed earlier under)
      · exact absurd under (Nat.not_lt_zero _)
    · intro id execution found succeeded stage
      rcases effect.execution_cases found with pending | old
      · rw [pending] at succeeded
        cases succeeded
      · exact kept (ladder.completed id execution old succeeded stage)
  · exact effect.ladder ladder

theorem driven_ladder {drives : List Drive} (faithful : ∀ drive ∈ drives, drive.faithful) :
    Ladder (driven drives) := by
  have along : Trace.Along afterDrive (fun _ drive => drive.faithful) {} drives :=
    Trace.along_of_forall fun drive member _ => faithful drive member
  exact Trace.invariant (fun store drive held met => afterDrive_ladder drive held met)
    ⟨WellFormed.empty, by simp, by simp [Store.execution, Table.find]⟩ along

/-- Whatever the answers, observations and orders of the advances: a row of a later stage is made by a
    decision that moved a row of the stage before to succeeded or by a rework, a release row by an
    authorized merge, and a succeeded run passed every stage of its route. -/
theorem no_stage_skipped {drives : List Drive} (faithful : ∀ drive ∈ drives, drive.faithful) :
    (∀ earlier drive later, drives = earlier ++ drive :: later →
      ∀ row ∈ (driven (earlier ++ [drive])).stages, (∀ old ∈ (driven earlier).stages, old.id ≠ row.id) →
      ∀ execution, (driven (earlier ++ [drive])).execution row.executionId = some execution →
        row.stage ≠ (routeProfile execution.route).initialStage →
        ∃ input decision, drive = .advance input ∧ input.runId = row.executionId ∧
          (reportOf input (driven earlier)).bind RunAdvance.decision = some decision ∧
          (MovesPredecessor execution.route (driven earlier) (driven (earlier ++ [drive])) decision row ∨
            ReworksInto decision row.stage) ∧
          (row.stage = .release →
            ∃ attempt, attempted input (driven earlier) = some attempt ∧ MergeGranted attempt decision)) ∧
      ∀ id execution, (driven drives).execution id = some execution → execution.status = .succeeded →
        ∀ stage ∈ (routeProfile execution.route).stages, Passed (driven drives) id stage := by
  constructor
  · intro earlier drive later split row member fresh execution found initial
    subst split
    rw [initialStage_specification] at initial
    have before : Ladder (driven earlier) :=
      driven_ladder fun held listed => faithful held (List.mem_append_left _ listed)
    have wf := before.wellFormed
    rw [driven_snoc] at member found ⊢
    rcases afterDrive_cases wf drive (faithful drive (by simp)) with frame | ⟨input, -, effect⟩ |
      ⟨input, report, attempt, held, reached, rfl, advanced, effect, decided⟩
    · rw [frame.stages] at member
      exact absurd rfl (fresh row member)
    · obtain ⟨first, rfl, rows⟩ := effect.rows
      rcases (rows row).mp member with listed | rfl
      · exact absurd rfl (fresh row listed)
      · exact absurd rfl initial
    · obtain ⟨owner, brought, granted⟩ := effect.brings wf member fresh initial
      have reported : reportOf input (driven earlier) = some report := by
        rw [reportOf, advanced]
      have route : execution.route = attempt.run.route := by
        obtain ⟨old, there, -, same, -⟩ := load_some effect.loaded
        obtain ⟨revision, budget, moved⟩ := effect.execution_self
        rw [owner, moved, there, Option.map_some, Option.some.injEq] at found
        rw [same, ← found]
        rfl
      rw [route]
      exact ⟨input, _, rfl, owner.symm, by rw [reported]; exact decided, brought,
        fun released => ⟨attempt, effect.plan, granted released⟩⟩
  · intro id execution found succeeded stage _
    exact (driven_ladder faithful).completed id execution found succeeded stage

theorem quick_run_passes_every_stage :
    ((driven quickReleased).execution quickRun.runId).map (·.status) = some .succeeded ∧
      ∀ stage ∈ stageSequence, Passed (driven quickReleased) quickRun.runId stage := by
  have done : ((driven quickReleased).execution quickRun.runId).map (fun execution =>
      (execution.status, execution.route)) = some (.succeeded, .quick) := by decide +kernel
  obtain ⟨execution, found, facts⟩ := Option.map_eq_some_iff.mp done
  obtain ⟨succeeded, route⟩ := Prod.mk.inj facts
  rw [found]
  refine ⟨by rw [Option.map_some, succeeded], ?_⟩
  have passes := (no_stage_skipped quickReleased_faithful).2 quickRun.runId execution found succeeded
  rw [route] at passes
  exact passes

def planningRework : AdvanceInput :=
  scripted quickRun.runId 2 "c2" { status := .failed, nextAction := .rework ⟨1, 3, "fix", firstRound, thirdRound⟩ }

def strayAnswer : AdvanceInput :=
  { scripted quickRun.runId 1 "c1" { status := .succeeded, nextAction := .executeStage .construction none } with
    executor := fun context => .ok
      { (Answer.result { status := .succeeded, nextAction := .executeStage .construction none
                         gateResults := [Gate.passed .planning] } context 1) with stage := .planning } }

def Store.progress (store : Store) : List (Stage × String × StageStatus) :=
  store.stages.map fun row => (row.stage, row.inputRevision, row.status)

/-- A planning row made by a rework of the planning itself, and a construction row made while the planning
    row of the run is still pending. -/
theorem stages_entered_otherwise :
    ((driven (quickToReview.take 2)).progress =
        [(.specification, "c0", .succeeded), (.planning, "c1", .pending)] ∧
      (driven (quickToReview.take 2 ++ [.advance planningRework])).progress =
        [(.specification, "c0", .succeeded), (.planning, "c1", .failed), (.planning, "c2", .pending)] ∧
      (reportOf planningRework (driven (quickToReview.take 2))).bind (fun report =>
        report.decision.map fun decision => (decision.stage, decision.nextStage)) =
          some (.planning, some .planning)) ∧
      (driven [.create quickRun]).progress = [(.specification, "c0", .pending)] ∧
      (driven [.create quickRun, .advance strayAnswer]).progress =
        [(.specification, "c0", .succeeded), (.planning, "c1", .pending), (.construction, "c1", .pending)] := by
  decide +kernel

end DarkFactory
