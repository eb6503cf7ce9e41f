import DarkFactory.Flow.Entry
import DarkFactory.Flow.Reasons

namespace DarkFactory

def attemptAccepted (run : ChangeRun) (result : StageResult) : Bool :=
  match activeIndex run result.stage with
  | some index => attemptMatches (run.stageRunAt index) result.attemptNumber
  | none => result.attemptNumber = 1

/-- A result that passes every check made before the first write, and names another stage than the successor. -/
structure Misrouted (run : ChangeRun) (result : StageResult) : Prop where
  live : runTerminal run.status = false
  listed : (flowTransitions result.stage).contains result.nextAction.type = true
  paired : result.status = expectedResultStatus result.nextAction
  accepted : attemptAccepted run result = true
  elsewhere : ∃ target reason, result.nextAction = .executeStage target reason ∧
    (routeProfile run.route).nextStage result.stage ≠ some target

structure AlreadyEntered (run : ChangeRun) (result : StageResult) : Prop where
  running : run.status = .running
  entered : ∃ index, activeIndex run result.stage = some index ∧
    (run.stageRunAt index).status = .inProgress ∧ (run.stageRunAt index).attemptNumber = result.attemptNumber
  unspent : accumulateUsage result.usage run.budget = run.budget

section Refusal

variable {run entered : ChangeRun} {result : StageResult} {index : Nat} {history : List StageResult}
  {now : Timestamp} {context : Option MergeRequestContext} {decisions : List Decision}

theorem ensureStageRun_accepts :
    (∃ index entered, ensureStageRun result run = .ok (index, entered)) ↔ attemptAccepted run result = true := by
  constructor
  · rintro ⟨index, entered, ensured⟩
    rcases ensureStageRun_ok ensured with ⟨stageRun, active, there, current, -⟩ | ⟨absent, first, -, -⟩
    · simp only [attemptAccepted, active, stageRunAt_eq there, current]
    · simp [attemptAccepted, absent, first]
  · intro accepted
    unfold attemptAccepted at accepted
    cases active : activeIndex run result.stage with
    | none =>
      rw [active] at accepted
      exact ⟨_, _, ensureStageRun_first active (of_decide_eq_true accepted)⟩
    | some index =>
      obtain ⟨stageRun, there, -⟩ := activeIndex_some active
      simp only [active, stageRunAt_eq there] at accepted
      exact ⟨_, _, ensureStageRun_occupied active there accepted⟩

theorem verdict_error (listed : (flowTransitions result.stage).contains result.nextAction.type = true) :
    (∃ failure, verdict run result history now context decisions = .error failure) ↔
      ∃ target reason, result.nextAction = .executeStage target reason ∧
        (routeProfile run.route).nextStage result.stage ≠ some target := by
  unfold verdict
  cases action : result.nextAction with
  | executeStage target reason =>
    simp only [executeVerdict, NextAction.executeStage.injEq]
    by_cases wrong : (routeProfile run.route).nextStage result.stage ≠ some target
    · rw [if_pos wrong]
      exact ⟨fun _ => ⟨target, reason, ⟨rfl, rfl⟩, wrong⟩, fun _ => ⟨_, rfl⟩⟩
    · rw [if_neg wrong]
      constructor
      · rintro ⟨failure, refused⟩
        split at refused <;> cases refused
      · rintro ⟨other, text, ⟨rfl, -⟩, different⟩
        exact absurd different wrong
  | waitForInput | waitForCi | requestApproval | rework | phaseRound | release | stop => simp
  | merge request reason =>
    rw [action] at listed
    have stage := merge_listed listed
    simp only [reduceCtorEq, false_and, exists_false, iff_false, not_exists]
    intro failure refused
    simp only [mergeVerdict] at refused
    have follows : ∃ target, (routeProfile run.route).nextStage result.stage = some target := by
      rw [stage]
      cases run.route <;> exact ⟨_, rfl⟩
    obtain ⟨target, next⟩ := follows
    simp only [next] at refused
    split at refused
    · cases refused
    · split at refused <;> cases refused

theorem enter_eq_self {stageRun : StageRun} {attemptNumber : Nat} :
    stageRun.enter attemptNumber = stageRun ↔
      stageRun.status = .inProgress ∧ stageRun.attemptNumber = attemptNumber := by
  constructor
  · intro same
    exact ⟨(congrArg StageRun.status same).symm, (congrArg StageRun.attemptNumber same).symm⟩
  · rintro ⟨status, number⟩
    cases stageRun
    simp_all [StageRun.enter]

theorem handled_eq_self (ensured : ensureStageRun result run = .ok (index, entered)) :
    handled result entered = run ↔ AlreadyEntered run result := by
  rcases ensureStageRun_ok ensured with ⟨stageRun, active, there, current, rfl⟩ | ⟨absent, first, rfl, rfl⟩
  · have bound := (List.getElem?_eq_some_iff.mp there).1
    constructor
    · intro same
      have running : run.status = .running := by
        rw [← same]
        exact moveRun_status .running
      have stages := congrArg ChangeRun.stages same
      rw [handled_stages] at stages
      have budget := congrArg ChangeRun.budget same
      rw [handled_budget] at budget
      have unmoved : stageRun.enter result.attemptNumber = stageRun := by
        have inside := congrArg (fun items => items[index]?) stages
        rw [there, List.getElem?_set_self bound, Option.some.injEq] at inside
        exact inside
      obtain ⟨status, number⟩ := enter_eq_self.mp unmoved
      refine ⟨running, ⟨index, active, ?_⟩, budget⟩
      rw [stageRunAt_eq there]
      exact ⟨status, number⟩
    · rintro ⟨running, ⟨place, found, status, number⟩, unspent⟩
      rw [active, Option.some.injEq] at found
      subst found
      rw [stageRunAt_eq there] at status number
      have unmoved : run.stages.set index (stageRun.enter result.attemptNumber) = run.stages := by
        rw [enter_eq_self.mpr ⟨status, number⟩]
        obtain ⟨inside, same⟩ := List.getElem?_eq_some_iff.mp there
        rw [← same, List.set_getElem_self]
      rw [unmoved, handled, moveRun_self .running running, chargeUsage, unspent]
  · constructor
    · intro same
      have stages := congrArg (fun held => held.stages.length) same
      simp [handled_stages] at stages
    · rintro ⟨-, ⟨index, active, -⟩, -⟩
      rw [absent] at active
      cases active

theorem handled_route_eq (ensured : ensureStageRun result run = .ok (index, entered)) :
    (handled result entered).route = run.route := by
  rw [handled_route]
  rcases ensureStageRun_ok ensured with ⟨stageRun, -, -, -, rfl⟩ | ⟨-, -, -, rfl⟩ <;> rfl

/-- A refusal leaves the run as it was exactly when it is not the late one, or the late one had nothing
    to write. -/
theorem refusal_keeps_run_iff (run : ChangeRun) (result : StageResult) (history : List StageResult)
    (now : Timestamp) (context : Option MergeRequestContext) (decisions : List Decision) :
    (∀ failure after, applyResult result history now context decisions run = .error failure after → after = run) ↔
      (Misrouted run result → AlreadyEntered run result) := by
  by_cases misrouted : Misrouted run result
  · obtain ⟨index, entered, ensured⟩ := ensureStageRun_accepts.mpr misrouted.accepted
    have elsewhere := misrouted.elsewhere
    rw [← handled_route_eq ensured] at elsewhere
    obtain ⟨failure, wrong⟩ : ∃ failure,
        verdict (handled result entered) result history now context decisions = .error failure :=
      (verdict_error misrouted.listed).mpr elsewhere
    have refused : applyResult result history now context decisions run = .error failure (handled result entered) := by
      rw [applyResult_eq misrouted.live misrouted.listed misrouted.paired ensured, wrong]
      rfl
    rw [refused, ← handled_eq_self ensured]
    simp [misrouted, eq_comm]
  · refine ⟨fun _ met => absurd met misrouted, ?_⟩
    intro _ failure after refused
    rcases applyResult_refused refused with same | ⟨index, entered, live, listed, paired, ensured, late, -⟩
    · exact same
    · have elsewhere := (verdict_error listed).mp ⟨failure, late⟩
      rw [handled_route_eq ensured] at elsewhere
      exact absurd ⟨live, listed, paired, ensureStageRun_accepts.mp ⟨index, entered, ensured⟩, elsewhere⟩ misrouted

def unstartedRun : ChangeRun :=
  { id := "run_1", changeId := "change-1", route := .standard, provider := .github }

def misroutedResult : StageResult :=
  { stage := .specification, runId := "run_1", changeId := "change-1", status := .succeeded
    nextAction := .executeStage .release none, usage := some { promptTokens := 15, completionTokens := 5 }
    producedAt := 0 }

/-- The refused result leaves the run running, with a stage run in progress and the tokens spent. -/
theorem misrouted_result_moves_run :
    ¬ ∀ (run : ChangeRun) (result : StageResult) (history : List StageResult) (now : Timestamp)
        (context : Option MergeRequestContext) (decisions : List Decision) (failure : Failure) (after : ChangeRun),
      applyResult result history now context decisions run = .error failure after → after = run := by
  intro atomic
  obtain ⟨failure, after, refused, moved⟩ : ∃ failure after,
      applyResult misroutedResult [] 0 none [] unstartedRun = .error failure after ∧
        after.status = .running ∧ after.budget.tokensUsed = 20 ∧ after.stages.map (·.status) = [.inProgress] :=
    ⟨_, _, rfl, by decide⟩
  have kept := atomic _ _ _ _ _ _ failure after refused
  rw [kept] at moved
  cases moved.1

end Refusal

end DarkFactory
