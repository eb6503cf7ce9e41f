import DarkFactory.Stages.MergeAdvance

namespace DarkFactory

structure Fits (run : ChangeRun) (stage : Stage) (attempt : WaitingAttempt) (result : StageResult) : Prop where
  ownStage : result.stage = stage
  ownAttempt : result.attemptNumber = attempt.attemptNumber
  ownRevision : result.inputRevision = some attempt.inputRevision
  free : result.usage = none
  listed : (flowTransitions stage).contains result.nextAction.type = true
  paired : result.status = expectedResultStatus result.nextAction
  successor : ∀ next reason, result.nextAction = .executeStage next reason →
    (routeProfile run.route).nextStage stage = some next

section Accepted

variable {run : ChangeRun} {stage : Stage} {attempt : WaitingAttempt} {result : StageResult}

theorem mergeVerdict_total {current : ChangeRun} (result : StageResult) (now : Timestamp)
    (context : Option MergeRequestContext) (review : result.stage = .reviewVerification) :
    ∃ reached, mergeVerdict current result now context = .ok reached := by
  have next : (routeProfile current.route).nextStage result.stage = some .release := by
    rw [review]
    cases current.route <;> rfl
  simp only [mergeVerdict, next]
  cases firstStopReason [blockReason current result.stage result.gateResults now,
      escalationStopReason result.escalations, riskBandReason current] with
  | some reason => exact ⟨_, rfl⟩
  | none => cases (mergePolicyDecision current result context).kind <;> exact ⟨_, rfl⟩

theorem Fits.accepted (fits : Fits run stage attempt result) (parked : Parked run stage attempt.attemptNumber)
    (history : List StageResult) (now : Timestamp) (context : Option MergeRequestContext)
    (decisions : List Decision) :
    ∃ decision after, applyResult result history now context decisions run = .ok decision after := by
  obtain ⟨index, current, same, applied⟩ := parked.applied fits.ownStage fits.ownAttempt fits.free
    (by rw [fits.ownStage]; exact fits.listed) fits.paired history now context decisions
  have total : ∃ reached, verdict current result history now context decisions = .ok reached := by
    cases action : result.nextAction with
    | executeStage next reason =>
      have expected : (routeProfile current.route).nextStage result.stage = some next := by
        rw [same.route, fits.ownStage]
        exact fits.successor next reason action
      simp only [verdict, action, executeVerdict, expected, ne_eq, not_true_eq_false, ↓reduceIte]
      split <;> exact ⟨_, rfl⟩
    | merge ref reason =>
      have review : result.stage = .reviewVerification := by
        have listed := fits.listed
        rw [← fits.ownStage, action] at listed
        exact merge_listed listed
      simp only [verdict, action]
      exact mergeVerdict_total result now context review
    | waitForInput | waitForCi | requestApproval | rework | phaseRound | release | stop =>
      exact ⟨_, by simp only [verdict, action]; rfl⟩
  obtain ⟨reached, computed⟩ := total
  exact ⟨_, _, by rw [applied, computed]; rfl⟩

end Accepted

/-- Stages whose completion the gate facts can resolve other than through the merge. -/
def producesWork (stage : Stage) : Prop := stage ≠ .release ∧ stage ≠ .reviewVerification

theorem producesWork_successor {stage : Stage} (works : producesWork stage) (route : Route) :
    ∃ next, (routeProfile route).nextStage stage = some next := by
  rcases nextStage_index route stage with ⟨next, step, -⟩ | ⟨release, -⟩
  · exact ⟨next, step⟩
  · exact absurd release works.1

theorem producesWork_listed {stage : Stage} (works : producesWork stage) :
    (flowTransitions stage).contains .executeStage = true ∧ (flowTransitions stage).contains .rework = true ∧
      (flowTransitions stage).contains .stop = true := by
  cases stage with
  | release => exact absurd rfl works.1
  | reviewVerification => exact absurd rfl works.2
  | specification | planning | construction => decide

theorem ReworkAction.build_ok {round maxRounds : Nat} {reason : String} (first : 1 ≤ round)
    (bounded : 1 ≤ maxRounds) : ∃ action, ReworkAction.build round maxRounds reason = .ok action := by
  simp [ReworkAction.build, first, bounded]

theorem ReworkAction.build_unbounded (round : Nat) (reason : String) :
    ∃ failure, ReworkAction.build round 0 reason = .error failure := by
  simp [ReworkAction.build]

section HumanGated

variable {run : ChangeRun} {stage : Stage} {observation : GateObservation} {attempt : WaitingAttempt}

theorem planReworkOrder_ok (budget : BudgetSnapshot) {orders : List ReworkOrder} (issued : orders ≠ []) :
    ∃ plan, planReworkOrder budget orders = .ok plan ∧
      (plan.outcome = .rework → plan.round = some (budget.usedReworkRounds + 1) ∧
        plan.maxRounds = budget.maxReworkRounds ∧ budget.usedReworkRounds < budget.maxReworkRounds) := by
  obtain ⟨passes, numbered, length, blocking⟩ := orderPasses_ok orders
  have some_pass : passes ≠ [] := by
    rintro rfl
    exact issued (List.length_eq_zero_iff.mp length.symm)
  have final := List.getLast?_eq_some_getLast some_pass
  obtain ⟨plan, planned, round⟩ := planRework_ok budget final (blocking _ (List.getLast_mem some_pass))
  refine ⟨plan, ?_, round⟩
  simp [planReworkOrder, List.isEmpty_iff, issued, numbered, planned, Bind.bind, Except.bind]

theorem pendingReworkOrder_issued {order : ReworkOrder} (pending : pendingReworkOrder observation = some order) :
    observation.reworkOrders ≠ [] := by
  intro empty
  simp [pendingReworkOrder, empty] at pending

theorem planResult_fits (rework : (flowTransitions stage).contains .rework = true)
    (stop : (flowTransitions stage).contains .stop = true) {plan : ReworkDecision}
    (round : plan.outcome = .rework → plan.round = some (run.budget.usedReworkRounds + 1) ∧
      plan.maxRounds = run.budget.maxReworkRounds ∧ run.budget.usedReworkRounds < run.budget.maxReworkRounds) :
    ∃ result, planResult run stage attempt plan = .ok result ∧ Fits run stage attempt result := by
  unfold planResult
  cases outcome : plan.outcome with
  | blocked => exact ⟨_, rfl, ⟨rfl, rfl, rfl, rfl, stop, rfl, by simp [attemptResult]⟩⟩
  | rework =>
    obtain ⟨number, bound, granted⟩ := round outcome
    obtain ⟨action, built⟩ := ReworkAction.build_ok
      (show 1 ≤ plan.round.getD (run.budget.usedReworkRounds + 1) by rw [number]; simp)
      (show 1 ≤ plan.maxRounds by omega)
    exact ⟨_, Outcome.bind_ok.mpr ⟨action, built, rfl⟩,
      ⟨rfl, rfl, rfl, rfl, rework, rfl, by simp [attemptResult]⟩⟩

theorem resolveReworkOrder_fits (works : producesWork stage) {order : ReworkOrder}
    (pending : pendingReworkOrder observation = some order) :
    ∃ resolution, resolveReworkOrder run stage observation attempt = .ok resolution ∧
      Fits run stage attempt resolution.result := by
  obtain ⟨-, rework, stop⟩ := producesWork_listed works
  obtain ⟨plan, planned, round⟩ := planReworkOrder_ok run.budget (pendingReworkOrder_issued pending)
  obtain ⟨result, made, fits⟩ := planResult_fits rework stop round
  exact ⟨_, Outcome.bind_ok.mpr ⟨plan, planned, Outcome.bind_ok.mpr ⟨result, made, rfl⟩⟩,
    ⟨fits.1, fits.2, fits.3, fits.4, fits.5, fits.6, fits.7⟩⟩

theorem resolveHumanGated_fits (works : producesWork stage)
    (phased : observation.nextPhase.isSome = true → stage = .specification) (riskClass : RiskClass) :
    ∃ resolution, resolveHumanGated run stage observation attempt riskClass = .ok resolution ∧
      Fits run stage attempt resolution.result := by
  obtain ⟨execute, -, -⟩ := producesWork_listed works
  obtain ⟨successor, next⟩ := producesWork_successor works run.route
  simp only [resolveHumanGated]
  split
  · rename_i ordered
    simp only [Bool.and_eq_true] at ordered
    obtain ⟨order, pending⟩ := Option.isSome_iff_exists.mp ordered.2
    exact resolveReworkOrder_fits works pending
  · rw [next]
    dsimp only
    split
    · rename_i phase _ named
      have round : stage = .specification := phased (by rw [named]; rfl)
      subst round
      exact ⟨_, rfl, ⟨rfl, rfl, rfl, rfl, rfl, rfl, by simp [attemptResult]⟩⟩
    · refine ⟨_, rfl, ⟨rfl, rfl, rfl, rfl, execute, rfl, ?_⟩⟩
      intro target reason action
      simp only [attemptResult, NextAction.executeStage.injEq] at action
      rw [next, action.1]

end HumanGated

section MachineGated

variable {run : ChangeRun} {stage : Stage} {observation : GateObservation} {attempt : WaitingAttempt}
  {riskClass : RiskClass}

theorem machineGateResults_of_failed (failing : pipelineFailed observation.pipelineStatus = true) (route : Route)
    (stage : Stage) (riskClass : RiskClass) : ∃ summary, machineGateResults route stage observation riskClass =
      (sortedGates (machineGates route stage riskClass)).map fun gate =>
        { gate, status := .failed, sha := observation.headSha, summary } := by
  cases status : observation.pipelineStatus with
  | none => simp [status, pipelineFailed] at failing
  | some verdict =>
    rw [status] at failing
    cases verdict with
    | queued | inProgress | success => simp [pipelineFailed] at failing
    | failure | canceled =>
      simp only [machineGateResults, status]
      exact ⟨_, rfl⟩

theorem machineGateResults_failed (failing : pipelineFailed observation.pipelineStatus = true) (route : Route) :
    ∀ item ∈ machineGateResults route stage observation riskClass, item.status = .failed := by
  intro item member
  obtain ⟨summary, same⟩ := machineGateResults_of_failed failing route stage riskClass
  rw [same] at member
  obtain ⟨gate, -, rfl⟩ := List.mem_map.mp member
  rfl

theorem machineGateResults_gates (failing : pipelineFailed observation.pipelineStatus = true) (route : Route) :
    (machineGateResults route stage observation riskClass).map (·.gate) =
      sortedGates (machineGates route stage riskClass) := by
  obtain ⟨summary, same⟩ := machineGateResults_of_failed failing route stage riskClass
  rw [same, List.map_map]
  exact List.map_id _

theorem failedGates_of_failing (failing : pipelineFailed observation.pipelineStatus = true) (route : Route)
    (stage : Stage) (riskClass : RiskClass) :
    failedGates (machineGateResults route stage observation riskClass) =
      (sortedGates (machineGates route stage riskClass)).insertionSort
        (fun left right => gateRank left ≤ gateRank right) := by
  have all : (machineGateResults route stage observation riskClass).filter (·.status = .failed) =
      machineGateResults route stage observation riskClass := by
    rw [List.filter_eq_self]
    intro item member
    simp [machineGateResults_failed failing route item member]
  rw [failedGates, all, machineGateResults_gates failing]

theorem sortedGates_empty (gates : Finset Gate) : sortedGates gates = [] ↔ gates = ∅ := by
  constructor
  · intro none
    apply Finset.eq_empty_of_forall_notMem
    intro gate member
    have listed := (mem_sortedGates gates gate).mpr member
    simp [none] at listed
  · rintro rfl
    decide

theorem machineGates_nonempty (machine : isPurelyHumanGated run.route stage riskClass = false) :
    machineGates run.route stage riskClass ≠ ∅ := by
  intro none
  have human : requiredHumanGates run.route stage riskClass ≠ ∅ := by
    intro empty
    obtain ⟨gate, required⟩ := requiredGates_nonempty run.route stage
    simp only [machineGates, empty, Finset.sdiff_empty] at none
    simp [none] at required
  unfold machineGates at none
  simp [isPurelyHumanGated, human, none] at machine

theorem failedGates_nonempty (failing : pipelineFailed observation.pipelineStatus = true)
    (machine : isPurelyHumanGated run.route stage riskClass = false) :
    failedGates (machineGateResults run.route stage observation riskClass) ≠ [] := by
  have gates := machineGates_nonempty machine
  rw [Ne, ← sortedGates_empty, ← List.length_eq_zero_iff] at gates
  rw [Ne, ← List.length_eq_zero_iff, failedGates_of_failing failing, List.length_insertionSort]
  exact gates

theorem machineGateResults_unattributed (green : observation.pipelineStatus = some .success)
    (unknown : observation.headSha = none) (route : Route) :
    machineGateResults route stage observation riskClass = [] := by
  simp [machineGateResults, green, unknown, pipelineFailed]

theorem machineGateResults_satisfied {sha : String} (green : observation.pipelineStatus = some .success)
    (head : observation.headSha = some sha)
    (unmanned : requiredHumanGates run.route stage riskClass = ∅) :
    unsatisfiedGates run.route stage (machineGateResults run.route stage observation riskClass) = [] := by
  rw [unsatisfiedGates_empty]
  intro gate required
  have listed : gate ∈ sortedGates (machineGates run.route stage riskClass) := by
    rw [mem_sortedGates, machineGates, unmanned, Finset.sdiff_empty]
    exact required
  simp only [machineGateResults, green, head]
  refine gateOpen_of_satisfied ?_ (List.mem_map_of_mem listed) rfl
  intro item member
  obtain ⟨found, -, rfl⟩ := List.mem_map.mp member
  rfl

theorem resolveMachineGated_failing (attempt : WaitingAttempt) (failing : pipelineFailed observation.pipelineStatus = true)
    (machine : isPurelyHumanGated run.route stage riskClass = false) :
    ∃ reason, resolveMachineGated run stage observation attempt riskClass =
      ((ReworkAction.build (run.budget.usedReworkRounds + 1) run.budget.maxReworkRounds reason).map fun action =>
        { result := { attemptResult run stage attempt .failed (.rework action) with
            gateResults := machineGateResults run.route stage observation riskClass
            findings := pipelineFindings
              (failedGates (machineGateResults run.route stage observation riskClass)) observation }
          mergeContext := none }) := by
  have unsatisfied : (unsatisfiedGates run.route stage
      (machineGateResults run.route stage observation riskClass)).isEmpty = false := by
    rw [List.isEmpty_eq_false_iff]
    apply unsatisfiedGates_of_unsatisfied
    intro item member
    rw [machineGateResults_failed failing run.route item member]
    rfl
  have failed : (failedGates (machineGateResults run.route stage observation riskClass)).isEmpty = false := by
    rw [List.isEmpty_eq_false_iff]
    exact failedGates_nonempty failing machine
  refine ⟨pipelineFailureReason observation
    (failedGates (machineGateResults run.route stage observation riskClass)), ?_⟩
  simp only [resolveMachineGated, unsatisfied, Bool.false_eq_true, ↓reduceIte, failed, Bool.not_false]
  cases ReworkAction.build (run.budget.usedReworkRounds + 1) run.budget.maxReworkRounds
    (pipelineFailureReason observation
      (failedGates (machineGateResults run.route stage observation riskClass))) <;> rfl

/-- A pipeline verdict resolves a machine gate unless it fails and the budget knows no rework round. -/
theorem resolveMachineGated_fits (works : producesWork stage)
    (machine : isPurelyHumanGated run.route stage riskClass = false)
    (decided : pipelineFailed observation.pipelineStatus = true ∨
      observation.pipelineStatus = some .success ∧ requiredHumanGates run.route stage riskClass = ∅)
    (granted : pipelineFailed observation.pipelineStatus = true → 1 ≤ run.budget.maxReworkRounds) :
    ∃ resolution, resolveMachineGated run stage observation attempt riskClass = .ok resolution ∧
      Fits run stage attempt resolution.result := by
  obtain ⟨execute, rework, stop⟩ := producesWork_listed works
  obtain ⟨successor, next⟩ := producesWork_successor works run.route
  rcases decided with failing | ⟨green, unmanned⟩
  · obtain ⟨reason, made⟩ := resolveMachineGated_failing attempt failing machine
    obtain ⟨action, built⟩ := ReworkAction.build_ok (Nat.succ_pos run.budget.usedReworkRounds) (granted failing)
    rw [made, built]
    exact ⟨_, rfl, ⟨rfl, rfl, rfl, rfl, rework, rfl, by simp [attemptResult]⟩⟩
  · cases head : observation.headSha with
    | some sha =>
      have satisfied := machineGateResults_satisfied green head unmanned
      simp only [resolveMachineGated, satisfied, List.isEmpty_nil, ↓reduceIte, next]
      refine ⟨_, rfl, ⟨rfl, rfl, rfl, rfl, execute, rfl, ?_⟩⟩
      intro target reason action
      simp only [attemptResult, NextAction.executeStage.injEq] at action
      rw [next, action.1]
    | none =>
      have unsatisfied : (unsatisfiedGates run.route stage []).isEmpty = false := by
        rw [List.isEmpty_eq_false_iff]
        exact unsatisfiedGates_of_unsatisfied (by simp) run.route stage
      have failed : (failedGates []).isEmpty = true := rfl
      simp only [resolveMachineGated, machineGateResults_unattributed green head run.route, unsatisfied,
        Bool.false_eq_true, ↓reduceIte, failed, Bool.not_true]
      exact ⟨_, rfl, ⟨rfl, rfl, rfl, rfl, stop, rfl, by simp [attemptResult]⟩⟩

theorem resolveMachineGated_granted (machine : isPurelyHumanGated run.route stage riskClass = false)
    {resolution : GateResolution}
    (made : resolveMachineGated run stage observation attempt riskClass = .ok resolution)
    (failing : pipelineFailed observation.pipelineStatus = true) : 1 ≤ run.budget.maxReworkRounds := by
  obtain ⟨reason, failed⟩ := resolveMachineGated_failing attempt failing machine
  rw [failed] at made
  by_contra none
  rw [show run.budget.maxReworkRounds = 0 by omega] at made
  obtain ⟨failure, refused⟩ := ReworkAction.build_unbounded (run.budget.usedReworkRounds + 1) reason
  rw [refused] at made
  cases made

end MachineGated

section Review

variable {run : ChangeRun} {change : Change} {checkpoint : StageResult} {observation : GateObservation}
  {attempt : WaitingAttempt}

theorem failedReview_revision {result : StageResult} {review : String × StageResult}
    (failed : failedReview result = some review) : review.1 ≠ "" := by
  unfold failedReview at failed
  split at failed
  · split at failed
    · rename_i kept
      cases failed
      simp only [ne_eq, Bool.and_eq_true, decide_eq_true_eq] at kept
      exact kept.2
    · cases failed
  · cases failed

theorem reviewPasses_ok (history : List StageResult) : ∃ passes, reviewPasses history = .ok passes := by
  have each : ∀ item ∈ (history.filterMap failedReview).zipIdx, ∃ pass,
      ReviewPass.build (item.2 + 1) item.1.1
        ((item.1.2.findings.filter (·.severity = .blocker)).map findingSignature) item.1.2.escalations =
          .ok pass := by
    intro item member
    obtain ⟨bound, same⟩ := List.mem_zipIdx' member
    have listed := List.getElem_mem bound
    rw [← same] at listed
    obtain ⟨result, -, failed⟩ := List.mem_filterMap.mp listed
    simp [ReviewPass.build, failedReview_revision failed]
  obtain ⟨passes, mapped, -⟩ := Outcome.mapM_ok each
  exact ⟨passes, mapped⟩

theorem review_resolved_failed (unmerged : observation.merged = false)
    (resolved : gateResolved (some observation) .reviewVerification run.route (riskClassOf run) = true)
    (machine : isPurelyHumanGated run.route .reviewVerification (riskClassOf run) = false) :
    pipelineFailed observation.pipelineStatus = true := by
  have human : requiredHumanGates run.route .reviewVerification (riskClassOf run) ≠ ∅ :=
    Finset.ne_empty_of_mem (review_human run.route (riskClassOf run))
  simp only [gateResolved, unmerged, machine, human, ne_eq, not_false_eq_true, reduceCtorEq, ↓reduceIte,
    Bool.false_eq_true] at resolved
  split at resolved
  · cases resolved
  · exact resolved

theorem pipelineFindings_empty (failed : List Gate) :
    pipelineFindings failed observation = [] ↔ failed = [] := by
  simp [pipelineFindings]

theorem planReview_ok {history : List StageResult} {findings : List Finding} (found : findings ≠ [])
    (named : textOr observation.headSha attempt.inputRevision ≠ "") :
    ∃ plan, planReview run observation attempt history findings = .ok plan ∧
      (plan.outcome = .rework → plan.round = some (run.budget.usedReworkRounds + 1) ∧
        plan.maxRounds = run.budget.maxReworkRounds ∧
        run.budget.usedReworkRounds < run.budget.maxReworkRounds) := by
  obtain ⟨prior, listed⟩ := reviewPasses_ok history
  let current : ReviewPass :=
    { round := prior.length + 1, sha := textOr observation.headSha attempt.inputRevision
      blocking := findings.map findingSignature, round_pos := by omega, sha_nonempty := named }
  have built : ReviewPass.build (prior.length + 1) (textOr observation.headSha attempt.inputRevision)
      (findings.map findingSignature) [] = .ok current := by
    simp [ReviewPass.build, named, current]
  have last : (prior ++ [current]).getLast? = some current := by simp
  obtain ⟨plan, planned, round⟩ := planRework_ok run.budget last (by simpa [current] using found)
  exact ⟨plan, Outcome.bind_ok.mpr ⟨prior, listed, Outcome.bind_ok.mpr ⟨current, built, planned⟩⟩, round⟩

theorem planReview_without_findings {history : List StageResult} {plan : ReworkDecision} :
    planReview run observation attempt history [] ≠ .ok plan := by
  intro planned
  obtain ⟨prior, -, rest⟩ := Outcome.bind_ok.mp planned
  obtain ⟨current, built, plans⟩ := Outcome.bind_ok.mp rest
  have last : (prior ++ [current]).getLast? = some current := by simp
  obtain ⟨failure, refused⟩ := planRework_unblocked run.budget last (ReviewPass.built built).2.1
  rw [refused] at plans
  cases plans

theorem planReview_unnamed {history : List StageResult} {findings : List Finding} {plan : ReworkDecision}
    (unnamed : textOr observation.headSha attempt.inputRevision = "") :
    planReview run observation attempt history findings ≠ .ok plan := by
  intro planned
  obtain ⟨prior, -, rest⟩ := Outcome.bind_ok.mp planned
  obtain ⟨current, built, -⟩ := Outcome.bind_ok.mp rest
  simp [ReviewPass.build, unnamed] at built

theorem machineGateResults_empty {route : Route} {stage : Stage} {riskClass : RiskClass}
    (human : isPurelyHumanGated route stage riskClass = true) :
    machineGateResults route stage observation riskClass = [] := by
  have none : machineGates route stage riskClass = ∅ := by
    simp only [isPurelyHumanGated, Bool.and_eq_true, decide_eq_true_eq] at human
    exact human.2
  unfold machineGateResults
  simp only [(sortedGates_empty _).mpr none, List.map_nil]
  split <;> simp

theorem resolveReview_fits (unmerged : observation.merged = false)
    (resolved : gateResolved (some observation) .reviewVerification run.route (riskClassOf run) = true)
    (machine : isPurelyHumanGated run.route .reviewVerification (riskClassOf run) = false)
    (named : textOr observation.headSha attempt.inputRevision ≠ "") (history : List StageResult) :
    ∃ resolution, resolveReview run change checkpoint observation attempt history (riskClassOf run) =
        .ok resolution ∧ Fits run .reviewVerification attempt resolution.result := by
  simp only [resolveReview, unmerged, Bool.false_eq_true, ↓reduceIte]
  have failing := review_resolved_failed unmerged resolved machine
  have failed := failedGates_nonempty failing machine
  obtain ⟨plan, planned, round⟩ := planReview_ok (mt (pipelineFindings_empty _).mp failed) named
  have rework : (flowTransitions .reviewVerification).contains .rework = true := rfl
  have stop : (flowTransitions .reviewVerification).contains .stop = true := rfl
  obtain ⟨result, made, fits⟩ := planResult_fits rework stop round
  exact ⟨_, Outcome.bind_ok.mpr ⟨plan, planned, Outcome.bind_ok.mpr ⟨result, made, rfl⟩⟩,
    ⟨fits.1, fits.2, fits.3, fits.4, fits.5, fits.6, fits.7⟩⟩

theorem resolveReview_machine (unmerged : observation.merged = false) {history : List StageResult}
    {resolution : GateResolution}
    (made : resolveReview run change checkpoint observation attempt history (riskClassOf run) = .ok resolution) :
    isPurelyHumanGated run.route .reviewVerification (riskClassOf run) = false ∧
      textOr observation.headSha attempt.inputRevision ≠ "" := by
  simp only [resolveReview, unmerged, Bool.false_eq_true, ↓reduceIte] at made
  obtain ⟨plan, planned, -⟩ := Outcome.bind_ok.mp made
  refine ⟨?_, fun unnamed => planReview_unnamed unnamed planned⟩
  by_contra human
  simp only [Bool.not_eq_false] at human
  rw [machineGateResults_empty human] at planned
  exact planReview_without_findings planned

theorem resolveMerged_fits (known : (knownChangeRequest change checkpoint).isSome = true) :
    ∃ resolution, resolveMerged run change checkpoint observation attempt (riskClassOf run) = .ok resolution ∧
      Fits run .reviewVerification attempt resolution.result := by
  obtain ⟨ref, named⟩ := (changeRequestRef_ok change checkpoint observation).mpr known
  exact ⟨_, resolveMerged_ok named, ⟨rfl, rfl, rfl, rfl, rfl, rfl, by simp [mergedResult, attemptResult]⟩⟩

end Review

def resolvable (run : ChangeRun) (stage : Stage) (observation : GateObservation)
    (attempt : WaitingAttempt) : Bool :=
  let human := isPurelyHumanGated run.route stage (riskClassOf run)
  if stage = .reviewVerification then
    observation.merged || (!human && textOr observation.headSha attempt.inputRevision ≠ "")
  else human || !pipelineFailed observation.pipelineStatus || 1 ≤ run.budget.maxReworkRounds

section Agreement

variable {run : ChangeRun} {stage : Stage} {change : Change} {checkpoint : StageResult}
  {observation : GateObservation} {attempt : WaitingAttempt} {history : List StageResult}

theorem resolved_producesWork (resolved : gateResolved (some observation) stage run.route (riskClassOf run) = true)
    (other : stage ≠ .reviewVerification) : producesWork stage := by
  refine ⟨?_, other⟩
  rintro rfl
  simp [gateResolved] at resolved

theorem resolved_machine (resolved : gateResolved (some observation) stage run.route (riskClassOf run) = true)
    (other : stage ≠ .reviewVerification)
    (machine : isPurelyHumanGated run.route stage (riskClassOf run) = false) :
    pipelineFailed observation.pipelineStatus = true ∨
      observation.pipelineStatus = some .success ∧
        requiredHumanGates run.route stage (riskClassOf run) = ∅ := by
  have works := resolved_producesWork resolved other
  by_cases green : observation.pipelineStatus = some .success
  · by_cases unmanned : requiredHumanGates run.route stage (riskClassOf run) = ∅
    · exact Or.inr ⟨green, unmanned⟩
    · simp [gateResolved, works.1, other, machine, green, unmanned] at resolved
  · simp only [gateResolved, works.1, other, machine, green, ↓reduceIte, decide_false, Bool.or_self,
      Bool.false_eq_true] at resolved
    split at resolved
    · cases resolved
    · exact Or.inl resolved

theorem buildGateResolution_fits
    (resolved : gateResolved (some observation) stage run.route (riskClassOf run) = true)
    (known : (knownChangeRequest change checkpoint).isSome = true)
    (phased : observation.nextPhase.isSome = true → stage = .specification)
    (passable : resolvable run stage observation attempt = true) :
    ∃ resolution, buildGateResolution run stage change checkpoint observation attempt history =
        .ok resolution ∧ Fits run stage attempt resolution.result := by
  simp only [buildGateResolution, resolved, Bool.not_true, Bool.false_eq_true, ↓reduceIte]
  simp only [resolvable] at passable
  by_cases review : stage = .reviewVerification
  · subst review
    simp only [↓reduceIte] at passable ⊢
    cases merged : observation.merged with
    | true =>
      simp only [resolveReview, merged, ↓reduceIte]
      exact resolveMerged_fits known
    | false =>
      simp only [merged, Bool.false_or, Bool.and_eq_true, Bool.not_eq_true', decide_eq_true_eq] at passable
      exact resolveReview_fits merged resolved passable.1 passable.2 history
  · rw [if_neg review] at passable ⊢
    have works := resolved_producesWork resolved review
    cases human : isPurelyHumanGated run.route stage (riskClassOf run) with
    | true =>
      simp only [↓reduceIte]
      exact resolveHumanGated_fits works phased _
    | false =>
      simp only [Bool.false_eq_true, ↓reduceIte]
      apply resolveMachineGated_fits works human (resolved_machine resolved review human)
      intro failing
      simpa [human, failing] using passable

theorem buildGateResolution_resolvable
    (resolved : gateResolved (some observation) stage run.route (riskClassOf run) = true)
    {resolution : GateResolution}
    (built : buildGateResolution run stage change checkpoint observation attempt history = .ok resolution) :
    resolvable run stage observation attempt = true := by
  simp only [buildGateResolution, resolved, Bool.not_true, Bool.false_eq_true, ↓reduceIte] at built
  by_cases review : stage = .reviewVerification
  · subst review
    simp only [↓reduceIte] at built
    cases merged : observation.merged with
    | true => simp [resolvable, merged]
    | false =>
      obtain ⟨machine, named⟩ := resolveReview_machine merged built
      simp [resolvable, machine, named]
  · rw [if_neg review] at built
    cases human : isPurelyHumanGated run.route stage (riskClassOf run) with
    | true => simp [resolvable, review, human]
    | false =>
      simp only [human, Bool.false_eq_true, ↓reduceIte] at built
      cases failing : pipelineFailed observation.pipelineStatus with
      | false => simp [resolvable, review, failing]
      | true =>
        have granted := resolveMachineGated_granted human built failing
        simp [resolvable, review, granted]

end Agreement

/-- Detection and resolution of a wait agree exactly on the resolvable observations. -/
theorem resolved_wait_accepted_iff (run : ChangeRun) (stage : Stage) (change : Change)
    (checkpoint : StageResult) (observation : GateObservation) (attempt : WaitingAttempt)
    (history : List StageResult) (context : Option MergeRequestContext) (decisions : List Decision)
    (parked : Parked run stage attempt.attemptNumber)
    (resolved : gateResolved (some observation) stage run.route (riskClassOf run) = true)
    (known : (knownChangeRequest change checkpoint).isSome = true)
    (phased : observation.nextPhase.isSome = true → stage = .specification) :
    (∃ resolution decision after,
      buildGateResolution run stage change checkpoint observation attempt history = .ok resolution ∧
        resolution.result.stage = stage ∧ resolution.result.attemptNumber = attempt.attemptNumber ∧
        resolution.result.inputRevision = some attempt.inputRevision ∧
        (flowTransitions stage).contains resolution.result.nextAction.type = true ∧
        resolution.result.status = expectedResultStatus resolution.result.nextAction ∧
        applyResult resolution.result history attempt.now (resolution.mergeContext.or context)
          (decisions ++ observation.approvals) run = .ok decision after) ↔
      resolvable run stage observation attempt = true := by
  constructor
  · rintro ⟨resolution, -, -, built, -⟩
    exact buildGateResolution_resolvable resolved built
  · intro passable
    obtain ⟨resolution, built, fits⟩ := buildGateResolution_fits resolved known phased passable
    obtain ⟨decision, after, applied⟩ := fits.accepted parked history attempt.now
      (resolution.mergeContext.or context) (decisions ++ observation.approvals)
    exact ⟨resolution, decision, after, built, fits.ownStage, fits.ownAttempt, fits.ownRevision, fits.listed,
      fits.paired, applied⟩

theorem merged_wait_accepted :
    ∃ resolution decision after,
      buildGateResolution (waitingReview none) .reviewVerification { id := "change-1", riskClass := .r1 }
          reviewCheckpoint mergedObservation ⟨1, "c0", 0⟩ [] = .ok resolution ∧
        resolution.result.stage = .reviewVerification ∧ resolution.result.attemptNumber = 1 ∧
        resolution.result.inputRevision = some "c0" ∧
        (flowTransitions .reviewVerification).contains resolution.result.nextAction.type = true ∧
        resolution.result.status = expectedResultStatus resolution.result.nextAction ∧
        applyResult resolution.result [] 0 (resolution.mergeContext.or none)
          ([] ++ mergedObservation.approvals) (waitingReview none) = .ok decision after :=
  (resolved_wait_accepted_iff (waitingReview none) .reviewVerification { id := "change-1", riskClass := .r1 }
    reviewCheckpoint mergedObservation ⟨1, "c0", 0⟩ [] none [] (waitingReview_parked none) (by decide)
    (by decide) (by decide)).mpr (by decide)

def approvedReview : GateObservation :=
  { headSha := some "c1", merged := false, pipelineStatus := some .success
    approvals := [approvalAt "c1" .review, approvalAt "c1" .verification] }

/-- The approval resolves the wait of a purely human review, and the resolution plans a rework round
    over no findings. -/
theorem approved_review_raises :
    Parked (waitingReview (some r3Contract)) .reviewVerification 1 ∧
      gateResolved (some approvedReview) .reviewVerification .standard
        (riskClassOf (waitingReview (some r3Contract))) = true ∧
      (knownChangeRequest { id := "change-1", riskClass := .r3 } reviewCheckpoint).isSome = true ∧
      approvedReview.nextPhase = none ∧
      (buildGateResolution (waitingReview (some r3Contract)) .reviewVerification
        { id := "change-1", riskClass := .r3 } reviewCheckpoint approvedReview ⟨1, "c0", 0⟩ []).isOk = false := by
  refine ⟨waitingReview_parked _, ?_, ?_, ?_, ?_⟩ <;> decide +kernel

end DarkFactory
