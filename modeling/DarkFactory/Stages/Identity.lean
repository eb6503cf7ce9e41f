import DarkFactory.Stages.Gates

namespace DarkFactory

structure Completes (run : ChangeRun) (stage : Stage) (attempt : WaitingAttempt) (result : StageResult) :
    Prop where
  stage_eq : result.stage = stage
  runId_eq : result.runId = run.id
  attemptNumber_eq : result.attemptNumber = attempt.attemptNumber
  inputRevision_eq : result.inputRevision = some attempt.inputRevision
  settled : result.status ≠ .waiting

section Resolutions

variable {run : ChangeRun} {stage : Stage} {attempt : WaitingAttempt} {observation : GateObservation}
  {riskClass : RiskClass} {resolution : GateResolution}

theorem attemptResult_completes {status : StageStatus} {action : NextAction}
    {isResult : resultStatus status = true} (settled : status ≠ .waiting) :
    Completes run stage attempt (attemptResult run stage attempt status action isResult) :=
  ⟨rfl, rfl, rfl, rfl, settled⟩

theorem planResult_completes {plan : ReworkDecision} {result : StageResult}
    (planned : planResult run stage attempt plan = .ok result) : Completes run stage attempt result := by
  unfold planResult at planned
  cases outcome : plan.outcome with
  | blocked =>
    simp only [outcome, Except.ok.injEq] at planned
    subst planned
    exact attemptResult_completes (by decide)
  | rework =>
    simp only [outcome] at planned
    obtain ⟨action, -, made⟩ := Outcome.bind_ok.mp planned
    cases Outcome.pure_ok.mp made
    exact attemptResult_completes (by decide)

theorem resolveReworkOrder_completes
    (resolved : resolveReworkOrder run stage observation attempt = .ok resolution) :
    Completes run stage attempt resolution.result := by
  obtain ⟨plan, -, continued⟩ := Outcome.bind_ok.mp resolved
  obtain ⟨result, planned, made⟩ := Outcome.bind_ok.mp continued
  cases Outcome.pure_ok.mp made
  obtain ⟨own, identity, number, revision, settled⟩ := planResult_completes planned
  exact ⟨own, identity, number, revision, settled⟩

theorem resolveHumanGated_completes
    (resolved : resolveHumanGated run stage observation attempt riskClass = .ok resolution) :
    Completes run stage attempt resolution.result := by
  simp only [resolveHumanGated] at resolved
  by_cases ordered : (!observation.merged && (pendingReworkOrder observation).isSome) = true
  · rw [if_pos ordered] at resolved
    exact resolveReworkOrder_completes resolved
  rw [if_neg ordered] at resolved
  cases next : (routeProfile run.route).nextStage stage with
  | none => simp [next] at resolved
  | some successor =>
    simp only [next] at resolved
    cases merged : observation.merged <;> cases round : observation.nextPhase <;>
      simp only [merged, round, Except.ok.injEq] at resolved <;> subst resolved <;>
      exact ⟨rfl, rfl, rfl, rfl, by simp [attemptResult]⟩

theorem resolveMachineGated_completes
    (resolved : resolveMachineGated run stage observation attempt riskClass = .ok resolution) :
    Completes run stage attempt resolution.result := by
  simp only [resolveMachineGated] at resolved
  by_cases satisfied : (unsatisfiedGates run.route stage
      (machineGateResults run.route stage observation riskClass)).isEmpty = true
  · rw [if_pos satisfied] at resolved
    cases next : (routeProfile run.route).nextStage stage with
    | none => simp [next] at resolved
    | some successor =>
      simp only [next, Except.ok.injEq] at resolved
      subst resolved
      exact ⟨rfl, rfl, rfl, rfl, by simp [attemptResult]⟩
  rw [if_neg satisfied] at resolved
  by_cases failing : (!(failedGates (machineGateResults run.route stage observation riskClass)).isEmpty) = true
  · rw [if_pos failing] at resolved
    obtain ⟨action, -, made⟩ := Outcome.bind_ok.mp resolved
    cases Outcome.pure_ok.mp made
    exact ⟨rfl, rfl, rfl, rfl, by simp [attemptResult]⟩
  · rw [if_neg failing] at resolved
    cases resolved
    exact ⟨rfl, rfl, rfl, rfl, by simp [attemptResult]⟩

theorem resolveReview_completes {change : Change} {checkpoint : StageResult} {history : List StageResult}
    (resolved : resolveReview run change checkpoint observation attempt history riskClass = .ok resolution) :
    Completes run .reviewVerification attempt resolution.result := by
  unfold resolveReview at resolved
  by_cases merged : observation.merged = true
  · rw [if_pos merged] at resolved
    obtain ⟨ref, -, made⟩ := Outcome.bind_ok.mp resolved
    cases Outcome.pure_ok.mp made
    exact ⟨rfl, rfl, rfl, rfl, by simp [attemptResult]⟩
  · rw [if_neg merged] at resolved
    obtain ⟨plan, -, continued⟩ := Outcome.bind_ok.mp resolved
    obtain ⟨result, planned, made⟩ := Outcome.bind_ok.mp continued
    cases Outcome.pure_ok.mp made
    obtain ⟨own, identity, number, revision, settled⟩ := planResult_completes planned
    exact ⟨own, identity, number, revision, settled⟩

theorem buildGateResolution_completes {change : Change} {checkpoint : StageResult}
    {history : List StageResult}
    (built : buildGateResolution run stage change checkpoint observation attempt history = .ok resolution) :
    Completes run stage attempt resolution.result := by
  unfold buildGateResolution at built
  dsimp only at built
  by_cases unresolved : (!gateResolved (some observation) stage run.route (riskClassOf run)) = true
  · rw [if_pos unresolved] at built
    simp at built
  rw [if_neg unresolved] at built
  by_cases review : stage = .reviewVerification
  · rw [if_pos review] at built
    subst review
    exact resolveReview_completes built
  rw [if_neg review] at built
  by_cases human : isPurelyHumanGated run.route stage (riskClassOf run) = true
  · rw [if_pos human] at built
    exact resolveHumanGated_completes built
  · rw [if_neg human] at built
    exact resolveMachineGated_completes built

end Resolutions

end DarkFactory
