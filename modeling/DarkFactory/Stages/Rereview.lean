import DarkFactory.Stages.Agreement

namespace DarkFactory

def evaluatedAt (review : StageResult) : Option String := review.findings.head?.bind Finding.reviewedSha

def blockingSignatures (review : StageResult) : List FindingSignature :=
  (review.findings.filter (·.severity = .blocker)).map findingSignature

/-- The earlier failed pass that the review is compared with, and the revision it was pinned to. -/
def previousReview (history : List StageResult) : Option (String × StageResult) :=
  (history.filterMap failedReview).getLast?

def noNewCommit (round : Nat) (sha : String) : String :=
  s!"rework did not produce a new commit: review pass {round} ran again " ++
    s!"at {sha}; the previous acceptance of that SHA stands, " ++ "re-review is impossible"

def BlocksForNoCommit (result : StageResult) : Prop :=
  ∃ round sha, result.nextAction = .stop .blocked (noNewCommit round sha)

/-- A pass at the head of the previous one ends blocked, and a pass at another head does not for want of a commit. -/
def RefusesRereview (resolved : Except Failure GateResolution) (head evaluated : Option String) : Prop :=
  (head.isSome → head = evaluated → ∃ resolution, resolved = .ok resolution ∧ resolution.result.status = .blocked) ∧
    (head ≠ evaluated → ∀ resolution, resolved = .ok resolution → ¬ BlocksForNoCommit resolution.result)

/-! ## The reasons of the loop -/

section Reasons

theorem take_front {front rest : String} (long : 8 ≤ front.toList.length) :
    (front ++ rest).toList.take 8 = front.toList.take 8 := by
  rw [String.toList_append, List.take_append_of_le_length long]

theorem noNewCommit_front {round : Nat} {sha : String} :
    (noNewCommit round sha).toList.take 8 = "rework d".toList := by
  have front : ∀ rest : String, ("rework did not produce a new commit: review pass " ++ rest).toList.take 8 =
      "rework d".toList := fun rest => (take_front (by decide)).trans (by decide)
  unfold noNewCommit
  simp only [String.append_assoc]
  exact front _

theorem rework_round_front (rest : String) : ("rework round " ++ rest).toList.take 8 = "rework r".toList :=
  (take_front (by decide)).trans (by decide)

theorem rework_limit_front {budget : BudgetSnapshot} {requested : Nat} {violation : LimitViolation}
    (limit : reworkViolation budget requested = some violation) :
    violation.reason.toList.take 8 ≠ "rework d".toList := by
  have exhausted : ∀ rest : String, ("rework limit exhausted: " ++ rest).toList.take 8 = "rework l".toList :=
    fun rest => (take_front (by decide)).trans (by decide)
  unfold reworkViolation at limit
  split at limit
  · cases limit
    simp only [String.append_assoc]
    exact fun same => absurd ((exhausted _).symm.trans same) (by decide)
  · split at limit
    · cases limit
      simp only [String.append_assoc]
      exact fun same => absurd ((rework_round_front _).symm.trans same) (by decide)
    · cases limit

end Reasons

/-! ## The passes of the loop -/

section Passes

variable {run : ChangeRun} {change : Change} {checkpoint : StageResult} {observation : GateObservation}
  {attempt : WaitingAttempt} {history : List StageResult} {revision : String} {previous : StageResult}

theorem previous_pass {prior : List ReviewPass} (listed : reviewPasses history = .ok prior)
    (known : previousReview history = some (revision, previous)) :
    ∃ pass, prior.getLast? = some pass ∧ pass.sha = revision ∧ pass.blocking = blockingSignatures previous := by
  obtain ⟨front, split⟩ := List.getLast?_eq_some_iff.mp known
  unfold reviewPasses at listed
  rw [split, List.zipIdx_append, List.mapM_append] at listed
  obtain ⟨passes, _, rest⟩ := Outcome.bind_ok.mp listed
  obtain ⟨last, built, joined⟩ := Outcome.bind_ok.mp rest
  obtain ⟨pass, none, made, nothing, rfl⟩ := Outcome.mapM_cons_ok built
  cases nothing
  cases joined
  have ⟨sha, blocking, _⟩ := ReviewPass.built made
  exact ⟨pass, by simp, sha, blocking⟩

structure Decided (run : ChangeRun) (revision sha : String) (previous : StageResult)
    (signatures : List FindingSignature) (plan : ReworkDecision) : Prop where
  blocked : plan.outcome = .blocked ↔ run.budget.maxReworkRounds ≤ run.budget.usedReworkRounds ∨ revision = sha ∨
    sameSignatures (blockingSignatures previous) (sortedSignatures signatures) = true
  noCommit : (plan.outcome = .blocked ∧ ∃ round sha, plan.reason = noNewCommit round sha) ↔
    run.budget.usedReworkRounds < run.budget.maxReworkRounds ∧ revision = sha

theorem planRework_decided {prior : List ReviewPass} {pass current : ReviewPass} (earlier : prior.getLast? = some pass)
    (pinned : pass.sha = revision) (blocking : pass.blocking = blockingSignatures previous)
    (found : current.blocking ≠ []) (undeclared : current.escalations = []) {plan : ReworkDecision}
    (planned : planRework run.budget (prior ++ [current]) = .ok plan) :
    Decided run revision current.sha previous current.blocking plan := by
  have nonempty : (sortedSignatures current.blocking).isEmpty = false := by
    rw [List.isEmpty_eq_false_iff, Ne, sortedSignatures_empty]
    exact found
  have free : escalationStopReason ([] : List EscalationViolation) = none := rfl
  simp only [planRework, List.getLast?_concat, nonempty, undeclared, free, List.dropLast_concat, earlier,
    Bool.false_eq_true, ↓reduceIte] at planned
  cases limit : reworkViolation run.budget (run.budget.usedReworkRounds + 1) with
  | some violation =>
    have exhausted : run.budget.maxReworkRounds ≤ run.budget.usedReworkRounds := by
      by_contra open_
      have granted := (reworkViolation_none run.budget (run.budget.usedReworkRounds + 1)).mpr (by omega)
      simp [granted] at limit
    simp only [limit, Except.ok.injEq] at planned
    subst planned
    constructor
    · simp [ReworkDecision.blocked, exhausted]
    · refine iff_of_false ?_ (by omega)
      rintro ⟨-, round, sha, same⟩
      have front := rework_limit_front limit
      rw [show violation.reason = noNewCommit round sha from same] at front
      exact front noNewCommit_front
  | none =>
    have granted := (reworkViolation_none _ _).mp limit
    have open_ : ¬ run.budget.maxReworkRounds ≤ run.budget.usedReworkRounds := by omega
    simp only [limit, repeatedPass, pinned, blocking] at planned
    by_cases same : revision = current.sha
    · simp only [same, ↓reduceIte, Except.ok.injEq] at planned
      subst planned
      exact ⟨by simp [ReworkDecision.blocked, same], iff_of_true ⟨rfl, _, _, rfl⟩ ⟨granted.1, same⟩⟩
    · simp only [same, ↓reduceIte] at planned
      by_cases repeated : sameSignatures (blockingSignatures previous) (sortedSignatures current.blocking) = true
      · simp only [repeated, ↓reduceIte, Except.ok.injEq] at planned
        subst planned
        refine ⟨by simp [ReworkDecision.blocked, repeated], iff_of_false ?_ fun held => same held.2⟩
        rintro ⟨-, round, sha, text⟩
        have front := congrArg (fun reason : String => reason.toList.take 8) text
        simp only [ReworkDecision.blocked, noNewCommit_front, String.append_assoc] at front
        exact absurd ((rework_round_front _).symm.trans front) (by decide)
      · simp only [repeated, Bool.false_eq_true, ↓reduceIte, Except.ok.injEq] at planned
        subst planned
        refine ⟨iff_of_false (fun blocks => by cases blocks) ?_,
          iff_of_false (fun blocks => by cases blocks.1) fun held => same held.2⟩
        simp [open_, same, repeated]

theorem planReview_decided {findings : List Finding} (known : previousReview history = some (revision, previous))
    {plan : ReworkDecision} (planned : planReview run observation attempt history findings = .ok plan)
    (found : findings ≠ []) :
    Decided run revision (textOr observation.headSha attempt.inputRevision) previous (findings.map findingSignature)
      plan := by
  obtain ⟨prior, listed, rest⟩ := Outcome.bind_ok.mp planned
  obtain ⟨current, built, plans⟩ := Outcome.bind_ok.mp rest
  obtain ⟨pass, earlier, pinned, blocking⟩ := previous_pass listed known
  have ⟨sha, signatures, undeclared⟩ := ReviewPass.built built
  have decided := planRework_decided earlier pinned blocking (by simp [signatures, found]) undeclared plans
  rwa [sha, signatures] at decided

theorem planResult_decided {plan : ReworkDecision} {result : StageResult} {stage : Stage}
    (made : planResult run stage attempt plan = .ok result) :
    (result.status = .blocked ↔ plan.outcome = .blocked) ∧
      (BlocksForNoCommit result ↔ plan.outcome = .blocked ∧ ∃ round sha, plan.reason = noNewCommit round sha) := by
  unfold planResult at made
  cases outcome : plan.outcome with
  | blocked =>
    simp only [outcome, Except.ok.injEq] at made
    subst made
    simp [attemptResult, BlocksForNoCommit]
  | rework =>
    simp only [outcome] at made
    obtain ⟨action, _, done⟩ := Outcome.bind_ok.mp made
    cases done
    simp [attemptResult, BlocksForNoCommit]

/-- The failing pipeline blocks on the same findings as the earlier pass did. -/
def SameFindings (run : ChangeRun) (observation : GateObservation) (previous : StageResult) : Bool :=
  let failed := failedGates (machineGateResults run.route .reviewVerification observation (riskClassOf run))
  sameSignatures (blockingSignatures previous)
    (sortedSignatures ((pipelineFindings failed observation).map findingSignature))

structure FailsReview (run : ChangeRun) (observation : GateObservation) : Prop where
  unmerged : observation.merged = false
  failing : pipelineFailed observation.pipelineStatus = true
  machine : isPurelyHumanGated run.route .reviewVerification (riskClassOf run) = false

theorem resolveReview_decided (fails : FailsReview run observation)
    (known : previousReview history = some (revision, previous)) {resolution : GateResolution}
    (resolved : resolveReview run change checkpoint observation attempt history (riskClassOf run) = .ok resolution) :
    (resolution.result.status = .blocked ↔ run.budget.maxReworkRounds ≤ run.budget.usedReworkRounds ∨
      revision = textOr observation.headSha attempt.inputRevision ∨ SameFindings run observation previous = true) ∧
    (BlocksForNoCommit resolution.result ↔ run.budget.usedReworkRounds < run.budget.maxReworkRounds ∧
      revision = textOr observation.headSha attempt.inputRevision) := by
  simp only [resolveReview, fails.unmerged, Bool.false_eq_true, ↓reduceIte] at resolved
  obtain ⟨plan, planned, rest⟩ := Outcome.bind_ok.mp resolved
  obtain ⟨result, made, done⟩ := Outcome.bind_ok.mp rest
  cases done
  have failed := failedGates_nonempty fails.failing fails.machine
  have decided := planReview_decided known planned (mt (pipelineFindings_empty _).mp failed)
  obtain ⟨blocked, noCommit⟩ := planResult_decided made
  exact ⟨blocked.trans decided.blocked, noCommit.trans decided.noCommit⟩

theorem resolveReview_ok_iff (fails : FailsReview run observation) :
    (∃ resolution, resolveReview run change checkpoint observation attempt history (riskClassOf run) =
      .ok resolution) ↔ textOr observation.headSha attempt.inputRevision ≠ "" := by
  constructor
  · intro ⟨resolution, resolved⟩
    exact (resolveReview_machine fails.unmerged resolved).2
  · intro named
    have green : observation.pipelineStatus ≠ some .success := by
      intro success
      have failing := fails.failing
      rw [success] at failing
      exact absurd failing (by decide)
    have waits : gateResolved (some observation) .reviewVerification run.route (riskClassOf run) = true := by
      simp [gateResolved, fails.unmerged, fails.machine, green, fails.failing]
    obtain ⟨resolution, resolved, _⟩ := @resolveReview_fits run change checkpoint observation attempt fails.unmerged
      waits fails.machine named history
    exact ⟨resolution, resolved⟩

/-- A re-review is refused as it should be exactly where the limit is spent or the revision the earlier pass is pinned
    to tells the two heads apart; a repeated finding set does where the heads are the same. -/
theorem rereview_refused_iff (fails : FailsReview run observation)
    (known : previousReview history = some (revision, previous)) :
    RefusesRereview (resolveReview run change checkpoint observation attempt history (riskClassOf run))
        observation.headSha (evaluatedAt previous) ↔
      (observation.headSha.isSome → observation.headSha = evaluatedAt previous →
        textOr observation.headSha attempt.inputRevision ≠ "" ∧
          (run.budget.maxReworkRounds ≤ run.budget.usedReworkRounds ∨
            revision = textOr observation.headSha attempt.inputRevision ∨
            SameFindings run observation previous = true)) ∧
      (observation.headSha ≠ evaluatedAt previous → run.budget.maxReworkRounds ≤ run.budget.usedReworkRounds ∨
        revision ≠ textOr observation.headSha attempt.inputRevision) := by
  have decided {resolution : GateResolution} := @resolveReview_decided run change checkpoint observation attempt history
    revision previous fails known resolution
  have returns := @resolveReview_ok_iff run change checkpoint observation attempt history fails
  unfold RefusesRereview
  refine and_congr (forall₂_congr fun _ _ => ⟨?_, ?_⟩) (forall_congr' fun _ => ⟨?_, ?_⟩)
  · intro ⟨resolution, resolved, blocked⟩
    exact ⟨returns.mp ⟨resolution, resolved⟩, (decided resolved).1.mp blocked⟩
  · intro ⟨named, reason⟩
    obtain ⟨resolution, resolved⟩ := returns.mpr named
    exact ⟨resolution, resolved, (decided resolved).1.mpr reason⟩
  · intro silent
    by_contra unspent
    rw [not_or, not_le, not_ne_iff] at unspent
    have pinned : revision ≠ "" := by
      obtain ⟨result, _, failed⟩ := List.mem_filterMap.mp (List.mem_of_getLast? known)
      exact failedReview_revision failed
    obtain ⟨resolution, resolved⟩ := returns.mpr (unspent.2 ▸ pinned)
    exact silent resolution resolved ((decided resolved).2.mpr unspent)
  · intro apart resolution resolved blocks
    have ⟨unspent, same⟩ := (decided resolved).2.mp blocks
    exact apart.elim (Nat.not_le.mpr unspent) fun differ => differ same

end Passes

def agentReview : StageResult :=
  { stage := .reviewVerification, runId := "run_1", changeId := "change-1", inputRevision := some "c0"
    status := .failed
    nextAction := .rework { round := 1, maxRounds := 3, reason := "a leak", round_pos := firstRound, maxRounds_pos := thirdRound }
    findings := [{ id := "q-1", origin := .agent, severity := .blocker, reviewedSha := some "c1", status := .open }]
    producedAt := 0 }

def failingAt (sha : String) : GateObservation :=
  { headSha := some sha, merged := false, pipelineStatus := some .failure }

def rereviewAt (sha : String) : Except Failure GateResolution :=
  resolveReview (waitingReview none) { id := "change-1", riskClass := .r1 } reviewCheckpoint (failingAt sha)
    ⟨2, "c0", 0⟩ [agentReview] (riskClassOf (waitingReview none))

/-- At the same head the loop goes on, and at the one the review was pinned to it finds no new commit. -/
theorem rereview_compares_pinned :
    evaluatedAt agentReview = some "c1" ∧
      ¬ RefusesRereview (rereviewAt "c1") (some "c1") (evaluatedAt agentReview) ∧
      ¬ RefusesRereview (rereviewAt "c0") (some "c0") (evaluatedAt agentReview) := by
  have again : ∃ resolution, rereviewAt "c1" = .ok resolution ∧ resolution.result.status = .failed :=
    ⟨_, rfl, by decide +kernel⟩
  have pinned : ∃ resolution, rereviewAt "c0" = .ok resolution ∧
      resolution.result.nextAction = .stop .blocked (noNewCommit 2 "c0") :=
    ⟨_, rfl, by decide +kernel⟩
  refine ⟨by decide, fun refuses => ?_, fun refuses => ?_⟩
  · obtain ⟨resolution, resolved, failed⟩ := again
    obtain ⟨other, same, blocked⟩ := refuses.1 rfl (by decide)
    rw [resolved] at same
    cases same
    rw [failed] at blocked
    cases blocked
  · obtain ⟨resolution, resolved, action⟩ := pinned
    exact refuses.2 (by decide) resolution resolved ⟨2, "c0", action⟩

/-- A review that was evaluated at the revision it is pinned to is not repeated there. -/
theorem pinned_review_refused :
    let review : StageResult := { agentReview with inputRevision := some "c1" }
    RefusesRereview (resolveReview (waitingReview none) { id := "change-1", riskClass := .r1 } reviewCheckpoint
      (failingAt "c1") ⟨2, "c1", 0⟩ [review] (riskClassOf (waitingReview none))) (some "c1") (evaluatedAt review) := by
  intro review
  have fails : FailsReview (waitingReview none) (failingAt "c1") := ⟨rfl, by decide, by decide⟩
  have known : previousReview [review] = some ("c1", review) := by decide
  exact (rereview_refused_iff fails known).mpr
    ⟨fun _ _ => ⟨by decide, .inr (.inl rfl)⟩, fun differ => absurd rfl differ⟩

end DarkFactory
