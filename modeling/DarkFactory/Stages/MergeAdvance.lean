import DarkFactory.Stages.Resume

namespace DarkFactory

theorem review_human (route : Route) (riskClass : RiskClass) :
    Gate.review ∈ requiredHumanGates route .reviewVerification riskClass := by
  cases route <;> cases riskClass <;> decide

theorem review_machineGates (route : Route) (riskClass : RiskClass) :
    machineGates route .reviewVerification riskClass =
      if riskOrder riskClass < 3 then {Gate.verification} else ∅ := by
  cases route <;> cases riskClass <;> decide

theorem review_requiredGates (route : Route) :
    requiredGates route .reviewVerification = {Gate.review, Gate.verification} := by
  cases route <;> decide

theorem review_controlPoints (route : Route) (riskClass : RiskClass) :
    requiredControlPoints route .reviewVerification riskClass = [.discoveryRelease] := by
  cases route <;> cases riskClass <;> decide

theorem changeRequestRef_ok (change : Change) (checkpoint : StageResult) (observation : GateObservation) :
    (∃ ref, changeRequestRef change checkpoint observation = .ok ref) ↔
      (knownChangeRequest change checkpoint).isSome = true := by
  unfold changeRequestRef
  cases knownChangeRequest change checkpoint <;> simp

section Merged

variable {observation : GateObservation} {sha : String}

def mergedGateResults (route : Route) (observation : GateObservation) (number : Nat)
    (riskClass : RiskClass) : List GateResult :=
  reviewGateResult observation number ++ machineGateResults route .reviewVerification observation riskClass

theorem mergedGateResults_sha (head : observation.headSha = some sha)
    (green : observation.pipelineStatus = some .success) (route : Route) (number : Nat)
    (riskClass : RiskClass) :
    (mergedGateResults route observation number riskClass).filter (·.sha = some sha) =
      mergedGateResults route observation number riskClass := by
  rw [List.filter_eq_self]
  intro item member
  simp only [mergedGateResults, reviewGateResult, machineGateResults, head, green, List.mem_append,
    List.mem_singleton, List.mem_map] at member
  rcases member with rfl | ⟨gate, -, rfl⟩ <;> simp

/-- The merge records REVIEW and the machine gates; VERIFICATION is among them only below R3. -/
theorem mergedGateResults_satisfied (head : observation.headSha = some sha)
    (green : observation.pipelineStatus = some .success) (route : Route) (number : Nat)
    (riskClass : RiskClass) :
    unsatisfiedGates route .reviewVerification (mergedGateResults route observation number riskClass) = [] ↔
      riskOrder riskClass < 3 := by
  rw [unsatisfiedGates_empty, review_requiredGates]
  simp only [mergedGateResults, reviewGateResult, machineGateResults, head, green, review_machineGates]
  by_cases low : riskOrder riskClass < 3
  · rw [if_pos low]
    have order : sortedGates {Gate.verification} = [.verification] := by decide
    simp [low, order, gateOpen, latestStatus, gateSatisfied]
  · rw [if_neg low]
    have order : sortedGates ∅ = [] := by decide
    simp [low, order, gateOpen, latestStatus, gateSatisfied]

end Merged

def latestReviewOutcome (approvals : List Decision) (sha : String) : Option DecisionOutcome :=
  ((approvals.filter fun decision =>
    decision.decidedBy = .human && decision.gate = .review && decision.commitSha = some sha).getLast?).map
      (·.outcome)

theorem authorizeMerge_human (context : MergeRequestContext) (sha : String) (human : context.executor = .human) :
    (authorizeMerge context mergePolicy sha).kind.authorized =
      decide (latestReviewOutcome context.humanApprovals sha = some .approved) := by
  have latest : latestReviewOutcome context.humanApprovals sha =
      (latestHumanDecision context mergePolicy sha).map (·.outcome) := rfl
  rw [latest, authorizeMerge]
  cases latestHumanDecision context mergePolicy sha with
  | none => simp [MergeDecisionKind.authorized]
  | some decision =>
    by_cases approved : decision.outcome = .approved <;>
      simp [approved, human, MergeDecisionKind.authorized]

theorem evaluateMerge_human {context : MergeRequestContext} {sha : String} (human : context.executor = .human)
    (expected : context.expectedSha = some sha) (observed : context.headSha = some sha)
    (gates : gatesNotSatisfiedAtHead context sha = []) (points : missingAtMerge context sha = []) :
    evaluateMerge context mergePolicy = authorizeMerge context mergePolicy sha := by
  simp [evaluateMerge, human, expected, observed, gates, points]

def mergeReason (observation : GateObservation) (ref : ChangeRequestRef) : String :=
  s!"change request #{ref.number} observed merged at {Text.shown observation.headSha}"

def mergedResult (run : ChangeRun) (observation : GateObservation) (attempt : WaitingAttempt)
    (ref : ChangeRequestRef) : StageResult :=
  { attemptResult run .reviewVerification attempt .succeeded (.merge ref (some (mergeReason observation ref)))
    with gateResults := mergedGateResults run.route observation ref.number (riskClassOf run) }

def mergedContext (run : ChangeRun) (observation : GateObservation) : MergeRequestContext :=
  { executor := .human, riskClass := riskClassOf run, route := run.route, stage := .reviewVerification
    expectedSha := observation.headSha, headSha := observation.headSha
    humanApprovals := observation.approvals }

section Resolution

variable {run : ChangeRun} {change : Change} {checkpoint : StageResult} {observation : GateObservation}
  {attempt : WaitingAttempt} {history : List StageResult} {sha : String}

theorem buildGateResolution_merged (merged : observation.merged = true) :
    buildGateResolution run .reviewVerification change checkpoint observation attempt history =
      resolveMerged run change checkpoint observation attempt (riskClassOf run) := by
  simp [buildGateResolution, gateResolved, resolveReview, merged]

theorem resolveMerged_ok {ref : ChangeRequestRef}
    (named : changeRequestRef change checkpoint observation = .ok ref) :
    resolveMerged run change checkpoint observation attempt (riskClassOf run) =
      .ok { result := mergedResult run observation attempt ref,
            mergeContext := some (mergedContext run observation) } := by
  simp only [resolveMerged, named]
  rfl

theorem mergePolicyDecision_merged (attempt : WaitingAttempt) (ref : ChangeRequestRef) {current : ChangeRun} (same : SameTerms run current)
    (head : observation.headSha = some sha) (green : observation.pipelineStatus = some .success)
    (approved : ∀ gate ∈ requiredHumanGates run.route .reviewVerification (riskClassOf run),
      observation.approvals.any (approvesAt (some sha) gate) = true)
    (low : riskOrder (riskClassOf run) < 3) :
    (mergePolicyDecision current (mergedResult run observation attempt ref)
        (some (mergedContext run observation))).kind.authorized =
      decide (latestReviewOutcome observation.approvals sha = some .approved) := by
  have route := same.route
  have risk := same.riskClass
  simp only [mergePolicyDecision]
  rw [evaluateMerge_human rfl head head]
  · rw [authorizeMerge_human _ _ rfl]
    rfl
  · simp only [gatesNotSatisfiedAtHead, mergedResult, attemptResult, route,
      mergedGateResults_sha head green]
    exact (mergedGateResults_satisfied head green _ _ _).mpr low
  · simp only [missingAtMerge, mergedContext, mergedResult, attemptResult, route, risk]
    split
    · rw [missingControlPoints_empty, review_controlPoints]
      simp only [List.mem_singleton, forall_eq]
      exact approved .review (review_human _ _)
    · rfl

theorem mergeVerdict_merged (attempt : WaitingAttempt) (ref : ChangeRequestRef) {current : ChangeRun} (same : SameTerms run current)
    (allowed : routeAllowsRisk run.route (riskClassOf run) = true)
    (head : observation.headSha = some sha) (green : observation.pipelineStatus = some .success)
    (approved : ∀ gate ∈ requiredHumanGates run.route .reviewVerification (riskClassOf run),
      observation.approvals.any (approvesAt (some sha) gate) = true)
    (funded : continuationViolations run.budget attempt.now = []) :
    (∃ reached, mergeVerdict current (mergedResult run observation attempt ref) attempt.now
        (some (mergedContext run observation)) = .ok reached ∧ reached.nextStage = some .release) ↔
      riskOrder (riskClassOf run) < 3 ∧
        latestReviewOutcome observation.approvals sha = some .approved := by
  have next : (routeProfile current.route).nextStage .reviewVerification = some .release := by
    cases current.route <;> rfl
  have stopped : firstStopReason [blockReason current .reviewVerification
        (mergedGateResults run.route observation ref.number (riskClassOf run)) attempt.now,
      escalationStopReason [], riskBandReason current] = none ↔ riskOrder (riskClassOf run) < 3 := by
    simp only [firstStopReason_none, List.mem_cons, List.not_mem_nil, or_false, forall_eq_or_imp, forall_eq,
      blockReason_none, escalationStopReason_none, riskBandReason_none, same.route, same.riskClass,
      same.budget, allowed, funded, and_true, mergedGateResults_satisfied head green]
  by_cases low : riskOrder (riskClassOf run) < 3
  · have authorized := mergePolicyDecision_merged attempt ref same head green approved low
    have free := stopped.mpr low
    simp only [mergeVerdict, mergedResult, attemptResult, next, free, low, true_and] at authorized ⊢
    cases kind : (mergePolicyDecision current (mergedResult run observation attempt ref)
        (some (mergedContext run observation))).kind <;>
      simp only [mergedResult, attemptResult] at kind <;>
      simp_all [MergeDecisionKind.authorized, Verdict.blocked, Verdict.parked, Verdict.advanced]
  · have blocked : firstStopReason [blockReason current .reviewVerification
          (mergedGateResults run.route observation ref.number (riskClassOf run)) attempt.now,
        escalationStopReason [], riskBandReason current] ≠ none := fun free => low (stopped.mp free)
    obtain ⟨reason, found⟩ := Option.ne_none_iff_exists'.mp blocked
    simp [mergeVerdict, mergedResult, attemptResult, next, found, low, Verdict.blocked]

end Resolution

/-- A merge observed with a green pipeline and every human gate approved at its head reaches the
    release stage exactly when a change request is known, the class leaves VERIFICATION to the
    machine and the standing human decision on REVIEW is an approval. -/
theorem approved_merge_advances_iff (run : ChangeRun) (change : Change) (checkpoint : StageResult)
    (observation : GateObservation) (attempt : WaitingAttempt) (history : List StageResult)
    (context : Option MergeRequestContext) (decisions : List Decision) (sha : String)
    (parked : Parked run .reviewVerification attempt.attemptNumber)
    (allowed : routeAllowsRisk run.route (riskClassOf run) = true)
    (merged : observation.merged = true) (head : observation.headSha = some sha)
    (green : observation.pipelineStatus = some .success)
    (approved : ∀ gate ∈ requiredHumanGates run.route .reviewVerification (riskClassOf run),
      observation.approvals.any (approvesAt (some sha) gate) = true)
    (funded : continuationViolations run.budget attempt.now = []) :
    entersStage .release (resumeDecision run .reviewVerification change checkpoint observation attempt
        history context decisions) = true ↔
      (knownChangeRequest change checkpoint).isSome = true ∧
        riskOrder (riskClassOf run) < riskOrder .r3 ∧
        latestReviewOutcome observation.approvals sha = some .approved := by
  rw [← changeRequestRef_ok change checkpoint observation]
  cases named : changeRequestRef change checkpoint observation with
  | error failure =>
    simp [resumeDecision, buildGateResolution_merged merged, resolveMerged, named, Bind.bind, Except.bind,
      entersStage]
  | ok ref =>
    let result := mergedResult run observation attempt ref
    obtain ⟨index, current, same, applied⟩ := parked.applied (show result.stage = .reviewVerification from rfl)
      rfl rfl rfl rfl history attempt.now (some (mergedContext run observation))
      (decisions ++ observation.approvals)
    have built : buildGateResolution run .reviewVerification change checkpoint observation attempt history =
        .ok { result, mergeContext := some (mergedContext run observation) } :=
      (buildGateResolution_merged merged).trans (resolveMerged_ok named)
    rw [resumeDecision_eq built applied, entersStage_map]
    have known : ∃ found, (.ok ref : Except Failure ChangeRequestRef) = .ok found := ⟨ref, rfl⟩
    rw [and_iff_right known]
    exact mergeVerdict_merged attempt ref same allowed head green approved funded

def r3Contract : ImplementationContract :=
  { id := "contract-1", scope := { inScope := ["src/billing.py"] }, riskClass := .r3
    budget := { maxAutonomousIterations := 50 }, approval := some { approvedBy := .product, decidedAt := 0 } }

def waitingReview (contract : Option ImplementationContract) : ChangeRun :=
  { id := "run_1", changeId := "change-1", route := .standard, provider := .github, status := .waiting
    stages := [{ id := "run_1:review_verification:c0", stage := .reviewVerification, status := .waiting,
                 inputRevision := some "c0" }]
    implementationContract := contract }

def reviewRequest : ChangeRequestRef :=
  { repository := { provider := .github, slug := "factory/product" }, number := 7, status := .open }

def reviewCheckpoint : StageResult :=
  { stage := .reviewVerification, runId := "run_1", changeId := "change-1", inputRevision := some "c0"
    status := .waiting, nextAction := .waitForCi "pipeline" (some reviewRequest), producedAt := 0 }

def approvalAt (sha : String) (gate : Gate) : Decision :=
  { id := s!"decision-{gate.value}", gate, outcome := .approved, decidedBy := .human, decidedAt := 0
    commitSha := some sha }

def mergedObservation : GateObservation :=
  { headSha := some "c1", merged := true, pipelineStatus := some .success
    approvals := [approvalAt "c1" .review, approvalAt "c1" .verification] }

theorem waitingReview_parked (contract : Option ImplementationContract) :
    Parked (waitingReview contract) .reviewVerification 1 :=
  ⟨rfl, 0, _, rfl, rfl, rfl, rfl⟩

theorem approved_merge_below_r3_advances :
    entersStage .release (resumeDecision (waitingReview none) .reviewVerification
      { id := "change-1", riskClass := .r1 } reviewCheckpoint mergedObservation ⟨1, "c0", 0⟩ [] none []) = true :=
  (approved_merge_advances_iff (waitingReview none) { id := "change-1", riskClass := .r1 } reviewCheckpoint
    mergedObservation ⟨1, "c0", 0⟩ [] none [] "c1" (waitingReview_parked none) (by decide) rfl rfl rfl
    (by decide) (by decide)).mpr (by decide)

/-- On an R3 run every human gate is approved at the merged head and the advance still stops: the
    resolution records no VERIFICATION result. -/
theorem approved_merge_blocked_at_r3 :
    Parked (waitingReview (some r3Contract)) .reviewVerification 1 ∧
      riskClassOf (waitingReview (some r3Contract)) = .r3 ∧
      routeAllowsRisk .standard .r3 = true ∧ mergedObservation.merged = true ∧
      mergedObservation.headSha = some "c1" ∧ mergedObservation.pipelineStatus = some .success ∧
      (∀ gate ∈ requiredHumanGates .standard .reviewVerification .r3,
        mergedObservation.approvals.any (approvesAt (some "c1") gate) = true) ∧
      continuationViolations (waitingReview (some r3Contract)).budget 0 = [] ∧
      entersStage .release (resumeDecision (waitingReview (some r3Contract)) .reviewVerification
        { id := "change-1", riskClass := .r3 } reviewCheckpoint mergedObservation ⟨1, "c0", 0⟩ [] none []) =
          false := by
  refine ⟨waitingReview_parked _, ?_, ?_, ?_, ?_, ?_, ?_, ?_, ?_⟩ <;> decide +kernel

end DarkFactory
