import DarkFactory.Policy.Merge

namespace DarkFactory

section Gates

variable {results : List GateResult} {gate : Gate}

theorem latestStatus_filter : latestStatus results gate = ((results.filter (·.gate = gate)).getLast?).map GateResult.status := by
  induction results using List.reverseRecOn with
  | nil => rfl
  | append_singleton results item ih =>
    rw [latestStatus_append, List.filter_append, List.getLast?_append]
    by_cases own : item.gate = gate
    · simp [own]
    · simp [own, ih]

theorem gateOpen_false : gateOpen results gate = false ↔
    ∃ last, (results.filter (·.gate = gate)).getLast? = some last ∧ (last.status = .passed ∨ last.status = .skipped) := by
  unfold gateOpen
  rw [latestStatus_filter]
  cases found : (results.filter (·.gate = gate)).getLast? with
  | none => simp
  | some last =>
    cases status : last.status <;> simp [gateSatisfied, status]

end Gates

section Policy

variable {context other : MergeRequestContext} {policy : MergePolicy} {sha : String}

def MergeRequestContext.gatesAt (context : MergeRequestContext) (sha : String) : List GateResult :=
  context.gateResults.filter (·.sha = some sha)

def MergeRequestContext.humanAt (context : MergeRequestContext) (sha : String) : List Decision :=
  context.humanApprovals.filter fun decision => decision.decidedBy = .human && decision.commitSha = some sha

/-- What a merge at the revision is authorized by. -/
structure Authorized (context : MergeRequestContext) (policy : MergePolicy) (sha : String) : Prop where
  permitted : context.executor ≠ .agent
  expected : context.expectedSha = some sha
  observed : context.headSha = some sha
  gates : ∀ gate ∈ requiredGates context.route context.stage, ∃ last,
    ((context.gatesAt sha).filter (·.gate = gate)).getLast? = some last ∧ (last.status = .passed ∨ last.status = .skipped)
  points : riskOrder .r2 ≤ riskOrder context.riskClass →
    ∀ point ∈ requiredControlPoints context.route context.stage context.riskClass,
      ∃ decision ∈ context.humanAt sha, decision.outcome = .approved ∧ decision.gate = (controlPointBinding point).gate
  decided : ∃ latest, ((context.humanAt sha).filter (·.gate = policy.mergeAuthorizationGate)).getLast? = some latest ∧
    latest.outcome = .approved
  performer : context.executor = .human ∨ context.riskClass ∈ policy.autoMergeRiskClasses

theorem gatesNotSatisfiedAtHead_empty : gatesNotSatisfiedAtHead context sha = [] ↔
    ∀ gate ∈ requiredGates context.route context.stage, ∃ last,
      ((context.gatesAt sha).filter (·.gate = gate)).getLast? = some last ∧
        (last.status = .passed ∨ last.status = .skipped) := by
  unfold gatesNotSatisfiedAtHead
  rw [unsatisfiedGates_empty]
  exact forall₂_congr fun gate _ => gateOpen_false

theorem approved_at {decisions : List Decision} {gate : Gate} :
    decisions.any (approvesAt (some sha) gate) = true ↔
      ∃ decision ∈ decisions.filter (fun decision => decision.decidedBy = .human && decision.commitSha = some sha),
        decision.outcome = .approved ∧ decision.gate = gate := by
  simp only [List.any_eq_true, List.mem_filter, approvesAt, Bool.and_eq_true, decide_eq_true_eq]
  constructor
  · rintro ⟨decision, member, ⟨⟨human, approved⟩, pinned⟩, own⟩
    exact ⟨decision, ⟨member, human, pinned⟩, approved, own⟩
  · rintro ⟨decision, ⟨member, human, pinned⟩, approved, own⟩
    exact ⟨decision, member, ⟨⟨human, approved⟩, pinned⟩, own⟩

theorem missingAtMerge_empty : missingAtMerge context sha = [] ↔ (riskOrder .r2 ≤ riskOrder context.riskClass →
    ∀ point ∈ requiredControlPoints context.route context.stage context.riskClass,
      ∃ decision ∈ context.humanAt sha, decision.outcome = .approved ∧ decision.gate = (controlPointBinding point).gate) := by
  unfold missingAtMerge isR2OrHigher
  by_cases high : riskOrder .r2 ≤ riskOrder context.riskClass
  · rw [if_pos (decide_eq_true high), missingControlPoints_empty]
    simp only [high, true_imp_iff]
    exact forall₂_congr fun point _ => approved_at
  · rw [if_neg (by simpa using high)]
    simp [high]

theorem latestHumanDecision_filter : latestHumanDecision context policy sha =
    ((context.humanAt sha).filter (·.gate = policy.mergeAuthorizationGate)).getLast? := by
  have same : humanDecisionAt policy sha = fun decision =>
      decide (decision.gate = policy.mergeAuthorizationGate) &&
        (decide (decision.decidedBy = .human) && decide (decision.commitSha = some sha)) := by
    funext decision
    unfold humanDecisionAt
    cases decide (decision.decidedBy = .human) <;> cases decide (decision.gate = policy.mergeAuthorizationGate) <;>
      cases decide (decision.commitSha = some sha) <;> rfl
  rw [latestHumanDecision, MergeRequestContext.humanAt, List.filter_filter, same]

theorem authorizeMerge_authorized :
    (authorizeMerge context policy sha).kind.authorized = true ↔
      (∃ latest, ((context.humanAt sha).filter (·.gate = policy.mergeAuthorizationGate)).getLast? = some latest ∧
        latest.outcome = .approved) ∧ (context.executor = .human ∨ context.riskClass ∈ policy.autoMergeRiskClasses) := by
  rw [authorizeMerge, latestHumanDecision_filter]
  cases ((context.humanAt sha).filter (·.gate = policy.mergeAuthorizationGate)).getLast? with
  | none => simp [MergeDecisionKind.authorized]
  | some latest =>
    by_cases approved : latest.outcome = .approved
    · by_cases human : context.executor = .human
      · simp [approved, human, MergeDecisionKind.authorized]
      · by_cases listed : context.riskClass ∈ policy.autoMergeRiskClasses
        · simp [approved, human, listed, MergeDecisionKind.authorized]
        · simp [approved, human, listed, MergeDecisionKind.authorized]
    · simp [approved, MergeDecisionKind.authorized]

theorem evaluateMerge_at (permitted : context.executor ≠ .agent) (expected : context.expectedSha = some sha)
    (observed : context.headSha = some sha) (gates : gatesNotSatisfiedAtHead context sha = [])
    (points : missingAtMerge context sha = []) :
    evaluateMerge context policy = authorizeMerge context policy sha := by
  simp [evaluateMerge, permitted, expected, observed, gates, points]

/-- The cascade authorizes exactly what the rule does. -/
theorem evaluateMerge_iff : (evaluateMerge context policy).kind.authorized = true ↔ ∃ sha, Authorized context policy sha := by
  constructor
  · intro authorized
    have permitted : context.executor ≠ .agent := by
      intro agent
      rw [evaluateMerge, if_pos agent] at authorized
      cases authorized
    obtain ⟨sha, expected, observed, gates, points, same⟩ := evaluateMerge_authorized context policy authorized
    rw [same, authorizeMerge_authorized] at authorized
    exact ⟨sha, permitted, expected, observed, gatesNotSatisfiedAtHead_empty.mp gates, missingAtMerge_empty.mp points,
      authorized.1, authorized.2⟩
  · rintro ⟨sha, authorized⟩
    have gates := gatesNotSatisfiedAtHead_empty.mpr authorized.gates
    have points := missingAtMerge_empty.mpr authorized.points
    rw [evaluateMerge_at authorized.permitted authorized.expected authorized.observed gates points,
      authorizeMerge_authorized]
    exact ⟨authorized.decided, authorized.performer⟩

/-! ## What the decision does not depend on -/

/-- Two requests that differ at most in decisions that are not human or not bound to the expected revision, and in gate
    results at other revisions. -/
structure SameAtHead (context other : MergeRequestContext) : Prop where
  executor : other.executor = context.executor
  riskClass : other.riskClass = context.riskClass
  route : other.route = context.route
  stage : other.stage = context.stage
  expectedSha : other.expectedSha = context.expectedSha
  headSha : other.headSha = context.headSha
  decisions : ∀ sha, context.expectedSha = some sha → other.humanAt sha = context.humanAt sha
  gates : ∀ sha, context.expectedSha = some sha → other.gatesAt sha = context.gatesAt sha

theorem missingControlPoints_congr {route : Route} {stage : Stage} {riskClass : RiskClass} {decisions changed : List Decision}
    (same : changed.filter (fun decision => decision.decidedBy = .human && decision.commitSha = some sha) =
      decisions.filter (fun decision => decision.decidedBy = .human && decision.commitSha = some sha)) :
    missingControlPoints route stage riskClass changed (some sha) =
      missingControlPoints route stage riskClass decisions (some sha) := by
  apply List.filter_congr
  intro point _
  have each : changed.any (approvesAt (some sha) (controlPointBinding point).gate) =
      decisions.any (approvesAt (some sha) (controlPointBinding point).gate) := by
    rw [Bool.eq_iff_iff, approved_at, approved_at, same]
  rw [each]

theorem SameAtHead.decides (same : SameAtHead context other) : evaluateMerge other policy = evaluateMerge context policy := by
  cases expected : context.expectedSha with
  | none =>
    unfold evaluateMerge
    rw [same.executor, same.expectedSha, same.headSha, expected]
  | some sha =>
    have gates : gatesNotSatisfiedAtHead other sha = gatesNotSatisfiedAtHead context sha := by
      have kept := same.gates sha expected
      unfold MergeRequestContext.gatesAt at kept
      rw [gatesNotSatisfiedAtHead, gatesNotSatisfiedAtHead, same.route, same.stage, kept]
    have points : missingAtMerge other sha = missingAtMerge context sha := by
      rw [missingAtMerge, missingAtMerge, same.riskClass, same.route, same.stage,
        missingControlPoints_congr (same.decisions sha expected)]
    have latest : latestHumanDecision other policy sha = latestHumanDecision context policy sha := by
      rw [latestHumanDecision_filter, latestHumanDecision_filter, same.decisions sha expected]
    have authorization : authorizeMerge other policy sha = authorizeMerge context policy sha := by
      rw [authorizeMerge, authorizeMerge, latest, same.executor, same.riskClass]
    unfold evaluateMerge
    rw [same.executor, same.expectedSha, same.headSha, expected]
    cases context.headSha with
    | none => rfl
    | some head =>
      dsimp only
      rw [gates, points, authorization, same.riskClass]

end Policy

/-- A merge is authorized exactly by the rule, and only the human decisions and the gate results at the expected
    revision bear on the decision. -/
theorem merge_policy_characterised (context : MergeRequestContext) (policy : MergePolicy) :
    ((evaluateMerge context policy).kind = .humanMergeAuthorized ∨
        (evaluateMerge context policy).kind = .finalizerMergeAllowed ↔ ∃ sha, Authorized context policy sha) ∧
      ∀ other, SameAtHead context other → evaluateMerge other policy = evaluateMerge context policy := by
  refine ⟨?_, fun other same => same.decides⟩
  rw [← evaluateMerge_iff, MergeDecisionKind.authorized, Bool.or_eq_true, decide_eq_true_eq, decide_eq_true_eq]

def approvedMerge : MergeRequestContext :=
  { executor := .human, riskClass := .r1, route := .quick, stage := .reviewVerification
    expectedSha := some "c2", headSha := some "c2"
    humanApprovals := [{ id := "dec-1", gate := .review, outcome := .approved, decidedBy := .human, commitSha := some "c2"
                         decidedAt := 0 }]
    gateResults := [{ gate := .review, status := .passed, sha := some "c2" },
                    { gate := .verification, status := .passed, sha := some "c2" }] }

def noisyMerge : MergeRequestContext :=
  { approvedMerge with
    humanApprovals :=
      { id := "dec-0", gate := .review, outcome := .rejected, decidedBy := .human, commitSha := some "c1", decidedAt := 0 } ::
        approvedMerge.humanApprovals ++
          [{ id := "dec-2", gate := .review, outcome := .rejected, decidedBy := .agent, commitSha := some "c2"
             decidedAt := 0 }] }

theorem noisy_merge_authorized : (evaluateMerge noisyMerge defaultMergePolicy).kind = .humanMergeAuthorized ∧
    evaluateMerge noisyMerge defaultMergePolicy = evaluateMerge approvedMerge defaultMergePolicy := by
  have same : SameAtHead approvedMerge noisyMerge := by
    refine ⟨rfl, rfl, rfl, rfl, rfl, rfl, ?_, fun _ _ => rfl⟩
    intro sha expected
    rw [← Option.some.inj expected]
    decide
  have decides := (merge_policy_characterised approvedMerge defaultMergePolicy).2 noisyMerge same
  have authorized : (evaluateMerge approvedMerge defaultMergePolicy).kind = .humanMergeAuthorized := by decide
  rw [decides]
  exact ⟨authorized, rfl⟩

end DarkFactory
