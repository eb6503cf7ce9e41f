import DarkFactory.Stages.Design

namespace DarkFactory

structure ReviewObservation where
  reviewId : String
  author : String
  state : String
  commitSha : Option String := none
  submittedAt : Option Timestamp := none
  deriving DecidableEq, Repr

structure ChangeRequestObservation where
  status : ChangeRequestStatus
  headSha : Option String := none
  reviews : List ReviewObservation := []
  deriving DecidableEq, Repr

def approvalOutcome (state : String) : Option DecisionOutcome :=
  if state = "approved" then some .approved
  else if state = "changes_requested" then some .rejected
  else none

def reviewedGate (stage : Stage) (route : Route) (riskClass : RiskClass) : Gate :=
  (sortedGates (requiredHumanGates route stage riskClass)).head?.getD .review

def reviewDecision (gate : Gate) (review : ReviewObservation) : Option Decision :=
  match approvalOutcome review.state, review.commitSha, review.submittedAt with
  | some outcome, some sha, some submitted =>
    some { id := s!"review:{review.reviewId}", gate, outcome, decidedBy := .human, decidedAt := submitted
           commitSha := some sha }
  | _, _, _ => none

/-- The provider's reviews as decisions; every outcome is carried, at whatever SHA it was given. -/
def approvals (reviews : List ReviewObservation) (stage : Stage) (route : Route) (riskClass : RiskClass) :
    List Decision :=
  reviews.filterMap (reviewDecision (reviewedGate stage route riskClass))

/-- The facts of an observed change request; the pipeline is read at its head. -/
def scmObservation (run : ChangeRun) (stage : Stage) (observed : ChangeRequestObservation)
    (pipelines : String → PipelineStatus) : GateObservation :=
  { headSha := observed.headSha
    merged := observed.status = .merged
    pipelineStatus := observed.headSha.map pipelines
    approvals := approvals observed.reviews stage run.route (riskClassOf run) }

/-- A human approved a human gate of the stage at the SHA, or at the revision of the observed phase. -/
def ApprovedAt (observation : GateObservation) (human : Finset Gate) (revisions : Phase → Option String)
    (sha : String) : Prop :=
  ∃ decision ∈ observation.approvals, decision.decidedBy = .human ∧ decision.outcome = .approved ∧
    decision.gate ∈ human ∧
    (decision.commitSha = some sha ∨ ∃ phase revision, observation.phase = some phase ∧
      revisions phase = some revision ∧ decision.commitSha = some revision)

def GatesBound (human : Finset Gate) (observation : GateObservation) (revisions : Phase → Option String)
    (resolved : Except Failure GateResolution) : Prop :=
  ∀ resolution, resolved = .ok resolution → ∀ item ∈ resolution.result.gateResults, item.gate ∈ human →
    item.status = .passed → ∀ sha, item.sha = some sha → ApprovedAt observation human revisions sha

structure EndsStage (run : ChangeRun) (stage : Stage) (observation : GateObservation) : Prop where
  resolved : gateResolved (some observation) stage run.route (riskClassOf run) = true
  produces : stage ≠ .reviewVerification
  unordered : pendingReworkOrder observation = none
  lastPhase : observation.nextPhase = none
  unwaived : ∃ gate ∈ requiredHumanGates run.route stage (riskClassOf run),
    ∀ decision ∈ observation.approvals, waivedOn gate decision = false

section Unmerged

variable {run : ChangeRun} {stage : Stage} {observation : GateObservation} {attempt : WaitingAttempt}

theorem humanGateResult_passed (unmerged : observation.merged = false) (gate : Gate) (reason : String) :
    (humanGateResult gate observation reason).status = .passed ↔
      ∀ decision ∈ observation.approvals, waivedOn gate decision = false := by
  have waiver : (observation.approvals.reverse.find? (waivedOn gate)) = none ↔
      ∀ decision ∈ observation.approvals, waivedOn gate decision = false := by
    simp
  rw [← waiver]
  simp only [humanGateResult, unmerged, Bool.false_eq_true, ↓reduceIte]
  cases observation.approvals.reverse.find? (waivedOn gate) <;> simp

theorem resolveReworkOrder_undecided {resolution : GateResolution}
    (resolved : resolveReworkOrder run stage observation attempt = .ok resolution) :
    resolution.result.gateResults = [] := by
  obtain ⟨plan, -, planned⟩ := Outcome.bind_ok.mp resolved
  obtain ⟨result, built, finish⟩ := Outcome.bind_ok.mp planned
  cases Outcome.pure_ok.mp finish
  unfold planResult at built
  cases outcome : plan.outcome with
  | blocked =>
    rw [outcome] at built
    cases built
    rfl
  | rework =>
    rw [outcome] at built
    obtain ⟨action, -, finish⟩ := Outcome.bind_ok.mp built
    cases Outcome.pure_ok.mp finish
    rfl

theorem resolveHumanGated_gates {riskClass : RiskClass} {resolution : GateResolution}
    (unmerged : observation.merged = false)
    (resolved : resolveHumanGated run stage observation attempt riskClass = .ok resolution)
    (decided : resolution.result.gateResults ≠ []) :
    pendingReworkOrder observation = none ∧ observation.nextPhase = none ∧
      resolution.result.gateResults = (sortedGates (requiredHumanGates run.route stage riskClass)).map
        (humanGateResult · observation (humanReason observation)) := by
  simp only [resolveHumanGated, unmerged, Bool.not_false, Bool.true_and] at resolved
  cases pending : pendingReworkOrder observation with
  | some order =>
    rw [pending] at resolved
    exact absurd (resolveReworkOrder_undecided resolved) decided
  | none =>
    rw [pending] at resolved
    simp only [Option.isSome_none, Bool.false_eq_true, ↓reduceIte] at resolved
    cases next : (routeProfile run.route).nextStage stage with
    | none =>
      rw [next] at resolved
      cases resolved
    | some successor =>
      rw [next] at resolved
      cases phase : observation.nextPhase with
      | some following =>
        rw [phase] at resolved
        cases resolved
        exact absurd rfl decided
      | none =>
        rw [phase] at resolved
        cases resolved
        exact ⟨rfl, rfl, rfl⟩

theorem resolveReview_undecided {change : Change} {checkpoint : StageResult} {history : List StageResult}
    {riskClass : RiskClass} {resolution : GateResolution} (unmerged : observation.merged = false)
    (purely : isPurelyHumanGated run.route .reviewVerification riskClass = true)
    (resolved : resolveReview run change checkpoint observation attempt history riskClass = .ok resolution) :
    resolution.result.gateResults = [] := by
  rw [resolveReview, if_neg (by simp [unmerged])] at resolved
  obtain ⟨plan, -, planned⟩ := Outcome.bind_ok.mp resolved
  obtain ⟨result, -, finish⟩ := Outcome.bind_ok.mp planned
  cases Outcome.pure_ok.mp finish
  exact machineGateResults_empty purely

end Unmerged

/-- The gates of a purely human stage are bound to an approval unless the observation ends the stage with
    nothing but approvals of others or of other revisions. -/
theorem human_gates_bound_iff (run : ChangeRun) (stage : Stage) (change : Change) (checkpoint : StageResult)
    (observation : GateObservation) (attempt : WaitingAttempt) (history : List StageResult)
    (revisions : Phase → Option String)
    (purely : isPurelyHumanGated run.route stage (riskClassOf run) = true)
    (unmerged : observation.merged = false) :
    GatesBound (requiredHumanGates run.route stage (riskClassOf run)) observation revisions
        (buildGateResolution run stage change checkpoint observation attempt history) ↔
      (EndsStage run stage observation → ∀ sha, observation.headSha = some sha →
        ApprovedAt observation (requiredHumanGates run.route stage (riskClassOf run)) revisions sha) := by
  constructor
  · intro bound ends sha head
    obtain ⟨gate, human, unwaived⟩ := ends.unwaived
    have works : producesWork stage := by
      refine ⟨?_, ends.produces⟩
      rintro rfl
      have resolved := ends.resolved
      simp [gateResolved] at resolved
    obtain ⟨successor, next⟩ := producesWork_successor works run.route
    have built : buildGateResolution run stage change checkpoint observation attempt history =
        resolveHumanGated run stage observation attempt (riskClassOf run) := by
      simp [buildGateResolution, ends.resolved, ends.produces, purely]
    rw [built] at bound
    simp only [resolveHumanGated, unmerged, ends.unordered, Option.isSome_none, Bool.and_false,
      Bool.false_eq_true, ↓reduceIte, next, ends.lastPhase] at bound
    refine bound _ rfl (humanGateResult gate observation (humanReason observation)) ?_ ?_ ?_ sha ?_
    · exact List.mem_map_of_mem ((mem_sortedGates _ _).mpr human)
    · rw [humanGateResult_gate]
      exact human
    · exact (humanGateResult_passed unmerged gate _).mpr unwaived
    · rw [humanGateResult_sha]
      exact head
  · intro approved resolution built item member human passed sha at_
    have decided : resolution.result.gateResults ≠ [] := List.ne_nil_of_mem member
    unfold buildGateResolution at built
    by_cases resolved : gateResolved (some observation) stage run.route (riskClassOf run) = true
    · simp only [resolved, Bool.not_true, Bool.false_eq_true, ↓reduceIte, purely] at built
      by_cases review : stage = .reviewVerification
      · subst review
        rw [if_pos rfl] at built
        exact absurd (resolveReview_undecided unmerged purely built) decided
      · rw [if_neg review] at built
        obtain ⟨unordered, lastPhase, gates⟩ := resolveHumanGated_gates unmerged built decided
        rw [gates] at member
        obtain ⟨gate, listed, rfl⟩ := List.mem_map.mp member
        rw [humanGateResult_gate] at human
        rw [humanGateResult_sha] at at_
        have unwaived := (humanGateResult_passed unmerged gate _).mp passed
        exact approved ⟨resolved, review, unordered, lastPhase, gate, human, unwaived⟩ sha at_
    · simp [resolved] at built

/-- From R3 on the code gate of construction is a human one. -/
def riskyConstruction : ChangeRun :=
  { id := "run_1", changeId := "change-1", route := .standard, provider := .github, status := .waiting
    stages := [{ id := "run_1:construction:c0", stage := .construction, status := .waiting,
                 inputRevision := some "c0" }]
    implementationContract := some r3Contract }

def riskyCheckpoint : StageResult :=
  { stage := .construction, runId := "run_1", changeId := "change-1", inputRevision := some "c0"
    status := .waiting, nextAction := .waitForInput "the gates are human decisions", producedAt := 0 }

def reviewedAt (sha : String) : GateObservation :=
  let observed := scmObservation riskyConstruction .construction
    { status := .open, headSha := some "c1"
      reviews := [{ reviewId := "review-1", author := "operator", state := "approved", commitSha := some sha,
                    submittedAt := some 0 }] } fun _ => .queued
  withStoreFacts observed { decisions := [], revisions := fun _ => some "c1" } true .construction .standard
    [riskyCheckpoint] fun _ => []

theorem current_review_bound :
    GatesBound (requiredHumanGates .standard .construction .r3) (reviewedAt "c1") (fun _ => some "c1")
      (buildGateResolution riskyConstruction .construction { id := "change-1", riskClass := .r3 }
        riskyCheckpoint (reviewedAt "c1") ⟨1, "c0", 0⟩ [riskyCheckpoint]) := by
  refine (human_gates_bound_iff riskyConstruction .construction _ _ (reviewedAt "c1") _ _ _ ?_ ?_).mpr ?_
  · decide
  · decide
  · intro _ sha head
    have current : sha = "c1" := (Option.some.inj head).symm
    subst current
    exact ⟨_, List.mem_cons_self .., rfl, rfl, by decide, Or.inl rfl⟩

/-- The only review is of an older commit; the gate passes at the head and the run goes on to its
    verification. -/
theorem stale_review_passes :
    ¬GatesBound (requiredHumanGates .standard .construction .r3) (reviewedAt "c0") (fun _ => some "c1")
        (buildGateResolution riskyConstruction .construction { id := "change-1", riskClass := .r3 }
          riskyCheckpoint (reviewedAt "c0") ⟨1, "c0", 0⟩ [riskyCheckpoint]) ∧
      entersStage .reviewVerification (resumeDecision riskyConstruction .construction
        { id := "change-1", riskClass := .r3 } riskyCheckpoint (reviewedAt "c0") ⟨1, "c0", 0⟩
          [riskyCheckpoint] none []) = true := by
  constructor
  · intro bound
    have passed : (humanGateResult .code (reviewedAt "c0") (humanReason (reviewedAt "c0"))).status = .passed := by
      decide
    obtain ⟨decision, member, -, -, -, given⟩ :=
      bound _ rfl (humanGateResult .code (reviewedAt "c0") (humanReason (reviewedAt "c0")))
        (List.mem_cons_self ..) (by decide) passed "c1" rfl
    have older : decision.commitSha = some "c0" := by
      rw [List.mem_singleton.mp member]
    rw [older] at given
    rcases given with head | ⟨phase, revision, -, current, phased⟩
    · exact absurd head (by decide)
    · have same : some "c0" = some "c1" := phased.trans current.symm
      exact absurd same (by decide)
  · decide +kernel

end DarkFactory
