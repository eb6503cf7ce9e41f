import DarkFactory.Runner.Rows

namespace DarkFactory

/-- What a worker answers, whatever the attempt it is handed. -/
structure Answer where
  status : StageStatus
  nextAction : NextAction
  gateResults : List GateResult := []
  findings : List Finding := []
  isResult : resultStatus status = true := by
    first | exact succeeded_isResult | exact waiting_isResult | exact failed_isResult | exact blocked_isResult | decide

def Answer.result (answer : Answer) (context : StageContext) (producedAt : Timestamp) : StageResult :=
  { stage := context.stage, runId := context.runId, changeId := context.change.id,
    attemptNumber := context.attemptNumber, inputRevision := context.inputRevision,
    status := answer.status, nextAction := answer.nextAction, gateResults := answer.gateResults,
    findings := answer.findings, producedAt, statusIsResult := answer.isResult }

def scripted (runId : String) (at_ : Timestamp) (revision : String) (answer : Answer) : AdvanceInput :=
  { change := { id := "change-1", riskClass := .r1 }, changeJson := "", runId, ownerId := "worker-1"
    executor := fun context => .ok (answer.result context at_)
    revisionOf := some fun _ _ => revision, now := at_, leasedAt := at_, createdAt := at_ }

theorem scripted_faithful (runId : String) (at_ : Timestamp) (revision : String) (answer : Answer) :
    Faithful (scripted runId at_ revision answer) := by
  intro context result answered
  cases answered
  exact ⟨rfl, rfl, rfl, rfl⟩

theorem scripted_attempted {runId : String} {at_ : Timestamp} {revision : String} {answer : Answer}
    {store : Store} {attempt : Attempted}
    (planned : attempted (scripted runId at_ revision answer) store = some attempt) :
    ∃ context, attempt.result = answer.result context at_ := by
  obtain ⟨run, stage, plan⟩ := attempted_without_facts rfl planned
  cases plan
  exact ⟨_, rfl⟩

def Gate.passed (gate : Gate) : GateResult := { gate, status := .passed }

def Gate.passedAt (gate : Gate) (sha : String) : GateResult := { gate, status := .passed, sha := some sha }

def changeRequest : ChangeRequestRef := { repository := ⟨.github, "org/repo"⟩, number := 7, status := .open }

def quickRun : CreateInput :=
  { changeId := "change-1", route := .quick, provider := .github, budget := {}, inputRevision := "snapshot"
    initialStageRevision := some "c0", createdAt := 0 }

def quickToReview : List Drive :=
  [.create quickRun,
    .advance (scripted quickRun.runId 1 "c1"
      { status := .succeeded, nextAction := .executeStage .planning none
        gateResults := [Gate.passed .specification] }),
    .advance (scripted quickRun.runId 2 "c2"
      { status := .succeeded, nextAction := .executeStage .construction none
        gateResults := [Gate.passed .planning] }),
    .advance (scripted quickRun.runId 3 "c3"
      { status := .succeeded, nextAction := .executeStage .reviewVerification none
        gateResults := [Gate.passed .code] })]

def quickMerge : AdvanceInput :=
  { scripted quickRun.runId 4 "c4"
      { status := .succeeded, nextAction := .merge changeRequest none
        gateResults := [Gate.passedAt .review "c3", Gate.passedAt .verification "c3"] } with
    mergeContext := some
      { executor := .human, riskClass := .r1, route := .quick, stage := .reviewVerification
        expectedSha := some "c3", headSha := some "c3"
        humanApprovals := [{ id := "decision-1", gate := .review, outcome := .approved, decidedBy := .human
                             decidedAt := 4, commitSha := some "c3" }] } }

def quickRelease : AdvanceInput :=
  scripted quickRun.runId 5 "c5"
    { status := .succeeded, nextAction := .release "staging" none, gateResults := [Gate.passed .release] }

def quickReleased : List Drive := quickToReview ++ [.advance quickMerge, .advance quickRelease]

theorem quickReleased_faithful : ∀ drive ∈ quickReleased, drive.faithful := by
  simp only [quickReleased, quickToReview, List.cons_append, List.nil_append, List.forall_mem_cons,
    List.not_mem_nil, false_implies, implies_true, and_true]
  exact ⟨trivial, scripted_faithful _ _ _ _, scripted_faithful _ _ _ _, scripted_faithful _ _ _ _,
    scripted_faithful quickRun.runId 4 "c4" _, scripted_faithful _ _ _ _⟩

end DarkFactory
