import DarkFactory.Flow.Terms

namespace DarkFactory

section Reached

variable (run : ChangeRun) (result : StageResult) (now : Timestamp)

/-- The checks `apply_result` makes on the result itself: the flow table lists its action for the stage, and its
    status is the one the action comes with. -/
structure FlowAccepts : Prop where
  listed : (flowTransitions result.stage).contains result.nextAction.type = true
  paired : result.status = expectedResultStatus result.nextAction

/-- The reasons that hold a merge or a release back before the policy is asked. -/
def heldBack : Option String :=
  firstStopReason [blockReason run result.stage result.gateResults now,
    escalationStopReason result.escalations, riskBandReason run]

def mergeAuthorized (context : Option MergeRequestContext) : Bool :=
  (mergePolicyDecision run result context).kind.authorized

/-- An accepted result moves the run off its stage: no stop reason, and the policy let a merge through. -/
inductive Leaves (context : Option MergeRequestContext) (decisions : List Decision) (target : Stage) : Prop
  | executed (reason : Option String) (action : result.nextAction = .executeStage target reason)
      (successor : (routeProfile run.route).nextStage result.stage = some target)
      (open_ : firstStopReason [blockReason run result.stage result.gateResults now,
        escalationReason run result decisions] = none)
  | merged (request : ChangeRequestRef) (reason : Option String)
      (action : result.nextAction = .merge request reason)
      (successor : (routeProfile run.route).nextStage result.stage = some target)
      (open_ : heldBack run result now = none) (authorized : mergeAuthorized run result context = true)

/-- The merge policy leaves an accepted merge result to the human. -/
def DefersMerge (context : Option MergeRequestContext) : Prop :=
  (∃ request reason, result.nextAction = .merge request reason) ∧ heldBack run result now = none ∧
    (mergePolicyDecision run result context).kind = .manualMergeRequired

/-- Nothing stops the round an accepted rework result asks for: no escalation, and neither the autonomy budget nor
    the rework limits. -/
def Reworks (action : ReworkAction) : Prop :=
  result.nextAction = .rework action ∧
    firstStopReason [escalationStopReason result.escalations, autonomyBudgetReason run] = none ∧
    reworkViolation run.budget action.round = none

/-- Nothing holds an accepted release back, and the run as a whole is complete with it. -/
def Releases (history : List StageResult) : Prop :=
  (∃ environment reason, result.nextAction = .release environment reason) ∧ heldBack run result now = none ∧
    completionViolations { run with status := .succeeded } (history ++ [result]) = []

/-- Everything a result that passed the table can lead to. -/
inductive Reaches (history : List StageResult) (context : Option MergeRequestContext)
    (decisions : List Decision) : Verdict → Prop
  | blocked (reason : String) : Reaches history context decisions (.blocked reason)
  | parked (waits : result.status = .waiting) : Reaches history context decisions (.parked result.nextAction)
  | deferred (message : String) (defers : DefersMerge run result now context) :
      Reaches history context decisions (.parked (.waitForInput message))
  | left (target : Stage) (leaves : Leaves run result now context decisions target) :
      Reaches history context decisions (.advanced result.nextAction target)
  | reworked (action : ReworkAction) (asked : result.nextAction = .rework action) (granted : Reworks run result action) :
      Reaches history context decisions
        { action := result.nextAction, stageStatus := .failed, runStatus := .running,
          nextStage := some (reworkTarget result.stage),
          fresh := reworkTarget result.stage = result.stage, spends := true }
  | nextPhase (phase : Phase) (reason : Option String) (asked : result.nextAction = .phaseRound phase reason) :
      Reaches history context decisions (phaseRoundVerdict result)
  | released (environment : String) (reason : Option String)
      (asked : result.nextAction = .release environment reason) (releases : Releases run result now history) :
      Reaches history context decisions
        { action := result.nextAction, stageStatus := .succeeded, runStatus := .succeeded }
  | stopped (outcome : StopOutcome) (reason : String) (asked : result.nextAction = .stop outcome reason) :
      Reaches history context decisions (stopVerdict result outcome)

end Reached

variable {run : ChangeRun} {result : StageResult} {now : Timestamp} {history : List StageResult}
  {context : Option MergeRequestContext} {decisions : List Decision} {reached : Verdict}

theorem reworkTarget_index (stage : Stage) : stageIndex (reworkTarget stage) ≤ stageIndex stage := by
  cases stage <;> decide

theorem executeVerdict_reaches {target : Stage} {reason : Option String}
    (action : result.nextAction = .executeStage target reason)
    (computed : executeVerdict run result target now decisions = .ok reached) :
    Reaches run result now history context decisions reached := by
  simp only [executeVerdict] at computed
  by_cases wrong : (routeProfile run.route).nextStage result.stage ≠ some target
  · rw [if_pos wrong] at computed
    cases computed
  rw [if_neg wrong] at computed
  cases stop : firstStopReason [blockReason run result.stage result.gateResults now,
      escalationReason run result decisions] with
  | some text =>
    simp only [stop] at computed
    cases computed
    exact .blocked text
  | none =>
    simp only [stop] at computed
    cases computed
    exact .left target (.executed reason action (not_not.mp wrong) stop)

theorem mergeVerdict_reaches {request : ChangeRequestRef} {reason : Option String}
    (action : result.nextAction = .merge request reason)
    (computed : mergeVerdict run result now context = .ok reached) :
    Reaches run result now history context decisions reached := by
  simp only [mergeVerdict] at computed
  cases next : (routeProfile run.route).nextStage result.stage with
  | none => simp [next] at computed
  | some target =>
    simp only [next] at computed
    cases held : heldBack run result now with
    | some text =>
      rw [heldBack] at held
      simp only [held] at computed
      cases computed
      exact .blocked text
    | none =>
      have stop := held
      rw [heldBack] at stop
      simp only [stop] at computed
      have authorized (kind : (mergePolicyDecision run result context).kind = .humanMergeAuthorized ∨
          (mergePolicyDecision run result context).kind = .finalizerMergeAllowed) :
          Reaches run result now history context decisions (.advanced result.nextAction target) := by
        refine .left target (.merged request reason action next held ?_)
        rcases kind with kind | kind <;> simp [mergeAuthorized, MergeDecisionKind.authorized, kind]
      cases kind : (mergePolicyDecision run result context).kind with
      | blocked =>
        simp only [kind] at computed
        cases computed
        exact .blocked _
      | manualMergeRequired =>
        simp only [kind] at computed
        cases computed
        exact .deferred _ ⟨⟨request, reason, action⟩, held, kind⟩
      | humanMergeAuthorized =>
        simp only [kind] at computed
        cases computed
        exact authorized (Or.inl kind)
      | finalizerMergeAllowed =>
        simp only [kind] at computed
        cases computed
        exact authorized (Or.inr kind)

theorem reworkVerdict_reaches {action : ReworkAction} (asked : result.nextAction = .rework action) :
    Reaches run result now history context decisions (reworkVerdict run result action.round) := by
  unfold reworkVerdict
  cases stop : firstStopReason [escalationStopReason result.escalations, autonomyBudgetReason run] with
  | some reason => exact .blocked reason
  | none =>
    cases spent : reworkViolation run.budget action.round with
    | some violation => exact .blocked violation.reason
    | none => exact .reworked action asked ⟨asked, stop, spent⟩

theorem releaseVerdict_reaches {environment : String} {reason : Option String}
    (asked : result.nextAction = .release environment reason) :
    Reaches run result now history context decisions (releaseVerdict run result history now) := by
  unfold releaseVerdict
  cases held : firstStopReason [blockReason run result.stage result.gateResults now,
      escalationStopReason result.escalations, riskBandReason run] with
  | some text => exact .blocked text
  | none =>
    dsimp only
    cases violations : completionViolations { run with status := .succeeded } (history ++ [result]) with
    | cons first rest => exact .blocked _
    | nil => exact .released environment reason asked ⟨⟨environment, reason, asked⟩, held, violations⟩

theorem Reaches.next {target : Stage} (reaches : Reaches run result now history context decisions reached)
    (next : reached.nextStage = some target) :
    (Leaves run result now context decisions target ∧ reached = .advanced result.nextAction target) ∨
      (∃ action, result.nextAction = .rework action ∧ reached.action = .rework action ∧
        reached.stageStatus = .failed ∧ target = reworkTarget result.stage) ∨
      ∃ phase reason, result.nextAction = .phaseRound phase reason ∧ reached.stageStatus = .succeeded ∧
        target = result.stage := by
  cases reaches with
  | blocked | parked | deferred | released | stopped => cases next
  | left successor leaves =>
    cases next
    exact Or.inl ⟨leaves, rfl⟩
  | reworked action asked =>
    cases next
    exact Or.inr (Or.inl ⟨action, asked, asked, rfl, rfl⟩)
  | nextPhase phase reason asked =>
    cases next
    exact Or.inr (Or.inr ⟨phase, reason, asked, rfl, rfl⟩)

/-- A decision for a round of rework comes from a granted one: no wait and no stop is a rework. -/
theorem Reaches.rework {action : ReworkAction} (reaches : Reaches run result now history context decisions reached)
    (paired : result.status = expectedResultStatus result.nextAction) (rework : reached.action = .rework action) :
    Reworks run result action ∧ reached.stageStatus = .failed ∧ reached.runStatus = .running ∧
      reached.nextStage = some (reworkTarget result.stage) := by
  cases reaches with
  | blocked | deferred => cases rework
  | parked waits =>
    rw [show result.nextAction = .rework action from rework, waits] at paired
    cases paired
  | left target leaves =>
    cases leaves with
    | executed _ asked | merged _ _ asked =>
      rw [show result.nextAction = .rework action from rework] at asked
      cases asked
  | reworked other asked granted =>
    rw [show result.nextAction = .rework action from rework, NextAction.rework.injEq] at asked
    subst asked
    exact ⟨granted, rfl, rfl, rfl⟩
  | nextPhase _ _ asked | released _ _ asked | stopped _ _ asked =>
    rw [show result.nextAction = .rework action from rework] at asked
    cases asked

theorem Leaves.successor {target : Stage} (leaves : Leaves run result now context decisions target) :
    (routeProfile run.route).nextStage result.stage = some target := by
  cases leaves with
  | executed _ _ successor _ => exact successor
  | merged _ _ _ successor _ _ => exact successor

theorem Reaches.succeeded (reaches : Reaches run result now history context decisions reached)
    (done : reached.runStatus = .succeeded) :
    result.nextAction.type = .release ∧ reached.stageStatus = .succeeded ∧ reached.nextStage = none ∧
      ∀ item ∈ history ++ [result], item.clean = true := by
  cases reaches with
  | blocked | parked | deferred | left | reworked | nextPhase => cases done
  | released environment reason asked releases =>
    exact ⟨by rw [asked]; rfl, rfl, rfl, (completionViolations_empty _ _ rfl).mp releases.2.2⟩
  | stopped outcome => cases outcome <;> cases done

/-- The cases of the transition, each with the guard it passed. -/
theorem verdict_reaches (paired : result.status = expectedResultStatus result.nextAction)
    (computed : verdict run result history now context decisions = .ok reached) :
    Reaches run result now history context decisions reached := by
  unfold verdict at computed
  cases action : result.nextAction with
  | executeStage target reason =>
    rw [action] at computed
    exact executeVerdict_reaches action computed
  | waitForInput | waitForCi | requestApproval =>
    rw [action] at computed paired
    cases computed
    rw [← action]
    exact .parked paired
  | rework round =>
    rw [action] at computed
    cases computed
    exact reworkVerdict_reaches action
  | phaseRound phase reason =>
    rw [action] at computed
    cases computed
    exact .nextPhase phase reason action
  | merge request reason =>
    rw [action] at computed
    exact mergeVerdict_reaches action computed
  | release environment reason =>
    rw [action] at computed
    cases computed
    exact releaseVerdict_reaches action
  | stop outcome reason =>
    rw [action] at computed
    cases computed
    exact .stopped outcome reason action

end DarkFactory
