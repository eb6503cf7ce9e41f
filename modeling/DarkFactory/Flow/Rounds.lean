import DarkFactory.Flow.Budget
import DarkFactory.Flow.Refusal

namespace DarkFactory

structure FlowCall where
  result : StageResult
  history : List StageResult := []
  now : Timestamp
  mergeContext : Option MergeRequestContext := none
  humanDecisions : List Decision := []

def FlowCall.apply (call : FlowCall) : Flow FlowDecision :=
  applyResult call.result call.history call.now call.mergeContext call.humanDecisions

def FlowCall.after (call : FlowCall) (run : ChangeRun) : ChangeRun :=
  match call.apply run with
  | .ok _ after => after
  | .error _ after => after

def FlowCall.decided (call : FlowCall) (run : ChangeRun) : Option FlowDecision :=
  match call.apply run with
  | .ok decision _ => some decision
  | .error _ _ => none

def appliedAll (run : ChangeRun) (calls : List FlowCall) : ChangeRun :=
  calls.foldl (fun run call => call.after run) run

def decisionsOf : ChangeRun → List FlowCall → List FlowDecision
  | _, [] => []
  | run, call :: rest => (call.decided run).toList ++ decisionsOf (call.after run) rest

def FlowDecision.reworks (decision : FlowDecision) : Bool := decision.action.type = .rework

def BeyondLimit (budget : BudgetSnapshot) (result : StageResult) : Prop :=
  ∃ action, result.nextAction = .rework action ∧
    (budget.maxReworkRounds ≤ budget.usedReworkRounds ∨ budget.maxReworkRounds < action.round)

structure RoundsBounded (initial final : BudgetSnapshot) (decisions : List FlowDecision) : Prop where
  counted : final.usedReworkRounds = initial.usedReworkRounds + decisions.countP FlowDecision.reworks
  limit : final.maxReworkRounds = initial.maxReworkRounds
  bounded : final.usedReworkRounds ≤ initial.maxReworkRounds

structure SpendsRound (before after : BudgetSnapshot) (decision : FlowDecision) : Prop where
  counted : after.usedReworkRounds = before.usedReworkRounds + if decision.reworks then 1 else 0
  limit : after.maxReworkRounds = before.maxReworkRounds
  allowed : decision.reworks = true → before.usedReworkRounds < before.maxReworkRounds

theorem RoundsBounded.nil {budget : BudgetSnapshot} (within : budget.usedReworkRounds ≤ budget.maxReworkRounds) :
    RoundsBounded budget budget [] := ⟨rfl, rfl, within⟩

theorem RoundsBounded.snoc {initial middle final : BudgetSnapshot} {decisions : List FlowDecision}
    {decision : FlowDecision} (bounded : RoundsBounded initial middle decisions)
    (spends : SpendsRound middle final decision) : RoundsBounded initial final (decisions ++ [decision]) := by
  have counted := bounded.counted
  have within := bounded.bounded
  have limit := bounded.limit
  refine ⟨?_, spends.limit.trans limit, ?_⟩
  · rw [List.countP_append, spends.counted, counted, List.countP_singleton]
    omega
  · rw [spends.counted]
    cases reworks : decision.reworks with
    | false => simpa using within
    | true =>
      have allowed := spends.allowed reworks
      simp only [↓reduceIte]
      omega

theorem RoundsBounded.same {initial middle final : BudgetSnapshot} {decisions : List FlowDecision}
    (bounded : RoundsBounded initial middle decisions) (used : final.usedReworkRounds = middle.usedReworkRounds)
    (limit : final.maxReworkRounds = middle.maxReworkRounds) : RoundsBounded initial final decisions :=
  ⟨used.trans bounded.counted, limit.trans bounded.limit, used ▸ bounded.bounded⟩

section Verdicts

variable {run : ChangeRun} {result : StageResult} {history : List StageResult} {now : Timestamp}
  {context : Option MergeRequestContext} {decisions : List Decision} {reached : Verdict}

theorem reworkVerdict_spends (run : ChangeRun) (action : ReworkAction) (asked : result.nextAction = .rework action) :
    (∃ reason, reworkVerdict run result action.round = .blocked reason) ∨
      ((reworkVerdict run result action.round).spends = true ∧
        (reworkVerdict run result action.round).action = .rework action ∧
        run.budget.usedReworkRounds < run.budget.maxReworkRounds ∧ action.round ≤ run.budget.maxReworkRounds) := by
  unfold reworkVerdict
  cases firstStopReason [escalationStopReason result.escalations, autonomyBudgetReason run] with
  | some reason => exact Or.inl ⟨reason, rfl⟩
  | none =>
    cases violated : reworkViolation run.budget action.round with
    | some violation => exact Or.inl ⟨violation.reason, rfl⟩
    | none => exact Or.inr ⟨rfl, asked, (reworkViolation_none _ _).mp violated⟩

theorem verdict_spends (computed : verdict run result history now context decisions = .ok reached) :
    reached.spends = (reached.decision result.stage).reworks ∧
      (reached.spends = true → run.budget.usedReworkRounds < run.budget.maxReworkRounds) := by
  have calm (verdict : Verdict) (quiet : verdict.action.type ≠ .rework) (unspent : verdict.spends = false) :
      verdict.spends = (verdict.decision result.stage).reworks ∧
        (verdict.spends = true → run.budget.usedReworkRounds < run.budget.maxReworkRounds) := by
    simp [unspent, FlowDecision.reworks, Verdict.decision, quiet]
  have stops (reason : String) := calm (.blocked reason) (fun same => by cases same) rfl
  unfold verdict at computed
  cases action : result.nextAction with
  | executeStage target reason =>
    simp only [action, executeVerdict] at computed
    split at computed
    · cases computed
    · split at computed
      · cases computed
        exact stops _
      · cases computed
        exact calm _ (fun same => by cases same) rfl
  | waitForInput | waitForCi | requestApproval =>
    rw [action] at computed
    cases computed
    exact calm _ (fun same => by cases same) rfl
  | phaseRound =>
    rw [action] at computed
    cases computed
    refine calm _ ?_ rfl
    rw [phaseRoundVerdict, action]
    intro same
    cases same
  | stop =>
    rw [action] at computed
    cases computed
    refine calm _ ?_ rfl
    rw [stopVerdict, action]
    intro same
    cases same
  | rework round =>
    rw [action] at computed
    cases computed
    rcases reworkVerdict_spends run round action with ⟨reason, blocked⟩ | ⟨spends, own, allowed, -⟩
    · rw [blocked]
      exact stops reason
    · refine ⟨?_, fun _ => allowed⟩
      rw [spends, FlowDecision.reworks, Verdict.decision, own]
      rfl
  | merge request reason =>
    simp only [action, mergeVerdict] at computed
    split at computed
    · cases computed
    · split at computed
      · cases computed
        exact stops _
      · split at computed
        · cases computed
          exact stops _
        · cases computed
          exact calm _ (fun same => by cases same) rfl
        · cases computed
          exact calm _ (fun same => by cases same) rfl
        · cases computed
          exact calm _ (fun same => by cases same) rfl
  | release environment reason =>
    simp only [action, releaseVerdict] at computed
    split at computed
    · cases computed
      exact stops _
    · split at computed
      · cases computed
        exact stops _
      · cases computed
        exact calm _ (fun same => by cases same) rfl

end Verdicts

section Applied

variable {run entered after : ChangeRun} {result : StageResult} {index : Nat} {history : List StageResult}
  {now : Timestamp} {context : Option MergeRequestContext} {decisions : List Decision} {decision : FlowDecision}

theorem enterNext_budget (reached : Verdict) (run : ChangeRun) : (enterNext reached run).budget = run.budget := by
  unfold enterNext start
  cases reached.nextStage with
  | none => rfl
  | some target =>
    dsimp only
    split
    · rfl
    · split <;> rfl

theorem moveRun_budget (target : RunStatus) (run : ChangeRun) : (moveRun target run).budget = run.budget := by
  unfold moveRun
  split <;> rfl

theorem carry_budget (reached : Verdict) (index : Nat) (run : ChangeRun) :
    (reached.carry index run).budget = if reached.spends then (spendRound run).budget else run.budget := by
  rw [Verdict.carry, moveRun_budget, enterNext_budget]
  cases reached.spends <;> rfl

/-- The budget an accepted result leaves: its usage charged, and a round when the decision is a rework. -/
theorem applyResult_budget (applied : applyResult result history now context decisions run = .ok decision after) :
    after.budget = { accumulateUsage result.usage run.budget with
      usedReworkRounds := run.budget.usedReworkRounds + if decision.reworks then 1 else 0 } ∧
      (decision.reworks = true → run.budget.usedReworkRounds < run.budget.maxReworkRounds) := by
  obtain ⟨-, -, -, index, entered, reached, ensured, computed, rfl, rfl⟩ := applyResult_ok applied
  have charged : (handled result entered).budget = accumulateUsage result.usage run.budget := by
    rw [handled_budget, ensureStageRun_budget ensured]
  obtain ⟨used, limit⟩ := accumulateUsage_rounds result.usage run.budget
  obtain ⟨spends, allowed⟩ := verdict_spends computed
  rw [charged, used, limit] at allowed
  rw [carry_budget, spendRound, charged, used, ← spends]
  refine ⟨?_, allowed⟩
  cases reached.spends with
  | true => rfl
  | false =>
    simp only [Bool.false_eq_true, ↓reduceIte, Nat.add_zero]
    rw [← used]

theorem applyResult_rounds (applied : applyResult result history now context decisions run = .ok decision after) :
    SpendsRound run.budget after.budget decision := by
  obtain ⟨budget, allowed⟩ := applyResult_budget applied
  rw [budget]
  exact ⟨rfl, (accumulateUsage_rounds result.usage run.budget).2, allowed⟩

theorem applyResult_refused_rounds {failure : Failure}
    (refused : applyResult result history now context decisions run = .error failure after) :
    after.budget.usedReworkRounds = run.budget.usedReworkRounds ∧
      after.budget.maxReworkRounds = run.budget.maxReworkRounds := by
  rcases applyResult_refused refused with rfl | ⟨index, entered, -, -, -, ensured, -, rfl⟩
  · exact ⟨rfl, rfl⟩
  · rw [handled_budget, ensureStageRun_budget ensured]
    exact accumulateUsage_rounds _ _

theorem applyResult_beyond (beyond : BeyondLimit run.budget result)
    (applied : applyResult result history now context decisions run = .ok decision after) :
    decision.runStatus = .blocked ∧ decision.stageStatus = .blocked ∧ decision.nextStage = none ∧
      after.budget.usedReworkRounds = run.budget.usedReworkRounds := by
  obtain ⟨action, asked, exceeds⟩ := beyond
  have rounds := applyResult_rounds applied
  obtain ⟨-, -, -, index, entered, reached, ensured, computed, rfl, rfl⟩ := applyResult_ok applied
  have charged : (handled result entered).budget = accumulateUsage result.usage run.budget := by
    rw [handled_budget, ensureStageRun_budget ensured]
  obtain ⟨used, limit⟩ := accumulateUsage_rounds result.usage run.budget
  rw [verdict, asked] at computed
  cases computed
  rcases reworkVerdict_spends (handled result entered) action asked with ⟨reason, blocked⟩ | ⟨-, -, allowed⟩
  · rw [blocked] at rounds ⊢
    exact ⟨rfl, rfl, rfl, rounds.counted⟩
  · rw [charged, used, limit] at allowed
    omega

theorem reworkResult_applied (run : ChangeRun) (history : List StageResult) (now : Timestamp)
    (context : Option MergeRequestContext) (decisions : List Decision)
    (asked : ∃ action, result.nextAction = .rework action) :
    (∃ failure, applyResult result history now context decisions run = .error failure run) ∨
      ∃ decision after, applyResult result history now context decisions run = .ok decision after := by
  obtain ⟨action, asked⟩ := asked
  rcases applyResult_cases run result history now context decisions with
    refused | ⟨index, entered, -, -, -, -, applied⟩
  · exact Or.inl refused
  · right
    rw [applied, verdict, asked]
    exact ⟨_, _, rfl⟩

end Applied

theorem decisionsOf_append {run : ChangeRun} {first second : List FlowCall} :
    decisionsOf run (first ++ second) = decisionsOf run first ++ decisionsOf (appliedAll run first) second := by
  induction first generalizing run with
  | nil => rfl
  | cons call rest ih => simp [decisionsOf, appliedAll, ih]

/-- Over any calls on one run, refused ones included, the rounds stay counted and within the limit. -/
theorem appliedAll_rounds {run : ChangeRun} (within : run.budget.usedReworkRounds ≤ run.budget.maxReworkRounds)
    (calls : List FlowCall) :
    RoundsBounded run.budget (appliedAll run calls).budget (decisionsOf run calls) := by
  induction calls using List.reverseRecOn with
  | nil => exact .nil within
  | append_singleton earlier call ih =>
    rw [decisionsOf_append, appliedAll, List.foldl_append]
    change RoundsBounded run.budget (call.after (appliedAll run earlier)).budget
      (decisionsOf run earlier ++ ((call.decided (appliedAll run earlier)).toList ++ []))
    rw [List.append_nil, FlowCall.after, FlowCall.decided]
    cases applied : call.apply (appliedAll run earlier) with
    | ok decision after => exact ih.snoc (applyResult_rounds applied)
    | error failure after =>
      obtain ⟨used, limit⟩ := applyResult_refused_rounds applied
      simpa using ih.same used limit

end DarkFactory
