import DarkFactory.Flow.Reaches

namespace DarkFactory

/-- Tokens or cost at their limit, or the deadline passed. -/
def Exhausted (budget : BudgetSnapshot) (now : Timestamp) : Prop :=
  budget.tokenBudgetExhausted = true ∨ budget.costBudgetExhausted = true ∨
    ∃ deadline, budget.deadline = some deadline ∧ deadline < now

def iterationsWith (run : ChangeRun) (stage : Stage) : Nat :=
  if (activeIndex run stage).isSome then run.stages.length else run.stages.length + 1

/-- A round no limit of spend is asked about: every phase round, and a rework round that neither an
    escalation, nor the iterations of the contract, nor the rework limit vetoes. -/
def UncheckedRound (run : ChangeRun) (result : StageResult) : Prop :=
  (∃ phase reason, result.nextAction = .phaseRound phase reason) ∨
    ∃ action, result.nextAction = .rework action ∧ result.escalations = [] ∧
      (∀ contract, run.implementationContract = some contract →
        iterationsWith run result.stage < contract.budget.maxAutonomousIterations) ∧
      run.budget.usedReworkRounds < run.budget.maxReworkRounds ∧ action.round ≤ run.budget.maxReworkRounds

theorem exhausted_iff (budget : BudgetSnapshot) (now : Timestamp) :
    Exhausted budget now ↔ continuationViolations budget now ≠ [] := by
  rw [Ne, continuationViolations_empty, Exhausted]
  constructor
  · rintro (tokens | cost | ⟨deadline, set, passed⟩) ⟨tokensLeft, costLeft, inTime⟩
    · rw [tokens] at tokensLeft
      cases tokensLeft
    · rw [cost] at costLeft
      cases costLeft
    · exact absurd (inTime deadline set) (not_le.mpr passed)
  · intro violated
    by_contra none_
    rw [not_or, not_or, not_exists] at none_
    refine violated ⟨by simpa using none_.1, by simpa using none_.2.1, ?_⟩
    intro deadline set
    exact not_lt.mp fun passed => none_.2.2 deadline ⟨set, passed⟩

section Handled

variable {run entered : ChangeRun} {result : StageResult} {index : Nat}

theorem ensureStageRun_budget (ensured : ensureStageRun result run = .ok (index, entered)) :
    entered.budget = run.budget := by
  rcases ensureStageRun_ok ensured with ⟨stageRun, -, -, -, rfl⟩ | ⟨-, -, -, rfl⟩ <;> rfl

theorem ensureStageRun_contract (ensured : ensureStageRun result run = .ok (index, entered)) :
    entered.implementationContract = run.implementationContract := by
  rcases ensureStageRun_ok ensured with ⟨stageRun, -, -, -, rfl⟩ | ⟨-, -, -, rfl⟩ <;> rfl

theorem ensureStageRun_iterations (ensured : ensureStageRun result run = .ok (index, entered)) :
    entered.stages.length = iterationsWith run result.stage := by
  rcases ensureStageRun_ok ensured with ⟨stageRun, active, -, -, rfl⟩ | ⟨absent, -, -, rfl⟩
  · simp [iterationsWith, active]
  · simp [iterationsWith, absent]

theorem accumulateUsage_rounds (usage : Option Usage) (budget : BudgetSnapshot) :
    (accumulateUsage usage budget).usedReworkRounds = budget.usedReworkRounds ∧
      (accumulateUsage usage budget).maxReworkRounds = budget.maxReworkRounds := by
  cases usage <;> exact ⟨rfl, rfl⟩

theorem blockReason_exhausted {spent : ChangeRun} {now : Timestamp} (exhausted : Exhausted spent.budget now)
    (stage : Stage) (results : List GateResult) (others : List (Option String)) :
    ∃ reason, firstStopReason (blockReason spent stage results now :: others) = some reason := by
  rw [← Option.ne_none_iff_exists']
  intro none_
  have unblocked := firstStopReason_none.mp none_ _ (List.mem_cons_self ..)
  exact (exhausted_iff _ _).mp exhausted (blockReason_none.mp unblocked).2

end Handled

variable {run : ChangeRun} {result : StageResult} {history : List StageResult} {now : Timestamp}
  {context : Option MergeRequestContext} {decisions : List Decision} {reached : Verdict}

theorem verdict_exhausted (exhausted : Exhausted run.budget now)
    (computed : verdict run result history now context decisions = .ok reached) :
    (reached.nextStage = none ∧ reached.runStatus ≠ .succeeded) ↔
      (∀ phase reason, result.nextAction ≠ .phaseRound phase reason) ∧
        ∀ action, result.nextAction = .rework action →
          ¬(result.escalations = [] ∧ autonomyBudgetReason run = none ∧
            reworkViolation run.budget action.round = none) := by
  have stops (reason : String) :
      (Verdict.blocked reason).nextStage = none ∧ (Verdict.blocked reason).runStatus ≠ .succeeded :=
    ⟨rfl, by simp [Verdict.blocked]⟩
  unfold verdict at computed
  cases action : result.nextAction with
  | executeStage target reason =>
    rw [action] at computed
    simp only [executeVerdict] at computed
    obtain ⟨text, blocked⟩ := blockReason_exhausted exhausted result.stage result.gateResults
      [escalationReason run result decisions]
    split at computed
    · cases computed
    · rw [blocked] at computed
      cases computed
      simp [stops]
  | waitForInput | waitForCi | requestApproval =>
    rw [action] at computed
    cases computed
    simp [Verdict.parked]
  | rework round =>
    rw [action] at computed
    cases computed
    simp only [reworkVerdict, ne_eq, reduceCtorEq, not_false_eq_true, implies_true, NextAction.rework.injEq,
      true_and, forall_eq']
    cases vetoed : firstStopReason [escalationStopReason result.escalations, autonomyBudgetReason run] with
    | some text =>
      have held : ¬(result.escalations = [] ∧ autonomyBudgetReason run = none ∧
          reworkViolation run.budget round.round = none) := by
        rintro ⟨calm, autonomous, -⟩
        have clear : firstStopReason [escalationStopReason result.escalations, autonomyBudgetReason run] =
            none := by
          simp [firstStopReason_none, escalationStopReason_none, calm, autonomous]
        rw [clear] at vetoed
        cases vetoed
      exact ⟨fun _ => held, fun _ => stops text⟩
    | none =>
      have free := firstStopReason_none.mp vetoed
      have calm := (escalationStopReason_none _).mp (free _ (List.mem_cons_self ..))
      have autonomous : autonomyBudgetReason run = none := free _ (by simp)
      cases limited : reworkViolation run.budget round.round with
      | some violation => simp [stops]
      | none => simp [calm, autonomous]
  | phaseRound phase reason =>
    rw [action] at computed
    cases computed
    simp [phaseRoundVerdict]
  | merge request reason =>
    rw [action] at computed
    simp only [mergeVerdict] at computed
    obtain ⟨text, blocked⟩ := blockReason_exhausted exhausted result.stage result.gateResults
      [escalationStopReason result.escalations, riskBandReason run]
    split at computed
    · cases computed
    · rw [blocked] at computed
      cases computed
      simp [stops]
  | release environment reason =>
    rw [action] at computed
    simp only [releaseVerdict] at computed
    obtain ⟨text, blocked⟩ := blockReason_exhausted exhausted result.stage result.gateResults
      [escalationStopReason result.escalations, riskBandReason run]
    rw [blocked] at computed
    cases computed
    simp [stops]
  | stop outcome reason =>
    rw [action] at computed
    cases computed
    cases outcome <;> simp [stopVerdict, stopStatus]

/-- With the usage of an accepted result the budget is spent: the run stops there unless the result
    starts a round the flow does not check. -/
theorem exhausted_budget_stops_iff {decision : FlowDecision} {after : ChangeRun}
    (applied : applyResult result history now context decisions run = .ok decision after)
    (exhausted : Exhausted (accumulateUsage result.usage run.budget) now) :
    (decision.nextStage = none ∧ after.status ≠ .succeeded) ↔ ¬UncheckedRound run result := by
  obtain ⟨-, -, -, index, entered, reached, ensured, computed, rfl, rfl⟩ := applyResult_ok applied
  have spent : (handled result entered).budget = accumulateUsage result.usage run.budget := by
    rw [handled_budget, ensureStageRun_budget ensured]
  rw [← spent] at exhausted
  have status : (reached.carry index (handled result entered)).status = reached.runStatus := by
    simp [Verdict.carry]
  rw [status]
  refine (verdict_exhausted exhausted computed).trans ?_
  obtain ⟨used, allowed⟩ := accumulateUsage_rounds result.usage run.budget
  rw [UncheckedRound, not_or]
  simp only [autonomyBudgetReason_none, handled_contract, ensureStageRun_contract ensured, handled_stages,
    ensureStageRun_iterations ensured, reworkViolation_none, spent, used, allowed, not_exists, ne_eq]
  constructor
  · rintro ⟨noPhase, noRework⟩
    exact ⟨noPhase, fun action rework => noRework action rework.1 rework.2⟩
  · rintro ⟨noPhase, noRework⟩
    exact ⟨noPhase, fun action asked open_ => noRework action ⟨asked, open_⟩⟩

def nearlySpentRun : ChangeRun :=
  { id := "run_1", changeId := "change-1", route := .standard, provider := .github, status := .running
    stages := [{ id := "run_1:specification:1", stage := .specification, inputRevision := some "c0" }]
    budget := { tokenBudget := some 100, tokensUsed := 90 } }

def spendingResult (status : StageStatus) (nextAction : NextAction)
    (isResult : resultStatus status = true := by
    first | exact succeeded_isResult | exact waiting_isResult | exact failed_isResult | exact blocked_isResult | decide) : StageResult :=
  { stage := .specification, runId := "run_1", changeId := "change-1", inputRevision := some "c0", status
    nextAction, gateResults := [{ gate := .specification, status := .passed }]
    usage := some { promptTokens := 15, completionTokens := 5 }, producedAt := 0, statusIsResult := isResult }

theorem spent_specification_stops : ∃ decision after,
    applyResult (spendingResult .succeeded (.executeStage .planning none)) [] 0 none [] nearlySpentRun =
      .ok decision after ∧ decision.nextStage = none ∧ after.status ≠ .succeeded := by
  have exhausted : Exhausted (accumulateUsage
      (spendingResult .succeeded (.executeStage .planning none)).usage nearlySpentRun.budget) 0 := Or.inl rfl
  obtain ⟨decision, after, applied⟩ : ∃ decision after,
      applyResult (spendingResult .succeeded (.executeStage .planning none)) [] 0 none [] nearlySpentRun =
        .ok decision after := ⟨_, _, rfl⟩
  refine ⟨decision, after, applied, (exhausted_budget_stops_iff applied exhausted).mpr ?_⟩
  rintro (⟨phase, reason, asked⟩ | ⟨action, asked, -⟩) <;> cases asked

/-- The architecture round and a rework round start on a budget that is spent. -/
theorem spent_rounds_start : Exhausted (accumulateUsage (spendingResult .succeeded
      (.phaseRound .architecture none)).usage nearlySpentRun.budget) 0 ∧
    (∃ decision after, applyResult (spendingResult .succeeded (.phaseRound .architecture none)) [] 0 none []
      nearlySpentRun = .ok decision after ∧ decision.nextStage = some .specification) ∧
    ∃ decision after, applyResult (spendingResult .failed
        (.rework ⟨1, 3, "sent back", by decide, by decide⟩)) [] 0 none [] nearlySpentRun =
      .ok decision after ∧ decision.nextStage = some .specification :=
  ⟨Or.inl rfl, ⟨_, _, rfl, rfl⟩, ⟨_, _, rfl, rfl⟩⟩

end DarkFactory
