import DarkFactory.Flow.Verdict

namespace DarkFactory

theorem activeAt_iff {stage : Stage} {stageRun : StageRun} :
    activeAt stage stageRun = true ↔ stageRun.stage = stage ∧ stageRun.active = true := by
  simp [activeAt]

theorem activeIndex_some {run : ChangeRun} {stage : Stage} {index : Nat}
    (found : activeIndex run stage = some index) :
    ∃ stageRun, run.stages[index]? = some stageRun ∧ stageRun.stage = stage ∧ stageRun.active = true := by
  obtain ⟨stageRun, there, active, -⟩ := Last.lastIndex_some found
  exact ⟨stageRun, there, activeAt_iff.mp active⟩

def attemptMatches (stageRun : StageRun) (attemptNumber : Nat) : Bool :=
  stageRun.attemptNumber = attemptNumber ||
    (retryableStage stageRun.status && attemptNumber = stageRun.attemptNumber + 1)

def StageRun.enter (attemptNumber : Nat) (stageRun : StageRun) : StageRun :=
  { stageRun with
    status := .inProgress
    attemptNumber
    stateRevision := if stageRun.status = .inProgress then stageRun.stateRevision
      else stageRun.stateRevision + 1 }

def firstOccurrence (run : ChangeRun) (stage : Stage) : StageRun :=
  { id := stageRunId run stage, stage, status := .inProgress, stateRevision := 2 }

theorem enterInProgress_active {stageRun : StageRun} (active : stageRun.active = true) :
    enterInProgress stageRun = .ok (stageRun.enter stageRun.attemptNumber) := by
  unfold enterInProgress StageRun.enter
  by_cases entered : stageRun.status = .inProgress
  · cases stageRun
    simp_all
  · rw [if_neg entered, if_neg entered]
    apply StageRun.applyStatus_ok.mpr
    refine ⟨?_, rfl⟩
    revert active entered
    unfold StageRun.active
    cases stageRun.status <;> decide

theorem ensureStageRun_occupied {run : ChangeRun} {result : StageResult} {index : Nat} {stageRun : StageRun}
    (active : activeIndex run result.stage = some index) (there : run.stages[index]? = some stageRun)
    (current : attemptMatches stageRun result.attemptNumber = true) :
    ensureStageRun result run =
      .ok (index, { run with stages := run.stages.set index (stageRun.enter result.attemptNumber) }) := by
  obtain ⟨found, same, -, live⟩ := activeIndex_some active
  rw [there] at same
  cases same
  simp only [ensureStageRun, active, stageRunAt_eq there]
  by_cases equal : stageRun.attemptNumber = result.attemptNumber
  · simp [equal, enterInProgress_active live, Bind.bind, Except.bind, Pure.pure, Except.pure]
  · simp only [attemptMatches, equal, decide_false, Bool.false_or, Bool.and_eq_true,
      decide_eq_true_eq] at current
    have retried : stageRun.beginRetry result.attemptNumber =
        .ok { stageRun with attemptNumber := result.attemptNumber } :=
      StageRun.beginRetry_ok.mpr ⟨current.1, current.2, rfl⟩
    have live' : ({ stageRun with attemptNumber := result.attemptNumber } : StageRun).active = true := live
    simp [equal, beginRetry, retried, enterInProgress_active live', StageRun.enter, Bind.bind, Except.bind,
      Pure.pure, Except.pure]

theorem ensureStageRun_first {run : ChangeRun} {result : StageResult}
    (absent : activeIndex run result.stage = none) (first : result.attemptNumber = 1) :
    ensureStageRun result run =
      .ok (run.stages.length, { run with stages := run.stages ++ [firstOccurrence run result.stage] }) := by
  simp only [ensureStageRun, absent, first]
  rfl

theorem ensureStageRun_ok {run entered : ChangeRun} {result : StageResult} {index : Nat}
    (ensured : ensureStageRun result run = .ok (index, entered)) :
    (∃ stageRun, activeIndex run result.stage = some index ∧ run.stages[index]? = some stageRun ∧
        attemptMatches stageRun result.attemptNumber = true ∧
        entered = { run with stages := run.stages.set index (stageRun.enter result.attemptNumber) }) ∨
      (activeIndex run result.stage = none ∧ result.attemptNumber = 1 ∧ index = run.stages.length ∧
        entered = { run with stages := run.stages ++ [firstOccurrence run result.stage] }) := by
  cases active : activeIndex run result.stage with
  | none =>
    by_cases first : result.attemptNumber = 1
    · rw [ensureStageRun_first active first] at ensured
      cases ensured
      exact Or.inr ⟨rfl, first, rfl, rfl⟩
    · simp [ensureStageRun, active, first] at ensured
  | some place =>
    obtain ⟨stageRun, there, -, live⟩ := activeIndex_some active
    by_cases current : attemptMatches stageRun result.attemptNumber = true
    · rw [ensureStageRun_occupied active there current] at ensured
      cases ensured
      exact Or.inl ⟨stageRun, rfl, there, current, rfl⟩
    · simp only [attemptMatches, Bool.or_eq_true, Bool.and_eq_true, decide_eq_true_eq, not_or] at current
      have refused (after : StageRun) : beginRetry stageRun result ≠ .ok after := by
        intro retried
        unfold beginRetry at retried
        cases begun : stageRun.beginRetry result.attemptNumber with
        | error failure => simp [begun] at retried
        | ok next =>
          obtain ⟨retryable, number, -⟩ := StageRun.beginRetry_ok.mp begun
          exact current.2 ⟨retryable, number⟩
      simp only [ensureStageRun, active, stageRunAt_eq there, ne_eq, current.1, not_false_eq_true,
        ↓reduceIte] at ensured
      obtain ⟨after, retried, -⟩ := Outcome.bind_ok.mp ensured
      exact absurd retried (refused after)

theorem moveRun_id (status : RunStatus) (run : ChangeRun) : (moveRun status run).id = run.id := by
  unfold moveRun
  split <;> rfl

theorem enterNext_id (reached : Verdict) (run : ChangeRun) : (enterNext reached run).id = run.id := by
  unfold enterNext
  cases reached.nextStage with
  | none => rfl
  | some target =>
    dsimp only
    split
    · rfl
    · unfold start
      split <;> rfl

def handled (result : StageResult) (entered : ChangeRun) : ChangeRun :=
  chargeUsage result (moveRun .running entered)

section Handled

variable (result : StageResult) (entered : ChangeRun)

theorem handled_budget : (handled result entered).budget = accumulateUsage result.usage entered.budget := by
  unfold handled chargeUsage moveRun
  split <;> rfl

theorem handled_route : (handled result entered).route = entered.route := by
  unfold handled chargeUsage moveRun
  split <;> rfl

theorem handled_contract : (handled result entered).implementationContract = entered.implementationContract := by
  unfold handled chargeUsage moveRun
  split <;> rfl

theorem handled_stages : (handled result entered).stages = entered.stages := by
  unfold handled chargeUsage moveRun
  split <;> rfl

end Handled

theorem ensureStageRun_entered {run entered : ChangeRun} {result : StageResult} {index : Nat}
    (ensured : ensureStageRun result run = .ok (index, entered)) :
    ∃ stageRun, Entered (moveRun .running entered) index stageRun ∧ stageRun.stage = result.stage := by
  rcases ensureStageRun_ok ensured with ⟨stageRun, active, there, -, rfl⟩ | ⟨-, -, rfl, rfl⟩
  · obtain ⟨found, same, own, -⟩ := activeIndex_some active
    rw [there] at same
    cases same
    have bound := (List.getElem?_eq_some_iff.mp there).1
    refine ⟨stageRun.enter result.attemptNumber, ⟨?_, rfl, moveRun_status _⟩, own⟩
    simp [bound]
  · refine ⟨firstOccurrence run result.stage, ⟨?_, rfl, moveRun_status _⟩, rfl⟩
    simp

section Apply

variable {run entered : ChangeRun} {result : StageResult} {index : Nat} {history : List StageResult}
  {now : Timestamp} {context : Option MergeRequestContext} {decisions : List Decision}

theorem ensureStageRun_status (ensured : ensureStageRun result run = .ok (index, entered)) :
    entered.status = run.status := by
  rcases ensureStageRun_ok ensured with ⟨stageRun, -, -, -, rfl⟩ | ⟨-, -, -, rfl⟩ <;> rfl

/-- An admitted result is applied as its verdict says. -/
theorem applyResult_eq (live : runTerminal run.status = false)
    (listed : (flowTransitions result.stage).contains result.nextAction.type = true)
    (paired : result.status = expectedResultStatus result.nextAction)
    (ensured : ensureStageRun result run = .ok (index, entered)) :
    applyResult result history now context decisions run =
      Verdict.outcome (verdict (handled result entered) result history now context decisions)
        result.stage index (handled result entered) := by
  obtain ⟨stageRun, ready, own⟩ := ensureStageRun_entered ensured
  rw [applyResult, Outcome.state_get_bind]
  simp only [live, Bool.false_eq_true, ↓reduceIte, listed, Bool.not_true, paired, ne_eq, not_true_eq_false]
  rw [Outcome.state_bind_eq (Outcome.perform_ok.mpr ensured), Outcome.state_get_bind]
  by_cases running : entered.status = .running
  · simp only [running, not_true_eq_false, ↓reduceIte]
    have same : moveRun .running entered = entered := moveRun_self .running running
    rw [same] at ready
    rw [handleAction_eq ready own]
    simp only [handled, same]
  · simp only [running, not_false_eq_true, ↓reduceIte]
    have allowed : RunStatus.running ∈ runStatusTransitions entered.status := by
      rw [ensureStageRun_status ensured] at running ⊢
      revert live running
      cases run.status <;> decide
    rw [Outcome.state_bind_eq (setRunStatus_eq .running allowed), handleAction_eq ready own]
    rfl

/-- A result is refused before anything is written, or it is applied as its verdict says. -/
theorem applyResult_cases (run : ChangeRun) (result : StageResult) (history : List StageResult) (now : Timestamp)
    (context : Option MergeRequestContext) (decisions : List Decision) :
    (∃ failure, applyResult result history now context decisions run = .error failure run) ∨
      ∃ index entered, runTerminal run.status = false ∧
        (flowTransitions result.stage).contains result.nextAction.type = true ∧
        result.status = expectedResultStatus result.nextAction ∧
        ensureStageRun result run = .ok (index, entered) ∧
        applyResult result history now context decisions run =
          Verdict.outcome (verdict (handled result entered) result history now context decisions)
            result.stage index (handled result entered) := by
  by_cases terminal : runTerminal run.status = true
  · left
    rw [applyResult, Outcome.state_get_bind, if_pos terminal]
    exact ⟨_, rfl⟩
  by_cases outside : (!(flowTransitions result.stage).contains result.nextAction.type) = true
  · left
    rw [applyResult, Outcome.state_get_bind, if_neg terminal, if_pos outside]
    exact ⟨_, rfl⟩
  by_cases unpaired : result.status ≠ expectedResultStatus result.nextAction
  · left
    rw [applyResult, Outcome.state_get_bind, if_neg terminal, if_neg outside, if_pos unpaired]
    exact ⟨_, rfl⟩
  have live : runTerminal run.status = false := by simpa using terminal
  have listed : (flowTransitions result.stage).contains result.nextAction.type = true := by simpa using outside
  have paired : result.status = expectedResultStatus result.nextAction := not_not.mp unpaired
  cases ensured : ensureStageRun result run with
  | ok made => exact Or.inr ⟨made.1, made.2, live, listed, paired, rfl, applyResult_eq live listed paired ensured⟩
  | error failure =>
    refine Or.inl ⟨failure, ?_⟩
    rw [applyResult, Outcome.state_get_bind, if_neg terminal, if_neg outside, if_neg unpaired]
    refine Outcome.state_bind_error ?_
    simp [Outcome.perform, ensured]

theorem applyResult_ok {decision : FlowDecision} {after : ChangeRun}
    (applied : applyResult result history now context decisions run = .ok decision after) :
    runTerminal run.status = false ∧
      (flowTransitions result.stage).contains result.nextAction.type = true ∧
      result.status = expectedResultStatus result.nextAction ∧
      ∃ index entered reached, ensureStageRun result run = .ok (index, entered) ∧
        verdict (handled result entered) result history now context decisions = .ok reached ∧
        decision = reached.decision result.stage ∧ after = reached.carry index (handled result entered) := by
  rcases applyResult_cases run result history now context decisions with ⟨failure, refused⟩ |
    ⟨index, entered, live, listed, paired, ensured, same⟩
  · rw [refused] at applied
    cases applied
  rw [same] at applied
  refine ⟨live, listed, paired, index, entered, ?_⟩
  cases reached : verdict (handled result entered) result history now context decisions with
  | error failure => simp [reached, Verdict.outcome] at applied
  | ok reached' =>
    simp only [reached, Verdict.outcome, EStateM.Result.ok.injEq] at applied
    exact ⟨reached', ensured, rfl, applied.1.symm, applied.2.symm⟩

/-- A refusal is an early one, with the run as it was, or comes from the handlers, who saw the stage entered. -/
theorem applyResult_refused {failure : Failure} {after : ChangeRun}
    (refused : applyResult result history now context decisions run = .error failure after) :
    after = run ∨
      ∃ index entered, runTerminal run.status = false ∧
        (flowTransitions result.stage).contains result.nextAction.type = true ∧
        result.status = expectedResultStatus result.nextAction ∧
        ensureStageRun result run = .ok (index, entered) ∧
        verdict (handled result entered) result history now context decisions = .error failure ∧
        after = handled result entered := by
  rcases applyResult_cases run result history now context decisions with ⟨early, kept⟩ |
    ⟨index, entered, live, listed, paired, ensured, same⟩
  · rw [kept] at refused
    cases refused
    exact Or.inl rfl
  rw [same] at refused
  refine Or.inr ⟨index, entered, live, listed, paired, ensured, ?_⟩
  cases computed : verdict (handled result entered) result history now context decisions with
  | ok reached =>
    rw [computed] at refused
    cases refused
  | error late =>
    rw [computed] at refused
    cases refused
    exact ⟨rfl, rfl⟩

end Apply

end DarkFactory
