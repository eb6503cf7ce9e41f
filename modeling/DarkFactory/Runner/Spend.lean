import DarkFactory.Flow.Rounds
import DarkFactory.Runner.Scripts
import DarkFactory.Runner.Turns

namespace DarkFactory

def Store.runBudget (store : Store) (runId : String) : Option BudgetSnapshot :=
  (store.execution runId).map fun execution => execution.budget.getD {}

def StageResult.tokens (result : StageResult) : Nat :=
  match result.usage with
  | none => 0
  | some usage => usage.totalTokens.getD (usage.promptTokens + usage.completionTokens)

def addCost (cost : Decimal) (result : StageResult) : Decimal :=
  match result.usage with
  | none => cost
  | some usage =>
    match usage.cost with
    | none => cost
    | some amount => cost.add amount

/-- The tokens and the cost there were, and those of every listed result once, in the order of the results. -/
structure SpendCounted (initial final : BudgetSnapshot) (results : List StageResult) : Prop where
  tokens : final.tokensUsed = initial.tokensUsed + (results.map StageResult.tokens).sum
  cost : final.costUsed = results.foldl addCost initial.costUsed

theorem accumulateUsage_spend (result : StageResult) (budget : BudgetSnapshot) :
    (accumulateUsage result.usage budget).tokensUsed = budget.tokensUsed + result.tokens ∧
      (accumulateUsage result.usage budget).costUsed = addCost budget.costUsed result := by
  unfold accumulateUsage StageResult.tokens addCost
  cases result.usage <;> exact ⟨rfl, rfl⟩

theorem SpendCounted.snoc {initial middle final : BudgetSnapshot} {results : List StageResult} {result : StageResult}
    (counted : SpendCounted initial middle results) (tokens : final.tokensUsed = middle.tokensUsed + result.tokens)
    (cost : final.costUsed = addCost middle.costUsed result) : SpendCounted initial final (results ++ [result]) := by
  refine ⟨?_, ?_⟩
  · rw [tokens, counted.tokens, List.map_append, List.sum_append, List.map_singleton, List.sum_singleton, Nat.add_assoc]
  · rw [cost, counted.cost, List.foldl_append]
    rfl

/-- The flow moved a run with the one budget to the other by the decision on the reported result. -/
def Books (before after : BudgetSnapshot) (booked : RunAdvance × FlowDecision) : Prop :=
  ∃ (run final : ChangeRun) (history : List StageResult) (now : Timestamp) (context : Option MergeRequestContext)
    (decisions : List Decision), run.budget = before ∧ final.budget = after ∧
      applyResult booked.1.result history now context decisions run = .ok booked.2 final

section Turns

variable {store : Store} {runId : String} {run : ChangeRun}

theorem load_runBudget (loaded : store.load runId = some run) : store.runBudget runId = some run.budget := by
  obtain ⟨execution, found, rfl⟩ := Option.map_eq_some_iff.mp loaded
  rw [Store.runBudget, found]
  rfl

theorem runBudget_load {budget : BudgetSnapshot} (held : store.runBudget runId = some budget) :
    ∃ run, store.load runId = some run ∧ run.budget = budget := by
  obtain ⟨execution, found, rfl⟩ := Option.map_eq_some_iff.mp held
  rw [Store.load, found]
  exact ⟨_, rfl, rfl⟩

theorem decidedReports_append {first second : List Turn} :
    decidedReports runId store (first ++ second) =
      decidedReports runId store first ++ decidedReports runId (turned store first) second := by
  induction first generalizing store with
  | nil => rfl
  | cons turn rest ih => simp [decidedReports, turned, ih]

theorem Decides.books {input : AdvanceInput} {after : Store} {report : RunAdvance} {decision : FlowDecision}
    {final : ChangeRun} (decides : Decides input store after report decision run final) :
    store.runBudget input.runId = some run.budget ∧ after.runBudget input.runId = some final.budget ∧
      Books run.budget final.budget (report, decision) := by
  obtain ⟨execution, revision, -, written⟩ := decides.self
  obtain ⟨history, context, decisions, applied⟩ := decides.applied
  refine ⟨load_runBudget decides.loaded, ?_, moveRun .running run, final, history, input.now, context, decisions,
    moveRun_budget _ _, rfl, applied⟩
  rw [Store.runBudget, written]
  rfl

theorem afterTurn_books (turn : Turn) {budget : BudgetSnapshot} (held : store.runBudget runId = some budget) :
    (decidedReports runId store [turn] = [] ∧ (afterTurn store turn).runBudget runId = some budget) ∨
      ∃ booked after, decidedReports runId store [turn] = [booked] ∧ turn.report runId store = some booked.1 ∧
        booked.1.decision = some booked.2 ∧ (afterTurn store turn).runBudget runId = some after ∧
        Books budget after booked := by
  have present : store.execution runId ≠ none := by
    intro absent
    rw [Store.runBudget, absent] at held
    cases held
  rcases afterTurn_cases turn present with ⟨quiet, same⟩ |
    ⟨input, report, decision, run, final, reported, rfl, decides⟩
  · left
    refine ⟨?_, by rw [Store.runBudget, same]; exact held⟩
    cases reported : turn.report runId store with
    | none => simp [decidedReports, reported]
    | some report =>
      rw [reported, Option.bind_some] at quiet
      simp [decidedReports, reported, quiet]
  · right
    obtain ⟨before, after, books⟩ := decides.books
    rw [held, Option.some.injEq] at before
    rw [before]
    refine ⟨(report, decision), final.budget, ?_, reported, decides.decided, after, books⟩
    simp [decidedReports, reported, decides.decided]

/-- What holds of the budget a run starts with and survives every booking holds of the budget persisted after
    any turns. -/
theorem turned_books {holds : BudgetSnapshot → List (RunAdvance × FlowDecision) → Prop} {budget : BudgetSnapshot}
    (step : ∀ before reports booked after, holds before reports → Books before after booked →
      holds after (reports ++ [booked]))
    (start : holds budget []) (held : store.runBudget runId = some budget) (turns : List Turn) :
    ∃ final, (turned store turns).runBudget runId = some final ∧ holds final (decidedReports runId store turns) := by
  induction turns using List.reverseRecOn with
  | nil => exact ⟨budget, held, start⟩
  | append_singleton earlier turn ih =>
    obtain ⟨middle, reached, holding⟩ := ih
    rw [decidedReports_append, turned, List.foldl_append]
    change ∃ final, (afterTurn (turned store earlier) turn).runBudget runId = some final ∧ _
    rcases afterTurn_books turn reached with ⟨quiet, same⟩ | ⟨booked, after, reported, -, -, moved, books⟩
    · rw [quiet, List.append_nil]
      exact ⟨middle, same, holding⟩
    · rw [reported]
      exact ⟨after, moved, step _ _ _ _ holding books⟩

end Turns

def tightRun : CreateInput := { quickRun with budget := { maxReworkRounds := 1, tokensUsed := 5 } }

def sentBack (at_ : Timestamp) (revision : String) : AdvanceInput :=
  { scripted tightRun.runId at_ revision { status := .failed, nextAction := .stop .failed "" } with
    executor := fun context => .ok
      { (Answer.result { status := .failed, nextAction := .rework ⟨1, 1, "sent back", firstRound, firstRound⟩ }
          context at_) with usage := some { promptTokens := 15, completionTokens := 5, cost := some ⟨25, -2⟩ } } }

/-- Sent back, sent back once more by a worker that lost the race for the lease, and asked again after the stop. -/
def roundsAsked : List Turn :=
  [.drive (.advance (sentBack 1 "c1")), .overtaken (sentBack 2 "c2"), .drive (.advance (sentBack 2 "c2"))]

/-- Spend is counted once: the persisted tokens and cost are those the run had, and those of the results that
    were stored or superseded their checkpoint, whatever else replayed, raised or lost its race. -/
theorem spend_counted_once {store : Store} {runId : String} {run : ChangeRun} (loaded : store.load runId = some run)
    (turns : List Turn) :
    ∃ final, (turned store turns).load runId = some final ∧
      SpendCounted run.budget final.budget ((decidedReports runId store turns).map (·.1.result)) := by
  have step (before : BudgetSnapshot) (reports : List (RunAdvance × FlowDecision)) (booked : RunAdvance × FlowDecision)
      (after : BudgetSnapshot) (counted : SpendCounted run.budget before (reports.map (·.1.result)))
      (books : Books before after booked) :
      SpendCounted run.budget after ((reports ++ [booked]).map (·.1.result)) := by
    obtain ⟨current, final, history, now, context, decisions, rfl, rfl, applied⟩ := books
    obtain ⟨tokens, cost⟩ := accumulateUsage_spend booked.1.result current.budget
    rw [List.map_append, (applyResult_budget applied).1]
    exact counted.snoc tokens cost
  have start : SpendCounted run.budget run.budget [] := ⟨rfl, rfl⟩
  obtain ⟨budget, held, counted⟩ := turned_books step start (load_runBudget loaded) turns
  obtain ⟨final, reloaded, rfl⟩ := runBudget_load held
  exact ⟨final, reloaded, counted⟩

theorem rounds_asked_spend : ∃ final, (turned (driven [.create tightRun]) roundsAsked).load tightRun.runId = some final ∧
    final.budget.tokensUsed = 5 + (20 + (20 + (20 + 0))) := by
  have facts : ((driven [.create tightRun]).load tightRun.runId).map (·.budget.tokensUsed) = some 5 ∧
      (decidedReports tightRun.runId (driven [.create tightRun]) roundsAsked).map (·.1.result.tokens) =
        [20, 20, 20] := by decide +kernel
  generalize driven [.create tightRun] = start at facts ⊢
  generalize roundsAsked = turns at facts ⊢
  obtain ⟨held, listed⟩ := facts
  obtain ⟨run, loaded, tokens⟩ := Option.map_eq_some_iff.mp held
  obtain ⟨final, reloaded, counted⟩ := spend_counted_once loaded turns
  have total := counted.tokens
  rw [tokens, List.map_map, Function.comp_def, listed] at total
  exact ⟨final, reloaded, total⟩

/-- Over any calls on a run, and over any turns on it between which it is persisted and loaded again, the rounds
    used are the initial ones and one for each rework decision, within the limit; a rework result beyond
    the limit is refused, or blocks the run without spending a round. -/
theorem rework_rounds_bounded {run : ChangeRun} (within : run.budget.usedReworkRounds ≤ run.budget.maxReworkRounds)
    (calls : List FlowCall) {store : Store} {runId : String} (loaded : store.load runId = some run)
    (turns : List Turn) :
    RoundsBounded run.budget (appliedAll run calls).budget (decisionsOf run calls) ∧
      (∀ earlier call later, calls = earlier ++ call :: later →
        BeyondLimit (appliedAll run earlier).budget call.result →
        (∃ failure, call.apply (appliedAll run earlier) = .error failure (appliedAll run earlier)) ∨
          ∃ decision after, call.apply (appliedAll run earlier) = .ok decision after ∧
            decision.runStatus = .blocked ∧ decision.stageStatus = .blocked ∧ decision.nextStage = none ∧
            after.budget.usedReworkRounds = (appliedAll run earlier).budget.usedReworkRounds) ∧
      (∃ final, (turned store turns).load runId = some final ∧
        RoundsBounded run.budget final.budget ((decidedReports runId store turns).map (·.2))) ∧
      ∀ earlier turn later, turns = earlier ++ turn :: later →
        ∀ before, (turned store earlier).load runId = some before →
        ∀ report decision, turn.report runId (turned store earlier) = some report → report.decision = some decision →
          BeyondLimit before.budget report.result →
          decision.runStatus = .blocked ∧ decision.stageStatus = .blocked ∧ decision.nextStage = none ∧
            ∃ after, (turned store (earlier ++ [turn])).load runId = some after ∧ after.status = .blocked ∧
              after.budget.usedReworkRounds = before.budget.usedReworkRounds := by
  refine ⟨appliedAll_rounds within calls, ?_, ?_, ?_⟩
  · intro earlier call later _ beyond
    have asked : ∃ action, call.result.nextAction = .rework action := beyond.imp fun _ exceeds => exceeds.1
    rcases reworkResult_applied (appliedAll run earlier) call.history call.now call.mergeContext call.humanDecisions
      asked with refused | ⟨decision, after, applied⟩
    · exact Or.inl refused
    · exact Or.inr ⟨decision, after, applied, applyResult_beyond beyond applied⟩
  · have step (before : BudgetSnapshot) (reports : List (RunAdvance × FlowDecision))
        (booked : RunAdvance × FlowDecision) (after : BudgetSnapshot)
        (bounded : RoundsBounded run.budget before (reports.map (·.2))) (books : Books before after booked) :
        RoundsBounded run.budget after ((reports ++ [booked]).map (·.2)) := by
      obtain ⟨current, final, history, now, context, decisions, rfl, rfl, applied⟩ := books
      rw [List.map_append]
      exact bounded.snoc (applyResult_rounds applied)
    obtain ⟨budget, held, bounded⟩ := turned_books step (.nil within) (load_runBudget loaded) turns
    obtain ⟨final, reloaded, rfl⟩ := runBudget_load held
    exact ⟨final, reloaded, bounded⟩
  · intro earlier turn later _ before held report decision reported decided beyond
    rw [turned, List.foldl_append]
    have present : (turned store earlier).execution runId ≠ none := by
      obtain ⟨execution, found, -⟩ := load_some held
      simp [found]
    rcases afterTurn_cases turn present with ⟨quiet, -⟩ | ⟨input, other, made, current, final, same, rfl, decides⟩
    · rw [reported, Option.bind_some, decided] at quiet
      cases quiet
    · rw [reported, Option.some.injEq] at same
      subst same
      rw [decides.decided, Option.some.injEq] at decided
      subst decided
      rw [decides.loaded, Option.some.injEq] at held
      subst held
      obtain ⟨history, context, decisions, applied⟩ := decides.applied
      rw [← moveRun_budget .running] at beyond
      obtain ⟨blocked, stage, next, used⟩ := applyResult_beyond beyond applied
      rw [moveRun_budget] at used
      obtain ⟨execution, revision, -, written⟩ := decides.self
      refine ⟨blocked, stage, next, ?_⟩
      change ∃ after, (afterTurn (turned store earlier) turn).load input.runId = some after ∧ _
      rw [Store.load, written, Option.map_some]
      exact ⟨_, rfl, blocked, used⟩

def sentBackCall (attemptNumber : Nat) : FlowCall :=
  { result := { stage := .specification, runId := tightRun.runId, changeId := "change-1", attemptNumber
                status := .failed, nextAction := .rework ⟨1, 1, "sent back", firstRound, firstRound⟩, producedAt := 0 }
    now := 0 }

/-- The round there is gets used once, in memory and over the turns. -/
theorem tight_run_reworks_once : ∃ run, (driven [.create tightRun]).load tightRun.runId = some run ∧
    (appliedAll run [sentBackCall 1, sentBackCall 1]).budget.usedReworkRounds = 1 ∧
    ∃ final, (turned (driven [.create tightRun]) roundsAsked).load tightRun.runId = some final ∧
      final.budget.usedReworkRounds = 1 := by
  have facts : ((driven [.create tightRun]).load tightRun.runId).map (fun run =>
      ((run.budget.usedReworkRounds, run.budget.maxReworkRounds),
        (decisionsOf run [sentBackCall 1, sentBackCall 1]).map FlowDecision.reworks)) =
          some ((0, 1), [true, false]) ∧
      (decidedReports tightRun.runId (driven [.create tightRun]) roundsAsked).map (·.2.reworks) =
        [true, false, false] := by decide +kernel
  generalize driven [.create tightRun] = start at facts ⊢
  generalize roundsAsked = turns at facts ⊢
  generalize [sentBackCall 1, sentBackCall 1] = calls at facts ⊢
  obtain ⟨held, listed⟩ := facts
  obtain ⟨run, loaded, shown⟩ := Option.map_eq_some_iff.mp held
  obtain ⟨rounds, decided⟩ := Prod.mk.inj shown
  obtain ⟨used, limit⟩ := Prod.mk.inj rounds
  obtain ⟨applied, -, ⟨final, reloaded, bounded⟩, -⟩ := rework_rounds_bounded (by omega) calls loaded turns
  have counted (decisions : List FlowDecision) :
      decisions.countP FlowDecision.reworks = (decisions.map FlowDecision.reworks).count true := by
    simp [List.count_eq_countP, List.countP_map, Function.comp_def]
  refine ⟨run, loaded, ?_, final, reloaded, ?_⟩
  · rw [applied.counted, counted, used, decided]
    rfl
  · rw [bounded.counted, counted, used, List.map_map, Function.comp_def, listed]
    rfl

end DarkFactory
