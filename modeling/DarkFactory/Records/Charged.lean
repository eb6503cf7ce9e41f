import DarkFactory.Changes.Rounding
import DarkFactory.Conversations.Sessions
import DarkFactory.Records.History
import DarkFactory.Runner.Finished
import DarkFactory.Runner.Spend

namespace DarkFactory

def Usage.tokens (usage : Usage) : Nat := usage.totalTokens.getD (usage.promptTokens + usage.completionTokens)

def Usage.costValue (usage : Usage) : ℚ := (usage.cost.map Decimal.value).getD 0

def Usage.unreported (usage : Usage) : Nat :=
  if usage.totalTokens.isSome then 0 else usage.promptTokens + usage.completionTokens

def StageResult.costValue (result : StageResult) : ℚ := result.usageOrZero.costValue

def costsOf (results : List StageResult) : List Decimal := results.filterMap fun result => result.usageOrZero.cost

/-- What is rounded off of the costs as a budget is charged with them. -/
def chargingLoss (results : List StageResult) : ℚ := Decimal.roundedOff .zero (costsOf results)

/-- What is rounded off of the costs as they are summed up; a sum begins with the first of them, unrounded. -/
def summingLoss (results : List StageResult) : ℚ :=
  match costsOf results with
  | [] => 0
  | first :: rest => first.roundedOff rest

section Totals

variable {totals : Usage} {usages : List Usage} {result : StageResult} {results : List StageResult}

theorem StageResult.tokens_usage (result : StageResult) : result.tokens = result.usageOrZero.tokens := by
  unfold StageResult.tokens StageResult.usageOrZero
  cases result.usage <;> rfl

theorem sum_costsOf (results : List StageResult) :
    ((costsOf results).map Decimal.value).sum = (results.map StageResult.costValue).sum := by
  induction results with
  | nil => rfl
  | cons result rest ih =>
    unfold costsOf at ih ⊢
    cases cost : result.usageOrZero.cost <;>
      simp [cost, ih, StageResult.costValue, Usage.costValue]

theorem foldl_addCost (start : Decimal) : results.foldl addCost start = (costsOf results).foldl Decimal.add start := by
  induction results generalizing start with
  | nil => rfl
  | cons result rest ih =>
    rw [List.foldl_cons, ih]
    unfold costsOf addCost StageResult.usageOrZero
    cases used : result.usage with
    | none => simp [used]
    | some usage => cases cost : usage.cost <;> simp [used, cost]

/-- A budget that was charged with results holds what they cost, less what was rounded off. -/
theorem charged_value {start : Decimal} (nothing : start.value = 0) :
    (results.foldl addCost start).value = (results.map StageResult.costValue).sum - chargingLoss results := by
  have zero : start.value = Decimal.zero.value := by
    rw [nothing]
    simp [Decimal.value, Decimal.zero]
  rw [foldl_addCost, Decimal.foldl_add_value, nothing, zero_add, sum_costsOf, Decimal.roundedOff_congr zero, chargingLoss]

theorem foldl_addUsage_cost : (usages.foldl addUsage totals).cost =
    (usages.filterMap Usage.cost).foldl (fun total cost => some (match total with
      | none => cost
      | some total => total.add cost)) totals.cost := by
  induction usages generalizing totals with
  | nil => rfl
  | cons usage rest ih =>
    rw [List.foldl_cons, ih]
    cases cost : usage.cost <;> cases total : totals.cost <;> simp [addUsage, addTotal, cost, total]

/-- A summary holds what the results cost, less what was rounded off. -/
theorem summed_value : ((results.map StageResult.usageOrZero).foldl addUsage {}).costValue =
    (results.map StageResult.costValue).sum - summingLoss results := by
  have sums (first : Decimal) (rest : List Decimal) : rest.foldl (fun total cost => some (match total with
      | none => cost
      | some total => total.add cost)) (some first) = some (rest.foldl Decimal.add first) := by
    induction rest generalizing first with
    | nil => rfl
    | cons cost rest ih => rw [List.foldl_cons, List.foldl_cons, ← ih]
  have costs : (results.map StageResult.usageOrZero).filterMap Usage.cost = costsOf results := List.filterMap_map
  rw [Usage.costValue, foldl_addUsage_cost, costs, ← sum_costsOf, summingLoss]
  cases costsOf results with
  | nil => simp
  | cons first rest =>
    rw [List.foldl_cons, sums, Option.map_some, Option.getD_some, Decimal.foldl_add_value, List.map_cons, List.sum_cons]

theorem foldl_addUsage_split :
    (usages.foldl addUsage totals).promptTokens + (usages.foldl addUsage totals).completionTokens =
      totals.promptTokens + totals.completionTokens + (usages.map fun usage => usage.promptTokens + usage.completionTokens).sum := by
  induction usages generalizing totals with
  | nil => simp
  | cons usage rest ih =>
    rw [List.foldl_cons, ih, List.map_cons, List.sum_cons]
    simp only [addUsage]
    omega

theorem foldl_addUsage_total :
    (usages.foldl addUsage totals).totalTokens =
      if totals.totalTokens.isSome ∨ ∃ usage ∈ usages, usage.totalTokens.isSome then
        some (totals.totalTokens.getD 0 + (usages.map fun usage => usage.totalTokens.getD 0).sum)
      else none := by
  induction usages generalizing totals with
  | nil => cases h : totals.totalTokens <;> simp [h]
  | cons usage rest ih =>
    rw [List.foldl_cons, ih]
    cases first : totals.totalTokens <;> cases second : usage.totalTokens <;>
      simp [addUsage, addTotal, first, second, Nat.add_assoc]

/-- The total of a summary misses the results without a total of their own, once another has one. -/
theorem totals_tokens (usages : List Usage) :
    (usages.foldl addUsage {}).tokens + (if ∃ usage ∈ usages, usage.totalTokens.isSome = true then
        (usages.map Usage.unreported).sum else 0) = (usages.map Usage.tokens).sum := by
  have split := @foldl_addUsage_split {} usages
  have total := @foldl_addUsage_total {} usages
  rw [Usage.tokens, total]
  by_cases reports : ∃ usage ∈ usages, usage.totalTokens.isSome = true
  · rw [if_pos (Or.inr reports), if_pos reports, Option.getD_some, Option.getD_none, Nat.zero_add, ← List.sum_map_add]
    congr 1
    refine List.map_congr_left fun usage _ => ?_
    cases total : usage.totalTokens <;> simp [Usage.unreported, Usage.tokens, total]
  · rw [if_neg (by simpa using reports), if_neg reports, Option.getD_none, split, Nat.add_zero]
    show 0 + 0 + (usages.map _).sum = _
    rw [Nat.zero_add]
    congr 1
    refine List.map_congr_left fun usage member => ?_
    have silent : usage.totalTokens = none := by
      cases total : usage.totalTokens with
      | none => rfl
      | some amount => exact absurd ⟨usage, member, by rw [total]; rfl⟩ reports
    rw [Usage.tokens, silent, Option.getD_none]

end Totals

/-- The published totals are what the run was charged. -/
structure PublishedAsCharged (summary : RunUsageSummary) : Prop where
  tokens : summary.totals.tokens = summary.budget.tokensUsed
  cost : summary.totals.costValue = summary.budget.costUsed.value

/-- The checkpoints that gave way to a resolution used no tokens and cost what charging rounded off beyond what summing
    up did, which is nothing where nothing is rounded; and where one result of the history reports a total, those that do
    not used no tokens. -/
structure UsageKept (charges displaced history : List StageResult) : Prop where
  tokens : ∀ checkpoint ∈ displaced, checkpoint.tokens = 0
  cost : (displaced.map StageResult.costValue).sum = chargingLoss charges - summingLoss history
  totals : (∃ result ∈ history, result.usageOrZero.totalTokens.isSome = true) →
    ∀ result ∈ history, result.usageOrZero.totalTokens.isSome = true ∨ result.tokens = 0

/-- A budget that was charged from nothing with the results of the history and the checkpoints that left it. -/
structure ChargedFor (budget : BudgetSnapshot) (charges displaced history : List StageResult) : Prop where
  listed : charges.Perm (history ++ displaced)
  tokens : budget.tokensUsed = (charges.map StageResult.tokens).sum
  cost : ∃ start : Decimal, start.value = 0 ∧ budget.costUsed = charges.foldl addCost start

theorem publishedAsCharged_iff {record : RunRecord} {charges displaced : List StageResult}
    (charged : ChargedFor record.run.budget charges displaced record.stageResults) :
    PublishedAsCharged (buildUsageSummary record) ↔ UsageKept charges displaced record.stageResults := by
  have tokens : (record.stageResults.map StageResult.tokens).sum =
      ((record.stageResults.map StageResult.usageOrZero).map Usage.tokens).sum := by
    rw [List.map_map]
    exact congrArg List.sum (List.map_congr_left fun result _ => result.tokens_usage)
  have spent : record.run.budget.tokensUsed =
      (record.stageResults.map StageResult.tokens).sum + (displaced.map StageResult.tokens).sum := by
    rw [charged.tokens, (charged.listed.map _).sum_eq, List.map_append, List.sum_append]
  have paid : record.run.budget.costUsed.value = (record.stageResults.map StageResult.costValue).sum +
      (displaced.map StageResult.costValue).sum - chargingLoss charges := by
    obtain ⟨start, nothing, cost⟩ := charged.cost
    rw [cost, charged_value nothing, (charged.listed.map _).sum_eq, List.map_append, List.sum_append]
  have costs : (buildUsageSummary record).totals.costValue =
      (record.stageResults.map StageResult.costValue).sum - summingLoss record.stageResults := summed_value
  have published := totals_tokens (record.stageResults.map StageResult.usageOrZero)
  rw [← tokens] at published
  have budgets : (buildUsageSummary record).budget = record.run.budget := rfl
  have totals : (buildUsageSummary record).totals = (record.stageResults.map StageResult.usageOrZero).foldl addUsage {} :=
    rfl
  have missed : (∃ usage ∈ record.stageResults.map StageResult.usageOrZero, usage.totalTokens.isSome = true) ↔
      ∃ result ∈ record.stageResults, result.usageOrZero.totalTokens.isSome = true := by simp
  have zero (list : List StageResult) : (list.map StageResult.tokens).sum = 0 ↔ ∀ result ∈ list, result.tokens = 0 := by
    simp [List.sum_eq_zero_iff_forall_eq_nat]
  have unreported : ((record.stageResults.map StageResult.usageOrZero).map Usage.unreported).sum = 0 ↔
      ∀ result ∈ record.stageResults, result.usageOrZero.totalTokens.isSome = true ∨ result.tokens = 0 := by
    rw [List.sum_eq_zero_iff_forall_eq_nat]
    simp only [List.mem_map, forall_exists_index, and_imp, forall_apply_eq_imp_iff₂]
    refine forall₂_congr fun result _ => ?_
    rw [result.tokens_usage, Usage.unreported, Usage.tokens]
    cases result.usageOrZero.totalTokens <;> simp
  constructor
  · intro same
    have tokensSame := same.tokens
    have costSame := same.cost
    rw [totals, budgets, spent] at tokensSame
    rw [budgets, paid, costs] at costSame
    refine ⟨(zero displaced).mp (by omega), by linarith, fun reports => unreported.mp ?_⟩
    rw [if_pos (missed.mpr reports)] at published
    omega
  · intro kept
    have nothing := (zero displaced).mpr kept.tokens
    constructor
    · rw [totals, budgets, spent, nothing]
      by_cases reports : ∃ result ∈ record.stageResults, result.usageOrZero.totalTokens.isSome = true
      · rw [if_pos (missed.mpr reports), unreported.mpr (kept.totals reports)] at published
        omega
      · rw [if_neg (mt missed.mp reports)] at published
        omega
    · rw [budgets, paid, costs, kept.cost]
      ring

def Drive.displaces (runId : String) (store : Store) : Drive → Option StageResult
  | .create _ => none
  | .advance input => if input.runId = runId then (appliedAttempt input store).bind (·.checkpoint) else none

def Drive.charges (runId : String) (store : Store) : Drive → Option StageResult
  | .create _ => none
  | .advance input => if input.runId = runId then (appliedAttempt input store).map (·.result) else none

def displaced (runId : String) : Store → List Drive → List StageResult
  | _, [] => []
  | store, drive :: rest => (drive.displaces runId store).toList ++ displaced runId (afterDrive store drive) rest

def charges (runId : String) : Store → List Drive → List StageResult
  | _, [] => []
  | store, drive :: rest => (drive.charges runId store).toList ++ charges runId (afterDrive store drive) rest

theorem charges_append {runId : String} {store : Store} {first second : List Drive} :
    charges runId store (first ++ second) =
      charges runId store first ++ charges runId (first.foldl afterDrive store) second := by
  induction first generalizing store with
  | nil => rfl
  | cons drive rest ih => simp [charges, ih]

theorem displaced_append {runId : String} {store : Store} {first second : List Drive} :
    displaced runId store (first ++ second) =
      displaced runId store first ++ displaced runId (first.foldl afterDrive store) second := by
  induction first generalizing store with
  | nil => rfl
  | cons drive rest ih => simp [displaced, ih]

theorem attempted_checkpoint {input : AdvanceInput} {store : Store} {attempt : Attempted}
    (planned : attempted input store = some attempt) : attempt.checkpoint =
      store.committedResult input.runId attempt.stage attempt.attemptNumber attempt.inputRevision := by
  obtain ⟨run, stage, loaded, -, -, plan⟩ := attempted_some planned
  have named : run.id = input.runId := (load_some loaded).choose_spec.2.1
  rcases plan with ⟨absent, executes⟩ | ⟨checkpoint, committed, resumes⟩
  · obtain ⟨result, -, rfl⟩ := executed_some executes
    rw [← named, absent]
  · obtain ⟨first, resolver, resolution, -, -, -, rfl⟩ := resumed_some resumes
    rw [← named, committed]

theorem WellFormed.find_committed {store : Store} {runId : String} {stage : Stage} {attemptNumber : Nat}
    {inputRevision : String} (wf : WellFormed store) (free : ColonFree runId) :
    (Table.find StageResultRow.id (attemptId (operationKey runId stage inputRevision) attemptNumber)
      store.results).map (·.payload) = store.committedResult runId stage attemptNumber inputRevision := by
  cases found : Table.find StageResultRow.id (attemptId (operationKey runId stage inputRevision) attemptNumber)
      store.results with
  | none =>
    cases committed : store.committedResult runId stage attemptNumber inputRevision with
    | none => rfl
    | some result =>
      obtain ⟨row, member, rfl, sound, answers⟩ := wf.committed_row committed
      refine absurd ?_ (Table.find_none.mp found row member)
      rw [sound.columns]
      exact answers.rowId
  | some row =>
    obtain ⟨member, same⟩ := Table.find_some found
    exact (wf.committed_of_row member ((wf.resultsSound row member).answers free same)).symm

section Effect

variable {input : AdvanceInput} {before after : Store} {attempt : Attempted} {row : StageRow} {reached : Verdict}
  {runId : String}

/-- The row of the attempt's checkpoint, where there is one, gives way to the row of its result. -/
theorem AdvanceEffect.results_perm (effect : AdvanceEffect input before after attempt row reached) (wf : WellFormed before) :
    ∃ (held : Option StageResultRow) (rest : List StageResultRow),
      held.map StageResultRow.payload = attempt.checkpoint ∧ (∀ item ∈ held, item.runId = input.runId) ∧
      before.results.Perm (held.toList ++ rest) ∧ after.results.Perm (resultRow attempt.result :: rest) := by
  obtain ⟨outcome, noted, recording, kept, results⟩ := effect.recording
  have guard := (recordOutcome_ok recording).2
  have free := effect.runId_free wf
  have committed : (Table.find StageResultRow.id (resultRow attempt.result).id before.results).map (·.payload) =
      attempt.checkpoint := by
    rw [effect.answers.rowId, attempted_checkpoint effect.plan]
    exact wf.find_committed free
  cases outcome with
  | replayed => exact absurd rfl kept
  | stored =>
    dsimp only at guard
    rw [guard] at committed
    refine ⟨none, before.results, committed, by simp, List.Perm.refl _, ?_⟩
    rw [results, recorded, Table.insertNew, guard]
    exact List.perm_append_singleton _ _
  | superseded =>
    obtain ⟨-, held, found, -⟩ := guard
    obtain ⟨member, same⟩ := Table.find_some found
    obtain ⟨rest, earlier, later⟩ := wf.resultsUnique.perm_update (f := .superseded attempt.result) member same
    refine ⟨some held, rest, ?_, ?_, earlier, ?_⟩
    · rw [← committed, found]
    · rintro item ⟨⟩
      exact ((effect.same_id_iff wf member).mp same).1
    · rw [results, recorded]
      rw [(wf.resultsSound held member).superseded free same effect.answers] at later
      exact later

theorem AdvanceEffect.history_perm (effect : AdvanceEffect input before after attempt row reached) (wf : WellFormed before) :
    ∃ rest, (before.loadHistory input.runId).Perm (attempt.checkpoint.toList ++ rest) ∧
      (after.loadHistory input.runId).Perm (attempt.result :: rest) := by
  obtain ⟨held, rest, checkpoint, owned, earlier, later⟩ := effect.results_perm wf
  have listed (store : Store) : (store.loadHistory input.runId).Perm
      ((store.results.filter (·.runId = input.runId)).map (·.payload)) := (List.perm_insertionSort _ _).map _
  refine ⟨(rest.filter (·.runId = input.runId)).map (·.payload), ?_, ?_⟩
  · have same := ((earlier.filter fun item => item.runId = input.runId).map StageResultRow.payload)
    rw [List.filter_append, List.map_append] at same
    have own : (held.toList.filter fun item => item.runId = input.runId).map StageResultRow.payload =
        attempt.checkpoint.toList := by
      rw [← checkpoint]
      cases held with
      | none => rfl
      | some item => simp [owned item rfl]
    rw [own] at same
    exact (listed before).trans same
  · have same := ((later.filter fun item => item.runId = input.runId).map StageResultRow.payload)
    have own : (resultRow attempt.result).runId = input.runId := effect.answers.runId_eq
    rw [List.filter_cons_of_pos (by simpa using own), List.map_cons] at same
    exact (listed after).trans same

theorem AdvanceEffect.history_other (effect : AdvanceEffect input before after attempt row reached)
    (wf : WellFormed before) (other : input.runId ≠ runId) :
    (after.loadHistory runId).Perm (before.loadHistory runId) := by
  obtain ⟨held, rest, -, owned, earlier, later⟩ := effect.results_perm wf
  have listed (store : Store) : (store.loadHistory runId).Perm
      ((store.results.filter (·.runId = runId)).map (·.payload)) := (List.perm_insertionSort _ _).map _
  have own : (resultRow attempt.result).runId ≠ runId := fun same => other (effect.answers.runId_eq.symm.trans same)
  have first := later.filter fun item => item.runId = runId
  have second := earlier.filter fun item => item.runId = runId
  have none_ : held.toList.filter (fun item => item.runId = runId) = [] := by
    cases held with
    | none => rfl
    | some item => simp [owned item rfl, other]
  rw [List.filter_cons_of_neg (by simpa using own)] at first
  rw [List.filter_append, none_, List.nil_append] at second
  exact (listed after).trans (((first.trans second.symm).map _).trans (listed before).symm)

end Effect

theorem ChargedFor.perm {budget : BudgetSnapshot} {charges displaced history other : List StageResult}
    (charged : ChargedFor budget charges displaced history) (same : other.Perm history) :
    ChargedFor budget charges displaced other :=
  { charged with listed := charged.listed.trans (same.symm.append_right displaced) }

theorem ChargedFor.apply {before after : BudgetSnapshot} {charges displaced history rest : List StageResult}
    {checkpoint : Option StageResult} {result : StageResult} (charged : ChargedFor before charges displaced history)
    (held : history.Perm (checkpoint.toList ++ rest)) (tokens : after.tokensUsed = before.tokensUsed + result.tokens)
    (cost : after.costUsed = addCost before.costUsed result) :
    ChargedFor after (charges ++ [result]) (displaced ++ checkpoint.toList) (result :: rest) := by
  constructor
  · have moved : (history ++ displaced).Perm (rest ++ (displaced ++ checkpoint.toList)) := by
      refine (held.append_right displaced).trans ?_
      rw [List.append_assoc, ← List.append_assoc rest]
      exact List.perm_append_comm
    exact (List.perm_append_singleton result charges).trans ((charged.listed.trans moved).cons result)
  · rw [tokens, charged.tokens, List.map_append, List.sum_append, List.map_singleton, List.sum_singleton]
  · obtain ⟨start, nothing, paid⟩ := charged.cost
    refine ⟨start, nothing, ?_⟩
    rw [cost, paid, List.foldl_append]
    rfl

structure FreshBudget (budget : BudgetSnapshot) : Prop where
  tokens : budget.tokensUsed = 0
  cost : budget.costUsed.value = 0

def Drive.freshBudget (runId : String) : Drive → Prop
  | .create input => input.runId = runId → FreshBudget input.budget
  | .advance _ => True

/-- The account of a run over its transactions: what it is charged is in its history, or was in a checkpoint that
    left it. -/
structure Accounted (runId : String) (store : Store) (charges displaced : List StageResult) : Prop where
  unborn : store.execution runId = none → store.loadHistory runId = [] ∧ charges = [] ∧ displaced = []
  charged : ∀ budget, store.runBudget runId = some budget →
    ChargedFor budget charges displaced (store.loadHistory runId)

theorem runBudget_none {store : Store} {runId : String} : store.runBudget runId = none ↔ store.execution runId = none := by
  simp [Store.runBudget]

theorem runBudget_congr {before after : Store} {runId : String}
    (same : after.execution runId = before.execution runId) : after.runBudget runId = before.runBudget runId := by
  rw [Store.runBudget, same]
  rfl

section Run

variable {runId : String} {store : Store} {applied gone : List StageResult}

theorem Accounted.congr {after : Store} (accounted : Accounted runId store applied gone)
    (execution : after.execution runId = store.execution runId)
    (history : (after.loadHistory runId).Perm (store.loadHistory runId)) : Accounted runId after applied gone := by
  refine ⟨fun absent => ?_, fun budget held => ?_⟩
  · rw [execution] at absent
    obtain ⟨empty, none_⟩ := accounted.unborn absent
    rw [empty] at history
    exact ⟨List.perm_nil.mp history, none_⟩
  · rw [runBudget_congr execution] at held
    exact (accounted.charged budget held).perm history

theorem Accounted.create {input : CreateInput} (fresh : (Drive.create input).freshBudget runId)
    (accounted : Accounted runId store applied gone) : Accounted runId (afterDrive store (.create input)) applied gone := by
  rcases afterDrive_create input store with same | ⟨run, creating⟩
  · rw [same]
    exact accounted
  · rcases createRun_writes creating with same | ⟨unborn, row, placing⟩
    · rw [same]
      exact accounted
    · have written := (getOrCreateStage_ok placing).1
      have results : (afterDrive store (.create input)).results = store.results := by rw [written]
      have history (id : String) : (afterDrive store (.create input)).loadHistory id = store.loadHistory id := by
        rw [Store.loadHistory, results]
        rfl
      by_cases own : runId = input.runId
      · have found : (afterDrive store (.create input)).execution runId = some
            { id := input.runId, changeId := input.changeId, route := input.route, provider := input.provider
              budget := some input.budget, implementationContract := input.implementationContract } := by
          rw [Store.execution, written, own]
          exact Table.find_insertNew_absent rfl unborn
        obtain ⟨empty, rfl, rfl⟩ := accounted.unborn (own ▸ unborn)
        have budgets := fresh own.symm
        refine ⟨fun absent => ?_, fun budget held => ?_⟩
        · rw [found] at absent
          cases absent
        · rw [Store.runBudget, found, Option.map_some, Option.some.injEq] at held
          rw [history, empty, ← held]
          exact ⟨List.Perm.refl _, budgets.tokens, _, budgets.cost, rfl⟩
      · have kept : (afterDrive store (.create input)).execution runId = store.execution runId := by
          rw [Store.execution, written]
          exact Table.find_insertNew_other own
        exact accounted.congr kept (by rw [history])

theorem Accounted.advance (wf : WellFormed store) {input : AdvanceInput} (faithful : Faithful input)
    (accounted : Accounted runId store applied gone) :
    Accounted runId (afterDrive store (.advance input))
      (applied ++ ((Drive.advance input).charges runId store).toList)
      (gone ++ ((Drive.advance input).displaces runId store).toList) := by
  rw [afterDrive_advance_eq]
  rcases committedReport_cases (advanceRun input) store with ⟨silent, same⟩ | ⟨report, reported, done⟩
  · have unapplied : appliedAttempt input store = none := by
      rw [appliedAttempt, show reportOf input store = none from silent]
      rfl
    rw [same]
    simpa [Drive.charges, Drive.displaces, unapplied] using accounted
  · have known : reportOf input store = some report := reported
    rcases advanceRun_reports wf faithful done with ⟨replayed, frame⟩ |
      ⟨attempt, row, reached, effect, -, result, decided⟩
    · have unapplied : appliedAttempt input store = none := by
        rw [appliedAttempt, known, Option.any_some, replayed]
        rfl
      have history : (commit (advanceRun input) store).loadHistory runId = store.loadHistory runId := by
        rw [Store.loadHistory, frame.results]
        rfl
      have execution : (commit (advanceRun input) store).execution runId = store.execution runId := by
        rw [Store.execution, frame.executions]
        rfl
      simpa [Drive.charges, Drive.displaces, unapplied] using accounted.congr execution (by rw [history])
    · have planned : appliedAttempt input store = some attempt := by
        rw [appliedAttempt, known, Option.any_some, decided]
        exact effect.plan
      by_cases own : input.runId = runId
      · subst own
        have charges : (Drive.advance input).charges input.runId store = some attempt.result := by
          simp [Drive.charges, planned]
        have displaces : (Drive.advance input).displaces input.runId store = attempt.checkpoint := by
          simp [Drive.displaces, planned]
        rw [charges, displaces]
        rcases advanceRun_decides done with ⟨quiet, -⟩ | ⟨decision, run, final, decides⟩
        · rw [decided] at quiet
          cases quiet
        · obtain ⟨earlier, later, current, moved, history, now, context, decisions, before, after, flow⟩ :=
            decides.books
          obtain ⟨rest, held, reloaded⟩ := effect.history_perm wf
          obtain ⟨tokens, cost⟩ := accumulateUsage_spend report.result current.budget
          have charged := @ChargedFor.apply _ final.budget _ _ _ _ _ attempt.result (accounted.charged run.budget earlier) held
            (by rw [← after, (applyResult_budget flow).1, ← before, ← result]; exact tokens)
            (by rw [← after, (applyResult_budget flow).1, ← before, ← result]; exact cost)
          refine ⟨fun absent => ?_, fun budget present => ?_⟩
          · rw [runBudget_none.mpr absent] at later
            cases later
          · rw [later, Option.some.injEq] at present
            exact present ▸ charged.perm reloaded
      · have charges : (Drive.advance input).charges runId store = none := by simp [Drive.charges, own]
        have displaces : (Drive.advance input).displaces runId store = none := by simp [Drive.displaces, own]
        rw [charges, displaces]
        simpa using accounted.congr (effect.execution_other (Ne.symm own)) (effect.history_other wf own)

theorem accounted_driven {drives : List Drive} (faithful : ∀ drive ∈ drives, drive.faithful)
    (fresh : ∀ drive ∈ drives, drive.freshBudget runId) :
    Accounted runId (driven drives) (charges runId {} drives) (displaced runId {} drives) := by
  induction drives using List.reverseRecOn with
  | nil => exact ⟨fun _ => ⟨rfl, rfl, rfl⟩, fun budget held => by cases held⟩
  | append_singleton earlier drive ih =>
    have before := ih (fun drive member => faithful drive (List.mem_append_left _ member))
      fun drive member => fresh drive (List.mem_append_left _ member)
    have wf := @driven_wellFormed earlier fun drive member => faithful drive (List.mem_append_left _ member)
    have last : drive ∈ earlier ++ [drive] := by simp
    rw [driven_snoc, charges_append, displaced_append]
    show Accounted runId (afterDrive (driven earlier) drive) (charges runId {} earlier ++ charges runId (driven earlier) [drive])
      (displaced runId {} earlier ++ displaced runId (driven earlier) [drive])
    rw [charges, charges, displaced, displaced, List.append_nil, List.append_nil]
    cases drive with
    | create input =>
      rw [show (Drive.create input).charges runId (driven earlier) = none from rfl,
        show (Drive.create input).displaces runId (driven earlier) = none from rfl, Option.toList_none, List.append_nil,
        List.append_nil]
      exact before.create (fresh _ last)
    | advance input => exact before.advance wf (faithful _ last)

end Run

/-- What is published of a run's usage is what it was charged exactly when no checkpoint with a cost gave way to its
    resolution, and no result without a total used tokens beside one with a total. -/
theorem published_usage_iff {drives : List Drive} {runId : String} (faithful : ∀ drive ∈ drives, drive.faithful)
    (fresh : ∀ drive ∈ drives, drive.freshBudget runId) {manifest : RunManifest} {change : Change}
    {release : Option ReleaseEvidence} {createdAt : { t : Timestamp // t.Valid }} {record : RunRecord}
    (built : buildRunRecord manifest change release createdAt (driven drives) runId = some record) :
    PublishedAsCharged (buildUsageSummary record) ↔ 
      UsageKept (charges runId {} drives) (displaced runId {} drives) record.stageResults := by
  obtain ⟨run, loaded, rfl⟩ := Option.map_eq_some_iff.mp built
  have named : run.id = runId := (load_some loaded).choose_spec.2.1
  apply publishedAsCharged_iff
  rw [named]
  exact (accounted_driven faithful fresh).charged _ (load_runBudget loaded)

def AdvanceInput.paid (input : AdvanceInput) (usage : Usage) : AdvanceInput :=
  { input with executor := fun context => (input.executor context).map fun result =>
      { result with usage := some usage } }

theorem paid_faithful {input : AdvanceInput} (usage : Usage) (faithful : Faithful input) : Faithful (input.paid usage) := by
  intro context result answered
  cases inner : input.executor context with
  | error failure => simp [AdvanceInput.paid, inner, Except.map] at answered
  | ok made =>
    have same : result = { made with usage := some usage } := by
      simp only [AdvanceInput.paid, inner, Except.map, Except.ok.injEq] at answered
      exact answered.symm
    rw [same]
    exact faithful context made inner

def paidConstruction (specification waiting : Usage) : List Drive :=
  [.create quickRun,
    .advance ((scripted quickRun.runId 1 "c1"
      { status := .succeeded, nextAction := .executeStage .planning none
        gateResults := [Gate.passed .specification] }).paid specification),
    .advance (scripted quickRun.runId 2 "c2"
      { status := .succeeded, nextAction := .executeStage .construction none
        gateResults := [Gate.passed .planning] }),
    .advance ((scripted quickRun.runId 3 "c3"
      { status := .waiting, nextAction := .waitForCi "waiting for the pipeline" none }).paid waiting),
    .advance pipelineResolved]

theorem paidConstruction_faithful (specification waiting : Usage) :
    ∀ drive ∈ paidConstruction specification waiting, drive.faithful := by
  simp only [paidConstruction, List.forall_mem_cons, List.not_mem_nil, false_implies, implies_true, and_true]
  exact ⟨trivial, paid_faithful _ (scripted_faithful _ _ _ _), scripted_faithful _ _ _ _,
    paid_faithful _ (scripted_faithful _ _ _ _), scripted_faithful quickRun.runId 4 "c3" _⟩

theorem quickRun_fresh : FreshBudget quickRun.budget :=
  ⟨rfl, by simp [quickRun, Decimal.value, Decimal.zero]⟩

theorem paidConstruction_fresh (specification waiting : Usage) :
    ∀ drive ∈ paidConstruction specification waiting, drive.freshBudget quickRun.runId := by
  simp only [paidConstruction, List.forall_mem_cons, List.not_mem_nil, false_implies, implies_true, and_true]
  exact ⟨fun _ => quickRun_fresh, trivial, trivial, trivial, trivial⟩

def callUsage : Usage := { promptTokens := 15, completionTokens := 5, cost := some ⟨25, -2⟩ }

theorem free_wait_published : ∃ record, recordOf (paidConstruction callUsage {}) = some record ∧
    record.run.budget.tokensUsed = 20 ∧ PublishedAsCharged (buildUsageSummary record) := by
  have evaluated : (recordOf (paidConstruction callUsage {})).map (fun record => (record.run.budget.tokensUsed,
      record.stageResults.all (fun result => result.usageOrZero.totalTokens.isNone), costsOf record.stageResults)) =
        some (20, true, [⟨25, -2⟩]) ∧
      (displaced quickRun.runId {} (paidConstruction callUsage {})).map (·.usage) = [some {}] ∧
      costsOf (charges quickRun.runId {} (paidConstruction callUsage {})) = [⟨25, -2⟩] := by
    decide +kernel
  obtain ⟨facts, gone, paid⟩ := evaluated
  obtain ⟨record, built, numbers⟩ := Option.map_eq_some_iff.mp facts
  obtain ⟨charged, silent, costs⟩ := Prod.mk.inj numbers |>.imp id Prod.mk.inj
  refine ⟨record, built, charged, (published_usage_iff (paidConstruction_faithful callUsage {})
    (paidConstruction_fresh callUsage {}) built).mpr ?_⟩
  obtain ⟨checkpoint, alone, free⟩ := List.map_eq_singleton_iff.mp gone
  rw [alone]
  refine ⟨?_, ?_, ?_⟩
  · simp [StageResult.tokens, free]
  · have whole : Decimal.roundedOff .zero [⟨25, -2⟩] = 0 := Decimal.roundedOff_fits (by decide +kernel)
    rw [chargingLoss, paid, whole, summingLoss, costs]
    simp [StageResult.costValue, StageResult.usageOrZero, Usage.costValue, free, Decimal.roundedOff]
  · rintro ⟨result, member, reports⟩
    have none_ := List.all_eq_true.mp silent result member
    rw [Option.isNone_iff_eq_none] at none_
    rw [none_] at reports
    cases reports

/-- What the construction cost before its pipeline ran is charged, and not published. -/
theorem paid_wait_unpublished :
    (∀ drive ∈ paidConstruction callUsage callUsage, drive.faithful ∧ drive.freshBudget quickRun.runId) ∧
      ∃ record, recordOf (paidConstruction callUsage callUsage) = some record ∧
        record.run.budget.tokensUsed = 40 ∧ (buildUsageSummary record).totals.tokens = 20 ∧
        ¬ PublishedAsCharged (buildUsageSummary record) := by
  refine ⟨fun drive member => ⟨paidConstruction_faithful _ _ drive member, paidConstruction_fresh _ _ drive member⟩, ?_⟩
  have facts : (recordOf (paidConstruction callUsage callUsage)).map (fun record =>
      (record.run.budget.tokensUsed, (buildUsageSummary record).totals.tokens)) = some (40, 20) := by decide +kernel
  obtain ⟨record, built, numbers⟩ := Option.map_eq_some_iff.mp facts
  obtain ⟨charged, published⟩ := Prod.mk.inj numbers
  refine ⟨record, built, charged, published, fun same => ?_⟩
  have equal := same.tokens
  rw [published, show (buildUsageSummary record).budget.tokensUsed = 40 from charged] at equal
  cases equal

end DarkFactory
