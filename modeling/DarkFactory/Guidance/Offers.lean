import DarkFactory.Guidance.Model
import DarkFactory.Runner.Events
import DarkFactory.Runner.Withdrawal

namespace DarkFactory

def GuidanceAction.Calls (action : GuidanceAction) (command : String) : Prop :=
  action.cli.any (Text.startsWith · command) = true

def GuidanceAction.Offers (action : GuidanceAction) (command : String) : Prop :=
  action.enabled = true ∧ action.Calls command

def advanceCommand : String := "factory run advance"
def withdrawCommand : String := "factory run withdraw"

def finishedHeadline (status : RunStatus) (phase : Phase) : Option String :=
  match status with
  | .failed => some s!"Фаза «{phaseLabel phase}» завершилась ошибкой"
  | .canceled => some "Запуск снят оператором"
  | .superseded => some "Запуск заменён новым"
  | .succeeded => some "Задача завершена"
  | _ => none

/-- What guidance offers of a run the driver and the store do, and it tells how the run ended. -/
structure GuidanceKept (store : Store) (run : ChangeRun) (phase : Phase) (guidance : Guidance) : Prop where
  advances : ∀ action ∈ guidance.actions, action.Offers advanceCommand →
    ∃ found after, advanceableRun run.id store = .ok found after
  withdraws : ∀ action ∈ guidance.actions, action.Offers withdrawCommand →
    ∃ found after, withdrawableRun run.id store = .ok found after
  succeeded : run.status = .succeeded → guidance.phase = some .done
  finished : ∀ headline, finishedHeadline run.status phase = some headline → guidance.headline = headline

def limitSpent (run : ChangeRun) : Bool := run.budget.costBudgetExhausted

section Offers

variable {store : Store} {run : ChangeRun}

theorem startsWith_append {text rest head : String} (long : head.toList.length ≤ text.toList.length) :
    Text.startsWith (text ++ rest) head = Text.startsWith text head := by
  unfold Text.startsWith
  rw [String.toList_append, Bool.eq_iff_iff, List.isPrefixOf_iff_prefix, List.isPrefixOf_iff_prefix]
  constructor
  · exact fun front => List.prefix_of_prefix_length_le front (List.prefix_append _ _) long
  · exact fun front => front.trans (List.prefix_append _ _)

theorem withdrawableRun_live (loaded : store.load run.id = some run) (live : runTerminal run.status = false) :
    ∃ found after, withdrawableRun run.id store = .ok found after := by
  have other : run.status ≠ .canceled := by
    intro canceled
    rw [canceled] at live
    exact absurd live (by decide)
  rw [withdrawableRun, Outcome.state_get_bind, loaded]
  simp only [other, live, Bool.false_eq_true, ↓reduceIte]
  exact ⟨_, _, rfl⟩

theorem kept_of_live {guidance : Guidance} {phase : Phase} (loaded : store.load run.id = some run)
    (live : runTerminal run.status = false) : GuidanceKept store run phase guidance := by
  refine ⟨fun _ _ _ => ⟨_, _, advanceableRun_eq loaded live⟩, fun _ _ _ => withdrawableRun_live loaded live, ?_, ?_⟩
  · intro succeeded
    rw [succeeded] at live
    exact absurd live (by decide)
  · intro headline told
    cases status : run.status <;> rw [status] at live told
    all_goals first | exact absurd live (by decide) | cases told

theorem withdraw_offers : (Guidance.withdraw run).Offers withdrawCommand := by
  have front := @startsWith_append "factory run withdraw --run-id " run.id withdrawCommand (by decide)
  exact ⟨rfl, front.trans (by decide)⟩

theorem advance_offers {label : String} : { Guidance.advance run with label }.Offers advanceCommand := by
  have front := @startsWith_append "factory run advance --run-id " run.id advanceCommand (by decide)
  exact ⟨rfl, front.trans (by decide)⟩

theorem status_calls_nothing {label : String} :
    ¬ { Guidance.status run with label }.Calls advanceCommand ∧
      ¬ { Guidance.status run with label }.Calls withdrawCommand := by
  have advance := @startsWith_append "factory run status --run-id " run.id advanceCommand (by decide)
  have withdraw := @startsWith_append "factory run status --run-id " run.id withdrawCommand (by decide)
  exact ⟨fun calls => absurd (advance.symm.trans calls) (by decide),
    fun calls => absurd (withdraw.symm.trans calls) (by decide)⟩

theorem openChange_calls_nothing {change : GuidedChange} {label : String} :
    ¬ (Guidance.openChange change label).Calls advanceCommand ∧
      ¬ (Guidance.openChange change label).Calls withdrawCommand := by
  have advance := @startsWith_append "factory change status --id " change.id advanceCommand (by decide)
  have withdraw := @startsWith_append "factory change status --id " change.id withdrawCommand (by decide)
  exact ⟨fun calls => absurd (advance.symm.trans calls) (by decide),
    fun calls => absurd (withdraw.symm.trans calls) (by decide)⟩

theorem other_command {text command : String} (other : Text.startsWith "factory change create" command = false)
    (long : command.toList.length ≤ 21) (rest : String) (same : text = "factory change create" ++ rest) :
    Text.startsWith text command = false := by
  have fits : command.toList.length ≤ "factory change create".toList.length := long.trans (by decide)
  rw [same, startsWith_append fits, other]

def createCli (productId : Option String) : String :=
  match productId.filter (· ≠ "") with
  | some productId => s!"factory change create --product {productId} …"
  | none => "factory change create …"

theorem createCli_calls_nothing {productId : Option String} {command : String}
    (other : Text.startsWith "factory change create" command = false) (long : command.toList.length ≤ 21) :
    Text.startsWith (createCli productId) command = false := by
  unfold createCli
  cases productId.filter (· ≠ "") with
  | none => exact other_command other long " …" rfl
  | some productId =>
    refine other_command other long (" --product " ++ productId ++ " …") ?_
    rw [← String.append_assoc, ← String.append_assoc]
    rfl

theorem changeGuidance_spent {upper : Char → String} {change : GuidedChange} {product : Option GuidedProduct}
    {waitingOn : Option NextAction} {gate : Option GuidedGate} {phase waitingPhase : Option Phase}
    (spent : limitSpent run = true) :
    (changeGuidance upper change product run waitingOn gate phase waitingPhase).primary = Guidance.withdraw run ∧
      (changeGuidance upper change product run waitingOn gate phase waitingPhase).headline =
        "Лимит расхода исчерпан" := by
  unfold limitSpent BudgetSnapshot.costBudgetExhausted at spent
  unfold changeGuidance Guidance.ofRun
  dsimp only
  cases budget : run.budget.costBudget with
  | none => simp [budget] at spent
  | some limit =>
    simp only [budget] at spent
    simp [Option.filter, spent, Guidance.spentLimit]

theorem changeGuidance_unspent {upper : Char → String} {change : GuidedChange} {product : Option GuidedProduct}
    {waitingOn : Option NextAction} {gate : Option GuidedGate} {phase waitingPhase : Option Phase}
    (unspent : limitSpent run = false) :
    changeGuidance upper change product run waitingOn gate phase waitingPhase =
      Guidance.ofStatus change run upper (phase.getD (phaseOfRun run)) waitingOn gate phase waitingPhase
        (Guidance.exhaustedRounds run ++ Guidance.productBlockers product) := by
  unfold limitSpent BudgetSnapshot.costBudgetExhausted at unspent
  unfold changeGuidance Guidance.ofRun
  dsimp only
  cases budget : run.budget.costBudget with
  | none => simp [Option.filter]
  | some limit =>
    simp only [budget] at unspent
    simp [Option.filter, unspent]

/-- A finished run with a spent limit is shown as stopped by it, and the withdrawal offered is refused. -/
theorem spent_not_kept {upper : Char → String} {change : GuidedChange} {product : Option GuidedProduct}
    {waitingOn : Option NextAction} {gate : Option GuidedGate} {known waitingPhase : Option Phase} {phase : Phase}
    (loaded : store.load run.id = some run) (terminal : runTerminal run.status = true)
    (spent : limitSpent run = true) : ¬ GuidanceKept store run phase
      (changeGuidance upper change product run waitingOn gate known waitingPhase) := by
  intro kept
  obtain ⟨primary, headline⟩ := @changeGuidance_spent run upper change product waitingOn gate known waitingPhase spent
  by_cases canceled : run.status = .canceled
  · have told := kept.finished "Запуск снят оператором" (by rw [canceled]; rfl)
    rw [headline] at told
    exact absurd told (by decide)
  · obtain ⟨found, after, done⟩ := kept.withdraws _ List.mem_cons_self (primary ▸ withdraw_offers)
    obtain ⟨failure, refused⟩ := withdrawableRun_refuses loaded terminal canceled
    rw [refused] at done
    cases done

theorem failed_primary {upper : Char → String} {change : GuidedChange} {product : Option GuidedProduct}
    {waitingOn : Option NextAction} {gate : Option GuidedGate} {known waitingPhase : Option Phase}
    (failed : run.status = .failed) (unspent : limitSpent run = false) :
    (changeGuidance upper change product run waitingOn gate known waitingPhase).primary =
      { Guidance.advance run with label := "Повторить попытку" } := by
  rw [changeGuidance_unspent unspent]
  simp only [Guidance.ofStatus, failed]

/-- A failed run is offered its advance, which is refused. -/
theorem failed_not_kept {upper : Char → String} {change : GuidedChange} {product : Option GuidedProduct}
    {waitingOn : Option NextAction} {gate : Option GuidedGate} {known waitingPhase : Option Phase} {phase : Phase}
    (loaded : store.load run.id = some run) (failed : run.status = .failed) (unspent : limitSpent run = false) :
    ¬ GuidanceKept store run phase (changeGuidance upper change product run waitingOn gate known waitingPhase) := by
  intro kept
  obtain ⟨found, after, done⟩ := kept.advances _ List.mem_cons_self (failed_primary failed unspent ▸ advance_offers)
  obtain ⟨failure, refused⟩ := advanceableRun_refuses loaded (by rw [failed]; rfl)
  rw [refused] at done
  cases done

/-- A run that ended otherwise than by a failure tells it, and offers neither command. -/
theorem ofStatus_finished {upper : Char → String} {change : GuidedChange} {waitingOn : Option NextAction}
    {gate : Option GuidedGate} {known waitingPhase : Option Phase} {phase : Phase} {blockers : List GuidanceBlocker}
    (terminal : runTerminal run.status = true) (ended : run.status ≠ .failed) :
    GuidanceKept store run phase
      (Guidance.ofStatus change run upper phase waitingOn gate known waitingPhase blockers) := by
  have silent {guidance : Guidance}
      (calls : ∀ action ∈ guidance.actions, ¬ action.Calls advanceCommand ∧ ¬ action.Calls withdrawCommand)
      (succeeded : run.status = .succeeded → guidance.phase = some .done)
      (told : finishedHeadline run.status phase = some guidance.headline) : GuidanceKept store run phase guidance :=
    ⟨fun action member offers => absurd offers.2 (calls action member).1,
      fun action member offers => absurd offers.2 (calls action member).2, succeeded,
      fun headline same => Option.some.inj (told.symm.trans same)⟩
  unfold Guidance.ofStatus
  dsimp only
  cases status : run.status with
  | pending => rw [status] at terminal; exact absurd terminal (by decide)
  | running => rw [status] at terminal; exact absurd terminal (by decide)
  | waiting => rw [status] at terminal; exact absurd terminal (by decide)
  | blocked => rw [status] at terminal; exact absurd terminal (by decide)
  | failed => exact absurd status ended
  | canceled =>
    refine silent ?_ (by simp [status]) (by rw [status]; rfl)
    have create {command : String} (other : Text.startsWith "factory change create" command = false)
        (long : command.toList.length ≤ 21) {label : String} {api : Option String} :
        ¬ ({ label, cli := some (createCli change.productId), api } : GuidanceAction).Calls command := by
      intro calls
      exact absurd ((createCli_calls_nothing other long).symm.trans calls) (by decide)
    refine List.forall_mem_cons.mpr ⟨⟨?_, ?_⟩, List.forall_mem_singleton.mpr status_calls_nothing⟩
    · exact create (by decide) (by decide)
    · exact create (by decide) (by decide)
  | superseded =>
    refine silent ?_ (by simp [status]) (by rw [status]; rfl)
    exact List.forall_mem_cons.mpr ⟨openChange_calls_nothing, List.forall_mem_singleton.mpr status_calls_nothing⟩
  | succeeded =>
    refine silent ?_ (fun _ => rfl) (by rw [status]; rfl)
    exact List.forall_mem_singleton.mpr openChange_calls_nothing

end Offers

/-- Guidance offers only what is done and tells how a run ended, unless the run failed or its limit is spent
    once it is over. -/
theorem guidance_offers_iff {store : Store} {run : ChangeRun} (loaded : store.load run.id = some run)
    (upper : Char → String) (change : GuidedChange) (product : Option GuidedProduct) (waitingOn : Option NextAction)
    (gate : Option GuidedGate) (phase waitingPhase : Option Phase) :
    GuidanceKept store run (phase.getD (phaseOfRun run))
        (changeGuidance upper change product run waitingOn gate phase waitingPhase) ↔
      run.status ≠ .failed ∧ (runTerminal run.status = true → limitSpent run = false) := by
  cases live : runTerminal run.status with
  | false =>
    have unfailed : run.status ≠ .failed := by
      intro failed
      rw [failed] at live
      exact absurd live (by decide)
    exact ⟨fun _ => ⟨unfailed, nofun⟩, fun _ => kept_of_live loaded live⟩
  | true =>
    constructor
    · intro kept
      cases spent : limitSpent run with
      | true => exact absurd kept (spent_not_kept loaded live spent)
      | false => exact ⟨fun failed => failed_not_kept loaded failed spent kept, fun _ => rfl⟩
    · rintro ⟨ended, unspent⟩
      rw [changeGuidance_unspent (unspent rfl)]
      exact ofStatus_finished live ended

def quickFailed : Store :=
  driven [.create quickRun,
    .advance (scripted quickRun.runId 1 "c1" { status := .failed, nextAction := .stop .failed "no attempt is open" })]

theorem created_run_guided : ∃ run, (driven [.create quickRun]).load quickRun.runId = some run ∧
    GuidanceKept (driven [.create quickRun]) run (phaseOfRun run)
      (changeGuidance (fun letter => String.singleton letter.toUpper) { id := "change-1", riskClass := .r1 } none run
        none none none none) := by
  have facts : ((driven [.create quickRun]).load quickRun.runId).map (fun run => (run.id, run.status)) =
      some (quickRun.runId, .pending) := by decide +kernel
  obtain ⟨run, loaded, shown⟩ := Option.map_eq_some_iff.mp facts
  obtain ⟨id, status⟩ := Prod.mk.inj shown
  refine ⟨run, loaded, (guidance_offers_iff (id ▸ loaded) _ _ none none none none none).mpr ⟨?_, ?_⟩⟩
  · rw [status]
    decide
  · rw [status]
    exact nofun

/-- The next step offered of the failed run is its advance, and the driver raises. -/
theorem failed_run_offered_advance : ∃ run, quickFailed.load quickRun.runId = some run ∧
    (changeGuidance (fun letter => String.singleton letter.toUpper) { id := "change-1", riskClass := .r1 } none run
      none none none none).primary.Offers advanceCommand ∧
    ∃ failure, advanceableRun run.id quickFailed = .error failure quickFailed := by
  have facts : (quickFailed.load quickRun.runId).map (fun run => (run.id, run.status, run.budget.costBudget)) =
      some (quickRun.runId, .failed, none) := by decide +kernel
  obtain ⟨run, loaded, shown⟩ := Option.map_eq_some_iff.mp facts
  obtain ⟨id, more⟩ := Prod.mk.inj shown
  obtain ⟨failed, budget⟩ := Prod.mk.inj more
  have unspent : limitSpent run = false := by
    rw [limitSpent, BudgetSnapshot.costBudgetExhausted, budget]
  refine ⟨run, loaded, ?_, advanceableRun_refuses (id ▸ loaded) (by rw [failed]; rfl)⟩
  rw [failed_primary failed unspent]
  exact advance_offers

end DarkFactory
