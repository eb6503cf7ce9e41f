import DarkFactory.Changes.Keys
import DarkFactory.Flow.Rounds
import DarkFactory.Lib.Trace

namespace DarkFactory

def FlowCall.Succeeds (run : ChangeRun) (call : FlowCall) : Prop :=
  ∃ decision after, call.apply run = .ok decision after

def AllSucceed (run : ChangeRun) (calls : List FlowCall) : Prop :=
  Trace.Along (fun run call => call.after run) FlowCall.Succeeds run calls

def executedAt (run : ChangeRun) (stage : Stage) : Nat := (activeIndex run stage).getD run.stages.length

def StageRun.key (stageRun : StageRun) : String × Stage := (stageRun.id, stageRun.stage)

def occurrenceId (runId : String) (stage : Stage) (earlier : List Stage) : String :=
  s!"{runId}:{stage.value}:{(earlier.filter (· = stage)).length + 1}"

def Named (runId : String) (keys : List (String × Stage)) : Prop :=
  ∀ index key, keys[index]? = some key → key.1 = occurrenceId runId key.2 ((keys.take index).map Prod.snd)

section Names

variable {runId : String} {stage other : Stage} {earlier later : List Stage} {keys : List (String × Stage)}
  {key : String × Stage}

theorem occurrenceId_injective (same : occurrenceId runId stage earlier = occurrenceId runId other later) :
    stage = other ∧ (earlier.filter (· = stage)).length = (later.filter (· = other)).length := by
  obtain ⟨fronts, numbers⟩ :=
    @attemptId_injective (runId ++ ":" ++ stage.value) (runId ++ ":" ++ other.value) _ _ same
  have letters := congrArg String.toList fronts
  simp only [String.toList_append, List.append_cancel_left_eq] at letters
  exact ⟨stage_value_injective (String.toList_injective letters), Nat.succ.inj numbers⟩

theorem Named.snoc (named : Named runId keys) (own : key.1 = occurrenceId runId key.2 (keys.map Prod.snd)) :
    Named runId (keys ++ [key]) := by
  intro index item found
  rcases Nat.lt_trichotomy index keys.length with inside | rfl | outside
  · rw [List.getElem?_append_left inside] at found
    rw [List.take_append_of_le_length (Nat.le_of_lt inside)]
    exact named index item found
  · simp only [List.getElem?_concat_length, Option.some.injEq] at found
    subst found
    simpa using own
  · rw [List.getElem?_eq_none (by simp; omega)] at found
    cases found

theorem Named.nodup (named : Named runId keys) : (keys.map Prod.fst).Nodup := by
  induction keys using List.reverseRecOn with
  | nil => exact List.nodup_nil
  | append_singleton front last ih =>
    have frontNamed : Named runId front := by
      intro index item found
      have inside := (List.getElem?_eq_some_iff.mp found).1
      have own := named index item ((List.getElem?_append_left inside).trans found)
      rwa [List.take_append_of_le_length (Nat.le_of_lt inside)] at own
    have lastNamed : last.1 = occurrenceId runId last.2 (front.map Prod.snd) := by
      have own := named front.length last (by simp)
      simpa using own
    rw [List.map_append, List.nodup_append]
    refine ⟨ih frontNamed, by simp, ?_⟩
    intro id listed other same
    simp only [List.map_cons, List.map_nil, List.mem_singleton] at same
    subst same
    obtain ⟨item, member, rfl⟩ := List.mem_map.mp listed
    obtain ⟨index, found⟩ := List.mem_iff_getElem?.mp member
    intro equal
    rw [frontNamed index item found, lastNamed] at equal
    obtain ⟨stages, counts⟩ := occurrenceId_injective equal
    have split : front = front.take index ++ item :: front.drop (index + 1) := by
      obtain ⟨inside, same⟩ := List.getElem?_eq_some_iff.mp found
      rw [← same, List.cons_getElem_drop_succ, List.take_append_drop]
    rw [congrArg (List.map Prod.snd) split] at counts
    simp [stages] at counts

end Names

section Shape

variable {run entered after : ChangeRun} {result : StageResult} {index : Nat} {history : List StageResult}
  {now : Timestamp} {context : Option MergeRequestContext} {decisions : List Decision} {decision : FlowDecision}
  {reached : Verdict}

/-- What every transition keeps to: it goes on exactly when it names a next stage, and settles the one it leaves. -/
structure Verdict.Shaped (reached : Verdict) : Prop where
  running : reached.runStatus = .running ↔ reached.nextStage ≠ none
  settled : reached.stageStatus ≠ .inProgress

theorem verdict_shaped (paired : result.status = expectedResultStatus result.nextAction)
    (computed : verdict run result history now context decisions = .ok reached) : reached.Shaped := by
  cases verdict_reaches paired computed with
  | blocked | parked | deferred | left | reworked | nextPhase | released => constructor <;> simp [Verdict.blocked,
      Verdict.parked, Verdict.advanced, phaseRoundVerdict]
  | stopped outcome => cases outcome <;> constructor <;> simp [stopVerdict, stopStatus]

def pendingOccurrence (run : ChangeRun) (stage : Stage) : StageRun := { id := stageRunId run stage, stage }

/-- The stage runs after a transition: the executed one settled in its place, and the occurrence it starts. -/
structure Carries (before after : ChangeRun) (result : StageResult) (decision : FlowDecision) (settled : StageRun)
    (started : Option Stage) : Prop where
  own : settled.stage = result.stage
  status : settled.status = decision.stageStatus
  named : settled.id = match before.stages[executedAt before result.stage]? with
    | some old => old.id
    | none => stageRunId before result.stage
  live : ∀ old, before.stages[executedAt before result.stage]? = some old →
    old.stage = result.stage ∧ stageTerminal old.status = false
  within : executedAt before result.stage ≤ before.stages.length
  stages : ∃ base : ChangeRun, base.id = before.id ∧
    base.stages = before.stages.take (executedAt before result.stage) ++
      settled :: before.stages.drop (executedAt before result.stage + 1) ∧
    after.stages = base.stages ++ (started.map (pendingOccurrence base)).toList

theorem Carries.base_eq {before after : ChangeRun} {settled : StageRun} {started : Option Stage}
    (carries : Carries before after result decision settled started) :
    ∃ base : ChangeRun, base.id = before.id ∧ base.stages[executedAt before result.stage]? = some settled ∧
      (∀ place, place ≠ executedAt before result.stage → base.stages[place]? = before.stages[place]?) ∧
      after.stages = base.stages ++ (started.map (pendingOccurrence base)).toList := by
  obtain ⟨base, id, stages, grown⟩ := carries.stages
  have within := carries.within
  have length : (before.stages.take (executedAt before result.stage)).length = executedAt before result.stage := by
    simp [within]
  refine ⟨base, id, ?_, ?_, grown⟩
  · rw [stages, List.getElem?_append_right (by omega), length, Nat.sub_self]
    rfl
  · intro place other
    rw [stages]
    rcases Nat.lt_or_gt_of_ne other with earlier | later
    · rw [List.getElem?_append_left (by omega), List.getElem?_take_of_lt earlier]
    · rw [List.getElem?_append_right (by omega), length]
      obtain ⟨distance, rfl⟩ := Nat.exists_eq_add_of_lt later
      rw [show executedAt before result.stage + distance + 1 - executedAt before result.stage = distance + 1 by omega,
        List.getElem?_cons_succ, List.getElem?_drop]
      congr 1
      omega

structure FlowStep (before after : ChangeRun) (result : StageResult) (decision : FlowDecision) : Prop where
  live : runTerminal before.status = false
  id : after.id = before.id
  status : after.status = decision.runStatus
  running : decision.runStatus = .running ↔ decision.nextStage ≠ none
  finished : decision.stageStatus ≠ .inProgress
  carried : ∃ settled started, Carries before after result decision settled started
  next : ∀ target, decision.nextStage = some target → ∃ item ∈ after.stages, item.stage = target ∧ item.active = true

theorem enterNext_stages (reached : Verdict) (base : ChangeRun) :
    (∃ started : Option Stage,
        (enterNext reached base).stages = base.stages ++ (started.map (pendingOccurrence base)).toList) ∧
      ∀ target, reached.nextStage = some target →
        ∃ item ∈ (enterNext reached base).stages, item.stage = target ∧ item.active = true := by
  have fresh (target : Stage) : (∃ started : Option Stage,
        (restart target base).stages = base.stages ++ (started.map (pendingOccurrence base)).toList) ∧
      ∃ item ∈ (restart target base).stages, item.stage = target ∧ item.active = true :=
    ⟨⟨some target, rfl⟩, pendingOccurrence base target, by simp [restart, pendingOccurrence], rfl, rfl⟩
  unfold enterNext
  cases reached.nextStage with
  | none => exact ⟨⟨none, by simp⟩, fun target named => by cases named⟩
  | some target =>
    simp only [Option.some.injEq, forall_eq']
    by_cases anew : reached.fresh = true
    · rw [if_pos anew]
      exact fresh target
    · rw [if_neg anew]
      unfold start
      cases active : activeIndex base target with
      | none => exact fresh target
      | some index =>
        obtain ⟨item, there, own, live⟩ := activeIndex_some active
        exact ⟨⟨none, by simp⟩, item, List.mem_of_getElem? there, own, live⟩

theorem moveStage_stages (stageRun : StageRun) {status : StageStatus} (there : run.stages[index]? = some stageRun) :
    (moveStage index status run).stages =
      run.stages.take index ++ stageRun.moved status :: run.stages.drop (index + 1) := by
  have bound := (List.getElem?_eq_some_iff.mp there).1
  have moved : (moveStage index status run).stages = run.stages.set index (stageRun.moved status) := by
    simp [moveStage, List.modify_eq_set_getElem?, there]
  rw [moved, List.set_eq_take_append_cons_drop, if_pos bound]

theorem applyResult_step (applied : applyResult result history now context decisions run = .ok decision after) :
    FlowStep run after result decision := by
  obtain ⟨live, -, paired, index, entered, reached, ensured, computed, rfl, rfl⟩ := applyResult_ok applied
  obtain ⟨running, finished⟩ := verdict_shaped paired computed
  have sameId : entered.id = run.id := by
    rcases ensureStageRun_ok ensured with ⟨stageRun, -, -, -, rfl⟩ | ⟨-, -, -, rfl⟩ <;> rfl
  obtain ⟨spent, spentEq⟩ : ∃ spent, spent = if reached.spends then spendRound (handled result entered)
    else handled result entered := ⟨_, rfl⟩
  have afterEq : reached.carry index (handled result entered) =
      moveRun reached.runStatus (enterNext reached (moveStage index reached.stageStatus spent)) := by
    rw [Verdict.carry, spentEq]
  have spentStages : spent.stages = entered.stages := by
    rw [spentEq]
    cases reached.spends <;> exact handled_stages result entered
  have spentId : spent.id = run.id := by
    rw [spentEq]
    cases reached.spends <;> exact (moveRun_id .running entered).trans sameId
  obtain ⟨⟨started, grown⟩, next⟩ := enterNext_stages reached (moveStage index reached.stageStatus spent)
  rw [afterEq]
  refine ⟨live, ?_, moveRun_status _, ?_, finished, ?_, ?_⟩
  · rw [moveRun_id, enterNext_id]
    exact spentId
  · exact running
  · rcases ensureStageRun_ok ensured with ⟨stageRun, active, there, -, rfl⟩ | ⟨absent, -, rfl, rfl⟩
    · have at_ : executedAt run result.stage = index := by rw [executedAt, active, Option.getD_some]
      obtain ⟨held, same, own, open_⟩ := activeIndex_some active
      rw [there, Option.some.injEq] at same
      subst same
      have bound := (List.getElem?_eq_some_iff.mp there).1
      refine ⟨(stageRun.enter result.attemptNumber).moved reached.stageStatus, started, ?_⟩
      refine ⟨own, rfl, by rw [at_, there]; rfl, ?_, by rw [at_]; omega, ?_⟩
      · intro old found
        rw [at_, there, Option.some.injEq] at found
        subst found
        exact ⟨own, by simpa [StageRun.active] using open_⟩
      · refine ⟨moveStage index reached.stageStatus spent, spentId, ?_, by rw [moveRun_stages]; exact grown⟩
        rw [at_, moveStage_stages (stageRun.enter result.attemptNumber) (by rw [spentStages]; simp [bound]),
          spentStages]
        simp [List.take_set_of_le, List.drop_set_of_lt]
    · have at_ : executedAt run result.stage = run.stages.length := by rw [executedAt, absent, Option.getD_none]
      have none_ : run.stages[run.stages.length]? = none := List.getElem?_eq_none (Nat.le_refl _)
      refine ⟨(firstOccurrence run result.stage).moved reached.stageStatus, started, ?_⟩
      refine ⟨rfl, rfl, by rw [at_, none_]; rfl, ?_, by rw [at_], ?_⟩
      · intro old found
        rw [at_, none_] at found
        cases found
      · refine ⟨moveStage run.stages.length reached.stageStatus spent, spentId, ?_, by rw [moveRun_stages]; exact grown⟩
        rw [at_, moveStage_stages (firstOccurrence run result.stage) (by rw [spentStages]; simp), spentStages]
        simp
  · rw [moveRun_stages]
    exact next

structure Settled (run : ChangeRun) : Prop where
  finished : ∀ item ∈ run.stages, item.status ≠ .inProgress
  named : Named run.id (run.stages.map StageRun.key)

theorem pendingOccurrence_key (run : ChangeRun) (stage : Stage) : (pendingOccurrence run stage).key.1 =
    occurrenceId run.id stage ((run.stages.map StageRun.key).map Prod.snd) := by
  simp [pendingOccurrence, StageRun.key, stageRunId, occurrenceId, List.filter_map, Function.comp_def]

theorem Named.grown (named : Named run.id (run.stages.map StageRun.key)) (started : Option Stage) :
    Named run.id ((run.stages ++ (started.map (pendingOccurrence run)).toList).map StageRun.key) := by
  cases started with
  | none => simpa using named
  | some stage =>
    rw [Option.map_some, Option.toList_some, List.map_append, List.map_cons, List.map_nil]
    exact named.snoc (pendingOccurrence_key run stage)

theorem Carries.keys {before after : ChangeRun} {settled : StageRun} {started : Option Stage}
    (carries : Carries before after result decision settled started)
    (named : Named before.id (before.stages.map StageRun.key)) :
    Named before.id ((before.stages.take (executedAt before result.stage) ++
      settled :: before.stages.drop (executedAt before result.stage + 1)).map StageRun.key) := by
  have own := carries.named
  cases there : before.stages[executedAt before result.stage]? with
  | some old =>
    -- An occurrence in flight keeps its id, so that the keys are the ones before.
    rw [there] at own
    obtain ⟨inside, same⟩ := List.getElem?_eq_some_iff.mp there
    have key : settled.key = old.key := Prod.ext own (carries.own.trans (carries.live old there).1.symm)
    rw [List.map_append, List.map_cons, key, ← same, ← List.map_cons, ← List.map_append,
      List.cons_getElem_drop_succ, List.take_append_drop]
    exact named
  | none =>
    have last : executedAt before result.stage = before.stages.length :=
      Nat.le_antisymm carries.within (List.getElem?_eq_none_iff.mp there)
    rw [there] at own
    have key : settled.key = (pendingOccurrence before result.stage).key := Prod.ext own carries.own
    rw [last, List.take_length, List.drop_eq_nil_of_le (Nat.le_succ _), List.map_append, List.map_cons,
      List.map_nil, key]
    exact named.snoc (pendingOccurrence_key before result.stage)

theorem FlowStep.settled {before after : ChangeRun} (step : FlowStep before after result decision)
    (start : Settled before) : Settled after := by
  obtain ⟨settled, started, carries⟩ := step.carried
  obtain ⟨base, sameId, stages, grown⟩ := carries.stages
  constructor
  · intro item member
    rw [grown, stages] at member
    simp only [List.mem_append, List.mem_cons, Option.mem_toList] at member
    rcases member with (kept | rfl | kept) | entered
    · exact start.finished item (List.mem_of_mem_take kept)
    · rw [carries.status]
      exact step.finished
    · exact start.finished item (List.mem_of_mem_drop kept)
    · obtain ⟨stage, -, rfl⟩ := Option.map_eq_some_iff.mp entered
      exact StageStatus.noConfusion
  · rw [step.id, grown, ← sameId]
    apply Named.grown
    rw [sameId, stages]
    exact carries.keys start.named

theorem FlowStep.executed {before after : ChangeRun} (step : FlowStep before after result decision) :
    ∃ item, after.stages[executedAt before result.stage]? = some item ∧ item.stage = result.stage ∧
      item.status = decision.stageStatus := by
  obtain ⟨settled, started, carries⟩ := step.carried
  obtain ⟨base, -, there, -, grown⟩ := carries.base_eq
  refine ⟨settled, ?_, carries.own, carries.status⟩
  rw [grown, List.getElem?_append_left (List.getElem?_eq_some_iff.mp there).1]
  exact there

theorem FlowStep.terminal {before after : ChangeRun} {place : Nat} {item : StageRun}
    (step : FlowStep before after result decision) (there : before.stages[place]? = some item)
    (terminal : stageTerminal item.status = true) : after.stages[place]? = some item := by
  obtain ⟨settled, started, carries⟩ := step.carried
  obtain ⟨base, -, -, others, grown⟩ := carries.base_eq
  have other : place ≠ executedAt before result.stage := by
    rintro rfl
    have active := (carries.live item there).2
    rw [terminal] at active
    cases active
  have kept := others place other
  rw [there] at kept
  rw [grown, List.getElem?_append_left (List.getElem?_eq_some_iff.mp kept).1]
  exact kept

end Shape

section Calls

variable {run : ChangeRun} {calls earlier later : List FlowCall} {call : FlowCall}

theorem succeeds_step (succeeds : call.Succeeds run) :
    ∃ decision, call.apply run = .ok decision (call.after run) ∧ FlowStep run (call.after run) call.result decision := by
  obtain ⟨decision, after, applied⟩ := succeeds
  have moved : call.after run = after := by simp only [FlowCall.after, applied]
  rw [moved]
  exact ⟨decision, applied, applyResult_step applied⟩

theorem appliedAll_settled (start : Settled run) (succeed : AllSucceed run calls) : Settled (appliedAll run calls) := by
  refine Trace.invariant ?_ start succeed
  intro before call settled succeeds
  obtain ⟨decision, -, step⟩ := succeeds_step succeeds
  exact step.settled settled

theorem appliedAll_keeps {place : Nat} {item : StageRun} (terminal : stageTerminal item.status = true)
    (there : run.stages[place]? = some item) (succeed : AllSucceed run calls) :
    (appliedAll run calls).stages[place]? = some item := by
  have kept : ∀ before call, before.stages[place]? = some item → FlowCall.Succeeds before call →
      (call.after before).stages[place]? = some item := by
    intro before call there succeeds
    obtain ⟨decision, -, step⟩ := succeeds_step succeeds
    exact step.terminal there terminal
  exact Trace.invariant kept there succeed

theorem allSucceed_terminal (terminal : runTerminal run.status = true) (succeed : AllSucceed run calls) : calls = [] := by
  cases calls with
  | nil => rfl
  | cons call rest =>
    obtain ⟨decision, -, step⟩ := succeeds_step succeed.1
    rw [step.live] at terminal
    cases terminal

structure PostState (before after : ChangeRun) (result : StageResult) (decision : FlowDecision) : Prop where
  finished : ∀ item ∈ after.stages, item.status ≠ .inProgress
  running : after.status = .running ↔ ∃ target, decision.nextStage = some target
  next : ∀ target, decision.nextStage = some target →
    ∃ item ∈ after.stages, item.stage = target ∧ stageTerminal item.status = false
  stopped : after.status ≠ .running → decision.nextStage = none ∧
    ∃ item, after.stages[executedAt before result.stage]? = some item ∧ item.stage = result.stage ∧
      item.status = decision.stageStatus
  distinct : (after.stages.map StageRun.id).Nodup

theorem FlowStep.postState {before after : ChangeRun} {result : StageResult} {decision : FlowDecision}
    (step : FlowStep before after result decision) (start : Settled before) :
    PostState before after result decision := by
  have settled := step.settled start
  have running : after.status = .running ↔ ∃ target, decision.nextStage = some target := by
    rw [step.status, step.running, Option.ne_none_iff_exists']
  refine ⟨settled.finished, running, ?_, ?_, ?_⟩
  · intro target next
    obtain ⟨item, member, own, active⟩ := step.next target next
    exact ⟨item, member, own, by simpa [StageRun.active] using active⟩
  · intro stopped
    refine ⟨?_, step.executed⟩
    cases next : decision.nextStage with
    | none => rfl
    | some target => exact absurd (running.mpr ⟨target, next⟩) stopped
  · have ids : after.stages.map StageRun.id = (after.stages.map StageRun.key).map Prod.fst := by
      simp [StageRun.key, Function.comp_def]
    rw [ids]
    exact settled.named.nodup

/-- However many results a run is built from, the last decision leaves it in a settled state, and what is terminal
    stays as it is. -/
theorem flow_post_state (fresh : run.stages = []) (succeed : AllSucceed run calls) :
    (∀ earlier call, calls = earlier ++ [call] →
      ∃ decision, call.apply (appliedAll run earlier) = .ok decision (appliedAll run calls) ∧
        PostState (appliedAll run earlier) (appliedAll run calls) call.result decision) ∧
    ∀ earlier later, calls = earlier ++ later →
      (∀ (place : Nat) (item : StageRun), (appliedAll run earlier).stages[place]? = some item → stageTerminal item.status = true →
        (appliedAll run calls).stages[place]? = some item) ∧
      (runTerminal (appliedAll run earlier).status = true →
        (appliedAll run calls).status = (appliedAll run earlier).status) := by
  have start : Settled run := ⟨by simp [fresh], by simp [Named, fresh]⟩
  constructor
  · rintro earlier call rfl
    obtain ⟨before, succeeds, -⟩ := Trace.along_append.mp succeed
    obtain ⟨decision, applied, step⟩ := succeeds_step succeeds
    have last : appliedAll run (earlier ++ [call]) = call.after (appliedAll run earlier) := List.foldl_append
    rw [last]
    exact ⟨decision, applied, step.postState (appliedAll_settled start before)⟩
  · rintro earlier later rfl
    obtain ⟨-, rest⟩ := Trace.along_append.mp succeed
    have parts : appliedAll run (earlier ++ later) = appliedAll (appliedAll run earlier) later := List.foldl_append
    rw [parts]
    constructor
    · intro place item there terminal
      exact appliedAll_keeps terminal there rest
    · intro terminal
      rw [allSucceed_terminal terminal rest]
      rfl

def callWith (stage : Stage) (status : StageStatus) (nextAction : NextAction)
    (statusIsResult : resultStatus status = true) : FlowCall :=
  { result := { stage, runId := unstartedRun.id, changeId := unstartedRun.changeId, status, nextAction, statusIsResult
                gateResults := [{ gate := .specification, status := .passed }, { gate := .ui, status := .passed }]
                producedAt := 0 }
    now := 0 }

def failedCalls : List FlowCall :=
  [callWith .specification .failed (.rework ⟨1, 1, "sent back", firstRound, firstRound⟩) failed_isResult,
    callWith .specification .succeeded (.executeStage .planning none) succeeded_isResult,
    callWith .planning .failed (.stop .failed "") failed_isResult]

/-- The three stage runs have ids of their own, and the one that succeeded stays through the stop. -/
theorem failed_calls_settled : ((appliedAll unstartedRun failedCalls).stages.map StageRun.id).Nodup ∧
    ((appliedAll unstartedRun failedCalls).stages[1]?.map StageRun.status) = some .succeeded := by
  have succeed : AllSucceed unstartedRun failedCalls := ⟨⟨_, _, rfl⟩, ⟨_, _, rfl⟩, ⟨_, _, rfl⟩, trivial⟩
  obtain ⟨last, kept⟩ := flow_post_state rfl succeed
  obtain ⟨decision, -, post⟩ := last (failedCalls.take 2) _ rfl
  obtain ⟨item, there, status⟩ : ∃ item, (appliedAll unstartedRun (failedCalls.take 2)).stages[1]? = some item ∧
    item.status = .succeeded := ⟨_, rfl, rfl⟩
  refine ⟨post.distinct, ?_⟩
  rw [(kept (failedCalls.take 2) (failedCalls.drop 2) rfl).1 1 item there (by rw [status]; rfl), Option.map_some, status]

end Calls

end DarkFactory
