import DarkFactory.Conversations.Orders
import DarkFactory.Runner.Withdrawal

namespace DarkFactory

/-- The round of an order is over: its run has ended, or goes on at a later stage than the one of the phase. -/
def RoundOver (runs : Store) (runId : String) (phase : Phase) : Prop :=
  ∃ run, runs.load runId = some run ∧ (runTerminal run.status = true ∨
    ∃ own current, phaseStage phase = some own ∧ nextStage run = some current ∧ stageIndex own < stageIndex current)

/-- The run is not over, and where it has work it has some no later than at the stage of the phase. -/
structure InRound (runs : Store) (runId : String) (phase : Phase) : Prop where
  live : ∃ status, runs.runStatus runId = some status ∧ runTerminal status = false
  within : ∀ own, phaseStage phase = some own → (∃ stage row, runs.Opens runId stage row) →
    ∃ stage row, runs.Opens runId stage row ∧ stageIndex stage ≤ stageIndex own

def Service.startedBy (service : Service) (row : ReworkOrderRow) : Option String :=
  (service.db.discussion.rounds row.id).runId

/-- A run that goes on to the target has an open occurrence no later than the stage, or none at all: the one it
    opens, another that is open beside the executed one, or neither. -/
def Attempted.staysWithin (input : AdvanceInput) (store : Store) (attempt : Attempted) (target own : Stage) : Prop :=
  (stageIndex target ≤ stageIndex own ∧ Unused input store target) ∨
    (∃ item ∈ attempt.run.stages, item.active = true ∧ inFlight attempt.run attempt.stage ≠ some item ∧
      stageIndex item.stage ≤ stageIndex own) ∨
    (¬ Unused input store target ∧ attempt.hasOther = false)

/-- The result does not take the run beyond an order it has in progress, and ends the run only with a stop in the phase
    of the order. -/
structure Attempted.KeepsOrder (input : AdvanceInput) (store : Store) (attempt : Attempted) (changeId : String)
    (order : ReworkOrder) : Prop where
  passes : ∀ target own, attempt.PassesOn input.now target → phaseStage order.phase = some own →
    attempt.staysWithin input store target own
  releases : ¬ Releases attempt.charged attempt.result input.now (store.loadHistory input.runId)
  stops : ∀ outcome reason, attempt.result.nextAction = .stop outcome reason → outcome = .blocked ∨
    (order.changeId = changeId ∧ order.phase = outcomePhase attempt.result)

/-- A round of rework is no later than the stage of the order it starts: at the executed stage, which stays open, or at
    the stage it goes back to. -/
def Attempted.StartsOrder (input : AdvanceInput) (store : Store) (attempt : Attempted) (order : ReworkOrder) : Prop :=
  ∀ action own, Reworks attempt.charged attempt.result action → phaseStage order.phase = some own →
    stageIndex attempt.stage ≤ stageIndex own ∨
      (stageIndex (reworkTarget attempt.stage) ≤ stageIndex own ∧ Unused input store (reworkTarget attempt.stage))

/-- No run is withdrawn while an order it started is in progress, and no accepted result takes a run beyond an order
    that it has in progress or that waits to be started by the result. -/
def KeepsRounds (service : Service) : ServiceStep → Prop
  | .withdraw input => ∀ row ∈ service.orders, row.status = .inProgress → service.startedBy row ≠ some input.runId
  | .finish index => ∀ flight attempt, service.flights[index]? = some flight →
      let input := flight.advanceInput service.db
      let changeId := flight.session.change.id
      attempted input service.db.runs = some attempt → FlowAccepts attempt.result →
      (∀ row ∈ service.orders, row.status = .inProgress → service.startedBy row = some flight.session.runId →
        attempt.KeepsOrder input service.db.runs changeId row.order) ∧
      ∀ row ∈ service.orders, row.status = .pending → row.order.changeId = changeId →
        row.order.phase = outcomePhase attempt.result → attempt.StartsOrder input service.db.runs row.order
  | _ => True

theorem KeepsRounds.load (service : Service) (session : SessionInput) : KeepsRounds service (.load session) := trivial

def ServiceStep.faithful : ServiceStep → Prop
  | .load session => session.Faithful
  | _ => True

section Over

variable {runs after : Store} {runId : String} {phase : Phase}

theorem InRound.not_over (inRound : InRound runs runId phase) : ¬ RoundOver runs runId phase := by
  rintro ⟨run, loaded, ended | ⟨own, current, stage, next, later⟩⟩
  · obtain ⟨status, held, live⟩ := inRound.live
    rw [load_runStatus loaded, Option.some.injEq] at held
    rw [held, live] at ended
    cases ended
  · obtain ⟨⟨row, opens⟩, least⟩ := (nextStage_opens loaded).mp next
    obtain ⟨earlier, other, opened, bound⟩ := inRound.within own stage ⟨current, row, opens⟩
    have order := least earlier other opened
    omega

theorem InRound.congr (inRound : InRound runs runId phase) (status : after.runStatus runId = runs.runStatus runId)
    (rows : ∀ row : StageRow, row.executionId = runId → (row ∈ after.stages ↔ row ∈ runs.stages)) :
    InRound after runId phase := by
  constructor
  · rw [status]
    exact inRound.live
  · rintro own stage ⟨other, row, opened⟩
    obtain ⟨earlier, held, opened', bound⟩ := inRound.within own stage ⟨other, row, (opens_congr rows).mp opened⟩
    exact ⟨earlier, held, (opens_congr rows).mpr opened', bound⟩

theorem InRound.untouched (inRound : InRound runs runId phase) (frame : Untouched runs after) :
    InRound after runId phase := by
  refine inRound.congr (runStatus_congr frame.executions) fun row _ => ?_
  rw [frame.stages]

theorem WellFormed.formed (wf : WellFormed runs) : Formed runs := by
  have free (id : String) (present : runs.execution id ≠ none) : ColonFree id := by
    obtain ⟨execution, found⟩ := Option.ne_none_iff_exists'.mp present
    obtain ⟨member, same⟩ := Table.find_some found
    rw [← same]
    exact wf.executionIds execution member
  constructor
  · exact ⟨wf.stagesUnique, wf.stageKeys, fun row member => free _ (wf.stageOwners row member)⟩
  · intro id present
    apply free
    intro none_
    rw [Store.runStatus, none_] at present
    exact present rfl

end Over

section Runs

variable {before after : Store} {id : String} {phase : Phase}

section Effect

variable {input : AdvanceInput} {attempt : Attempted} {row : StageRow} {reached : Verdict}

theorem AdvanceEffect.live_after (effect : AdvanceEffect input before after attempt row reached)
    (live : runTerminal reached.runStatus = false) :
    ∃ status, after.runStatus input.runId = some status ∧ runTerminal status = false := by
  obtain ⟨execution, found, -⟩ := load_some effect.loaded
  obtain ⟨revision, budget, moved⟩ := effect.execution_self
  refine ⟨reached.runStatus, ?_, live⟩
  rw [Store.runStatus, moved, found]
  rfl

/-- The executed occurrence is the earliest, so a run that keeps it open stays in every round it was in. -/
theorem AdvanceEffect.inRound_parked (effect : AdvanceEffect input before after attempt row reached)
    (wf : WellFormed before) (inRound : InRound before input.runId phase)
    (live : runTerminal reached.runStatus = false) (parked : stageTerminal reached.stageStatus = false) :
    InRound after input.runId phase := by
  refine ⟨effect.live_after live, ?_⟩
  intro own staged _
  obtain ⟨stage, held, opened, bound⟩ := inRound.within own staged ⟨_, _, effect.opens⟩
  obtain ⟨settled, opens⟩ := effect.settled_open wf parked
  exact ⟨attempt.stage, settled, opens, (effect.least opened).trans bound⟩

/-- What is open after a decision that closes the executed occurrence: another one, or the one it started. -/
theorem AdvanceEffect.opens_other (effect : AdvanceEffect input before after attempt row reached)
    (wf : WellFormed before) (closed : stageTerminal reached.stageStatus = true) {stage : Stage} {item : StageRow}
    (opened : after.Opens input.runId stage item) :
    attempt.hasOther = true ∨ (reached.nextStage = some stage ∧ Unused input before stage) := by
  obtain ⟨settled, settles, rows⟩ := effect.rows wf
  obtain ⟨member, owner, own, live⟩ := opened
  rcases (rows item).mp member with ⟨old, apart⟩ | rfl | ⟨started, starts, absent, rfl⟩
  · left
    obtain ⟨listed, active⟩ := (opens_stageRun effect.loaded).mpr ⟨item, ⟨old, owner, own, live⟩, rfl⟩
    refine List.any_eq_true.mpr ⟨item.stageRun, listed, ?_⟩
    rw [(activeAt_iff.mp active).2, Bool.true_and, decide_eq_true_eq, effect.flight]
    intro same
    exact apart (congrArg StageRun.id (Option.some.inj same)).symm
  · rw [StageRow.open, settles.status_eq, closed] at live
    cases live
  · right
    obtain rfl : started = stage := own
    refine ⟨starts_next starts, ?_⟩
    intro old listed mine here revision
    apply absent old listed
    rw [wf.stageKeys old listed, mine, here, revision]
    rfl

theorem AdvanceEffect.inRound_passed (effect : AdvanceEffect input before after attempt row reached)
    (wf : WellFormed before) {target : Stage} (next : reached.nextStage = some target)
    (live : runTerminal reached.runStatus = false) (closed : stageTerminal reached.stageStatus = true)
    (within : ∀ own, phaseStage phase = some own → attempt.staysWithin input before target own) :
    InRound after input.runId phase := by
  refine ⟨effect.live_after live, ?_⟩
  rintro own staged ⟨stage, item, opened⟩
  rcases within own staged with ⟨bound, unused⟩ | ⟨other, listed, active, apart, bound⟩ | ⟨used, sole⟩
  · obtain ⟨started, opens⟩ := effect.next_open wf next unused
    exact ⟨target, started, opens, bound⟩
  · obtain ⟨held, opens, rfl⟩ := (opens_stageRun effect.loaded).mp ⟨listed, activeAt_iff.mpr ⟨rfl, active⟩⟩
    refine ⟨_, held, effect.stays_open wf opens fun same => apart ?_, bound⟩
    rw [wf.stagesUnique.eq opens.member effect.member same]
    exact effect.flight
  · rcases effect.opens_other wf closed opened with other | ⟨started, unused⟩
    · rw [sole] at other
      cases other
    · rw [next, Option.some.injEq] at started
      exact absurd (started ▸ unused) used

/-- An order in progress keeps its round, unless the recorded outcome escalates it. -/
theorem AdvanceEffect.inRound_kept (effect : AdvanceEffect input before after attempt row reached)
    (wf : WellFormed before) {changeId : String} {order : ReworkOrder}
    (inRound : InRound before input.runId order.phase) (keeps : attempt.KeepsOrder input before changeId order)
    (spared : ∀ outcome reason, reached.action = .stop outcome reason →
      ¬ (order.changeId = changeId ∧ order.phase = outcomePhase attempt.result)) :
    InRound after input.runId order.phase := by
  obtain ⟨passes, releases, stops⟩ := keeps
  have stage_eq := effect.answers.stage_eq
  cases reaches : effect.reaches with
  | blocked | parked | deferred | reworked => exact effect.inRound_parked wf inRound rfl rfl
  | left target leaves =>
    exact effect.inRound_passed wf rfl rfl rfl fun own staged => passes target own (Or.inl leaves) staged
  | nextPhase phase reason asked =>
    exact effect.inRound_passed wf rfl rfl rfl fun own staged =>
      passes _ own (Or.inr ⟨phase, reason, asked, stage_eq⟩) staged
  | released environment reason asked granted => exact absurd granted releases
  | stopped outcome reason asked =>
    rcases stops outcome reason asked with rfl | own
    · exact effect.inRound_parked wf inRound rfl rfl
    · exact absurd own (spared outcome reason asked)

theorem AdvanceEffect.inRound_started (effect : AdvanceEffect input before after attempt row reached)
    (wf : WellFormed before) {order : ReworkOrder} {action : ReworkAction} (rework : reached.action = .rework action)
    (starts : attempt.StartsOrder input before order) : InRound after input.runId order.phase := by
  obtain ⟨granted, failed, running, next⟩ := effect.reaches.rework effect.accepted.paired rework
  rw [effect.answers.stage_eq] at next
  refine ⟨effect.live_after (by rw [running]; rfl), ?_⟩
  intro own staged _
  rcases starts action own granted staged with bound | ⟨bound, unused⟩
  · obtain ⟨settled, opens⟩ := effect.settled_open wf (by rw [failed]; rfl)
    exact ⟨_, settled, opens, bound⟩
  · obtain ⟨started, opens⟩ := effect.next_open wf next unused
    exact ⟨_, started, opens, bound⟩

theorem AdvanceEffect.inRound_other (effect : AdvanceEffect input before after attempt row reached)
    (wf : WellFormed before) (inRound : InRound before id phase) (apart : id ≠ input.runId) : InRound after id phase := by
  refine inRound.congr ?_ fun item owner => effect.rows_other wf owner apart
  rw [Store.runStatus, effect.execution_other apart]
  rfl

end Effect

theorem InRound.create (inRound : InRound before id phase) (wf : WellFormed before) (input : CreateInput) :
    InRound (afterDrive before (.create input)) id phase := by
  rcases afterDrive_cases wf (.create input) trivial with frame | ⟨_, created, effect⟩ | ⟨_, _, _, _, _, created, -⟩
  · exact inRound.untouched frame
  · have apart : id ≠ input.runId := by
      rintro rfl
      obtain ⟨status, held, -⟩ := inRound.live
      cases created
      rw [Store.runStatus, effect.fresh] at held
      cases held
    cases created
    refine inRound.congr ?_ fun item owner => effect.rows_other owner apart
    rw [Store.runStatus, effect.execution_other id apart]
    rfl
  · cases created

theorem InRound.withdraw (inRound : InRound before id phase) (wf : WellFormed before) {input : WithdrawInput}
    (apart : id ≠ input.runId) : InRound (commit (withdrawRun input) before) id phase := by
  rcases commit_cases (withdrawRun input) before with same | ⟨withdrawal, done⟩
  · rw [same]
    exact inRound
  rcases withdrawRun_leased done with ⟨-, frame⟩ | leased
  · exact inRound.untouched frame
  rcases withdrawLeased_step wf.formed leased with ⟨-, frame⟩ | ⟨-, writes, -⟩
  · exact inRound.untouched frame
  · exact inRound.congr (writes.others id apart) fun item owner =>
      writes.rows.other writes.free wf.formed.keyed apart owner

theorem withdraw_wellFormed (wf : WellFormed before) (input : WithdrawInput) :
    WellFormed (commit (withdrawRun input) before) := by
  rcases commit_cases (withdrawRun input) before with same | ⟨withdrawal, done⟩
  · rw [same]
    exact wf
  · exact (withdrawRun_ok done).1.wellFormed wf

end Runs

theorem load_session {session : SessionInput} {db : Database} {flight : Flight} (loaded : session.load db = .ok flight) :
    flight.session = session := by
  unfold SessionInput.load at loaded
  split at loaded
  · cases loaded
  · split at loaded
    · cases loaded
    · cases loaded
      rfl

/-- Every order in progress was started by a run that is in its round, and one that was not started by none. -/
structure InRounds (service : Service) : Prop where
  wellFormed : WellFormed service.db.runs
  unique : Table.Unique ReworkOrderRow.id service.orders
  faithful : ∀ flight ∈ service.flights, flight.session.Faithful
  unstarted : ∀ id, (∀ row ∈ service.orders, row.id = id → row.status = .pending) →
    (service.db.discussion.rounds id).runId = none
  running : ∀ row ∈ service.orders, row.status = .inProgress →
    ∃ runId, service.startedBy row = some runId ∧ InRound service.db.runs runId row.order.phase

section Steps

variable {service : Service} {runs : Store}

theorem InRounds.withRuns (held : InRounds service) (wellFormed : WellFormed runs)
    (kept : ∀ row ∈ service.orders, row.status = .inProgress → ∀ runId, service.startedBy row = some runId →
      InRound service.db.runs runId row.order.phase → InRound runs runId row.order.phase) :
    InRounds { service with db := { service.db with runs } } := by
  refine ⟨wellFormed, held.unique, held.faithful, held.unstarted, ?_⟩
  intro row member active
  obtain ⟨runId, started, inRound⟩ := held.running row member active
  exact ⟨runId, started, kept row member active runId started inRound⟩

theorem InRounds.create (held : InRounds service) (input : CreateInput) :
    InRounds (afterService service (.create input)) :=
  held.withRuns (afterDrive_wellFormed held.wellFormed (.create input) trivial) fun _ _ _ _ _ inRound =>
    inRound.create held.wellFormed input

theorem InRounds.withdraw (held : InRounds service) {input : WithdrawInput}
    (keeps : KeepsRounds service (.withdraw input)) : InRounds (afterService service (.withdraw input)) := by
  rcases commit_cases (withdrawRun input) service.db.runs with same | ⟨withdrawal, done⟩
  · simp only [afterService, same]
    exact held
  · apply held.withRuns (withdraw_wellFormed held.wellFormed input)
    intro row member active runId started inRound
    apply inRound.withdraw held.wellFormed
    rintro rfl
    exact keeps row member active started

theorem InRounds.operate (held : InRounds service) (call : Surroundings × OperatorCall) :
    InRounds (afterService service (.operate call)) := by
  rcases afterOperator_orders service.db.discussion.view call with same | ⟨row, new, appended⟩
  · have orders : (afterService service (.operate call)).orders = service.orders := same
    refine ⟨held.wellFormed, ?_, held.faithful, ?_, ?_⟩
    · rw [orders]
      exact held.unique
    · rw [orders]
      exact held.unstarted
    · rw [orders]
      exact held.running
  · have orders : (afterService service (.operate call)).orders = service.orders ++ [row] := appended
    have absent : ∀ other ∈ service.orders, other.id ≠ row.id := Table.find_none.mp new.fresh
    have member (other : ReworkOrderRow) (listed : other ∈ service.orders ++ [row]) :
        other ∈ service.orders ∨ other = row := by simpa using listed
    refine ⟨held.wellFormed, ?_, held.faithful, ?_, ?_⟩
    · rw [orders]
      exact held.unique.append absent
    · rw [orders]
      intro id pending
      exact held.unstarted id fun other listed => pending other (List.mem_append_left _ listed)
    · rw [orders]
      intro other listed active
      rcases member other listed with old | rfl
      · exact held.running other old active
      · rw [new.pending] at active
        cases active

theorem InRounds.answer (held : InRounds service) (request : AnswerRequest) :
    InRounds (afterService service (.answer request)) := by
  obtain ⟨store, rounds⟩ := service.db.discussion.answered_orders request
  have orders : (afterService service (.answer request)).orders = service.orders := congrArg ChangeStore.reworkOrders store
  refine ⟨held.wellFormed, ?_, held.faithful, ?_, ?_⟩
  · rw [orders]
    exact held.unique
  · intro id pending
    rw [orders] at pending
    rw [show (afterService service (.answer request)).db.discussion.rounds = service.db.discussion.rounds from rounds]
    exact held.unstarted id pending
  · intro row member active
    rw [orders] at member
    obtain ⟨runId, started, inRound⟩ := held.running row member active
    refine ⟨runId, ?_, inRound⟩
    rw [Service.startedBy, show (afterService service (.answer request)).db.discussion.rounds =
      service.db.discussion.rounds from rounds]
    exact started

theorem InRounds.load (held : InRounds service) {session : SessionInput} (faithful : session.Faithful) :
    InRounds (afterService service (.load session)) := by
  simp only [afterService]
  cases loaded : session.load service.db with
  | error failure => exact held
  | ok flight =>
    refine ⟨held.wellFormed, held.unique, ?_, held.unstarted, held.running⟩
    intro other member
    rcases List.mem_append.mp member with old | new
    · exact held.faithful other old
    · rw [List.mem_singleton.mp new, load_session loaded]
      exact faithful

theorem orderStep_started {status target : ReworkOrderStatus} (step : OrderStep status target) : target ≠ .pending := by
  unfold OrderStep at step
  rintro rfl
  revert step
  cases status <;> simp [reworkOrderStatusTransitions]

theorem orderStep_pending {status : ReworkOrderStatus} (step : OrderStep status .inProgress) : status = .pending := by
  unfold OrderStep at step
  revert step
  cases status <;> simp [reworkOrderStatusTransitions]

theorem orderMove_starts {d : Discussion} {advance : RunAdvance} {report : AttemptReport} {changeId : String}
    (starts : (orderMove advance report changeId d).target = .inProgress) (round : OrderRound) :
    ((orderMove advance report changeId d).write round).runId = some advance.result.runId := by
  revert starts
  unfold orderMove
  dsimp only
  split <;> intro starts
  · rfl
  · cases starts
  · cases starts
  · cases starts
  · cases starts

theorem InRounds.record (held : InRounds service) {advance : RunAdvance} {report : AttemptReport} {changeId : String}
    {discussion : Discussion} {flights : List Flight} (wellFormed : WellFormed runs)
    (recorded : recordStageOutcome advance report changeId service.db.discussion = .ok discussion)
    (subset : flights ⊆ service.flights)
    (starts : ∀ row ∈ service.orders, row.order ∈ (orderMove advance report changeId service.db.discussion).chosen →
      (orderMove advance report changeId service.db.discussion).target = .inProgress →
        InRound runs advance.result.runId row.order.phase)
    (kept : ∀ row ∈ service.orders, row.order ∉ (orderMove advance report changeId service.db.discussion).chosen →
      row.status = .inProgress → ∀ runId, service.startedBy row = some runId →
        InRound service.db.runs runId row.order.phase → InRound runs runId row.order.phase) :
    InRounds { db := { runs, discussion }, flights } := by
  obtain ⟨store, rounds⟩ := recordStageOutcome_orders held.unique recorded
  have moves := recordStageOutcome_moves held.unique recorded
  have moving {order : ReworkOrder} (member : order ∈ (orderMove advance report changeId service.db.discussion).chosen) :=
    mem_orderMove member
  have writes := @orderMove_starts service.db.discussion advance report changeId
  generalize orderMove advance report changeId service.db.discussion = move at *
  have listed (order : ReworkOrder) (member : order ∈ move.chosen) :
      order ∈ service.db.discussion.store.reworkOrders.map ReworkOrderRow.order :=
    (mem_listReworkOrders.mp (moving member).1).1
  have orders : discussion.store.reworkOrders = service.orders.map (moveRow move.chosen move.target) := by
    rw [store]
    rfl
  refine ⟨wellFormed, moves.unique held.unique, fun flight member => held.faithful flight (subset member), ?_, ?_⟩
  · intro id pending
    have unmoved (row : ReworkOrderRow) (member : row ∈ service.orders) (own : row.id = id) :
        row.order ∉ move.chosen ∧ row.status = .pending := by
      have here := pending (moveRow move.chosen move.target row)
        (by rw [Service.orders, orders]; exact List.mem_map_of_mem member) (moveRow_id.trans own)
      rw [moveRow_status] at here
      split at here
      · rename_i chosen
        exact absurd here (orderStep_started (moving chosen).2)
      · rename_i kept
        exact ⟨kept, here⟩
    have absent : move.chosen.any (fun order => order.id = id) = false := by
      rw [List.any_eq_false]
      intro order chosen same
      obtain ⟨row, member, rfl⟩ := List.mem_map.mp (listed order chosen)
      exact (unmoved row member (of_decide_eq_true same)).1 chosen
    have same : discussion.rounds id = service.db.discussion.rounds id := by
      rw [rounds]
      simp only [Discussion.moved, absent, Bool.false_eq_true, if_false]
    show (discussion.rounds id).runId = none
    rw [same]
    exact held.unstarted id fun row member own => (unmoved row member own).2
  · intro moved member active
    rw [Service.orders, orders] at member
    obtain ⟨row, old, rfl⟩ := List.mem_map.mp member
    rw [moveRow_status] at active
    rw [moveRow_phase]
    show ∃ runId, (discussion.rounds (moveRow move.chosen move.target row).id).runId = some runId ∧ _
    rw [moveRow_id, rounds, moved_rounds held.unique listed old]
    by_cases chosen : row.order ∈ move.chosen
    · rw [if_pos chosen] at active ⊢
      exact ⟨_, writes active _, starts row old chosen active⟩
    · rw [if_neg chosen] at active ⊢
      obtain ⟨runId, started, inRound⟩ := held.running row old active
      exact ⟨runId, started, kept row old chosen active runId started inRound⟩

theorem orderMove_idle {d : Discussion} {advance : RunAdvance} {report : AttemptReport} {changeId : String}
    (undecided : advance.decision = none) : orderMove advance report changeId d = {} := by
  simp [orderMove, undecided]

theorem orderMove_rework {d : Discussion} {advance : RunAdvance} {report : AttemptReport} {changeId : String}
    {decision : FlowDecision} (decided : advance.decision = some decision)
    (starts : (orderMove advance report changeId d).target = .inProgress) :
    ∃ action, decision.action = .rework action := by
  revert starts
  unfold orderMove
  dsimp only
  split <;> intro starts
  · rename_i action asked
    split at asked
    · cases asked
    · rw [decided, Option.map_some, Option.some.injEq] at asked
      exact ⟨action, asked⟩
  · cases starts
  · cases starts
  · cases starts
  · cases starts

theorem orderMove_stop {d : Discussion} {advance : RunAdvance} {report : AttemptReport} {changeId : String}
    {decision : FlowDecision} {outcome : StopOutcome} {reason : String} (fresh : advance.outcome ≠ .replayed)
    (decided : advance.decision = some decision) (stop : decision.action = .stop outcome reason) :
    (orderMove advance report changeId d).chosen = d.openOrders changeId (outcomePhase advance.result) := by
  unfold orderMove
  rw [if_neg fresh, decided, Option.map_some, stop]

theorem InRounds.finish (held : InRounds service) {index : Nat} (keeps : KeepsRounds service (.finish index)) :
    InRounds (afterService service (.finish index)) := by
  simp only [afterService]
  cases there : service.flights[index]? with
  | none => exact held
  | some flight =>
    have faithful := held.faithful flight (List.mem_of_getElem? there)
    have subset : service.flights.eraseIdx index ⊆ service.flights := List.eraseIdx_subset
    have answers : Faithful (flight.advanceInput service.db) := fun context result done =>
      faithful flight.inputs context result done
    dsimp only
    rcases flight.commit_cases service.db with same | ⟨advance, advanced, recorded⟩
    · rw [same]
      exact ⟨held.wellFormed, held.unique, fun flight member => held.faithful flight (subset member), held.unstarted,
        held.running⟩
    · rcases advanceRun_reports held.wellFormed answers advanced with ⟨undecided, frame⟩ |
        ⟨attempt, row, reached, effect, fresh, answered, decided⟩
      · have idle := @orderMove_idle service.db.discussion advance (flight.session.report advance.result)
          flight.session.change.id undecided
        apply held.record (frame.wellFormed held.wellFormed) recorded subset
        · intro row _ chosen
          rw [idle] at chosen
          cases chosen
        · intro row _ _ _ runId _ inRound
          exact inRound.untouched frame
      · obtain ⟨running, pending⟩ := keeps flight attempt there effect.plan effect.accepted
        have own : advance.result.runId = flight.session.runId := by
          rw [answered]
          exact effect.answers.runId_eq
        apply held.record (effect.wellFormed held.wellFormed) recorded subset
        · intro row member chosen starts
          obtain ⟨action, rework⟩ := orderMove_rework decided starts
          obtain ⟨listed, step⟩ := mem_orderMove chosen
          obtain ⟨-, change, phase⟩ := mem_listReworkOrders.mp listed
          rw [answered] at phase
          rw [own]
          exact effect.inRound_started held.wellFormed rework
            (pending row member (orderStep_pending (starts ▸ step)) change phase)
        · intro row member chosen active runId started inRound
          by_cases here : runId = flight.session.runId
          · subst here
            refine effect.inRound_kept held.wellFormed inRound (running row member active started) ?_
            rintro outcome reason stop ⟨change, phase⟩
            rw [← answered] at phase
            apply chosen
            rw [orderMove_stop fresh decided stop, Discussion.openOrders, List.mem_filter]
            exact ⟨mem_listReworkOrders.mpr ⟨List.mem_map_of_mem member, change, phase⟩,
              by simp [show row.order.status = .inProgress from active]⟩
          · exact effect.inRound_other held.wellFormed inRound here

end Steps

theorem InRounds.after {service : Service} (held : InRounds service) (step : ServiceStep) (faithful : step.faithful)
    (keeps : KeepsRounds service step) : InRounds (afterService service step) := by
  cases step with
  | create input => exact held.create input
  | withdraw input => exact held.withdraw keeps
  | operate call => exact held.operate call
  | answer request => exact held.answer request
  | load session => exact held.load faithful
  | finish index => exact held.finish keeps

theorem freshService_inRounds {store : ChangeStore} (unordered : store.reworkOrders = []) :
    InRounds (freshService store) := by
  have none_ : (freshService store).orders = [] := unordered
  refine ⟨WellFormed.empty, ?_, ?_, fun _ _ => rfl, ?_⟩
  · rw [none_]
    exact Table.Unique.nil
  · intro flight member
    cases member
  · intro row member
    rw [none_] at member
    cases member

/-- Over any steps that keep the rounds, an order whose round is over is done or escalated, and none of those refuses a
    new send-back of its phase. -/
theorem started_order_ends_with_round {store : ChangeStore} (unordered : store.reworkOrders = [])
    {steps : List ServiceStep} (along : Trace.Along afterService
      (fun service step => step.faithful ∧ KeepsRounds service step) (freshService store) steps) :
    let reached := served (freshService store) steps
    (∀ row ∈ reached.orders, ∀ runId, reached.startedBy row = some runId →
      RoundOver reached.db.runs runId row.order.phase → row.status = .done ∨ row.status = .escalated) ∧
    ∀ changeId phase order, activeOrder reached.db.discussion.view changeId phase = some order →
      ∀ runId, (reached.db.discussion.rounds order.id).runId = some runId → ¬ RoundOver reached.db.runs runId phase := by
  intro reached
  have held : InRounds reached := Trace.invariant (fun service step held met => held.after step met.1 met.2)
    (freshService_inRounds unordered) along
  have ended (row : ReworkOrderRow) (member : row ∈ reached.orders) (runId : String)
      (started : reached.startedBy row = some runId) (finished : RoundOver reached.db.runs runId row.order.phase) :
      row.status = .done ∨ row.status = .escalated := by
    cases status : row.status with
    | done => exact Or.inl rfl
    | escalated => exact Or.inr rfl
    | pending =>
      have unstarted := held.unstarted row.id fun other listed same => by
        rw [held.unique.eq listed member same]
        exact status
      rw [Service.startedBy, unstarted] at started
      cases started
    | inProgress =>
      obtain ⟨other, own, inRound⟩ := held.running row member status
      rw [started, Option.some.injEq] at own
      rw [own] at finished
      exact absurd finished inRound.not_over
  refine ⟨ended, ?_⟩
  intro changeId phase order active runId started finished
  obtain ⟨listed, open_⟩ : order ∈ reached.db.discussion.view.listReworkOrders changeId phase ∧
      (order.status = .pending ∨ order.status = .inProgress) := by
    rw [activeOrder, Option.or_eq_some_iff] at active
    rcases active with found | ⟨-, found⟩
    · exact ⟨List.mem_of_find?_eq_some found, Or.inl (by simpa using List.find?_some found)⟩
    · exact ⟨List.mem_of_find?_eq_some found, Or.inr (by simpa using List.find?_some found)⟩
  obtain ⟨held_, -, rfl⟩ := mem_listReworkOrders.mp listed
  obtain ⟨row, member, rfl⟩ := List.mem_map.mp held_
  have closed := ended row member runId started finished
  rw [ReworkOrderRow.status] at closed
  rcases open_ with pending | running
  · rw [pending] at closed
    rcases closed with done | escalated
    · cases done
    · cases escalated
  · rw [running] at closed
    rcases closed with done | escalated
    · cases done
    · cases escalated

def quickSession (at_ : Timestamp) : SessionInput :=
  let gate : WaitFacts :=
    { gate := some fun _ _ _ => some { headSha := some "c1", merged := false, pipelineStatus := none } }
  let parked : Answer :=
    { status := .waiting, nextAction := .requestApproval .specification none none
      gateResults := [Gate.passed .specification] }
  { change := { id := "change-1", riskClass := .r1 }, changeJson := "", runId := quickRun.runId, ownerId := "worker-1"
    respond := fun _ context => .ok (parked.result context at_)
    revisionOf := some fun _ _ => "c" ++ toString at_, facts := gate, leasedFacts := gate
    artifacts := some fun _ => some "c1", now := at_, leasedAt := at_, createdAt := at_ }

def sentBackBeforeRound : List ServiceStep :=
  [.create quickRun, .load (quickSession 1)] ++ [.finish 0,
    .operate ({ decisionHex := "1", orderHex := "1" }, .issueReworkOrder
      { changeId := "change-1", phase := .requirements, instruction := some "split it", issuedBy := "operator" }),
    .load (quickSession 2)]

def settlingSession (at_ : Timestamp) : SessionInput :=
  let settled : Answer := { status := .succeeded, nextAction := .phaseRound .architecture none }
  { quickSession at_ with respond := fun _ context => .ok (settled.result context at_) }

/-- The next advance starts a rework round for the order, and the one after it goes on to another phase. -/
def settledAfterRound : List ServiceStep := sentBackBeforeRound ++ [.finish 0, .load (settlingSession 3)]

def requirementsRound : Service :=
  served (freshService { changes := [{ id := "change-1" }] }) (settledAfterRound ++ [.finish 0])

theorem quickSession_faithful (at_ : Timestamp) : (quickSession at_).Faithful := by
  intro inputs context result answered
  cases answered
  exact ⟨rfl, rfl, rfl, rfl⟩

theorem settlingSession_faithful (at_ : Timestamp) : (settlingSession at_).Faithful := by
  intro inputs context result answered
  cases answered
  exact ⟨rfl, rfl, rfl, rfl⟩

/-- The run that started the order stays in its round. -/
theorem requirements_round_running :
    requirementsRound.orders.map (fun row => (row.status, requirementsRound.startedBy row)) =
        [(.inProgress, some quickRun.runId)] ∧
      ∀ row ∈ requirementsRound.orders, ¬ RoundOver requirementsRound.db.runs quickRun.runId row.order.phase := by
  let fresh := freshService { changes := [{ id := "change-1" }] }
  let parking := served fresh [.create quickRun, .load (quickSession 1)]
  let sentBack := served fresh sentBackBeforeRound
  let settling := served fresh settledAfterRound
  obtain ⟨orders, started, settled⟩ :
      (requirementsRound.orders.map (fun row => (row.status, requirementsRound.startedBy row)) =
        [(.inProgress, some quickRun.runId)] ∧ parking.orders = []) ∧
      ((∀ flight ∈ sentBack.flights,
        (attempted (flight.advanceInput sentBack.db) sentBack.db.runs).map Attempted.stage = some .specification) ∧
        ∀ row ∈ sentBack.orders, row.status = .pending ∧ row.order.phase = .requirements) ∧
      (∀ flight ∈ settling.flights,
        (attempted (flight.advanceInput settling.db) settling.db.runs).map
            (fun attempt => (attempt.stage, attempt.result.nextAction)) =
          some (.specification, .phaseRound .architecture none) ∧
        Unused (flight.advanceInput settling.db) settling.db.runs .specification) ∧
      ∀ row ∈ settling.orders, row.status = .inProgress ∧ row.order.phase = .requirements := by
    decide +kernel
  have parked : KeepsRounds parking (.finish 0) := by
    intro flight attempt _ input changeId _ _
    rw [orders.2]
    exact ⟨nofun, nofun⟩
  have rework : KeepsRounds sentBack (.finish 0) := by
    obtain ⟨flights, sent⟩ := started
    intro flight attempt there input changeId planned _
    refine ⟨?_, ?_⟩
    · intro row member running
      rw [(sent row member).1] at running
      cases running
    · intro row member _ _ _ action own _ staged
      have stage := flights flight (List.mem_of_getElem? there)
      rw [show attempted (flight.advanceInput sentBack.db) sentBack.db.runs = some attempt from planned,
        Option.map_some, Option.some.injEq] at stage
      rw [(sent row member).2] at staged
      cases staged
      left
      rw [stage]
  have phaseRound : KeepsRounds settling (.finish 0) := by
    obtain ⟨flights, running⟩ := settled
    intro flight attempt there input changeId planned _
    refine ⟨?_, ?_⟩
    · intro row member _ _
      obtain ⟨answered, unused⟩ := flights flight (List.mem_of_getElem? there)
      rw [show attempted (flight.advanceInput settling.db) settling.db.runs = some attempt from planned,
        Option.map_some, Option.some.injEq, Prod.mk.injEq] at answered
      obtain ⟨stage, asked⟩ := answered
      constructor
      · intro target own passes staged
        rw [(running row member).2] at staged
        cases staged
        rcases passes with leaves | ⟨_, _, -, rfl⟩
        · cases leaves with
          | executed _ action | merged _ _ action =>
            rw [asked] at action
            cases action
        · left
          rw [stage]
          exact ⟨Nat.le_refl _, unused⟩
      · rintro ⟨⟨_, _, release⟩, -⟩
        rw [asked] at release
        cases release
      · intro outcome reason stop
        rw [asked] at stop
        cases stop
    · intro row member pending
      rw [(running row member).1] at pending
      cases pending
  have along : Trace.Along afterService (fun service step => step.faithful ∧ KeepsRounds service step) fresh
      (settledAfterRound ++ [.finish 0]) := by
    refine Trace.along_append.mpr ⟨Trace.along_append.mpr ⟨Trace.along_append.mpr ⟨?_, ?_⟩, ?_⟩, ⟨trivial, phaseRound⟩,
      trivial⟩
    · exact ⟨⟨trivial, trivial⟩, ⟨quickSession_faithful 1, .load _ _⟩, trivial⟩
    · simp only [Trace.Along, and_true]
      exact ⟨⟨trivial, parked⟩, ⟨trivial, trivial⟩, quickSession_faithful 2, .load _ _⟩
    · exact ⟨⟨trivial, rework⟩, ⟨settlingSession_faithful 3, .load _ _⟩, trivial⟩
  have ended := (started_order_ends_with_round rfl along).1
  rw [← requirementsRound] at ended
  refine ⟨orders.1, ?_⟩
  intro row member finished
  have image : (row.status, requirementsRound.startedBy row) ∈
      [(ReworkOrderStatus.inProgress, some quickRun.runId)] := by
    rw [← orders.1]
    exact List.mem_map_of_mem member
  rw [List.mem_singleton, Prod.mk.injEq] at image
  obtain ⟨running, started⟩ := image
  rcases ended row member quickRun.runId started finished with done | escalated
  · rw [running] at done
    cases done
  · rw [running] at escalated
    cases escalated

/-- The run is withdrawn in the middle of the round: the order stays in progress, and the next send-back of the phase is
    refused. -/
theorem withdrawn_round_keeps_order :
    ¬ ∀ (store : ChangeStore) (steps : List ServiceStep), store.reworkOrders = [] → (∀ step ∈ steps, step.faithful) →
      let reached := served (freshService store) steps
      ∀ row ∈ reached.orders, ∀ runId, reached.startedBy row = some runId →
        RoundOver reached.db.runs runId row.order.phase → row.status = .done ∨ row.status = .escalated := by
  intro ends
  let steps : List ServiceStep := sentBackBeforeRound ++ [.finish 0, .withdraw (operatorWithdrawal 9)]
  let reached := served (freshService { changes := [{ id := "change-1" }] }) steps
  have faithful : ∀ step ∈ steps, step.faithful := by
    simp only [steps, sentBackBeforeRound, List.cons_append, List.nil_append, List.forall_mem_cons, List.not_mem_nil,
      false_implies, implies_true, and_true]
    exact ⟨trivial, quickSession_faithful 1, trivial, trivial, quickSession_faithful 2, trivial, trivial⟩
  have facts : reached.orders.map (fun row => (row.status, reached.startedBy row)) =
      [(.inProgress, some quickRun.runId)] ∧ reached.db.runs.runStatus quickRun.runId = some .canceled := by
    decide +kernel
  obtain ⟨orders, canceled⟩ := facts
  obtain ⟨run, loaded, status⟩ := runStatus_load canceled
  obtain ⟨row, only, same⟩ := List.map_eq_singleton_iff.mp orders
  obtain ⟨running, started⟩ := Prod.mk.inj same
  have member : row ∈ reached.orders := by
    rw [only]
    exact List.mem_singleton_self row
  have finished : RoundOver reached.db.runs quickRun.runId row.order.phase :=
    ⟨run, loaded, Or.inl (by rw [status]; rfl)⟩
  rcases ends _ steps rfl faithful row member quickRun.runId started finished with done | escalated
  · rw [running] at done
    cases done
  · rw [running] at escalated
    cases escalated

end DarkFactory
