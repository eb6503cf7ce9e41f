import DarkFactory.Conversations.Revision
import DarkFactory.Conversations.Sessions
import DarkFactory.Lib.Lifecycle
import DarkFactory.Lib.Outcome

namespace DarkFactory

def ReworkOrderRow.issued (row : ReworkOrderRow) : ReworkOrderRow := { row with order := { row.order with status := .pending } }

def ReworkOrderRow.status (row : ReworkOrderRow) : ReworkOrderStatus := row.order.status

def ReworkOrderRow.scope (row : ReworkOrderRow) : String × Phase := (row.order.changeId, row.order.phase)

def OrderStep (status target : ReworkOrderStatus) : Prop := target ∈ reworkOrderStatusTransitions status

def ReworkOrderStatus.isOpen (status : ReworkOrderStatus) : Prop := status = .pending ∨ status = .inProgress

/-- Orders are addressed by their id, and a phase of a change has at most one that is open. -/
structure OneOrder (rows : List ReworkOrderRow) : Prop where
  unique : Table.Unique ReworkOrderRow.id rows
  single : Lifecycle.Exclusive ReworkOrderRow.issued ReworkOrderRow.status ReworkOrderRow.scope
    ReworkOrderStatus.isOpen rows

abbrev OrdersMove := Lifecycle.Moves ReworkOrderRow.issued ReworkOrderRow.status OrderStep

abbrev OrdersCarried := Lifecycle.Carried ReworkOrderRow.issued ReworkOrderRow.status OrderStep

def moveRow (chosen : List ReworkOrder) (target : ReworkOrderStatus) (row : ReworkOrderRow) : ReworkOrderRow :=
  if row.order ∈ chosen then { row with order := { row.order with status := target } } else row

def Discussion.moved (d : Discussion) (chosen : List ReworkOrder) (target : ReworkOrderStatus)
    (write : OrderRound → OrderRound) : Discussion :=
  { d with
    store := { d.store with reworkOrders := d.store.reworkOrders.map (moveRow chosen target) }
    rounds := fun id => if chosen.any (fun order => order.id = id) then write (d.rounds id) else d.rounds id }

section Moved

variable {d : Discussion} {chosen : List ReworkOrder} {order : ReworkOrder} {target : ReworkOrderStatus}
  {write : OrderRound → OrderRound} {rows : List ReworkOrderRow} {row : ReworkOrderRow}

theorem moveRow_issued : (moveRow chosen target row).issued = row.issued := by
  unfold moveRow
  split <;> rfl

@[simp] theorem moveRow_id : (moveRow chosen target row).id = row.id := by
  unfold moveRow
  split <;> rfl

@[simp] theorem moveRow_phase : (moveRow chosen target row).order.phase = row.order.phase := by
  unfold moveRow
  split <;> rfl

theorem moveRow_status : (moveRow chosen target row).status = if row.order ∈ chosen then target else row.status := by
  unfold moveRow
  split <;> rfl

theorem row_of_id (unique : Table.Unique ReworkOrderRow.id rows) (held : order ∈ rows.map ReworkOrderRow.order)
    (member : row ∈ rows) : row.id = order.id ↔ row.order = order := by
  obtain ⟨own, listed, rfl⟩ := List.mem_map.mp held
  constructor
  · intro same
    rw [unique.eq member listed same]
  · intro same
    exact congrArg ReworkOrder.id same

theorem moved_rounds (unique : Table.Unique ReworkOrderRow.id d.store.reworkOrders)
    (held : ∀ order ∈ chosen, order ∈ d.store.reworkOrders.map ReworkOrderRow.order)
    (member : row ∈ d.store.reworkOrders) : (d.moved chosen target write).rounds row.id =
      if row.order ∈ chosen then write (d.rounds row.id) else d.rounds row.id := by
  have named : chosen.any (fun order => order.id = row.id) = true ↔ row.order ∈ chosen := by
    simp only [List.any_eq_true, decide_eq_true_eq]
    constructor
    · rintro ⟨order, listed, same⟩
      rw [(row_of_id unique (held order listed) member).mp same.symm]
      exact listed
    · intro listed
      exact ⟨row.order, listed, rfl⟩
  simp only [Discussion.moved, named]

theorem moves_moveRow (rows : List ReworkOrderRow) (allowed : ∀ order ∈ chosen, OrderStep order.status target) :
    OrdersMove rows (rows.map (moveRow chosen target)) := by
  refine ⟨moveRow chosen target, rfl, ?_⟩
  intro row _
  refine ⟨moveRow_issued, ?_⟩
  rw [moveRow_status]
  split
  · rename_i member
    exact .single (allowed row.order member)
  · exact .refl

theorem OrdersMove.unique {after : List ReworkOrderRow} (moves : OrdersMove rows after)
    (unique : Table.Unique ReworkOrderRow.id rows) : Table.Unique ReworkOrderRow.id after := by
  have keyed (row other : ReworkOrderRow) (same : row.issued = other.issued) : row.id = other.id := by
    have ids : row.issued.id = other.issued.id := congrArg ReworkOrderRow.id same
    exact ids
  exact Lifecycle.Moves.unique moves keyed unique

theorem isOpen_falls (status next : ReworkOrderStatus) (step : OrderStep status next) (live : next.isOpen) :
    status.isOpen := by
  unfold OrderStep at step
  revert step live
  cases status <;> cases next <;> simp [reworkOrderStatusTransitions, ReworkOrderStatus.isOpen]

theorem OneOrder.moves {after : List ReworkOrderRow} (one : OneOrder rows) (moves : OrdersMove rows after) :
    OneOrder after :=
  ⟨moves.unique one.unique, Lifecycle.Moves.exclusive moves isOpen_falls one.single⟩

theorem moveOrder_eq (unique : Table.Unique ReworkOrderRow.id d.store.reworkOrders)
    (held : order ∈ d.store.reworkOrders.map ReworkOrderRow.order) (allowed : OrderStep order.status target) :
    d.moveOrder order target write = .ok (d.moved [order] target write) := by
  have applied : order.applyStatus target = .ok { order with status := target } := by
    rw [ReworkOrder.applyStatus, if_pos (List.contains_iff_mem.mpr allowed)]
  obtain ⟨own, listed, same⟩ := List.mem_map.mp held
  have found : d.store.reworkOrder order.id = some own := by
    rw [← same]
    exact unique.find listed
  have rows : Table.update ReworkOrderRow.id order.id (fun row => { row with order := { order with status := target } })
      d.store.reworkOrders = d.store.reworkOrders.map (moveRow [order] target) := by
    refine List.map_congr_left fun row member => ?_
    unfold moveRow
    by_cases here : row.id = order.id
    · have equal := (row_of_id unique held member).mp here
      rw [if_pos here, if_pos (List.mem_singleton.mpr equal), ← equal]
    · have apart : row.order ∉ [order] := by
        rw [List.mem_singleton]
        exact fun equal => here ((row_of_id unique held member).mpr equal)
      rw [if_neg here, if_neg apart]
  have rounds : Function.update d.rounds order.id (write (d.rounds order.id)) =
      fun id => if [order].any (fun item => item.id = id) then write (d.rounds id) else d.rounds id := by
    funext id
    by_cases here : id = order.id
    · subst here
      simp
    · simp [here, Ne.symm here]
  simp only [Discussion.moveOrder, applied, Bind.bind, Except.bind, Discussion.saveReworkOrder, found, rows, rounds,
    Discussion.moved]

theorem moveRow_cons {first : ReworkOrder} {rest : List ReworkOrder} (apart : ∀ order ∈ rest, order.id ≠ first.id) :
    moveRow rest target (moveRow [first] target row) = moveRow (first :: rest) target row := by
  by_cases here : row.order = first
  · have moved : moveRow [first] target row = { row with order := { row.order with status := target } } :=
      if_pos (List.mem_singleton.mpr here)
    have gone : { row.order with status := target } ∉ rest := by
      intro member
      have same : row.order.id = first.id := congrArg ReworkOrder.id here
      exact apart _ member same
    rw [moved, moveRow, if_neg gone, moveRow, if_pos (List.mem_cons.mpr (Or.inl here))]
  · have kept : moveRow [first] target row = row := if_neg fun member => here (List.mem_singleton.mp member)
    have same : row.order ∈ first :: rest ↔ row.order ∈ rest := by
      rw [List.mem_cons]
      exact ⟨fun either => either.resolve_left here, Or.inr⟩
    rw [kept]
    unfold moveRow
    simp only [same]

theorem moved_cons {first : ReworkOrder} {rest : List ReworkOrder} (apart : ∀ order ∈ rest, order.id ≠ first.id) :
    (d.moved [first] target write).moved rest target write = d.moved (first :: rest) target write := by
  have rows : (d.store.reworkOrders.map (moveRow [first] target)).map (moveRow rest target) =
      d.store.reworkOrders.map (moveRow (first :: rest) target) := by
    rw [List.map_map]
    exact List.map_congr_left fun row _ => moveRow_cons apart
  have rounds (id : String) : (if rest.any (fun order => order.id = id) then
        write (if [first].any (fun order => order.id = id) then write (d.rounds id) else d.rounds id)
      else if [first].any (fun order => order.id = id) then write (d.rounds id) else d.rounds id) =
      if (first :: rest).any (fun order => order.id = id) then write (d.rounds id) else d.rounds id := by
    by_cases here : first.id = id
    · have absent : rest.any (fun order => order.id = id) = false := by
        rw [List.any_eq_false]
        intro order member
        simpa [← here] using apart order member
      simp [absent, here]
    · simp [here]
  simp only [Discussion.moved, rows, rounds]

theorem moved_nil : d.moved [] target write = d := by
  have kept (row : ReworkOrderRow) : moveRow [] target row = row := if_neg List.not_mem_nil
  have rows : d.store.reworkOrders.map (moveRow [] target) = d.store.reworkOrders := List.map_id'' kept _
  simp [Discussion.moved, rows]

theorem moveOrders_eq (unique : Table.Unique ReworkOrderRow.id d.store.reworkOrders)
    (held : ∀ order ∈ chosen, order ∈ d.store.reworkOrders.map ReworkOrderRow.order)
    (distinct : (chosen.map ReworkOrder.id).Nodup) (allowed : ∀ order ∈ chosen, OrderStep order.status target) :
    chosen.foldlM (fun d order => d.moveOrder order target write) d = .ok (d.moved chosen target write) := by
  induction chosen generalizing d with
  | nil => exact congrArg Except.ok moved_nil.symm
  | cons first rest ih =>
    rw [List.forall_mem_cons] at held allowed
    rw [List.map_cons, List.nodup_cons] at distinct
    have apart (order : ReworkOrder) (member : order ∈ rest) : order.id ≠ first.id := by
      intro same
      exact distinct.1 (same ▸ List.mem_map_of_mem member)
    have moves : OrdersMove d.store.reworkOrders (d.store.reworkOrders.map (moveRow [first] target)) :=
      moves_moveRow _ (by simpa using allowed.1)
    have still (order : ReworkOrder) (member : order ∈ rest) :
        order ∈ (d.store.reworkOrders.map (moveRow [first] target)).map ReworkOrderRow.order := by
      obtain ⟨row, listed, rfl⟩ := List.mem_map.mp (held.2 order member)
      have kept : moveRow [first] target row = row := by
        refine if_neg fun chosen => ?_
        exact apart row.order member (congrArg ReworkOrder.id (List.mem_singleton.mp chosen))
      exact List.mem_map.mpr ⟨row, List.mem_map.mpr ⟨row, listed, kept⟩, rfl⟩
    rw [List.foldlM_cons, moveOrder_eq unique held.1 allowed.1]
    have others := @ih (d.moved [first] target write) (moves.unique unique) still distinct.2 allowed.2
    rw [moved_cons apart] at others
    exact others

end Moved

/-- What an outcome does to orders: those of its phase it takes on, where it takes them, and what it notes there. -/
structure OrderMove where
  chosen : List ReworkOrder := []
  target : ReworkOrderStatus := .done
  write : OrderRound → OrderRound := id

def orderMove (advance : RunAdvance) (report : AttemptReport) (changeId : String) (d : Discussion) : OrderMove :=
  let phase := outcomePhase advance.result
  match (if advance.outcome = .replayed then none else advance.decision).map FlowDecision.action with
  | some (.rework action) =>
    { chosen := (d.pendingReworkOrder changeId phase).toList, target := .inProgress
      write := fun held => { held with round := some action.round, runId := some advance.result.runId } }
  | some (.stop _ reason) =>
    { chosen := d.openOrders changeId phase, target := .escalated
      write := fun held => { held with escalationReason := some reason } }
  | some (.requestApproval ..) | some (.waitForInput ..) =>
    { chosen := (d.activeReworkOrder changeId phase).toList
      write := fun held => { held with summary := some (report.reworkSummary.getD {}) } }
  | _ => {}

section Recorded

variable {d after : Discussion} {changeId : String} {phase : Phase} {order : ReworkOrder} {advance : RunAdvance}
  {report : AttemptReport}

theorem mem_listReworkOrders : order ∈ d.store.listReworkOrders changeId phase ↔
    order ∈ d.store.reworkOrders.map ReworkOrderRow.order ∧ order.changeId = changeId ∧ order.phase = phase := by
  simp [ChangeStore.listReworkOrders, List.mem_filter]

theorem listReworkOrders_distinct (unique : Table.Unique ReworkOrderRow.id d.store.reworkOrders) :
    ((d.store.listReworkOrders changeId phase).map ReworkOrder.id).Nodup := by
  have listed : ((d.store.listReworkOrders changeId phase).map ReworkOrder.id).Sublist
      ((d.store.reworkOrders.map ReworkOrderRow.order).map ReworkOrder.id) := (List.filter_sublist).map _
  rw [List.map_map] at listed
  exact unique.sublist listed

theorem pendingReworkOrder_some (found : d.pendingReworkOrder changeId phase = some order) :
    order ∈ d.store.listReworkOrders changeId phase ∧ order.status = .pending :=
  ⟨List.mem_of_find?_eq_some found, by simpa using List.find?_some found⟩

theorem activeReworkOrder_some (found : d.activeReworkOrder changeId phase = some order) :
    order ∈ d.store.listReworkOrders changeId phase ∧ order.status = .inProgress :=
  ⟨List.mem_of_find?_eq_some found, by simpa using List.find?_some found⟩

theorem mem_orderMove (member : order ∈ (orderMove advance report changeId d).chosen) :
    order ∈ d.store.listReworkOrders changeId (outcomePhase advance.result) ∧
      OrderStep order.status (orderMove advance report changeId d).target := by
  revert member
  unfold orderMove
  dsimp only
  split
  · intro member
    obtain ⟨listed, pending⟩ := pendingReworkOrder_some (Option.mem_toList.mp member)
    exact ⟨listed, by simp [OrderStep, pending, reworkOrderStatusTransitions]⟩
  · intro member
    obtain ⟨listed, live⟩ := List.mem_filter.mp member
    rw [Bool.or_eq_true, decide_eq_true_eq, decide_eq_true_eq] at live
    refine ⟨listed, ?_⟩
    rcases live with pending | running
    · simp [OrderStep, pending, reworkOrderStatusTransitions]
    · simp [OrderStep, running, reworkOrderStatusTransitions]
  · intro member
    obtain ⟨listed, running⟩ := activeReworkOrder_some (Option.mem_toList.mp member)
    exact ⟨listed, by simp [OrderStep, running, reworkOrderStatusTransitions]⟩
  · intro member
    obtain ⟨listed, running⟩ := activeReworkOrder_some (Option.mem_toList.mp member)
    exact ⟨listed, by simp [OrderStep, running, reworkOrderStatusTransitions]⟩
  · nofun

theorem orderMove_distinct (unique : Table.Unique ReworkOrderRow.id d.store.reworkOrders) :
    ((orderMove advance report changeId d).chosen.map ReworkOrder.id).Nodup := by
  have one (found : Option ReworkOrder) : (found.toList.map ReworkOrder.id).Nodup := by
    cases found <;> simp
  unfold orderMove
  dsimp only
  split
  · exact one _
  · exact (listReworkOrders_distinct unique).sublist ((List.filter_sublist).map _)
  · exact one _
  · exact one _
  · exact List.nodup_nil

theorem orderMoves_eq (unique : Table.Unique ReworkOrderRow.id d.store.reworkOrders) :
    let move := orderMove advance report changeId d
    move.chosen.foldlM (fun d order => d.moveOrder order move.target move.write) d =
      .ok (d.moved move.chosen move.target move.write) :=
  moveOrders_eq unique (fun _ member => (mem_listReworkOrders.mp (mem_orderMove member).1).1)
    (orderMove_distinct unique) fun _ member => (mem_orderMove member).2

theorem resolveQuestions_frame (done : d.resolveQuestions changeId phase = .ok after) :
    after.store = d.store ∧ after.rounds = d.rounds := by
  have each (questions : List AskedQuestion) (d : Discussion)
      (done : questions.foldlM Discussion.resolveQuestion d = .ok after) :
      after.store = d.store ∧ after.rounds = d.rounds := by
    induction questions generalizing d with
    | nil =>
      cases done
      exact ⟨rfl, rfl⟩
    | cons question rest ih =>
      rw [List.foldlM_cons] at done
      obtain ⟨next, resolving, later⟩ := Outcome.bind_ok.mp done
      obtain ⟨resolved, -, saving⟩ := Outcome.bind_ok.mp resolving
      have kept : next.store = d.store ∧ next.rounds = d.rounds := by
        unfold Discussion.saveQuestion at saving
        split at saving
        · cases saving
        · cases saving
          exact ⟨rfl, rfl⟩
      obtain ⟨store, rounds⟩ := ih next later
      exact ⟨store.trans kept.1, rounds.trans kept.2⟩
  exact each _ d done

theorem finishActive_orders {summary : Option ReworkSummary} (unique : Table.Unique ReworkOrderRow.id d.store.reworkOrders)
    (done : d.finishActive summary changeId phase = .ok after) :
    let write (held : OrderRound) : OrderRound := { held with summary := some (summary.getD {}) }
    let moved := d.moved (d.activeReworkOrder changeId phase).toList .done write
    after.store = moved.store ∧ after.rounds = moved.rounds ∧ after.questions = d.questions := by
  intro write moved
  unfold Discussion.finishActive at done
  cases found : d.activeReworkOrder changeId phase with
  | none =>
    simp only [found] at done
    cases done
    have same : moved = d := by
      simp only [moved, found]
      exact moved_nil
    rw [same]
    exact ⟨rfl, rfl, rfl⟩
  | some active =>
    obtain ⟨listed, running⟩ := activeReworkOrder_some found
    have step : OrderStep active.status .done := by simp [OrderStep, running, reworkOrderStatusTransitions]
    have finishing : d.moveOrder active .done write = .ok (d.moved [active] .done write) :=
      moveOrder_eq unique (mem_listReworkOrders.mp listed).1 step
    have same : moved = d.moved [active] .done write := by
      simp only [moved, found]
      rfl
    simp only [found] at done
    obtain ⟨finished, finish, marking⟩ := Outcome.bind_ok.mp done
    rw [show d.finishOrder active (summary.getD {}) = .ok (d.moved [active] .done write) from finishing] at finish
    cases finish
    cases marking
    rw [same]
    exact ⟨rfl, rfl, rfl⟩

/-- The outcome of an advance writes on the orders what its move says, and nothing else of the change store. -/
theorem recordStageOutcome_orders (unique : Table.Unique ReworkOrderRow.id d.store.reworkOrders)
    (done : recordStageOutcome advance report changeId d = .ok after) :
    let move := orderMove advance report changeId d
    after.store = (d.moved move.chosen move.target move.write).store ∧
      after.rounds = (d.moved move.chosen move.target move.write).rounds := by
  have moves := @orderMoves_eq d changeId advance report unique
  have idle : d.moved [] .done id = d := moved_nil
  unfold recordStageOutcome at done
  unfold orderMove at moves ⊢
  by_cases replayed : advance.outcome = .replayed
  · simp only [replayed, ↓reduceIte, Option.map_none] at done ⊢
    cases done
    rw [idle]
    exact ⟨rfl, rfl⟩
  simp only [replayed, ↓reduceIte] at done moves ⊢
  cases decided : advance.decision with
  | none =>
    simp only [decided, Option.map_none] at done ⊢
    cases done
    rw [idle]
    exact ⟨rfl, rfl⟩
  | some decision =>
    simp only [decided, Option.map_some] at done moves ⊢
    cases action : decision.action with
    | rework asked =>
      simp only [action] at done moves ⊢
      cases found : d.pendingReworkOrder changeId (outcomePhase advance.result) with
      | none =>
        simp only [found] at done
        cases done
        rw [Option.toList_none, moved_nil]
        exact ⟨rfl, rfl⟩
      | some pending =>
        simp only [found, Option.toList_some, List.foldlM_cons, List.foldlM_nil] at done moves ⊢
        obtain ⟨started, starting, same⟩ := Outcome.bind_ok.mp moves
        cases same
        rw [show d.startOrder pending asked.round advance.result.runId = _ from starting] at done
        cases done
        exact ⟨rfl, rfl⟩
    | stop outcome reason =>
      simp only [action] at done moves ⊢
      rw [show (d.openOrders changeId (outcomePhase advance.result)).foldlM
        (fun d order => d.escalateOrder order reason) d = _ from moves] at done
      cases done
      exact ⟨rfl, rfl⟩
    | requestApproval | waitForInput =>
      simp only [action] at done ⊢
      obtain ⟨resolved, resolving, finishing⟩ := Outcome.bind_ok.mp done
      obtain ⟨store, rounds⟩ := resolveQuestions_frame resolving
      have active : resolved.activeReworkOrder changeId (outcomePhase advance.result) =
          d.activeReworkOrder changeId (outcomePhase advance.result) := by
        simp only [Discussion.activeReworkOrder, store]
        rfl
      obtain ⟨finished, noted, -⟩ := finishActive_orders (by rw [store]; exact unique) finishing
      rw [finished, noted, active]
      simp only [Discussion.moved, store, rounds]
      exact ⟨rfl, rfl⟩
    | executeStage | waitForCi | phaseRound | merge | release =>
      simp only [action] at done ⊢
      cases done
      rw [idle]
      exact ⟨rfl, rfl⟩

end Recorded

structure NewOrder (store : ChangeStore) (row : ReworkOrderRow) : Prop where
  pending : row.status = .pending
  fresh : store.reworkOrder row.id = none
  idle : activeOrder store row.order.changeId row.order.phase = none

section Issued

variable {store after : ChangeStore} {around : Surroundings}

theorem record_orders (decision : Decision) (changeId : String) (key role : Option String) :
    (store.record decision changeId key role).2.reworkOrders = store.reworkOrders := by
  unfold ChangeStore.record
  split <;> rfl

theorem recordSendBack_orders (request : ReworkRequest) (orderId : String) :
    (recordSendBack around request orderId store).reworkOrders = store.reworkOrders := by
  unfold recordSendBack
  split
  · rfl
  · exact record_orders _ _ _ _

theorem recordApproval_orders {token : ApiToken} {changeId : String} {body : ApprovalRequest} {key : Option String}
    {stored : Decision} (done : recordApproval around token changeId body key store = .ok (stored, after)) :
    after.reworkOrders = store.reworkOrders := by
  unfold recordApproval at done
  cases found : store.change changeId with
  | none => simp [found] at done
  | some row =>
    cases seen : store.replayed key with
    | some old =>
      simp only [found, seen] at done
      cases done
      rfl
    | none =>
      simp only [found, seen] at done
      split at done
      · cases done
      · obtain ⟨checked, -, done⟩ := Outcome.bind_ok.mp done
        obtain ⟨phase, -, done⟩ := Outcome.bind_ok.mp done
        obtain rfl := (Prod.mk.inj (Outcome.pure_ok.mp done)).2
        exact record_orders _ _ _ _

theorem recordPhaseDecision_orders {request : PhaseDecisionRequest} {stored : Decision × PhaseGate}
    (done : recordPhaseDecision around request store = .ok (stored, after)) :
    after.reworkOrders = store.reworkOrders := by
  unfold recordPhaseDecision at done
  cases found : store.change request.changeId with
  | none => simp [found] at done
  | some row =>
    simp only [found] at done
    obtain ⟨gate, -, done⟩ := Outcome.bind_ok.mp done
    obtain rfl := (Prod.mk.inj (Outcome.pure_ok.mp done)).2
    exact record_orders _ _ _ _

theorem issueReworkOrder_orders {request : ReworkRequest} {answer : ReworkOrder × Bool}
    (done : issueReworkOrder around request store = .ok (answer, after)) :
    after = store ∨ ∃ row, NewOrder store row ∧ after.reworkOrders = store.reworkOrders ++ [row] := by
  unfold issueReworkOrder at done
  cases found : store.change request.changeId with
  | none => simp [found] at done
  | some change =>
    simp only [found] at done
    split at done
    · cases done
    · cases known : store.reworkOrder (request.orderId around) with
      | some existing =>
        simp only [known] at done
        cases done
        exact Or.inl rfl
      | none =>
        cases idle : activeOrder store request.changeId request.phase with
        | some active => simp [known, idle] at done
        | none =>
          simp only [known, idle] at done
          obtain ⟨comments, -, done⟩ := Outcome.bind_ok.mp done
          obtain ⟨questions, -, done⟩ := Outcome.bind_ok.mp done
          obtain ⟨row, built, done⟩ := Outcome.bind_ok.mp done
          obtain rfl := (Prod.mk.inj (Outcome.pure_ok.mp done)).2
          obtain ⟨id, pending, change, phase⟩ := buildOrder_built built
          have fresh : store.reworkOrder row.id = none := by
            rw [id]
            exact known
          refine Or.inr ⟨row, ⟨pending, fresh, by rw [change, phase]; exact idle⟩, ?_⟩
          rw [recordSendBack_orders]
          have absent : Table.find ReworkOrderRow.id row.id store.reworkOrders = none := fresh
          simp only [ChangeStore.claimComments, ChangeStore.addReworkOrder, Table.insertNew, absent]

theorem afterOperator_orders (store : ChangeStore) (call : Surroundings × OperatorCall) :
    (afterOperator store call).reworkOrders = store.reworkOrders ∨
      ∃ row, NewOrder store row ∧ (afterOperator store call).reworkOrders = store.reworkOrders ++ [row] := by
  obtain ⟨around, call⟩ := call
  cases call with
  | recordApproval token changeId body key =>
    rw [afterOperator]
    cases done : recordApproval around token changeId body key store with
    | error refusal => exact Or.inl rfl
    | ok pair => exact Or.inl (recordApproval_orders done)
  | recordPhaseDecision request =>
    rw [afterOperator]
    cases done : recordPhaseDecision around request store with
    | error refusal => exact Or.inl rfl
    | ok pair => exact Or.inl (recordPhaseDecision_orders done)
  | issueReworkOrder request =>
    rw [afterOperator]
    cases done : issueReworkOrder around request store with
    | error refusal => exact Or.inl rfl
    | ok pair =>
      rcases issueReworkOrder_orders done with same | created
      · exact Or.inl (congrArg ChangeStore.reworkOrders same)
      · exact Or.inr created

theorem OneOrder.append {row : ReworkOrderRow} (one : OneOrder store.reworkOrders) (new : NewOrder store row) :
    OneOrder (store.reworkOrders ++ [row]) := by
  have absent : ∀ other ∈ store.reworkOrders, other.id ≠ row.id := Table.find_none.mp new.fresh
  refine ⟨one.unique.append absent, one.single.append ?_⟩
  intro other member live same
  have scope : other.order.changeId = row.order.changeId ∧ other.order.phase = row.order.phase := Prod.mk.inj same
  have listed : other.order ∈ store.listReworkOrders row.order.changeId row.order.phase := by
    simp only [ChangeStore.listReworkOrders, List.mem_filter, scope.1, scope.2, decide_true, Bool.and_self, and_true]
    exact List.mem_map_of_mem member
  have idle := new.idle
  rw [activeOrder, Option.or_eq_none_iff, List.find?_eq_none, List.find?_eq_none] at idle
  rcases live with pending | running
  · exact absurd (decide_eq_true pending) (idle.1 other.order listed)
  · exact absurd (decide_eq_true running) (idle.2 other.order listed)

end Issued

inductive OrderEvent
  | service (step : ServiceStep)
  | outcome (advance : RunAdvance) (report : AttemptReport) (changeId : String)

def Discussion.recorded (d : Discussion) (advance : RunAdvance) (report : AttemptReport) (changeId : String) :
    Discussion :=
  match recordStageOutcome advance report changeId d with
  | .ok after => after
  | .error _ => d

def afterEvent (service : Service) : OrderEvent → Service
  | .service step => afterService service step
  | .outcome advance report changeId =>
    { service with db := { service.db with discussion := service.db.discussion.recorded advance report changeId } }

def Service.orders (service : Service) : List ReworkOrderRow := service.db.discussion.store.reworkOrders

section Run

variable {service : Service} {d after : Discussion}

theorem recordStageOutcome_moves {advance : RunAdvance} {report : AttemptReport} {changeId : String}
    (unique : Table.Unique ReworkOrderRow.id d.store.reworkOrders)
    (done : recordStageOutcome advance report changeId d = .ok after) :
    OrdersMove d.store.reworkOrders after.store.reworkOrders := by
  rw [(recordStageOutcome_orders unique done).1]
  exact moves_moveRow _ fun order member => (mem_orderMove member).2

theorem Discussion.answered_orders (d : Discussion) (request : AnswerRequest) :
    (d.answered request).store = d.store ∧ (d.answered request).rounds = d.rounds := by
  rcases d.answered_cases request with same | ⟨question, answer, -, -, written⟩
  · rw [same]
    exact ⟨rfl, rfl⟩
  · rw [written]
    exact ⟨rfl, rfl⟩

theorem afterEvent_orders (one : OneOrder service.orders) (event : OrderEvent) :
    OrdersMove service.orders (afterEvent service event).orders ∨
      ∃ row, NewOrder service.db.discussion.view row ∧ (afterEvent service event).orders = service.orders ++ [row] := by
  have kept {next : Service} (same : next.orders = service.orders) : OrdersMove service.orders next.orders := by
    rw [same]
    exact Lifecycle.Moves.refl
  cases event with
  | outcome advance report changeId =>
    left
    show OrdersMove service.orders (service.db.discussion.recorded advance report changeId).store.reworkOrders
    unfold Discussion.recorded
    cases done : recordStageOutcome advance report changeId service.db.discussion with
    | error failure => exact Lifecycle.Moves.refl
    | ok after => exact recordStageOutcome_moves one.unique done
  | service step =>
    cases step with
    | create input => exact Or.inl (kept rfl)
    | withdraw input => exact Or.inl (kept rfl)
    | operate call =>
      rcases afterOperator_orders service.db.discussion.view call with same | created
      · exact Or.inl (kept same)
      · exact Or.inr created
    | answer request =>
      have frame := service.db.discussion.answered_orders request
      exact Or.inl (kept (congrArg ChangeStore.reworkOrders frame.1))
    | load session =>
      left
      apply kept
      simp only [afterEvent, afterService]
      split <;> rfl
    | finish index =>
      left
      simp only [afterEvent, afterService]
      cases service.flights[index]? with
      | none => exact kept rfl
      | some flight =>
        rcases flight.commit_cases service.db with same | ⟨advance, -, recorded⟩
        · exact kept (by simp only [Service.orders, same])
        · exact recordStageOutcome_moves one.unique recorded

theorem afterEvent_one (one : OneOrder service.orders) (event : OrderEvent) :
    OneOrder (afterEvent service event).orders ∧ OrdersCarried service.orders (afterEvent service event).orders := by
  rcases afterEvent_orders one event with moves | ⟨row, new, appended⟩
  · exact ⟨one.moves moves, moves.carried⟩
  · rw [appended]
    exact ⟨@OneOrder.append service.db.discussion.view row one new, .of_subset (List.subset_append_left _ _)⟩

theorem events_one (one : OneOrder service.orders) (events : List OrderEvent) :
    OneOrder (events.foldl afterEvent service).orders ∧
      OrdersCarried service.orders (events.foldl afterEvent service).orders := by
  induction events generalizing service with
  | nil => exact ⟨one, .refl⟩
  | cons event rest ih =>
    obtain ⟨next, carried⟩ := afterEvent_one one event
    obtain ⟨last, further⟩ := ih next
    exact ⟨last, carried.trans further⟩

theorem orderStep_final {status : ReworkOrderStatus} (closed : status = .done ∨ status = .escalated)
    (next : ReworkOrderStatus) : ¬ OrderStep status next := by
  rcases closed with rfl | rfl <;> exact List.not_mem_nil

/-- Over any events, in any order: a phase of a change never has two open orders, an order only moves along its
    machine, and one that is done or escalated stays so. -/
theorem phase_has_one_open_order (service : Service) (one : OneOrder service.orders) (before after : List OrderEvent) :
    let reached := before.foldl afterEvent service
    let later := after.foldl afterEvent reached
    OneOrder reached.orders ∧ OrdersCarried reached.orders later.orders ∧
      ∀ row ∈ reached.orders, row.status = .done ∨ row.status = .escalated →
        ∃ held ∈ later.orders, held.issued = row.issued ∧ held.status = row.status := by
  intro reached later
  have here := (events_one one before).1
  have carried := (events_one here after).2
  refine ⟨here, carried, ?_⟩
  intro row member closed
  obtain ⟨held, listed, same, path⟩ := carried row member
  exact ⟨held, listed, same, Lifecycle.final (orderStep_final closed) path⟩

end Run

def architectureEvents : List OrderEvent :=
  let issue (hex : String) : OrderEvent := .service (.operate ({ decisionHex := hex, orderHex := hex },
    .issueReworkOrder
      { changeId := "CHG-1", phase := .architecture, instruction := some "split it", issuedBy := "operator" }))
  let outcome (status : StageStatus) (action : NextAction) (isResult : resultStatus status = true) : OrderEvent :=
    .outcome
      { outcome := .advanced, stage := .specification
        result := { stage := .specification, runId := "run_1", changeId := "CHG-1", status, nextAction := action,
                    phase := some .architecture, producedAt := 1, statusIsResult := isResult }
        decision := some { stage := .specification, action, stageStatus := status, runStatus := .running
                           nextStage := none } } {} "CHG-1"
  [issue "1", issue "2", outcome .failed (.rework ⟨1, 3, "fix", firstRound, thirdRound⟩) failed_isResult, issue "3",
    outcome .waiting (.requestApproval .specification none none) waiting_isResult, issue "4"]

theorem architecture_sent_back_twice :
    let service : Service := { db := { discussion := { store := oneChange } } }
    let reached := architectureEvents.foldl afterEvent service
    OneOrder reached.orders ∧ reached.orders.map (fun row => (row.id, row.status)) =
      [("rw_1", .done), ("rw_4", .pending)] := by
  intro service reached
  have one : OneOrder service.orders := ⟨Table.Unique.nil, fun row member => absurd member List.not_mem_nil⟩
  exact ⟨(phase_has_one_open_order service one architectureEvents []).1, by decide +kernel⟩

end DarkFactory
