import DarkFactory.Events.Streams
import DarkFactory.State.RunStore

namespace DarkFactory

structure Pass where
  now : Timestamp
  reservation : Option Reservation := none
  calls : List ReservedDelivery := []
  answers : List (ReservedDelivery × HandlerResult) := []
  deriving DecidableEq, Repr

def Pass.locked (pass : Pass) : List (String × String) :=
  match pass.reservation with
  | none => []
  | some reservation => reservation.locked

structure Dispatch where
  outbox : Outbox := {}
  publishing : List (OutboxRow × List String) := []
  passes : List Pass := []
  deriving DecidableEq, Repr

def Dispatch.locked (dispatch : Dispatch) : List (String × String) := dispatch.passes.flatMap Pass.locked

/-- One step of a publisher, a pass or an operator. A publisher reads its sequence before it inserts; a pass checks its
    candidates one by one under their row locks, and makes its calls and writes their outcomes in any order. -/
inductive DispatchAction
  | readSequence (event : OutboxRow) (consumers : List String)
  | insert (publisher : Nat)
  | giveUp (publisher : Nat)
  | reserve (limit : Nat) (now : Timestamp)
  | check (pass : Nat)
  | commitReservation (pass : Nat)
  | invoke (pass call : Nat) (result : HandlerResult)
  | commitOutcome (pass answer : Nat)
  | crash (pass : Nat)
  | replay (eventId : String) (consumerId : Option String)
  | skip (eventId consumerId : String)
  deriving DecidableEq, Repr

def Dispatch.insertNext (publisher : Nat) (dispatch : Dispatch) : Dispatch :=
  match dispatch.publishing[publisher]? with
  | none => dispatch
  | some (event, consumers) =>
    match dispatch.outbox.insert event consumers with
    | .error _ => { dispatch with publishing := dispatch.publishing.eraseIdx publisher }
    | .ok outbox => { dispatch with outbox, publishing := dispatch.publishing.eraseIdx publisher }

def Dispatch.commitReservation (index : Nat) (dispatch : Dispatch) : Dispatch :=
  match dispatch.passes[index]?.bind (·.reservation) with
  | none => dispatch
  | some reservation =>
    if reservation.candidates.isEmpty then
      { dispatch with
        outbox := reservation.lease dispatch.outbox
        passes := dispatch.passes.modify index fun pass =>
          { pass with reservation := none, calls := reservation.reserved } }
    else dispatch

def Dispatch.invoke (index call : Nat) (result : HandlerResult) (dispatch : Dispatch) : Dispatch :=
  match dispatch.passes[index]?.bind (·.calls[call]?) with
  | none => dispatch
  | some item =>
    { dispatch with passes := dispatch.passes.modify index fun pass =>
        { pass with calls := pass.calls.eraseIdx call, answers := pass.answers ++ [(item, result)] } }

/-- The delivery and the values an outcome is written with, unless it waits for the row lock. -/
def Dispatch.outcome (index answer : Nat) (dispatch : Dispatch) : Option ((String × String) × OutcomeValues) :=
  match dispatch.passes[index]? with
  | none => none
  | some pass =>
    match pass.answers[answer]? with
    | none => none
    | some (item, result) =>
      if dispatch.locked.contains item.key then none
      else
        match outcomeOf item pass.now result with
        | .error _ => none
        | .ok values => some (item.key, values)

def Dispatch.commitOutcome (index answer : Nat) (dispatch : Dispatch) : Dispatch :=
  match dispatch.outcome index answer with
  | none => dispatch
  | some (key, values) =>
    { dispatch with
      outbox := (dispatch.outbox.commitOutcome key values).2
      passes := dispatch.passes.modify index fun pass => { pass with answers := pass.answers.eraseIdx answer } }

def Dispatch.replay (eventId : String) (consumerId : Option String) (dispatch : Dispatch) : Dispatch :=
  if dispatch.outbox.deliveries.any fun row =>
      replayMatches eventId consumerId row && dispatch.locked.contains row.key then dispatch
  else { dispatch with outbox := (dispatch.outbox.replay eventId consumerId).2 }

def Dispatch.skip (eventId consumerId : String) (dispatch : Dispatch) : Dispatch :=
  if dispatch.locked.contains (eventId, consumerId) then dispatch
  else { dispatch with outbox := (dispatch.outbox.skip eventId consumerId).2 }

/-- A step that waits for a row lock, or refers to nothing, changes nothing. -/
def afterAction (dispatch : Dispatch) : DispatchAction → Dispatch
  | .readSequence event consumers =>
    { dispatch with publishing := dispatch.publishing ++ [(event.assigned dispatch.outbox, consumers)] }
  | .insert publisher => dispatch.insertNext publisher
  | .giveUp publisher => { dispatch with publishing := dispatch.publishing.eraseIdx publisher }
  | .reserve limit now =>
    { dispatch with passes := dispatch.passes ++
        [{ now, reservation := some (dispatch.outbox.reserve limit now dispatch.locked) }] }
  | .check pass =>
    { dispatch with passes := dispatch.passes.modify pass fun pass =>
        { pass with reservation := pass.reservation.map (Reservation.check dispatch.outbox) } }
  | .commitReservation pass => dispatch.commitReservation pass
  | .invoke pass call result => dispatch.invoke pass call result
  | .commitOutcome pass answer => dispatch.commitOutcome pass answer
  | .crash pass =>
    { dispatch with passes := dispatch.passes.modify pass fun pass => { now := pass.now } }
  | .replay eventId consumerId => dispatch.replay eventId consumerId
  | .skip eventId consumerId => dispatch.skip eventId consumerId

def dispatched (actions : List DispatchAction) : Dispatch := actions.foldl afterAction {}

def Invokes (dispatch : Dispatch) (action : DispatchAction) (item : ReservedDelivery) : Prop :=
  ∃ index call result pass, action = .invoke index call result ∧ dispatch.passes[index]? = some pass ∧
    pass.calls[call]? = some item

/-- A reservation as it proceeds: its rows wait under their locks, and what it took comes behind accepted events only,
    at most one of a stream. -/
structure Reservation.Sound (outbox : Outbox) (reservation : Reservation) : Prop where
  held : ∀ key ∈ reservation.locked, Held key outbox
  candidates : ∀ row ∈ reservation.candidates, row.1 ∈ outbox.events ∧ row.1.eventId = row.2.eventId ∧
    row.2.key ∈ reservation.locked
  reserved : ∀ item ∈ reservation.reserved, item.event ∈ outbox.events ∧ item.key ∈ reservation.locked ∧
    Ordered item outbox
  keys : (reservation.reserved.map ReservedDelivery.key ++ reservation.candidates.map (·.2.key)).Nodup
  streams : (reservation.reserved.map ReservedDelivery.stream).Nodup

structure Pass.Sound (outbox : Outbox) (pass : Pass) : Prop where
  reservation : ∀ reservation, pass.reservation = some reservation → reservation.Sound outbox
  calls : ∀ item ∈ pass.calls, item.event ∈ outbox.events ∧ Ordered item outbox

structure Dispatch.Consistent (dispatch : Dispatch) : Prop where
  sequenced : Sequenced dispatch.outbox
  publishing : ∀ pending ∈ dispatch.publishing, 1 ≤ pending.1.sequence ∧
    pending.1.sequence ≤ dispatch.outbox.nextSequence pending.1.aggregateId
  passes : ∀ pass ∈ dispatch.passes, pass.Sound dispatch.outbox

/-- How a pass goes on over a step. Its next candidate is checked against tables that stay. -/
inductive PassStep (before after : Dispatch) (pass : Pass) : Pass → Prop
  | kept : PassStep before after pass pass
  | checked (same : after.outbox = before.outbox) : PassStep before after pass
      { pass with reservation := pass.reservation.map (Reservation.check before.outbox) }
  | leased (reservation : Reservation) (held : pass.reservation = some reservation) :
      PassStep before after pass { pass with reservation := none, calls := reservation.reserved }
  | called (call : Nat) (item : ReservedDelivery) (result : HandlerResult) (listed : pass.calls[call]? = some item) :
      PassStep before after pass
        { pass with calls := pass.calls.eraseIdx call, answers := pass.answers ++ [(item, result)] }
  | written (answer : Nat) : PassStep before after pass { pass with answers := pass.answers.eraseIdx answer }
  | crashed : PassStep before after pass { now := pass.now }

section Steps

variable {outbox before after : Outbox} {locked : List (String × String)} {reservation : Reservation}

theorem Reservation.Sound.carried (sound : reservation.Sound before) (step : OutboxStep locked before after)
    (sequenced : Sequenced before) (kept : ∀ key ∈ reservation.locked, key ∈ locked) : reservation.Sound after := by
  refine ⟨?_, ?_, ?_, sound.keys, sound.streams⟩
  · intro key member
    exact step.held (sound.held key member) (kept key member)
  · intro row member
    obtain ⟨present, rest⟩ := sound.candidates row member
    exact ⟨step.events present, rest⟩
  · intro item member
    obtain ⟨present, mine, ordered⟩ := sound.reserved item member
    exact ⟨step.events present, mine, step.ordered sequenced present ordered⟩

theorem reserve_sound (sequenced : Sequenced outbox) (limit : Nat) (now : Timestamp) :
    (outbox.reserve limit now locked).Sound outbox := by
  refine ⟨?_, ?_, fun item member => absurd member List.not_mem_nil, candidates_keys sequenced limit now locked,
    List.nodup_nil⟩
  · intro key member
    obtain ⟨row, listed, rfl⟩ := List.mem_map.mp member
    obtain ⟨-, delivery, -, waiting⟩ := mem_candidates sequenced listed
    exact ⟨row.2, delivery, rfl, waiting⟩
  · intro row member
    obtain ⟨present, -, same, -⟩ := mem_candidates sequenced member
    exact ⟨present, same, List.mem_map_of_mem member⟩

/-- Two rows that wait, each behind accepted events only, are not of one stream. -/
theorem stream_apart (sequenced : Sequenced outbox) {item other : ReservedDelivery} (present : item.event ∈ outbox.events)
    (otherPresent : other.event ∈ outbox.events) (ordered : Ordered item outbox) (otherOrdered : Ordered other outbox)
    (held : Held item.key outbox) (otherHeld : Held other.key outbox) (apart : item.key ≠ other.key) :
    item.stream ≠ other.stream := by
  intro same
  obtain ⟨consumers, aggregates⟩ := Prod.mk.inj same
  obtain ⟨row, member, key, waiting⟩ := held
  obtain ⟨otherRow, otherMember, otherKey, otherWaiting⟩ := otherHeld
  obtain ⟨ids, consumer⟩ := Prod.mk.inj key
  obtain ⟨otherIds, otherConsumer⟩ := Prod.mk.inj otherKey
  have notBefore : ¬ item.event.sequence < other.event.sequence := by
    intro earlier
    have accepted := otherOrdered item.event present row member ids (consumer.trans consumers) aggregates earlier
    rw [reservable_unaccepted waiting] at accepted
    cases accepted
  have notAfter : ¬ other.event.sequence < item.event.sequence := by
    intro earlier
    have accepted := ordered other.event otherPresent otherRow otherMember otherIds
      (otherConsumer.trans consumers.symm) aggregates.symm earlier
    rw [reservable_unaccepted otherWaiting] at accepted
    cases accepted
  have events : item.event = other.event :=
    sequenced.own item.event present other.event otherPresent aggregates (by omega)
  exact apart (Prod.ext (congrArg (·.eventId) events) consumers)

theorem check_sound (sequenced : Sequenced outbox) (sound : reservation.Sound outbox) :
    (reservation.check outbox).Sound outbox := by
  obtain ⟨now, locked, candidates, reserved, deferred⟩ := reservation
  cases candidates with
  | nil => exact sound
  | cons row rest =>
    obtain ⟨event, delivery⟩ := row
    obtain ⟨held, listed, taken, keys, streams⟩ := sound
    rw [List.forall_mem_cons] at listed
    obtain ⟨⟨present, same, mine⟩, others⟩ := listed
    dsimp only at present same mine
    unfold Reservation.check
    dsimp only
    by_cases eligible :
        orderingEligible event.sequence (outbox.minUndelivered delivery.consumerId event.aggregateId) = true
    · rw [if_pos eligible]
      obtain ⟨item, itemEq⟩ : ∃ item : ReservedDelivery,
        item = { event, consumerId := delivery.consumerId, attempts := delivery.attempts } := ⟨_, rfl⟩
      have key : item.key = delivery.key := by
        rw [itemEq]
        exact Prod.ext same rfl
      have ordered : Ordered item outbox := by
        rw [itemEq]
        exact ordered_of_eligible sequenced eligible
      have itemPresent : item.event ∈ outbox.events := by
        rw [itemEq]
        exact present
      rw [← itemEq]
      refine ⟨held, others, ?_, ?_, ?_⟩
      · intro other member
        rcases List.mem_append.mp member with old | new
        · exact taken other old
        · rw [List.mem_singleton] at new
          subst new
          exact ⟨itemPresent, key ▸ mine, ordered⟩
      · rw [List.map_append, List.map_cons, List.map_nil, key, List.append_assoc]
        exact keys
      · rw [List.map_append, List.nodup_append]
        refine ⟨streams, List.nodup_singleton _, ?_⟩
        intro stream old other new
        rw [List.map_cons, List.map_nil, List.mem_singleton] at new
        obtain ⟨earlier, member, rfl⟩ := List.mem_map.mp old
        rw [new]
        obtain ⟨earlierPresent, earlierMine, earlierOrdered⟩ := taken earlier member
        apply stream_apart sequenced earlierPresent itemPresent earlierOrdered ordered (held _ earlierMine)
          (held _ (key ▸ mine))
        rw [key]
        exact (List.nodup_append.mp keys).2.2 _ (List.mem_map_of_mem member) _ List.mem_cons_self
    · rw [if_neg eligible]
      refine ⟨held, others, taken, ?_, streams⟩
      exact keys.sublist ((List.Sublist.refl _).append (List.sublist_cons_self _ _))

end Steps

section Tables

variable {locked : List (String × String)}

theorem lease_step (reservation : Reservation) (outbox : Outbox) :
    OutboxStep locked outbox (reservation.lease outbox) := by
  have kept (row : DeliveryRow) (next : Timestamp) :
      (if (reservation.reserved.map ReservedDelivery.key).contains row.key then { row with nextAttemptAt := some next }
        else row).key = row.key ∧
      (if (reservation.reserved.map ReservedDelivery.key).contains row.key then { row with nextAttemptAt := some next }
        else row).status = row.status := by
    split <;> exact ⟨rfl, rfl⟩
  exact .changed _ (fun row => (kept row _).1) (fun row _ => (kept row _).2) fun row _ _ => (kept row _).2

theorem matched_step {outbox : Outbox} {matched : DeliveryRow → Bool} {change : DeliveryRow → DeliveryRow}
    (keys : ∀ row, (change row).key = row.key)
    (waits : ∀ row, matched row = true → terminalAccepted row.status = false)
    (unlocked : ∀ row ∈ outbox.deliveries, matched row = true → row.key ∉ locked) :
    OutboxStep locked outbox { outbox with
      deliveries := outbox.deliveries.map fun row => if matched row then change row else row } := by
  refine .changed _ ?_ ?_ ?_
  · intro row
    split
    · exact keys row
    · rfl
  · intro row accepted
    rw [if_neg]
    intro matches_
    rw [waits row matches_] at accepted
    cases accepted
  · intro row member held
    rw [if_neg]
    intro matches_
    exact unlocked row member matches_ held

end Tables

section Run

variable {dispatch : Dispatch}

theorem modify_cases {α : Type} {items : List α} {at_ index : Nat} {f : α → α} {item : α}
    (found : (items.modify at_ f)[index]? = some item) :
    items[index]? = some item ∨ ∃ old, items[index]? = some old ∧ at_ = index ∧ item = f old := by
  rw [List.getElem?_modify, Option.map_eq_map, Option.map_eq_some_iff] at found
  obtain ⟨old, there, same⟩ := found
  by_cases here : at_ = index
  · rw [if_pos here] at same
    exact Or.inr ⟨old, there, here, same.symm⟩
  · rw [if_neg here] at same
    exact Or.inl (same ▸ there)

theorem outcome_unlocked {index answer : Nat} {key : String × String} {values : OutcomeValues}
    (found : dispatch.outcome index answer = some (key, values)) : key ∉ dispatch.locked := by
  unfold Dispatch.outcome at found
  split at found
  · cases found
  split at found
  · cases found
  split at found
  · cases found
  rename_i unlocked
  split at found
  · cases found
  cases found
  simpa using unlocked

theorem afterAction_step (consistent : dispatch.Consistent) (action : DispatchAction) :
    OutboxStep dispatch.locked dispatch.outbox (afterAction dispatch action).outbox := by
  cases action with
  | readSequence | giveUp | reserve | check | crash => exact .kept
  | insert publisher =>
    rw [afterAction, Dispatch.insertNext]
    cases pending : dispatch.publishing[publisher]? with
    | none => exact .kept
    | some publish =>
      obtain ⟨event, consumers⟩ := publish
      obtain ⟨positive, assigned⟩ := consistent.publishing _ (List.mem_of_getElem? pending)
      dsimp only
      cases inserted : dispatch.outbox.insert event consumers with
      | error failure => exact .kept
      | ok outbox => exact .inserted event consumers outbox inserted positive assigned
  | commitReservation index =>
    rw [afterAction, Dispatch.commitReservation]
    split
    · exact .kept
    · split
      · exact lease_step _ _
      · exact .kept
  | invoke index call result =>
    rw [afterAction, Dispatch.invoke]
    split <;> exact .kept
  | commitOutcome index answer =>
    rw [afterAction, Dispatch.commitOutcome]
    cases found : dispatch.outcome index answer with
    | none => exact .kept
    | some written =>
      have unlocked := outcome_unlocked found
      apply matched_step
      · exact fun _ => rfl
      · intro row matched
        simp only [Bool.and_eq_true] at matched
        exact reservable_unaccepted matched.2
      · intro row member matched held
        simp only [Bool.and_eq_true, decide_eq_true_eq] at matched
        exact unlocked (matched.1 ▸ held)
  | replay eventId consumerId =>
    rw [afterAction, Dispatch.replay]
    split
    · exact .kept
    · rename_i unlocked
      apply matched_step
      · exact fun _ => rfl
      · intro row matched
        simp only [replayMatches, Bool.and_eq_true] at matched
        exact replayable_unaccepted matched.1.2
      · intro row member matched held
        exact unlocked (List.any_eq_true.mpr ⟨row, member, by simp [matched, held]⟩)
  | skip eventId consumerId =>
    rw [afterAction, Dispatch.skip]
    split
    · exact .kept
    · rename_i unlocked
      apply matched_step
      · exact fun _ => rfl
      · intro row matched
        simp only [Bool.and_eq_true] at matched
        exact skippable_unaccepted matched.2
      · intro row member matched held
        simp only [Bool.and_eq_true, decide_eq_true_eq] at matched
        rw [matched.1] at held
        simp [held] at unlocked

theorem publishing_cases {pending : OutboxRow × List String} (action : DispatchAction)
    (member : pending ∈ (afterAction dispatch action).publishing) :
    pending ∈ dispatch.publishing ∨ ∃ event, pending.1 = OutboxRow.assigned event dispatch.outbox := by
  cases action with
  | readSequence event consumers =>
    rcases List.mem_append.mp member with old | new
    · exact Or.inl old
    · rw [List.mem_singleton] at new
      exact Or.inr ⟨event, by rw [new]⟩
  | insert publisher =>
    rw [afterAction, Dispatch.insertNext] at member
    split at member
    · exact Or.inl member
    · split at member <;> exact Or.inl (List.mem_of_mem_eraseIdx member)
  | giveUp publisher => exact Or.inl (List.mem_of_mem_eraseIdx member)
  | reserve | check | crash => exact Or.inl member
  | commitReservation =>
    rw [afterAction, Dispatch.commitReservation] at member
    split at member
    · exact Or.inl member
    · split at member <;> exact Or.inl member
  | invoke =>
    rw [afterAction, Dispatch.invoke] at member
    split at member <;> exact Or.inl member
  | commitOutcome =>
    rw [afterAction, Dispatch.commitOutcome] at member
    split at member <;> exact Or.inl member
  | replay =>
    rw [afterAction, Dispatch.replay] at member
    split at member <;> exact Or.inl member
  | skip =>
    rw [afterAction, Dispatch.skip] at member
    split at member <;> exact Or.inl member

theorem passes_cases {index : Nat} {pass : Pass} (action : DispatchAction)
    (found : (afterAction dispatch action).passes[index]? = some pass) :
    (∃ limit now, action = .reserve limit now ∧ index = dispatch.passes.length ∧
        pass = { now, reservation := some (dispatch.outbox.reserve limit now dispatch.locked) }) ∨
      ∃ old, dispatch.passes[index]? = some old ∧ PassStep dispatch (afterAction dispatch action) old pass := by
  have kept (found : dispatch.passes[index]? = some pass) :
      ∃ old, dispatch.passes[index]? = some old ∧ PassStep dispatch (afterAction dispatch action) old pass :=
    ⟨pass, found, .kept⟩
  cases action with
  | reserve limit now =>
    by_cases within : index < dispatch.passes.length
    · rw [afterAction, List.getElem?_append_left within] at found
      exact Or.inr (kept found)
    · rw [afterAction, List.getElem?_append_right (by omega), List.getElem?_singleton] at found
      split at found
      · cases found
        exact Or.inl ⟨limit, now, rfl, by omega, rfl⟩
      · cases found
  | check at_ =>
    rcases modify_cases found with same | ⟨old, there, here, rfl⟩
    · exact Or.inr (kept same)
    · exact Or.inr ⟨old, there, .checked rfl⟩
  | crash at_ =>
    rcases modify_cases found with same | ⟨old, there, here, rfl⟩
    · exact Or.inr (kept same)
    · exact Or.inr ⟨old, there, .crashed⟩
  | commitReservation at_ =>
    right
    cases reserved : dispatch.passes[at_]?.bind (·.reservation) with
    | none =>
      simp only [afterAction, Dispatch.commitReservation, reserved] at found
      exact kept found
    | some reservation =>
      by_cases done : reservation.candidates.isEmpty = true
      · simp only [afterAction, Dispatch.commitReservation, reserved, done, if_true] at found
        rcases modify_cases found with same | ⟨old, there, rfl, rfl⟩
        · exact kept same
        · rw [there, Option.bind_some] at reserved
          exact ⟨old, there, .leased reservation reserved⟩
      · simp only [afterAction, Dispatch.commitReservation, reserved, if_neg done] at found
        exact kept found
  | invoke at_ call result =>
    right
    cases listed : dispatch.passes[at_]?.bind (·.calls[call]?) with
    | none =>
      simp only [afterAction, Dispatch.invoke, listed] at found
      exact kept found
    | some item =>
      simp only [afterAction, Dispatch.invoke, listed] at found
      rcases modify_cases found with same | ⟨old, there, rfl, rfl⟩
      · exact kept same
      · rw [there, Option.bind_some] at listed
        exact ⟨old, there, .called call item result listed⟩
  | commitOutcome at_ answer =>
    right
    cases written : dispatch.outcome at_ answer with
    | none =>
      simp only [afterAction, Dispatch.commitOutcome, written] at found
      exact kept found
    | some outcome =>
      simp only [afterAction, Dispatch.commitOutcome, written] at found
      rcases modify_cases found with same | ⟨old, there, here, rfl⟩
      · exact kept same
      · exact ⟨old, there, .written answer⟩
  | readSequence | giveUp => exact Or.inr (kept found)
  | insert =>
    right
    simp only [afterAction, Dispatch.insertNext] at found
    repeat' split at found
    all_goals exact kept found
  | replay =>
    right
    simp only [afterAction, Dispatch.replay] at found
    split at found <;> exact kept found
  | skip =>
    right
    simp only [afterAction, Dispatch.skip] at found
    split at found <;> exact kept found

theorem mem_locked {pass : Pass} {reservation : Reservation} (present : pass ∈ dispatch.passes)
    (open_ : pass.reservation = some reservation) {key : String × String} (held : key ∈ reservation.locked) :
    key ∈ dispatch.locked := by
  refine List.mem_flatMap.mpr ⟨pass, present, ?_⟩
  rw [Pass.locked, open_]
  exact held

theorem Pass.Sound.carried {after : Dispatch} {old pass : Pass} (sound : old.Sound dispatch.outbox)
    (goesOn : PassStep dispatch after old pass) (step : OutboxStep dispatch.locked dispatch.outbox after.outbox)
    (sequenced : Sequenced dispatch.outbox)
    (mine : ∀ reservation, old.reservation = some reservation → ∀ key ∈ reservation.locked, key ∈ dispatch.locked) :
    pass.Sound after.outbox := by
  have open_ (reservation : Reservation) (held : old.reservation = some reservation) :
      reservation.Sound after.outbox :=
    (sound.reservation reservation held).carried step sequenced (mine reservation held)
  have behind (item : ReservedDelivery)
      (ordered : item.event ∈ dispatch.outbox.events ∧ Ordered item dispatch.outbox) :
      item.event ∈ after.outbox.events ∧ Ordered item after.outbox :=
    ⟨step.events ordered.1, step.ordered sequenced ordered.1 ordered.2⟩
  have calls (item : ReservedDelivery) (listed : item ∈ old.calls) :
      item.event ∈ after.outbox.events ∧ Ordered item after.outbox := behind item (sound.calls item listed)
  cases goesOn with
  | kept => exact ⟨open_, calls⟩
  | checked same =>
    refine ⟨?_, calls⟩
    intro reservation found
    obtain ⟨before, held, rfl⟩ := Option.map_eq_some_iff.mp found
    rw [same]
    exact check_sound sequenced (sound.reservation before held)
  | leased reservation held =>
    constructor
    · rintro other ⟨⟩
    intro item listed
    obtain ⟨present, -, ordered⟩ := (sound.reservation reservation held).reserved item listed
    exact behind item ⟨present, ordered⟩
  | called call item result listed =>
    exact ⟨open_, fun item listed => calls item (List.mem_of_mem_eraseIdx listed)⟩
  | written answer => exact ⟨open_, calls⟩
  | crashed =>
    constructor
    · rintro other ⟨⟩
    · exact fun item listed => absurd listed List.not_mem_nil

theorem afterAction_consistent (consistent : dispatch.Consistent) (action : DispatchAction) :
    (afterAction dispatch action).Consistent := by
  have step := afterAction_step consistent action
  have sequenced := consistent.sequenced
  refine ⟨step.sequenced sequenced, ?_, ?_⟩
  · intro pending member
    rcases publishing_cases action member with old | ⟨event, assigned⟩
    · obtain ⟨positive, bound⟩ := consistent.publishing pending old
      exact ⟨positive, bound.trans (step.nextSequence _)⟩
    · rw [assigned]
      exact ⟨Nat.succ_pos _, step.nextSequence _⟩
  · intro pass member
    obtain ⟨index, found⟩ := List.mem_iff_getElem?.mp member
    rcases passes_cases action found with ⟨limit, now, rfl, -, rfl⟩ | ⟨old, there, goesOn⟩
    · constructor
      · rintro reservation ⟨⟩
        exact reserve_sound sequenced limit now
      · exact fun item listed => absurd listed List.not_mem_nil
    · have present := List.mem_of_getElem? there
      exact (consistent.passes old present).carried goesOn step sequenced fun _ held _ => mem_locked present held

theorem consistent_empty : ({} : Dispatch).Consistent :=
  ⟨Sequenced.empty, fun _ member => absurd member List.not_mem_nil, fun _ member => absurd member List.not_mem_nil⟩

theorem actions_consistent (actions : List DispatchAction) (consistent : dispatch.Consistent) :
    (actions.foldl afterAction dispatch).Consistent := by
  induction actions generalizing dispatch with
  | nil => exact consistent
  | cons action rest ih => exact ih (afterAction_consistent consistent action)

theorem actions_status {key : String × String} {status : DeliveryStatus} (actions : List DispatchAction)
    (consistent : dispatch.Consistent) (held : dispatch.outbox.status key = some status)
    (accepted : terminalAccepted status = true) :
    (actions.foldl afterAction dispatch).outbox.status key = some status := by
  induction actions generalizing dispatch with
  | nil => exact held
  | cons action rest ih =>
    exact ih (afterAction_consistent consistent action) ((afterAction_step consistent action).status held accepted)

end Run

/-- Deliveries keep the order of their streams: over any interleaving a handler is called for an event only behind
    delivered and waived ones, a batch takes at most one event of a stream, and what is accepted stays so. -/
theorem outbox_delivery_order (actions : List DispatchAction) :
    (∀ action item, Invokes (dispatched actions) action item → Ordered item (dispatched actions).outbox) ∧
    (∀ pass ∈ (dispatched actions).passes, ∀ reservation, pass.reservation = some reservation →
      (reservation.reserved.map ReservedDelivery.stream).Nodup) ∧
    ∀ key status, terminalAccepted status = true → (dispatched actions).outbox.status key = some status →
      ∀ later, (dispatched (actions ++ later)).outbox.status key = some status := by
  have consistent : (dispatched actions).Consistent := actions_consistent actions consistent_empty
  refine ⟨?_, ?_, ?_⟩
  · rintro action item ⟨index, call, result, pass, -, found, called⟩
    exact ((consistent.passes pass (List.mem_of_getElem? found)).calls item (List.mem_of_getElem? called)).2
  · intro pass member reservation found
    exact ((consistent.passes pass member).reservation reservation found).streams
  · intro key status accepted held later
    rw [dispatched, List.foldl_append]
    exact actions_status later consistent held accepted

def completedEvent (eventId : String) (occurredAt : Timestamp) : OutboxRow :=
  { eventId, eventType := stageCompletedType, changeId := "change-1", runId := "run-1", stage := some .specification
    aggregateId := "run-1", aggregateVersion := 1, causationId := none, sequence := 0, occurredAt
    payload :=
      { attemptNumber := 1, resultStatus := .succeeded, stageStatus := .succeeded, runStatus := .running
        nextAction := .executeStage, nextStage := some .planning } }

def failingHead : List DispatchAction :=
  [.readSequence (completedEvent "event-1" 0) ["tracker"], .insert 0, .readSequence (completedEvent "event-2" 1) ["tracker"],
    .insert 0, .reserve 10 5, .check 0, .check 0, .commitReservation 0,
    .invoke 0 0 (.raised { message := "tracker is down", className := "ConnectionError" }), .commitOutcome 0 0]

-- The second event waits behind the failed one, which is not due again yet.
example : ((dispatched (failingHead ++ [.reserve 10 6, .check 1, .commitReservation 1])).passes.map
      fun pass => pass.calls.map (·.event.eventId)) = [[], []] ∧
    (dispatched failingHead).outbox.status ("event-1", "tracker") = some .failed := by
  decide +kernel

end DarkFactory
