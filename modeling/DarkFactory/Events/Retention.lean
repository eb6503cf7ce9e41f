import DarkFactory.Events.Dispatch
import DarkFactory.Lib.Trace

namespace DarkFactory

structure Retained where
  outbox : Outbox := {}
  assigned : List (String × Nat) := []
  deriving DecidableEq, Repr

inductive RetentionStep
  | publish (event : OutboxRow) (consumers : List String)
  | cleanup (now : Timestamp) (retentionDays : Int)
  | commitOutcome (key : String × String) (values : OutcomeValues)
  | replay (eventId : String) (consumerId : Option String)
  | skip (eventId consumerId : String)
  deriving DecidableEq, Repr

def afterRetention (retained : Retained) : RetentionStep → Retained
  | .publish event consumers =>
    match retained.outbox.publish event consumers with
    | .error _ => retained
    | .ok outbox =>
      { outbox
        assigned := retained.assigned ++ [(event.aggregateId, (event.assigned retained.outbox).sequence)] }
  | .cleanup now retentionDays => { retained with outbox := (retained.outbox.cleanup now retentionDays).2 }
  | .commitOutcome key values => { retained with outbox := (retained.outbox.commitOutcome key values).2 }
  | .replay eventId consumerId => { retained with outbox := (retained.outbox.replay eventId consumerId).2 }
  | .skip eventId consumerId => { retained with outbox := (retained.outbox.skip eventId consumerId).2 }

def retained (steps : List RetentionStep) : Retained := steps.foldl afterRetention {}

def Retained.numbers (aggregateId : String) (retained : Retained) : List Nat :=
  (retained.assigned.filter (·.1 = aggregateId)).map Prod.snd

/-- A publish that the keys let through finds the last event of its aggregate in the outbox: no cleanup deleted it. -/
def LastKept (retained : Retained) : RetentionStep → Prop
  | .publish event consumers =>
    (∀ other ∈ retained.outbox.events, other.eventId ≠ event.eventId) → consumers.Nodup →
      ∀ last, (retained.numbers event.aggregateId).getLast? = some last →
        last ∈ retained.outbox.sequences event.aggregateId
  | _ => True

def Increasing (retained : Retained) : Prop := ∀ aggregateId, (retained.numbers aggregateId).Pairwise (· < ·)

structure Recorded (retained : Retained) : Prop where
  positive : ∀ aggregateId, ∀ n ∈ retained.numbers aggregateId, 1 ≤ n
  stored : ∀ aggregateId, ∀ n ∈ retained.outbox.sequences aggregateId, n ∈ retained.numbers aggregateId

def Outbox.inStore (outbox : Outbox) (store : Store) : Store :=
  { store with
    outbox := outbox.events.map OutboxRow.toOutboxEvent
    deliveries := outbox.deliveries.map DeliveryRow.toEventDelivery }

theorem publish_inStore {outbox after : Outbox} {event : OutboxRow} {consumers : List String}
    (published : outbox.publish event consumers = .ok after) (store : Store) :
    publish event.toOutboxEvent consumers (outbox.inStore store) = .ok () (after.inStore store) := by
  obtain ⟨fresh, -, -, rfl⟩ := insert_ok published
  have absent : Table.find OutboxEvent.eventId event.eventId (outbox.inStore store).outbox = none := by
    rw [Table.find_none]
    intro row member
    obtain ⟨other, present, rfl⟩ := List.mem_map.mp member
    exact fresh other present
  have sequence : nextSequence event.aggregateId (outbox.inStore store) = outbox.nextSequence event.aggregateId := by
    simp only [nextSequence, Outbox.nextSequence, Outbox.inStore, List.filter_map, List.map_map]
    rfl
  refine Outcome.perform_ok.mpr ?_
  rw [show event.toOutboxEvent.eventId = event.eventId from rfl, absent]
  dsimp only
  rw [show event.toOutboxEvent.aggregateId = event.aggregateId from rfl, sequence]
  simp only [Outbox.inStore, OutboxRow.assigned, List.map_append, List.map_map, List.map_cons, List.map_nil]
  rfl

section Steps

variable {state : Retained} {event : OutboxRow} {consumers : List String} {after : Outbox}

theorem Outbox.publish_ok (published : state.outbox.publish event consumers = .ok after) :
    (∀ other ∈ state.outbox.events, other.eventId ≠ event.eventId) ∧ consumers.Nodup ∧
      ∀ aggregateId, after.sequences aggregateId = state.outbox.sequences aggregateId ++
        if event.aggregateId = aggregateId then [state.outbox.nextSequence event.aggregateId] else [] := by
  obtain ⟨fresh, -, distinct, rfl⟩ := insert_ok published
  exact ⟨fresh, distinct, fun aggregateId => sequences_appended _ _ _⟩

theorem Outbox.publish_goes_through (fresh : ∀ other ∈ state.outbox.events, other.eventId ≠ event.eventId)
    (distinct : consumers.Nodup) : ∃ after, state.outbox.publish event consumers = .ok after :=
  ⟨_, insert_eq fresh (fun member => absurd (Sequence.lt_next member) (lt_irrefl _)) distinct⟩

theorem numbers_snoc (assigned : List (String × Nat)) (outbox : Outbox) (owner aggregateId : String) (n : Nat) :
    ({ outbox, assigned := assigned ++ [(owner, n)] } : Retained).numbers aggregateId =
      ({ outbox, assigned } : Retained).numbers aggregateId ++ if owner = aggregateId then [n] else [] := by
  unfold Retained.numbers
  rw [List.filter_append, List.map_append]
  congr 1
  by_cases own : owner = aggregateId <;> simp [own]

theorem Recorded.shrunk (recorded : Recorded state) (events : ∀ event ∈ after.events, event ∈ state.outbox.events) :
    Recorded { state with outbox := after } := by
  refine ⟨recorded.positive, ?_⟩
  intro aggregateId n member
  obtain ⟨event, present, own, same⟩ := mem_sequences.mp member
  exact recorded.stored aggregateId n (mem_sequences.mpr ⟨event, events event present, own, same⟩)

theorem afterRetention_recorded (recorded : Recorded state) (step : RetentionStep) :
    Recorded (afterRetention state step) := by
  cases step with
  | publish event consumers =>
    rw [afterRetention]
    cases published : state.outbox.publish event consumers with
    | error failure => exact recorded
    | ok after =>
      obtain ⟨-, -, sequences⟩ := Outbox.publish_ok published
      constructor
      · intro aggregateId n member
        rw [numbers_snoc, List.mem_append] at member
        rcases member with old | new
        · exact recorded.positive aggregateId n old
        · split at new
          · rw [List.mem_singleton.mp new]
            exact Nat.succ_pos _
          · cases new
      · intro aggregateId n member
        rw [sequences, List.mem_append] at member
        rw [numbers_snoc, List.mem_append]
        rcases member with old | new
        · exact Or.inl (recorded.stored aggregateId n old)
        · exact Or.inr new
  | cleanup now retentionDays => exact recorded.shrunk fun event member => List.mem_of_mem_filter member
  | commitOutcome | replay | skip => exact recorded.shrunk fun event member => member

/-- A step keeps the order exactly when it is no publish behind the back of its aggregate's last event. -/
theorem afterRetention_increasing (recorded : Recorded state) (increasing : Increasing state) (step : RetentionStep) :
    Increasing (afterRetention state step) ↔ LastKept state step := by
  cases step with
  | publish event consumers =>
    rw [afterRetention]
    cases published : state.outbox.publish event consumers with
    | error failure =>
      refine ⟨fun _ fresh distinct => ?_, fun _ => increasing⟩
      obtain ⟨after, through⟩ := Outbox.publish_goes_through fresh distinct
      rw [published] at through
      cases through
    | ok after =>
      obtain ⟨fresh, distinct, -⟩ := Outbox.publish_ok published
      have kept : LastKept state (.publish event consumers) ↔
          ∀ n ∈ state.numbers event.aggregateId, n < state.outbox.nextSequence event.aggregateId := by
        rw [LastKept, Outbox.nextSequence]
        rw [show ((state.outbox.events.filter (·.aggregateId = event.aggregateId)).map (·.sequence)).foldl max 0 + 1 =
          Sequence.next (state.outbox.sequences event.aggregateId) from rfl]
        rw [Sequence.next_above_iff (increasing _) (recorded.positive _) (recorded.stored _)]
        exact ⟨fun kept => kept fresh distinct, fun kept _ _ => kept⟩
      rw [kept]
      constructor
      · intro ordered n member
        have pairwise := ordered event.aggregateId
        rw [numbers_snoc, if_pos rfl, Sequence.increasing_snoc] at pairwise
        exact pairwise.2 n member
      · intro above aggregateId
        rw [numbers_snoc]
        by_cases own : event.aggregateId = aggregateId
        · rw [if_pos own, Sequence.increasing_snoc]
          subst own
          exact ⟨increasing _, above⟩
        · rw [if_neg own, List.append_nil]
          exact increasing aggregateId
  | cleanup | commitOutcome | replay | skip => exact ⟨fun _ => trivial, fun _ => increasing⟩

theorem recorded_empty : Recorded {} := by
  constructor
  · intro aggregateId n member
    cases member
  · intro aggregateId n member
    cases member

end Steps

/-- The sequences assigned to each aggregate increase over the whole life of the outbox exactly when every publish
    finds the last event of its aggregate still stored. -/
theorem sequences_increase_iff (steps : List RetentionStep) :
    Trace.Along afterRetention LastKept {} steps ↔
      ∀ before after, steps = before ++ after →
        ∀ aggregateId, ((retained before).numbers aggregateId).Pairwise (· < ·) := by
  have keeps (state : Retained) (step : RetentionStep) (recorded : Recorded state) (_ : Increasing state) :
      Recorded (afterRetention state step) := afterRetention_recorded recorded step
  have exactly (state : Retained) (step : RetentionStep) (recorded : Recorded state) (increasing : Increasing state) :
      Increasing (afterRetention state step) ↔ LastKept state step := afterRetention_increasing recorded increasing step
  exact Trace.along_iff_under keeps exactly recorded_empty fun _ => List.Pairwise.nil

def cleanedUp : List RetentionStep :=
  [.publish (completedEvent "event-1" 0) ["tracker"],
    .commitOutcome ("event-1", "tracker") { status := .delivered, attempts := 1 }, .cleanup (days 31) retentionDays,
    .publish (completedEvent "event-2" (days 31)) ["tracker"]]

/-- The second event of the run is given the sequence of the first. -/
theorem cleaned_up_sequence_reused :
    ¬ ∀ steps aggregateId, ((retained steps).numbers aggregateId).Pairwise (· < ·) := by
  intro increasing
  have reused : (retained cleanedUp).numbers "run-1" = [1, 1] := by decide +kernel
  have pairwise := increasing cleanedUp "run-1"
  rw [reused] at pairwise
  revert pairwise
  decide

end DarkFactory
