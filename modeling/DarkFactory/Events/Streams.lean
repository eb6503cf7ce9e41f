import DarkFactory.Events.Rows
import DarkFactory.Lib.Sequence

namespace DarkFactory

def Outbox.status (key : String × String) (outbox : Outbox) : Option DeliveryStatus :=
  (outbox.delivery key).map (·.status)

def Outbox.sequences (aggregateId : String) (outbox : Outbox) : List Nat :=
  (outbox.events.filter (·.aggregateId = aggregateId)).map (·.sequence)

def Ordered (item : ReservedDelivery) (outbox : Outbox) : Prop :=
  ∀ event ∈ outbox.events, ∀ row ∈ outbox.deliveries, row.eventId = event.eventId → row.consumerId = item.consumerId →
    event.aggregateId = item.event.aggregateId → event.sequence < item.event.sequence →
    terminalAccepted row.status = true

def Held (key : String × String) (outbox : Outbox) : Prop :=
  ∃ row ∈ outbox.deliveries, row.key = key ∧ reservable row.status = true

/-- Events have ids and sequences of their own, the sequences without a gap, and deliveries have events. -/
structure Sequenced (outbox : Outbox) : Prop where
  ids : Table.Unique (fun row : OutboxRow => row.eventId) outbox.events
  own : ∀ event ∈ outbox.events, ∀ other ∈ outbox.events, event.aggregateId = other.aggregateId →
    event.sequence = other.sequence → event = other
  full : ∀ aggregateId, Sequence.Full (outbox.sequences aggregateId)
  deliveries : Table.Unique DeliveryRow.key outbox.deliveries
  owners : ∀ row ∈ outbox.deliveries, ∃ event ∈ outbox.events, event.eventId = row.eventId

inductive OutboxStep (locked : List (String × String)) (before : Outbox) : Outbox → Prop
  | kept : OutboxStep locked before before
  | inserted (event : OutboxRow) (consumers : List String) (after : Outbox)
      (inserted : before.insert event consumers = .ok after) (positive : 1 ≤ event.sequence)
      (assigned : event.sequence ≤ before.nextSequence event.aggregateId) : OutboxStep locked before after
  | changed (f : DeliveryRow → DeliveryRow) (keys : ∀ row, (f row).key = row.key)
      (accepted : ∀ row, terminalAccepted row.status = true → (f row).status = row.status)
      (untouched : ∀ row ∈ before.deliveries, row.key ∈ locked → (f row).status = row.status) :
      OutboxStep locked before { before with deliveries := before.deliveries.map f }

section Statuses

variable {status : DeliveryStatus}

theorem reservable_unaccepted (held : reservable status = true) : terminalAccepted status = false := by
  revert held
  cases status <;> decide

theorem replayable_unaccepted (held : replayable status = true) : terminalAccepted status = false := by
  revert held
  cases status <;> decide

theorem skippable_unaccepted (held : skippable status = true) : terminalAccepted status = false := by
  revert held
  cases status <;> decide

end Statuses

section Tables

variable {outbox before after : Outbox} {locked : List (String × String)} {event : OutboxRow} {consumers : List String}
  {item : ReservedDelivery} {key : String × String}

theorem mem_sequences {aggregateId : String} {n : Nat} :
    n ∈ outbox.sequences aggregateId ↔ ∃ event ∈ outbox.events, event.aggregateId = aggregateId ∧ event.sequence = n := by
  simp [Outbox.sequences, and_assoc]

theorem insert_ok (inserted : before.insert event consumers = .ok after) :
    (∀ other ∈ before.events, other.eventId ≠ event.eventId) ∧
      event.sequence ∉ before.sequences event.aggregateId ∧ consumers.Nodup ∧
      after = { events := before.events ++ [event]
                deliveries := before.deliveries ++
                  consumers.map fun consumerId => { eventId := event.eventId, consumerId } } := by
  unfold Outbox.insert at inserted
  split at inserted
  · cases inserted
  rename_i known
  split at inserted
  · cases inserted
  rename_i taken
  split at inserted
  · cases inserted
  rename_i distinct
  cases inserted
  refine ⟨by simpa using known, ?_, not_not.mp distinct, rfl⟩
  intro member
  obtain ⟨other, present, same, sequence⟩ := mem_sequences.mp member
  exact taken (List.any_eq_true.mpr ⟨other, present, by simp [same, sequence]⟩)

theorem insert_eq (fresh : ∀ other ∈ before.events, other.eventId ≠ event.eventId)
    (absent : event.sequence ∉ before.sequences event.aggregateId) (distinct : consumers.Nodup) :
    before.insert event consumers = .ok
      { events := before.events ++ [event]
        deliveries := before.deliveries ++
          consumers.map fun consumerId => { eventId := event.eventId, consumerId } } := by
  unfold Outbox.insert
  rw [if_neg, if_neg, if_neg (not_not.mpr distinct)]
  · intro taken
    obtain ⟨other, present, same⟩ := List.any_eq_true.mp taken
    simp only [Bool.and_eq_true, decide_eq_true_eq] at same
    exact absent (mem_sequences.mpr ⟨other, present, same.1, same.2⟩)
  · simpa using fresh

theorem Sequenced.empty : Sequenced {} := by
  refine ⟨Table.Unique.nil, ?_, ?_, Table.Unique.nil, ?_⟩
  · intro event member
    cases member
  · intro aggregateId
    exact Sequence.Full.nil
  · intro row member
    cases member

theorem sequences_appended (event : OutboxRow) (aggregateId : String) (deliveries : List DeliveryRow) :
    ({ events := outbox.events ++ [event], deliveries } : Outbox).sequences aggregateId =
      outbox.sequences aggregateId ++ if event.aggregateId = aggregateId then [event.sequence] else [] := by
  unfold Outbox.sequences
  rw [List.filter_append, List.map_append]
  congr 1
  by_cases own : event.aggregateId = aggregateId <;> simp [own]

theorem OutboxStep.sequenced (step : OutboxStep locked before after) (sequenced : Sequenced before) :
    Sequenced after := by
  cases step with
  | kept => exact sequenced
  | inserted event consumers _ inserted positive assigned =>
    obtain ⟨fresh, absent, distinct, rfl⟩ := insert_ok inserted
    have last := (sequenced.full event.aggregateId).next_of_absent positive assigned absent
    refine ⟨?_, ?_, ?_, ?_, ?_⟩
    · exact Table.Unique.append sequenced.ids fresh
    · intro one oneMember two twoMember aggregates sequences
      rw [List.mem_append, List.mem_singleton] at oneMember twoMember
      rcases oneMember with first | rfl <;> rcases twoMember with second | rfl
      · exact sequenced.own one first two second aggregates sequences
      · exact absurd (mem_sequences.mpr ⟨one, first, aggregates, sequences⟩) absent
      · exact absurd (mem_sequences.mpr ⟨two, second, aggregates.symm, sequences.symm⟩) absent
      · rfl
    · intro aggregateId
      rw [sequences_appended]
      by_cases own : event.aggregateId = aggregateId
      · subst own
        rw [if_pos rfl, last]
        exact (sequenced.full event.aggregateId).snoc
      · rw [if_neg own, List.append_nil]
        exact sequenced.full aggregateId
    · rw [Table.Unique, List.map_append, List.map_map, List.nodup_append]
      refine ⟨sequenced.deliveries, distinct.map fun _ _ same => (Prod.mk.inj same).2, ?_⟩
      intro key old other new same
      subst same
      obtain ⟨row, present, rfl⟩ := List.mem_map.mp old
      obtain ⟨consumerId, -, equal⟩ := List.mem_map.mp new
      obtain ⟨owner, owning, owned⟩ := sequenced.owners row present
      exact fresh owner owning (owned.trans (congrArg Prod.fst equal).symm)
    · intro row member
      rcases List.mem_append.mp member with old | new
      · obtain ⟨owner, present, same⟩ := sequenced.owners row old
        exact ⟨owner, List.mem_append_left _ present, same⟩
      · obtain ⟨consumerId, -, rfl⟩ := List.mem_map.mp new
        exact ⟨event, List.mem_append_right _ List.mem_cons_self, rfl⟩
  | changed f keys accepted untouched =>
    refine ⟨sequenced.ids, sequenced.own, sequenced.full, ?_, ?_⟩
    · rw [Table.Unique, List.map_map, show DeliveryRow.key ∘ f = DeliveryRow.key from funext keys]
      exact sequenced.deliveries
    intro row member
    obtain ⟨old, present, rfl⟩ := List.mem_map.mp member
    rw [show (f old).eventId = old.eventId from congrArg Prod.fst (keys old)]
    exact sequenced.owners old present

theorem OutboxStep.events (step : OutboxStep locked before after) (member : event ∈ before.events) :
    event ∈ after.events := by
  cases step with
  | kept => exact member
  | inserted new consumers _ inserted =>
    obtain ⟨-, -, -, rfl⟩ := insert_ok inserted
    exact List.mem_append_left _ member
  | changed => exact member

theorem OutboxStep.nextSequence (step : OutboxStep locked before after) (aggregateId : String) :
    before.nextSequence aggregateId ≤ after.nextSequence aggregateId := by
  apply Sequence.next_mono
  intro n member
  obtain ⟨event, present, own, same⟩ := mem_sequences.mp member
  exact mem_sequences.mpr ⟨event, step.events present, own, same⟩

theorem OutboxStep.status {reached : DeliveryStatus} (step : OutboxStep locked before after)
    (held : before.status key = some reached) (accepted : terminalAccepted reached = true) :
    after.status key = some reached := by
  obtain ⟨row, found, rfl⟩ := Option.map_eq_some_iff.mp held
  rw [Outbox.delivery] at found
  rw [Outbox.status, Outbox.delivery]
  cases step with
  | kept => rw [found, Option.map_some]
  | inserted event consumers _ inserted =>
    obtain ⟨-, -, -, rfl⟩ := insert_ok inserted
    rw [Table.find, List.find?_append, ← Table.find, found, Option.some_or, Option.map_some]
  | changed f keys preserved untouched =>
    rw [Table.find_map keys, found, Option.map_some, Option.map_some, preserved row accepted]

theorem OutboxStep.held (step : OutboxStep locked before after) (held : Held key before) (kept : key ∈ locked) :
    Held key after := by
  obtain ⟨row, member, rfl, waiting⟩ := held
  cases step with
  | kept => exact ⟨row, member, rfl, waiting⟩
  | inserted event consumers _ inserted =>
    obtain ⟨-, -, -, rfl⟩ := insert_ok inserted
    exact ⟨row, List.mem_append_left _ member, rfl, waiting⟩
  | changed f keys accepted untouched =>
    exact ⟨f row, List.mem_map_of_mem member, keys row, by rw [untouched row member kept, waiting]⟩

theorem OutboxStep.ordered (step : OutboxStep locked before after) (sequenced : Sequenced before)
    (present : item.event ∈ before.events) (ordered : Ordered item before) : Ordered item after := by
  cases step with
  | kept => exact ordered
  | inserted event consumers _ inserted positive assigned =>
    obtain ⟨fresh, absent, -, rfl⟩ := insert_ok inserted
    have last := (sequenced.full event.aggregateId).next_of_absent positive assigned absent
    intro other otherMember row rowMember owns consumer aggregate earlier
    rcases List.mem_append.mp otherMember with old | new
    · rcases List.mem_append.mp rowMember with held | added
      · exact ordered other old row held owns consumer aggregate earlier
      · obtain ⟨consumerId, -, rfl⟩ := List.mem_map.mp added
        exact absurd owns.symm (fresh other old)
    · rw [List.mem_singleton] at new
      subst new
      have below : item.event.sequence < Sequence.next (before.sequences other.aggregateId) :=
        Sequence.lt_next (mem_sequences.mpr ⟨item.event, present, aggregate.symm, rfl⟩)
      omega
  | changed f keys accepted untouched =>
    intro other otherMember row rowMember owns consumer aggregate earlier
    obtain ⟨old, member, rfl⟩ := List.mem_map.mp rowMember
    obtain ⟨sameEvent, sameConsumer⟩ := Prod.mk.inj (keys old)
    have settled := ordered other otherMember old member (sameEvent.symm.trans owns) (sameConsumer.symm.trans consumer)
      aggregate earlier
    rw [accepted old settled]
    exact settled

end Tables

section Gate

variable {outbox : Outbox}

theorem minUndelivered_le {deliveries : List (Nat × DeliveryStatus)} {sequence : Nat} {status : DeliveryStatus}
    (member : (sequence, status) ∈ deliveries) (waits : isUndelivered status = true) :
    ∃ minimum, minUndeliveredSequence deliveries = some minimum ∧ minimum ≤ sequence := by
  have listed : sequence ∈ (deliveries.filter fun delivery => isUndelivered delivery.2).map Prod.fst :=
    List.mem_map.mpr ⟨(sequence, status), List.mem_filter.mpr ⟨member, waits⟩, rfl⟩
  unfold minUndeliveredSequence
  cases smallest : ((deliveries.filter fun delivery => isUndelivered delivery.2).map Prod.fst).min? with
  | none =>
    rw [List.min?_eq_none_iff] at smallest
    rw [smallest] at listed
    cases listed
  | some minimum => exact ⟨minimum, rfl, (List.min?_eq_some_iff.mp smallest).2 sequence listed⟩

theorem mem_joined (sequenced : Sequenced outbox) {event : OutboxRow} {row : DeliveryRow} :
    (event, row) ∈ outbox.joined ↔ event ∈ outbox.events ∧ row ∈ outbox.deliveries ∧ event.eventId = row.eventId := by
  simp only [Outbox.joined, List.mem_filterMap, Option.map_eq_some_iff, Prod.mk.injEq]
  constructor
  · rintro ⟨held, member, found, located, rfl, rfl⟩
    obtain ⟨present, same⟩ := Table.find_some located
    exact ⟨present, member, same⟩
  · rintro ⟨present, member, same⟩
    refine ⟨row, member, event, ?_, rfl, rfl⟩
    rw [← same]
    exact sequenced.ids.find present

theorem joined_deliveries (outbox : Outbox) :
    outbox.joined.map Prod.snd = outbox.deliveries.filter fun row => (outbox.event row.eventId).isSome := by
  rw [Outbox.joined, List.map_filterMap, ← List.filterMap_eq_filter]
  congr 1
  funext row
  cases found : outbox.event row.eventId <;> simp [Option.guard, found]

theorem mem_candidates (sequenced : Sequenced outbox) {limit : Nat} {now : Timestamp} {locked : List (String × String)}
    {row : OutboxRow × DeliveryRow} (member : row ∈ outbox.candidates limit now locked) :
    row.1 ∈ outbox.events ∧ row.2 ∈ outbox.deliveries ∧ row.1.eventId = row.2.eventId ∧
      reservable row.2.status = true := by
  have sorted := List.mem_of_mem_take member
  rw [List.mem_insertionSort, List.mem_filter] at sorted
  obtain ⟨joined, admitted⟩ := sorted
  obtain ⟨present, delivery, same⟩ := (mem_joined sequenced).mp joined
  simp only [Bool.and_eq_true] at admitted
  exact ⟨present, delivery, same, admitted.1.1⟩

theorem candidates_keys (sequenced : Sequenced outbox) (limit : Nat) (now : Timestamp)
    (locked : List (String × String)) : ((outbox.candidates limit now locked).map (·.2.key)).Nodup := by
  have all : (outbox.joined.map (·.2.key)).Nodup := by
    rw [show (fun row : OutboxRow × DeliveryRow => row.2.key) = DeliveryRow.key ∘ Prod.snd from rfl, ← List.map_map,
      joined_deliveries]
    exact sequenced.deliveries.sublist (List.filter_sublist.map _)
  have sorted := ((List.perm_insertionSort (fun left right => candidateBefore left right = true)
    (outbox.joined.filter fun row =>
      reservable row.2.status && due now row.2 && !locked.contains row.2.key)).map (·.2.key)).nodup_iff.mpr
    (all.sublist (List.filter_sublist.map _))
  exact sorted.sublist ((List.take_sublist _ _).map _)

/-- The gate lets a candidate through only behind delivered and waived events. -/
theorem ordered_of_eligible (sequenced : Sequenced outbox) {item : ReservedDelivery}
    (eligible : orderingEligible item.event.sequence
      (outbox.minUndelivered item.consumerId item.event.aggregateId) = true) : Ordered item outbox := by
  intro event present row member owns consumer aggregate earlier
  by_contra unaccepted
  have waits : isUndelivered row.status = true := by simpa [isUndelivered] using unaccepted
  have joined : (event, row) ∈ outbox.joined := (mem_joined sequenced).mpr ⟨present, member, owns.symm⟩
  have listed : (event.sequence, row.status) ∈ (outbox.joined.filter fun row =>
      row.2.consumerId = item.consumerId ∧ row.1.aggregateId = item.event.aggregateId).map
        fun row => (row.1.sequence, row.2.status) :=
    List.mem_map.mpr ⟨(event, row), List.mem_filter.mpr ⟨joined, decide_eq_true ⟨consumer, aggregate⟩⟩, rfl⟩
  obtain ⟨minimum, found, bound⟩ := minUndelivered_le listed waits
  rw [Outbox.minUndelivered, found, orderingEligible] at eligible
  simp only [Option.isNone_some, Bool.false_or, decide_eq_true_eq, Option.some.injEq] at eligible
  omega

end Gate

end DarkFactory
