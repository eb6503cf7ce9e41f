import DarkFactory.Events.Retention

namespace DarkFactory

def AllAccepted (outbox : Outbox) (event : OutboxRow) : Prop :=
  ∀ row ∈ outbox.deliveries, row.eventId = event.eventId → row.status = .delivered ∨ row.status = .waived

def Outbox.deleteEvents (ids : List String) (outbox : Outbox) : Outbox :=
  { events := outbox.events.filter fun event => !ids.contains event.eventId
    deliveries := outbox.deliveries.filter fun row => !ids.contains row.eventId }

def Outbox.eligible (now : Timestamp) (retentionDays : Int) (outbox : Outbox) : List String :=
  (outbox.events.filter (outbox.expired now retentionDays)).map (·.eventId)

/-! ## One pass -/

/-- What a pass deletes: the settled events whose occurrence is the retention period back, with their deliveries. -/
structure CleansExactly (now : Timestamp) (retentionDays : Int) (outbox : Outbox) (ids : List String)
    (after : Outbox) : Prop where
  events : after.events.Sublist outbox.events
  deleted : ∀ event ∈ outbox.events,
    event ∉ after.events ↔ AllAccepted outbox event ∧ event.occurredAt + days retentionDays ≤ now
  deliveries : ∀ row, row ∈ after.deliveries ↔
    row ∈ outbox.deliveries ∧ ∀ event ∈ outbox.events, event.eventId = row.eventId → event ∈ after.events
  sorted : ids.Pairwise (· ≤ ·)
  distinct : ids.Nodup
  reported : ∀ id, id ∈ ids ↔ ∃ event ∈ outbox.events, event ∉ after.events ∧ event.eventId = id

instance (outbox : Outbox) (event : OutboxRow) : Decidable (AllAccepted outbox event) :=
  inferInstanceAs (Decidable (∀ row ∈ outbox.deliveries, _ → _))

/-! ## Passes among other transactions -/

structure Cleaning where
  retained : Retained := {}
  passes : List (List String) := []

/-- The two statements of a pass, and what other transactions commit. -/
inductive CleaningStep
  | read (now : Timestamp) (retentionDays : Int)
  | delete (pass : Nat)
  | other (step : RetentionStep)

def afterCleaning (cleaning : Cleaning) : CleaningStep → Cleaning
  | .read now retentionDays =>
    { cleaning with passes := cleaning.passes ++ [cleaning.retained.outbox.eligible now retentionDays] }
  | .delete pass =>
    match cleaning.passes[pass]? with
    | none => cleaning
    | some ids =>
      { retained := { cleaning.retained with outbox := cleaning.retained.outbox.deleteEvents ids }
        passes := cleaning.passes.eraseIdx pass }
  | .other step => { cleaning with retained := afterRetention cleaning.retained step }

/-- Some delivery of the event is neither delivered nor waived when the step is taken. -/
def Pending (event : OutboxRow) (cleaning : Cleaning) (_ : CleaningStep) : Prop :=
  ¬ AllAccepted cleaning.retained.outbox event

def Unread (cleaning : Cleaning) (event : OutboxRow) : Prop := ∀ ids ∈ cleaning.passes, event.eventId ∉ ids

section Pass

variable {outbox : Outbox} {event : OutboxRow} {now : Timestamp} {retentionDays : Int}

theorem allAccepted_iff : AllAccepted outbox event ↔
    ((outbox.deliveries.filter (·.eventId = event.eventId)).map (·.status)).all terminalAccepted = true := by
  simp [AllAccepted, terminalAccepted, imp_iff_not_or]

theorem expired_iff : outbox.expired now retentionDays event = true ↔
    AllAccepted outbox event ∧ event.occurredAt + days retentionDays ≤ now := by
  rw [Outbox.expired, isCleanupEligible, allAccepted_iff, Bool.and_eq_true, Bool.and_eq_true, decide_eq_true_eq,
    decide_eq_true_eq]
  constructor
  · intro expired
    exact expired.2
  · intro expired
    exact ⟨Int.le_sub_right_of_add_le expired.2, expired⟩

theorem mem_eligible {id : String} : id ∈ outbox.eligible now retentionDays ↔
    ∃ event ∈ outbox.events, (AllAccepted outbox event ∧ event.occurredAt + days retentionDays ≤ now) ∧
      event.eventId = id := by
  simp only [Outbox.eligible, List.mem_map, List.mem_filter, expired_iff, and_assoc]

/-- Of unique events, the read ids are those of the eligible ones alone. -/
theorem eligible_own (unique : Table.Unique (fun row : OutboxRow => row.eventId) outbox.events)
    (member : event ∈ outbox.events) : event.eventId ∈ outbox.eligible now retentionDays ↔
      AllAccepted outbox event ∧ event.occurredAt + days retentionDays ≤ now := by
  rw [mem_eligible]
  constructor
  · rintro ⟨other, present, eligible, same⟩
    rwa [← Table.Unique.eq unique present member same]
  · intro eligible
    exact ⟨event, member, eligible, rfl⟩

theorem mem_deleteEvents {ids : List String} :
    event ∈ (outbox.deleteEvents ids).events ↔ event ∈ outbox.events ∧ event.eventId ∉ ids := by
  simp [Outbox.deleteEvents]

theorem cleanup_exact (unique : Table.Unique (fun row : OutboxRow => row.eventId) outbox.events) (now : Timestamp)
    (retentionDays : Int) :
    CleansExactly now retentionDays outbox (outbox.cleanup now retentionDays).1 (outbox.cleanup now retentionDays).2 := by
  have gone {event : OutboxRow} (member : event ∈ outbox.events) :
      event ∉ (outbox.cleanup now retentionDays).2.events ↔ event.eventId ∈ outbox.eligible now retentionDays := by
    rw [show (outbox.cleanup now retentionDays).2 = outbox.deleteEvents (outbox.eligible now retentionDays) from rfl,
      mem_deleteEvents]
    simp [member]
  have ids : (outbox.cleanup now retentionDays).1 = (outbox.eligible now retentionDays).insertionSort (· ≤ ·) := rfl
  constructor
  · exact List.filter_sublist
  · intro event member
    rw [gone member, eligible_own unique member]
  · intro row
    have kept : row ∈ (outbox.cleanup now retentionDays).2.deliveries ↔
        row ∈ outbox.deliveries ∧ row.eventId ∉ outbox.eligible now retentionDays := by
      rw [show (outbox.cleanup now retentionDays).2 = outbox.deleteEvents (outbox.eligible now retentionDays) from rfl]
      simp [Outbox.deleteEvents]
    rw [kept]
    refine and_congr_right fun _ => ?_
    constructor
    · intro unread event member own
      by_contra absent
      exact unread (own ▸ (gone member).mp absent)
    · intro stays read
      obtain ⟨event, member, -, own⟩ := mem_eligible.mp read
      exact (gone member).mpr (own ▸ read) (stays event member own)
  · rw [ids]
    exact List.pairwise_insertionSort _ _
  · rw [ids]
    refine (List.perm_insertionSort _ _).nodup_iff.mpr ?_
    exact List.Nodup.sublist (List.filter_sublist.map _) unique
  · intro id
    rw [ids, List.mem_insertionSort, mem_eligible]
    constructor
    · rintro ⟨event, member, eligible, own⟩
      exact ⟨event, member, (gone member).mpr ((eligible_own unique member).mpr eligible), own⟩
    · rintro ⟨event, member, absent, own⟩
      exact ⟨event, member, (eligible_own unique member).mp ((gone member).mp absent), own⟩

end Pass

section Passes

variable {cleaning : Cleaning} {event : OutboxRow}

structure Kept (cleaning : Cleaning) (event : OutboxRow) : Prop where
  stored : event ∈ cleaning.retained.outbox.events
  ids : Table.Unique (fun row : OutboxRow => row.eventId) cleaning.retained.outbox.events
  unread : Unread cleaning event

theorem afterRetention_kept (kept : Kept cleaning event) (pending : ¬ AllAccepted cleaning.retained.outbox event)
    (step : RetentionStep) : Kept { cleaning with retained := afterRetention cleaning.retained step } event := by
  refine ⟨?_, ?_, kept.unread⟩
  · cases step with
    | publish new consumers =>
      rw [afterRetention]
      cases published : cleaning.retained.outbox.publish new consumers with
      | error failure => exact kept.stored
      | ok after =>
        obtain ⟨-, -, -, rfl⟩ := insert_ok published
        exact List.mem_append_left _ kept.stored
    | cleanup now retentionDays =>
      have exactly := cleanup_exact kept.ids now retentionDays
      by_contra absent
      exact pending ((exactly.deleted event kept.stored).mp absent).1
    | commitOutcome | replay | skip => exact kept.stored
  · cases step with
    | publish new consumers =>
      rw [afterRetention]
      cases published : cleaning.retained.outbox.publish new consumers with
      | error failure => exact kept.ids
      | ok after =>
        obtain ⟨fresh, -, -, rfl⟩ := insert_ok published
        exact Table.Unique.append kept.ids fresh
    | cleanup now retentionDays => exact List.Nodup.sublist (List.filter_sublist.map _) kept.ids
    | commitOutcome | replay | skip => exact kept.ids

/-- No step takes an event away that is not settled. -/
theorem afterCleaning_kept (kept : Kept cleaning event) (step : CleaningStep)
    (pending : Pending event cleaning step) : Kept (afterCleaning cleaning step) event := by
  cases step with
  | read now retentionDays =>
    refine ⟨kept.stored, kept.ids, ?_⟩
    intro ids member
    rcases List.mem_append.mp member with earlier | last
    · exact kept.unread ids earlier
    · rw [List.mem_singleton.mp last]
      intro read
      exact pending ((eligible_own kept.ids kept.stored).mp read).1
  | delete pass =>
    rw [afterCleaning]
    cases there : cleaning.passes[pass]? with
    | none => exact kept
    | some ids =>
      refine ⟨?_, ?_, ?_⟩
      · exact mem_deleteEvents.mpr ⟨kept.stored, kept.unread ids (List.mem_of_getElem? there)⟩
      · exact List.Nodup.sublist (List.filter_sublist.map _) kept.ids
      · intro others member
        exact kept.unread others (List.mem_of_mem_eraseIdx member)
  | other step => exact afterRetention_kept kept pending step

end Passes

/-- A pass deletes exactly what is settled and past its retention; an event with a delivery that is neither delivered
    nor waived survives any passes, whatever other transactions commit between their statements. -/
theorem cleanup_loses_no_pending_work (cleaning : Cleaning)
    (ids : Table.Unique (fun row : OutboxRow => row.eventId) cleaning.retained.outbox.events) :
    (∀ now retentionDays, CleansExactly now retentionDays cleaning.retained.outbox
      (cleaning.retained.outbox.cleanup now retentionDays).1 (cleaning.retained.outbox.cleanup now retentionDays).2) ∧
    ∀ event ∈ cleaning.retained.outbox.events, Unread cleaning event → ∀ steps : List CleaningStep,
      Trace.Along afterCleaning (Pending event) cleaning steps →
      event ∈ (steps.foldl afterCleaning cleaning).retained.outbox.events := by
  constructor
  · intro now retentionDays
    exact cleanup_exact ids now retentionDays
  · intro event member unread steps pending
    have keeps (cleaning : Cleaning) (step : CleaningStep) (kept : Kept cleaning event)
        (pending : Pending event cleaning step) : Kept (afterCleaning cleaning step) event :=
      afterCleaning_kept kept step pending
    exact (Trace.invariant keeps ⟨member, ids, unread⟩ pending).stored

def deadDelivery : Cleaning where
  retained.outbox.events := [completedEvent "event-1" 0]
  retained.outbox.deliveries :=
    [{ eventId := "event-1", consumerId := "tracker", status := .delivered },
      { eventId := "event-1", consumerId := "audit", status := .dead }]

theorem dead_delivery_kept :
    completedEvent "event-1" 0 ∈ ([CleaningStep.read (days 90) retentionDays, .delete 0].foldl afterCleaning
      deadDelivery).retained.outbox.events := by
  refine (cleanup_loses_no_pending_work deadDelivery (List.nodup_singleton _)).2 _ List.mem_cons_self ?_ _ ?_
  · intro ids member
    cases member
  · refine ⟨?_, ?_, trivial⟩
    · unfold Pending
      decide +kernel
    · unfold Pending
      decide +kernel

/-! ## Completion -/

/-- The tables, and the moments at which the last open delivery of an event was accepted. -/
structure Completion where
  retained : Retained := {}
  completed : List (String × Timestamp) := []

def afterMoment (state : Completion) (input : Timestamp × RetentionStep) : Completion :=
  let after := afterRetention state.retained input.2
  { retained := after
    completed := state.completed ++ (after.outbox.events.filter fun event =>
      AllAccepted after.outbox event ∧ ¬ AllAccepted state.retained.outbox event).map fun event => (event.eventId, input.1) }

/-- Whatever a pass of the run deletes was completed the retention period before. -/
def RetainsCompleted (inputs : List (Timestamp × RetentionStep)) : Prop :=
  ∀ before now retentionDays after, inputs = before ++ (now, .cleanup now retentionDays) :: after →
    let state := before.foldl afterMoment {}
    ∀ event ∈ state.retained.outbox.events, event ∉ (state.retained.outbox.cleanup now retentionDays).2.events →
      ∀ moment, (event.eventId, moment) ∈ state.completed → moment + days retentionDays ≤ now

/-- The tracker accepts an event of a month ago, and the pass of that moment deletes it. -/
theorem just_completed_deleted :
    ¬ ∀ inputs : List (Timestamp × RetentionStep), (inputs.map Prod.fst).Pairwise (· ≤ ·) → RetainsCompleted inputs := by
  intro retains
  have run := retains
    [(0, .publish (completedEvent "event-1" 0) ["tracker"]),
      (days 31, .commitOutcome ("event-1", "tracker") { status := .delivered, attempts := 1 }),
      (days 31, .cleanup (days 31) retentionDays)] (by decide)
  have kept := run [_, _] (days 31) retentionDays [] rfl { completedEvent "event-1" 0 with sequence := 1 }
    (by decide +kernel) (by decide +kernel) (days 31) (by decide +kernel)
  revert kept
  decide

end DarkFactory
