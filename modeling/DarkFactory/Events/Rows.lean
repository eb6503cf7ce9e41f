import DarkFactory.Changes.Text
import DarkFactory.State.Rows
import Mathlib.Data.List.Sort

namespace DarkFactory

inductive DeliveryStatus | pending | delivered | failed | dead | waived
  deriving DecidableEq, Repr

def DeliveryStatus.value : DeliveryStatus → String
  | .pending => "pending"
  | .delivered => "delivered"
  | .failed => "failed"
  | .dead => "dead"
  | .waived => "waived"

structure OutboxRow extends OutboxEvent where
  occurredAt : Timestamp
  deriving DecidableEq, Repr

structure DeliveryRow extends EventDelivery where
  status : DeliveryStatus := .pending
  attempts : Nat := 0
  nextAttemptAt : Option Timestamp := none
  lastError : Option String := none
  deriving DecidableEq, Repr

def DeliveryRow.key (row : DeliveryRow) : String × String := (row.eventId, row.consumerId)

structure Outbox where
  events : List OutboxRow := []
  deliveries : List DeliveryRow := []
  deriving DecidableEq, Repr

/-! The pure rules. -/

def seconds (n : Int) : Int := n * 1000000

def days (n : Int) : Int := seconds (n * 86400)

def maxAttempts : Nat := 5

def backoffBaseSeconds : Nat := 30

def backoffMultiplier : Nat := 4

def backoffCapSeconds : Nat := 3600

def retentionDays : Int := 30

def backoffDelaySeconds (attempts : Nat) : Except Failure Nat :=
  if attempts < 1 then .error ⟨.value, s!"attempts must be >= 1, got {attempts}"⟩
  else .ok (min (backoffBaseSeconds * backoffMultiplier ^ (attempts - 1)) backoffCapSeconds)

def isDead (attempts : Nat) : Bool := maxAttempts ≤ attempts

def terminalAccepted (status : DeliveryStatus) : Bool := status = .delivered || status = .waived

def isUndelivered (status : DeliveryStatus) : Bool := !terminalAccepted status

def minUndeliveredSequence (deliveries : List (Nat × DeliveryStatus)) : Option Nat :=
  ((deliveries.filter fun delivery => isUndelivered delivery.2).map Prod.fst).min?

def orderingEligible (candidateSequence : Nat) (minUndeliveredSequence : Option Nat) : Bool :=
  minUndeliveredSequence.isNone || minUndeliveredSequence = some candidateSequence

def isCleanupEligible (deliveryStatuses : List DeliveryStatus) (occurredAt now : Timestamp) (retentionDays : Int) :
    Bool :=
  deliveryStatuses.all terminalAccepted && occurredAt + days retentionDays ≤ now

/-! The queries and mutations of delivery rows. -/

def leaseSeconds : Int := 120

def reservable (status : DeliveryStatus) : Bool := status = .pending || status = .failed

namespace Outbox

def event (eventId : String) (outbox : Outbox) : Option OutboxRow :=
  Table.find (fun row : OutboxRow => row.eventId) eventId outbox.events

def delivery (key : String × String) (outbox : Outbox) : Option DeliveryRow :=
  Table.find DeliveryRow.key key outbox.deliveries

def joined (outbox : Outbox) : List (OutboxRow × DeliveryRow) :=
  outbox.deliveries.filterMap fun delivery => (outbox.event delivery.eventId).map fun event => (event, delivery)

def minUndelivered (consumerId aggregateId : String) (outbox : Outbox) : Option Nat :=
  minUndeliveredSequence
    ((outbox.joined.filter fun row => row.2.consumerId = consumerId ∧ row.1.aggregateId = aggregateId).map
      fun row => (row.1.sequence, row.2.status))

end Outbox

def due (now : Timestamp) (delivery : DeliveryRow) : Bool :=
  match delivery.nextAttemptAt with
  | none => true
  | some next => next ≤ now

def candidateBefore (left right : OutboxRow × DeliveryRow) : Bool :=
  left.1.occurredAt < right.1.occurredAt ||
    (left.1.occurredAt = right.1.occurredAt && (left.1.sequence < right.1.sequence ||
      (left.1.sequence = right.1.sequence && (decide (left.1.eventId < right.1.eventId) ||
        (left.1.eventId = right.1.eventId && decide (left.2.consumerId ≤ right.2.consumerId))))))

def Outbox.candidates (limit : Nat) (now : Timestamp) (locked : List (String × String)) (outbox : Outbox) :
    List (OutboxRow × DeliveryRow) :=
  ((outbox.joined.filter fun row => reservable row.2.status && due now row.2 && !locked.contains row.2.key).insertionSort
    fun left right => candidateBefore left right = true).take limit

structure ReservedDelivery where
  event : OutboxRow
  consumerId : String
  attempts : Nat
  deriving DecidableEq, Repr

def ReservedDelivery.key (item : ReservedDelivery) : String × String := (item.event.eventId, item.consumerId)

def ReservedDelivery.stream (item : ReservedDelivery) : String × String := (item.consumerId, item.event.aggregateId)

structure DeferredDelivery where
  eventId : String
  consumerId : String
  attempts : Nat
  deriving DecidableEq, Repr

structure Reservation where
  now : Timestamp
  locked : List (String × String)
  candidates : List (OutboxRow × DeliveryRow)
  reserved : List ReservedDelivery := []
  deferred : List DeferredDelivery := []
  deriving DecidableEq, Repr

def Outbox.reserve (limit : Nat) (now : Timestamp) (locked : List (String × String)) (outbox : Outbox) : Reservation :=
  let candidates := outbox.candidates limit now locked
  { now, locked := candidates.map (·.2.key), candidates }

def Reservation.check (outbox : Outbox) (reservation : Reservation) : Reservation :=
  match reservation.candidates with
  | [] => reservation
  | (event, delivery) :: rest =>
    if orderingEligible event.sequence (outbox.minUndelivered delivery.consumerId event.aggregateId) then
      { reservation with
        candidates := rest
        reserved := reservation.reserved ++
          [{ event, consumerId := delivery.consumerId, attempts := delivery.attempts }] }
    else
      { reservation with
        candidates := rest
        deferred := reservation.deferred ++
          [{ eventId := delivery.eventId, consumerId := delivery.consumerId, attempts := delivery.attempts }] }

def Reservation.lease (reservation : Reservation) (outbox : Outbox) : Outbox :=
  { outbox with deliveries := outbox.deliveries.map fun row =>
      if (reservation.reserved.map ReservedDelivery.key).contains row.key then
        { row with nextAttemptAt := some (reservation.now + seconds leaseSeconds) }
      else row }

structure OutcomeValues where
  status : DeliveryStatus
  attempts : Nat
  nextAttemptAt : Option Timestamp := none
  lastError : Option String := none
  deriving DecidableEq, Repr

def DeliveryRow.record (values : OutcomeValues) (row : DeliveryRow) : DeliveryRow :=
  { row with
    status := values.status
    attempts := values.attempts
    nextAttemptAt := values.nextAttemptAt
    lastError := values.lastError }

/-- Whether the row was still reservable, and the table after it. -/
def Outbox.commitOutcome (key : String × String) (values : OutcomeValues) (outbox : Outbox) : Bool × Outbox :=
  let matched (row : DeliveryRow) : Bool := row.key = key && reservable row.status
  (outbox.deliveries.any matched,
    { outbox with deliveries := outbox.deliveries.map fun row => if matched row then row.record values else row })

def replayable (status : DeliveryStatus) : Bool := status = .dead || status = .failed

def replayMatches (eventId : String) (consumerId : Option String) (row : DeliveryRow) : Bool :=
  row.eventId = eventId && replayable row.status && (consumerId.map (· == row.consumerId)).getD true

/-- The consumers and statuses replayed, and the table after it. -/
def Outbox.replay (eventId : String) (consumerId : Option String) (outbox : Outbox) :
    List (String × DeliveryStatus) × Outbox :=
  (((outbox.deliveries.filter (replayMatches eventId consumerId)).map fun row =>
      (row.consumerId, row.status)).insertionSort fun left right => left.1 ≤ right.1,
    { outbox with deliveries := outbox.deliveries.map fun row =>
        if replayMatches eventId consumerId row then row.record { status := .pending, attempts := 0 } else row })

def skippable (status : DeliveryStatus) : Bool := status = .pending || status = .failed || status = .dead

/-- The status waived, if any, and the table after it. -/
def Outbox.skip (eventId consumerId : String) (outbox : Outbox) : Option DeliveryStatus × Outbox :=
  let matched (row : DeliveryRow) : Bool := row.key = (eventId, consumerId) && skippable row.status
  ((outbox.deliveries.find? matched).map (·.status),
    { outbox with deliveries := outbox.deliveries.map fun row =>
        if matched row then { row with status := .waived } else row })

def Outbox.nextSequence (aggregateId : String) (outbox : Outbox) : Nat :=
  ((outbox.events.filter (·.aggregateId = aggregateId)).map (·.sequence)).foldl max 0 + 1

def Outbox.insert (event : OutboxRow) (consumers : List String) (outbox : Outbox) : Except Failure Outbox :=
  if outbox.events.any fun row => row.eventId = event.eventId then
    .error ⟨.integrity, s!"duplicate key value violates the primary key of outbox: {event.eventId}"⟩
  else if outbox.events.any fun row => row.aggregateId = event.aggregateId && row.sequence = event.sequence then
    .error ⟨.integrity, "duplicate key value violates the unique constraint aggregate_sequence"⟩
  else if ¬ consumers.Nodup then
    .error ⟨.integrity, s!"duplicate key value violates the primary key of event_delivery: {event.eventId}"⟩
  else
    .ok { events := outbox.events ++ [event]
          deliveries := outbox.deliveries ++
            consumers.map fun consumerId => { eventId := event.eventId, consumerId } }

def OutboxRow.assigned (event : OutboxRow) (outbox : Outbox) : OutboxRow :=
  { event with sequence := outbox.nextSequence event.aggregateId }

def Outbox.publish (event : OutboxRow) (consumers : List String) (outbox : Outbox) : Except Failure Outbox :=
  outbox.insert (event.assigned outbox) consumers

def Outbox.expired (now : Timestamp) (retentionDays : Int) (outbox : Outbox) (event : OutboxRow) : Bool :=
  event.occurredAt ≤ now - days retentionDays &&
    isCleanupEligible ((outbox.deliveries.filter (·.eventId = event.eventId)).map (·.status)) event.occurredAt now
      retentionDays

/-- The ids deleted, and the tables after it: the deliveries go with their events. -/
def Outbox.cleanup (now : Timestamp) (retentionDays : Int) (outbox : Outbox) : List String × Outbox :=
  let deleted := (outbox.events.filter (outbox.expired now retentionDays)).map (·.eventId)
  (deleted.insertionSort (· ≤ ·),
    { events := outbox.events.filter fun event => !deleted.contains event.eventId
      deliveries := outbox.deliveries.filter fun row => !deleted.contains row.eventId })

/-! The outcomes of a delivery. -/

def maxErrorLength : Nat := 1024

structure HandlerError where
  message : String
  className : String
  deriving DecidableEq, Repr

def HandlerError.errorText (error : HandlerError) : String :=
  let words := (error.message.toList.splitOnP Text.isSpace).filter (!·.isEmpty)
  if words.isEmpty then error.className else Text.join " " (words.map String.ofList)

def fixSuccess (item : ReservedDelivery) : OutcomeValues := { status := .delivered, attempts := item.attempts + 1 }

def fixFailure (item : ReservedDelivery) (error : HandlerError) (moment : Timestamp) : Except Failure OutcomeValues := do
  let attempts := item.attempts + 1
  let lastError := some (String.ofList (error.errorText.toList.take maxErrorLength))
  if isDead attempts then
    return { status := .dead, attempts, lastError }
  else
    let delay ← backoffDelaySeconds attempts
    return { status := .failed, attempts, nextAttemptAt := some (moment + seconds delay), lastError }

inductive HandlerResult
  | returned
  | raised (error : HandlerError)
  deriving DecidableEq, Repr

def outcomeOf (item : ReservedDelivery) (moment : Timestamp) : HandlerResult → Except Failure OutcomeValues
  | .returned => .ok (fixSuccess item)
  | .raised error => fixFailure item error moment

end DarkFactory
