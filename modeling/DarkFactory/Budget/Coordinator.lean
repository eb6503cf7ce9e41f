import DarkFactory.Budget.Policy
import DarkFactory.Lib.Outcome
import DarkFactory.Rules.Limits

namespace DarkFactory

inductive BudgetScope | run | role
  deriving DecidableEq, Repr

inductive BudgetState | withinLimits | awaitingDecision
  deriving DecidableEq, Repr

structure BudgetViolation where
  scope : BudgetScope
  role : Option Role
  rule : LimitRule
  reason : String
  deriving DecidableEq, Repr

structure BudgetCheck where
  state : BudgetState
  violations : List BudgetViolation
  deriving DecidableEq, Repr

def BudgetCheck.diagnostics (check : BudgetCheck) : String :=
  "; ".intercalate (check.violations.map BudgetViolation.reason)

/-- A call of an agent that counts until it is settled; the id is that of the logical call. -/
structure BudgetReservation where
  reservationId : String
  role : Role
  estimated : Usage
  openedAt : Timestamp
  settled : Bool
  deriving DecidableEq, Repr

def zeroUsage : Usage := { totalTokens := some 0 }

structure RoleUsage where
  role : Role
  usage : Usage := zeroUsage
  calls : Nat := 0
  reserved : Usage := zeroUsage
  deriving DecidableEq, Repr

structure BudgetAggregate where
  run : Usage := zeroUsage
  roles : List RoleUsage := []
  limits : BudgetLimits := {}
  state : BudgetState := .withinLimits
  deriving DecidableEq

inductive BudgetError
  | exhausted (check : BudgetCheck) (reason : String)
  | unknownReservation (message : String)
  deriving DecidableEq, Repr

structure RoleLedger where
  role : Role
  usage : Usage := zeroUsage
  calls : Nat := 0
  deriving DecidableEq, Repr

namespace Budget

/-- A total that is not reported falls back to its reported parts. -/
def tokens (usage : Usage) : Nat :=
  match usage.totalTokens with
  | some total => total
  | none => usage.promptTokens + usage.completionTokens

def cost (usage : Usage) : Decimal := usage.cost.getD Decimal.zero

/-- An unknown cost contributes nothing. -/
def addCost : Option Decimal → Option Decimal → Option Decimal
  | none, right => right
  | some left, none => some left
  | some left, some right => some (left.add right)

def addUsage (left right : Usage) : Usage where
  promptTokens := left.promptTokens + right.promptTokens
  completionTokens := left.completionTokens + right.completionTokens
  totalTokens := some (tokens left + tokens right)
  cost := addCost left.cost right.cost

def reservationId (role : Role) (key : String) : String := s!"rsv_{role.value}_{key}"

def scopeViolations (scope : BudgetScope) (role : Option Role) (limits : BudgetLimits) (usage : Usage)
    (now : Timestamp) : List BudgetViolation :=
  let snapshot : BudgetSnapshot :=
    { tokenBudget := limits.tokenBudget, tokensUsed := tokens usage
      costBudget := limits.costBudget, costUsed := cost usage, deadline := limits.deadline }
  let front := match role with
    | none => ""
    | some role => s!"role {role.value}: "
  (continuationViolations snapshot now).map fun violation =>
    { scope, role, rule := violation.rule, reason := front ++ violation.reason }

end Budget

structure BudgetCoordinator where
  policy : BudgetPolicy := {}
  ledgers : List RoleLedger := []
  reservations : List BudgetReservation := []

namespace BudgetCoordinator

open Budget

variable (coordinator : BudgetCoordinator)

def knownRoles : List Role :=
  (coordinator.ledgers.map RoleLedger.role ++ coordinator.reservations.map BudgetReservation.role ++
    coordinator.policy.roleAllowances.map RoleAllowance.role).dedup.insertionSort
      fun first second => first.value ≤ second.value

def roleUsage (role : Role) : Usage :=
  match Table.find RoleLedger.role role coordinator.ledgers with
  | some ledger => ledger.usage
  | none => zeroUsage

def settledUsage : Option Role → Usage
  | some role => coordinator.roleUsage role
  | none => coordinator.knownRoles.foldl (fun total known => addUsage total (coordinator.roleUsage known)) zeroUsage

def reservedUsage (role : Option Role) : Usage :=
  (coordinator.reservations.filter fun reservation => !reservation.settled && role.all (reservation.role = ·)).foldl
    (fun total reservation => addUsage total reservation.estimated) zeroUsage

def effectiveUsage (role : Option Role) : Usage :=
  addUsage (coordinator.settledUsage role) (coordinator.reservedUsage role)

def callsFor (role : Role) : Nat :=
  match Table.find RoleLedger.role role coordinator.ledgers with
  | some ledger => ledger.calls
  | none => 0

def unsettledReservation (role : Role) : Option BudgetReservation :=
  coordinator.reservations.find? fun reservation => reservation.role = role && !reservation.settled

def runScope (now : Timestamp) : List BudgetViolation :=
  scopeViolations .run none coordinator.policy.runLimits (coordinator.effectiveUsage none) now

def roleScope (role : Role) (now : Timestamp) : List BudgetViolation :=
  scopeViolations .role (some role) (coordinator.policy.limitsFor role) (coordinator.effectiveUsage (some role)) now

def check (role : Role) (now : Timestamp) : BudgetCheck :=
  let violations := coordinator.runScope now ++ coordinator.roleScope role now
  { state := if violations = [] then .withinLimits else .awaitingDecision, violations }

def usageFor (role : Role) : Usage := coordinator.settledUsage (some role)

def totalUsage : Usage := coordinator.settledUsage none

def aggregateState (now : Timestamp) : BudgetState :=
  if coordinator.runScope now ≠ [] then .awaitingDecision
  else if coordinator.knownRoles.any fun role => coordinator.roleScope role now ≠ [] then .awaitingDecision
  else .withinLimits

def aggregate (now : Timestamp) : BudgetAggregate where
  run := coordinator.settledUsage none
  roles := coordinator.knownRoles.map fun role =>
    { role, usage := coordinator.settledUsage (some role), calls := coordinator.callsFor role
      reserved := coordinator.reservedUsage (some role) }
  limits := coordinator.policy.runLimits
  state := coordinator.aggregateState now

end BudgetCoordinator

def RoleLedger.charge (usage : Usage) (ledger : RoleLedger) : RoleLedger :=
  { ledger with usage := Budget.addUsage ledger.usage usage, calls := ledger.calls + 1 }

namespace Budget

def reserve (role : Role) (key : String) (estimated : Usage) (now : Timestamp) :
    EStateM BudgetError BudgetCoordinator BudgetReservation := do
  let coordinator ← get
  let id := reservationId role key
  match Table.find BudgetReservation.reservationId id coordinator.reservations with
  | some known => return known
  | none =>
    let check := coordinator.check role now
    if check.state = .awaitingDecision then throw (.exhausted check check.diagnostics)
    match coordinator.unsettledReservation role with
    | some unsettled =>
      throw (.exhausted check
        (s!"role {role.value} already has an unsettled reservation " ++ Text.repr unsettled.reservationId))
    | none =>
      if estimated.totalTokens = none ∧ (coordinator.policy.limitsFor role).configured then
        throw (.exhausted check
          (s!"role {role.value}: unknown spend cannot be reserved while a limit " ++ "is configured (FR-018)"))
      let reservation : BudgetReservation := { reservationId := id, role, estimated, openedAt := now, settled := false }
      set { coordinator with reservations := coordinator.reservations ++ [reservation] }
      return reservation

def charged (role : Role) (usage : Usage) (ledgers : List RoleLedger) : List RoleLedger :=
  Table.update RoleLedger.role role (fun ledger => ledger.charge usage)
    (Table.insertNew RoleLedger.role { role } ledgers)

def settle (reservationId : String) (usage : Option Usage) : EStateM BudgetError BudgetCoordinator BudgetReservation := do
  let coordinator ← get
  match Table.find BudgetReservation.reservationId reservationId coordinator.reservations with
  | none => throw (.unknownReservation ("unknown reservation " ++ Text.repr reservationId))
  | some reservation =>
    match usage.filter (·.totalTokens.isSome) with
    | none => return reservation
    | some usage =>
      if reservation.settled then return reservation
      let settled := { reservation with settled := true }
      set { coordinator with
        ledgers := charged reservation.role usage coordinator.ledgers
        reservations := Table.update BudgetReservation.reservationId reservationId (fun _ => settled) coordinator.reservations }
      return settled

end Budget

end DarkFactory
