import DarkFactory.Changes.Run
import DarkFactory.Lib.Outcome
import DarkFactory.Lib.Table

namespace DarkFactory

structure Execution where
  id : String
  changeId : String
  route : Route
  provider : Provider
  status : RunStatus := .pending
  stateRevision : Nat := 1
  budget : Option BudgetSnapshot := none
  implementationContract : Option ImplementationContract := none
  deriving DecidableEq, Repr

/-- The logical operation of one stage; the id is the operation key. -/
structure StageRow where
  id : String
  executionId : String
  stage : Stage
  status : StageStatus := .pending
  inputRevision : String
  stateRevision : Nat := 1
  attemptCount : Nat := 0
  createdAt : Timestamp
  deriving DecidableEq, Repr

structure Attempt where
  id : String
  stageId : String
  attemptNumber : Nat
  status : StageStatus := .inProgress
  deriving DecidableEq, Repr

structure StageResultRow where
  id : String
  runId : String
  stage : Stage
  attemptNumber : Nat
  inputRevision : Option String
  status : StageStatus
  producedAt : Timestamp
  payload : StageResult
  deriving DecidableEq

structure ExecutionLease where
  resourceType : String
  resourceId : String
  ownerId : String
  fencingToken : Nat
  acquiredAt : Timestamp
  expiresAt : Timestamp
  heartbeatAt : Timestamp
  deriving DecidableEq, Repr

def ExecutionLease.key (lease : ExecutionLease) : String × String := (lease.resourceType, lease.resourceId)

structure StageCompleted where
  attemptNumber : Nat
  resultStatus : StageStatus
  stageStatus : StageStatus
  runStatus : RunStatus
  nextAction : NextActionType
  nextStage : Option Stage
  deriving DecidableEq, Repr

structure OutboxEvent where
  eventId : String
  eventType : String
  changeId : String
  runId : String
  stage : Option Stage
  aggregateId : String
  aggregateVersion : Nat
  causationId : Option String
  payload : StageCompleted
  sequence : Nat
  deriving DecidableEq, Repr

structure EventDelivery where
  eventId : String
  consumerId : String
  deriving DecidableEq, Repr

structure AuditLogEntry where
  actor : String
  role : Option String
  action : String
  resourceType : String
  resourceId : String
  idempotencyKey : Option String
  outcome : String
  reason : Option String
  deriving DecidableEq, Repr

structure Store where
  executions : List Execution := []
  stages : List StageRow := []
  attempts : List Attempt := []
  results : List StageResultRow := []
  leases : List ExecutionLease := []
  outbox : List OutboxEvent := []
  deliveries : List EventDelivery := []
  audit : List AuditLogEntry := []
  deriving DecidableEq

/-- Work inside one transaction; what a failing call had written is dropped with the rollback. -/
abbrev Session := EStateM Failure Store

def Store.execution (store : Store) (id : String) : Option Execution :=
  Table.find Execution.id id store.executions

def Store.stageRow (store : Store) (id : String) : Option StageRow :=
  Table.find StageRow.id id store.stages

def Store.lease (store : Store) (resourceType resourceId : String) : Option ExecutionLease :=
  Table.find ExecutionLease.key (resourceType, resourceId) store.leases

/-- The transaction scope: a success commits, a failure rolls everything back. -/
def commit {α : Type} (work : Session α) (store : Store) : Store :=
  match work store with
  | .ok _ after => after
  | .error _ _ => store

theorem commit_cases {α : Type} (work : Session α) (store : Store) :
    commit work store = store ∨ ∃ value, work store = .ok value (commit work store) := by
  unfold commit
  cases work store with
  | ok value after => exact Or.inr ⟨value, rfl⟩
  | error failure partway => exact Or.inl rfl

end DarkFactory
