import DarkFactory.Changes.Enums
import DarkFactory.Changes.Text

namespace DarkFactory

/-- The exception classes the modelled code raises. -/
inductive FailureKind
  | invalidFlowTransition | flowState | invalidStatusTransition
  | state | stateConflict | staleFencingToken | leaseLost | contractConflict
  | unknownRun | runNotWithdrawable
  | runner | runNotFound | runNotAdvanceable
  | value | validation | integrity | executor
  deriving DecidableEq, Repr

structure Failure where
  kind : FailureKind
  message : String
  deriving DecidableEq, Repr

/-- The subclasses of `StateError`. -/
def FailureKind.isState : FailureKind → Bool
  | .state | .stateConflict | .staleFencingToken | .leaseLost | .contractConflict
  | .unknownRun | .runNotWithdrawable => true
  | _ => false

def FailureKind.className : FailureKind → String
  | .invalidFlowTransition => "InvalidFlowTransition"
  | .flowState => "FlowStateError"
  | .invalidStatusTransition => "InvalidStatusTransition"
  | .state => "StateError"
  | .stateConflict => "StateConflictError"
  | .staleFencingToken => "StaleFencingTokenError"
  | .leaseLost => "LeaseLostError"
  | .contractConflict => "ContractConflictError"
  | .unknownRun => "UnknownRunError"
  | .runNotWithdrawable => "RunNotWithdrawableError"
  | .runner => "RunnerError"
  | .runNotFound => "RunNotFoundError"
  | .runNotAdvanceable => "RunNotAdvanceableError"
  | .value => "ValueError"
  | .validation => "ValidationError"
  | .integrity => "IntegrityError"
  | .executor => "Exception"

structure RepositoryRef where
  provider : Provider
  slug : String
  deriving DecidableEq, Repr

structure ChangeRequestRef where
  repository : RepositoryRef
  number : Nat
  url : Option String := none
  status : ChangeRequestStatus
  deriving DecidableEq, Repr

structure ArtifactRef where
  artifactType : String
  uri : String
  revision : Option String := none
  sha256 : Option String := none
  producer : Option String := none
  deriving DecidableEq, Repr

structure Evidence where
  id : String
  type : EvidenceType
  uri : String
  checksum : Option String := none
  producedAt : Option Timestamp := none
  required : Bool := false
  available : Bool := true
  deriving DecidableEq, Repr

structure Finding where
  id : String
  origin : FindingOrigin
  role : Option Role := none
  severity : FindingSeverity
  category : Option String := none
  file : Option String := none
  line : Option Nat := none
  reviewedSha : Option String := none
  requiredAction : Option String := none
  status : FindingStatus
  evidenceIds : List String := []
  deriving DecidableEq, Repr

structure GateResult where
  gate : Gate
  status : GateStatus
  sha : Option String := none
  summary : Option String := none
  evidenceIds : List String := []
  deriving DecidableEq, Repr

structure Decision where
  id : String
  gate : Gate
  outcome : DecisionOutcome
  decidedBy : DecisionSource
  role : Option Role := none
  decidedAt : Timestamp
  commitSha : Option String := none
  comment : Option String := none
  evidenceIds : List String := []
  phase : Option Phase := none
  deriving DecidableEq, Repr

structure EscalationViolation where
  rule : EscalationRule
  reason : String
  deriving DecidableEq, Repr

/-- A rework request; both counters are validated when the value is built. -/
structure ReworkAction where
  round : Nat
  maxRounds : Nat
  reason : String
  round_pos : 1 ≤ round
  maxRounds_pos : 1 ≤ maxRounds
  deriving DecidableEq

theorem firstRound : 1 ≤ 1 := Nat.le_refl 1

theorem thirdRound : 1 ≤ 3 := by decide

def ReworkAction.build (round maxRounds : Nat) (reason : String) : Except Failure ReworkAction :=
  if valid : 1 ≤ round ∧ 1 ≤ maxRounds then
    .ok { round, maxRounds, reason, round_pos := valid.1, maxRounds_pos := valid.2 }
  else .error ⟨.validation, "ReworkAction.round and ReworkAction.max_rounds must be at least 1"⟩

inductive NextAction
  | executeStage (nextStage : Stage) (reason : Option String)
  | waitForInput (reason : String)
  | waitForCi (reason : String) (changeRequest : Option ChangeRequestRef)
  | rework (action : ReworkAction)
  | phaseRound (phase : Phase) (reason : Option String)
  | requestApproval (gate : Gate) (requestedFrom : Option Role) (reason : Option String)
  | merge (changeRequest : ChangeRequestRef) (reason : Option String)
  | release (targetEnvironment : String) (reason : Option String)
  | stop (outcome : StopOutcome) (reason : String)
  deriving DecidableEq

inductive NextActionType
  | executeStage | waitForInput | waitForCi | rework | phaseRound | requestApproval | merge
  | release | stop
  deriving DecidableEq, Repr

def NextActionType.value : NextActionType → String
  | .executeStage => "execute_stage"
  | .waitForInput => "wait_for_input"
  | .waitForCi => "wait_for_ci"
  | .rework => "rework"
  | .phaseRound => "phase_round"
  | .requestApproval => "request_approval"
  | .merge => "merge"
  | .release => "release"
  | .stop => "stop"

def NextAction.type : NextAction → NextActionType
  | .executeStage .. => .executeStage
  | .waitForInput .. => .waitForInput
  | .waitForCi .. => .waitForCi
  | .rework .. => .rework
  | .phaseRound .. => .phaseRound
  | .requestApproval .. => .requestApproval
  | .merge .. => .merge
  | .release .. => .release
  | .stop .. => .stop

structure Usage where
  promptTokens : Nat := 0
  completionTokens : Nat := 0
  totalTokens : Option Nat := none
  cost : Option Decimal := none
  deriving DecidableEq, Repr

structure BudgetSnapshot where
  maxReworkRounds : Nat := 3
  usedReworkRounds : Nat := 0
  tokenBudget : Option Nat := none
  tokensUsed : Nat := 0
  costBudget : Option Decimal := none
  costUsed : Decimal := Decimal.zero
  deadline : Option Timestamp := none
  deriving DecidableEq, Repr

def BudgetSnapshot.reworkExhausted (budget : BudgetSnapshot) : Bool :=
  budget.maxReworkRounds ≤ budget.usedReworkRounds

def BudgetSnapshot.tokenBudgetExhausted (budget : BudgetSnapshot) : Bool :=
  match budget.tokenBudget with
  | none => false
  | some limit => limit ≤ budget.tokensUsed

def BudgetSnapshot.costBudgetExhausted (budget : BudgetSnapshot) : Bool :=
  match budget.costBudget with
  | none => false
  | some limit => limit.le budget.costUsed

structure ChangeScope where
  inScope : List String
  outOfScope : List String := []
  deriving DecidableEq, Repr

structure ContractBudget where
  maxAutonomousIterations : Nat
  deriving DecidableEq, Repr

structure ContractApproval where
  approvedBy : Role
  decidedAt : Timestamp
  comment : Option String := none
  deriving DecidableEq, Repr

structure ImplementationContract where
  id : String
  scope : ChangeScope
  riskClass : RiskClass
  budget : ContractBudget
  allowedBoundaries : List BoundaryArea := []
  approval : Option ContractApproval := none
  deriving DecidableEq, Repr

structure SmokeProbeEvidence where
  name : String
  passed : Bool
  detail : Option String := none
  deriving DecidableEq, Repr

structure ReleaseEvidence where
  verifiedAt : Timestamp
  decision : ReleaseStatus
  reason : Option String := none
  expectedDigest : Option String := none
  observedDigest : Option String := none
  argoSyncStatus : Option String := none
  argoHealthStatus : Option String := none
  application : Option String := none
  smoke : List SmokeProbeEvidence := []
  rollbackSignal : Option String := none
  deriving DecidableEq, Repr

end DarkFactory
