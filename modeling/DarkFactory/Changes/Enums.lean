import Mathlib.Tactic.Common

namespace DarkFactory

inductive Provider | gitlab | github
  deriving DecidableEq, Repr

inductive Route | quick | standard | architecture | foundation
  deriving DecidableEq, Repr

inductive RiskClass | r0 | r1 | r2 | r3 | r4
  deriving DecidableEq, Repr

inductive BoundaryArea | publicApi | dataSchema | iam | architectureBoundary
  deriving DecidableEq, Repr

inductive Role
  | product | design | architect | infrastructure | security | develop | quality | ciCd | operation
  deriving DecidableEq, Repr

inductive Stage | specification | planning | construction | reviewVerification | release
  deriving DecidableEq, Repr

inductive Gate | specification | planning | code | ui | review | verification | release
  deriving DecidableEq, Repr

inductive ControlPoint | problem | solution | ux | discoveryRelease
  deriving DecidableEq, Repr

inductive RunStatus
  | pending | running | waiting | blocked | succeeded | failed | canceled | superseded
  deriving DecidableEq, Repr

inductive StageStatus
  | pending | inProgress | waiting | succeeded | failed | blocked | skipped | superseded | canceled
  deriving DecidableEq, Repr

inductive FindingSeverity | blocker | major | minor | info
  deriving DecidableEq, Repr

inductive FindingStatus | «open» | resolved | waived | obsolete
  deriving DecidableEq, Repr

inductive FindingOrigin | agent | human | ci
  deriving DecidableEq, Repr

inductive GateStatus | pending | passed | failed | skipped
  deriving DecidableEq, Repr

inductive ReleaseStatus | released | releaseFailed
  deriving DecidableEq, Repr

inductive DecisionOutcome | approved | rejected | waived
  deriving DecidableEq, Repr

inductive DecisionSource | human | policy | agent
  deriving DecidableEq, Repr

inductive DecisionClass | knownPath | boundedChoice | newPath
  deriving DecidableEq, Repr

inductive ChangeRequestStatus | draft | «open» | merged | closed
  deriving DecidableEq, Repr

inductive EvidenceType
  | log | report | screenshot | sbom | spec | diff | testResults | deployment | smoke | other
  deriving DecidableEq, Repr

inductive StopOutcome | blocked | failed | canceled
  deriving DecidableEq, Repr

inductive EscalationRule
  | implementationContractUnapproved | requirementsDeficient | scopeExit | boundaryChange
  | newAdrProposal | riskRaisedToR2 | unrecoverableGateFailure | autonomyBudgetExhausted
  | uiUnverifiable | irreversibleOperation
  deriving DecidableEq, Repr

inductive Phase
  | initiative | requirements | architecture | interface | plan | execution | demonstration
  | delivery | done
  deriving DecidableEq, Repr

inductive ReworkOrderStatus | pending | inProgress | done | escalated
  deriving DecidableEq, Repr

def Route.value : Route → String
  | .quick => "quick"
  | .standard => "standard"
  | .architecture => "architecture"
  | .foundation => "foundation"

def RiskClass.value : RiskClass → String
  | .r0 => "R0"
  | .r1 => "R1"
  | .r2 => "R2"
  | .r3 => "R3"
  | .r4 => "R4"

def Stage.value : Stage → String
  | .specification => "specification"
  | .planning => "planning"
  | .construction => "construction"
  | .reviewVerification => "review_verification"
  | .release => "release"

def Gate.value : Gate → String
  | .specification => "specification"
  | .planning => "planning"
  | .code => "code"
  | .ui => "ui"
  | .review => "review"
  | .verification => "verification"
  | .release => "release"

def ControlPoint.value : ControlPoint → String
  | .problem => "problem"
  | .solution => "solution"
  | .ux => "ux"
  | .discoveryRelease => "discovery_release"

def RunStatus.value : RunStatus → String
  | .pending => "pending"
  | .running => "running"
  | .waiting => "waiting"
  | .blocked => "blocked"
  | .succeeded => "succeeded"
  | .failed => "failed"
  | .canceled => "canceled"
  | .superseded => "superseded"

def StageStatus.value : StageStatus → String
  | .pending => "pending"
  | .inProgress => "in_progress"
  | .waiting => "waiting"
  | .succeeded => "succeeded"
  | .failed => "failed"
  | .blocked => "blocked"
  | .skipped => "skipped"
  | .superseded => "superseded"
  | .canceled => "canceled"

def FindingOrigin.value : FindingOrigin → String
  | .agent => "agent"
  | .human => "human"
  | .ci => "ci"

def DecisionOutcome.value : DecisionOutcome → String
  | .approved => "approved"
  | .rejected => "rejected"
  | .waived => "waived"

def EscalationRule.value : EscalationRule → String
  | .implementationContractUnapproved => "implementation_contract_unapproved"
  | .requirementsDeficient => "requirements_deficient"
  | .scopeExit => "scope_exit"
  | .boundaryChange => "boundary_change"
  | .newAdrProposal => "new_adr_proposal"
  | .riskRaisedToR2 => "risk_raised_to_r2"
  | .unrecoverableGateFailure => "unrecoverable_gate_failure"
  | .autonomyBudgetExhausted => "autonomy_budget_exhausted"
  | .uiUnverifiable => "ui_unverifiable"
  | .irreversibleOperation => "irreversible_operation"

def Phase.value : Phase → String
  | .initiative => "initiative"
  | .requirements => "requirements"
  | .architecture => "architecture"
  | .interface => "interface"
  | .plan => "plan"
  | .execution => "execution"
  | .demonstration => "demonstration"
  | .delivery => "delivery"
  | .done => "done"

end DarkFactory
