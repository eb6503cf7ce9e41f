import DarkFactory.Changes.Enums
import DarkFactory.Sdd.Baseline
import DarkFactory.Sdd.Native

namespace DarkFactory

/-! ## Strictness -/

inductive WorkflowProfile
  | bugfixR0 | productFeature | uiResearch | architectureChange | repositoryRebuild | platformChange
  deriving DecidableEq, Repr

inductive ArtifactSlot
  | intent | spec | design | tasks | verification | evidence | reconciliation
  deriving DecidableEq, Repr

def ArtifactSlot.value : ArtifactSlot → String
  | .intent => "intent"
  | .spec => "spec"
  | .design => "design"
  | .tasks => "tasks"
  | .verification => "verification"
  | .evidence => "evidence"
  | .reconciliation => "reconciliation"

def defaultRequired : List ArtifactSlot := [.intent, .spec, .design, .tasks, .verification, .evidence]

def highRisk : List RiskClass := [.r2, .r3, .r4]

def requiredArtifacts (profile : WorkflowProfile) (riskClass : RiskClass) : List ArtifactSlot :=
  if profile = .bugfixR0 then []
  else defaultRequired ++ if riskClass ∈ highRisk then [.reconciliation] else []

/-! ## The artifacts of a change -/

inductive ChangeSetStatus
  | draft | proposed | specified | designed | ready | accepted | reconciled | closed
  deriving DecidableEq, Repr

def ChangeSetStatus.value : ChangeSetStatus → String
  | .draft => "draft"
  | .proposed => "proposed"
  | .specified => "specified"
  | .designed => "designed"
  | .ready => "ready"
  | .accepted => "accepted"
  | .reconciled => "reconciled"
  | .closed => "closed"

structure BaselineRef where
  revision : String
  pinned : revision ≠ "" := by decide

structure WorkflowRef where
  profile : WorkflowProfile

/-- The fields of `change.yaml` the contract is checked by, besides the id and the slug. -/
structure ManifestFields where
  riskClass : RiskClass
  status : ChangeSetStatus := .draft
  baseline : BaselineRef
  workflow : WorkflowRef
  artifacts : ArtifactSlot → Option String := fun _ => none

structure Delta where
  baselineRevision : String
  operations : List DeltaOperation := []
  pinned : baselineRevision ≠ "" := by decide

structure TaskDef where
  id : String
  satisfies : List String := []
  named : id ≠ "" := by decide

structure TaskGraph where
  tasks : List TaskDef := []

structure CheckSpec where
  type : String
  typed : type ≠ "" := by decide

structure RequirementVerification where
  requirement : String
  checks : List CheckSpec := []
  named : requirement ≠ "" := by decide

structure VerificationPlan where
  requirements : List RequirementVerification := []

structure EvidenceEntry where
  id : String
  required : Bool := false
  available : Bool := true
  named : id ≠ "" := by decide

structure EvidenceIndex where
  evidence : List EvidenceEntry := []

structure ReconciliationPlan where
  baselineRevision : String
  operations : List DeltaOperation := []
  pinned : baselineRevision ≠ "" := by decide

abbrev SddArtifact : YamlSlot → Type
  | .delta => Delta
  | .tasks => TaskGraph
  | .verification => VerificationPlan
  | .evidence => EvidenceIndex
  | .reconciliation => ReconciliationPlan

structure SddCodec (α : Type) where
  packages : Packages α
  manifest : YamlModel (ChangeManifest ManifestFields)
  artifact : ∀ slot, YamlModel (SddArtifact slot)

abbrev SddCodec.models {α : Type} (codec : SddCodec α) : SddModels α where
  Rest := ManifestFields
  Artifact := SddArtifact
  packages := codec.packages
  manifest := codec.manifest
  artifact := codec.artifact

namespace ChangeSet

variable {α : Type} {codec : SddCodec α} (change : ChangeSet codec.models)

def fields : ManifestFields := change.manifest.rest
def delta : Option Delta := change.artifacts .delta
def tasks : Option TaskGraph := change.artifacts .tasks
def verification : Option VerificationPlan := change.artifacts .verification
def evidence : Option EvidenceIndex := change.artifacts .evidence
def reconciliation : Option ReconciliationPlan := change.artifacts .reconciliation

end ChangeSet

/-! ## The five axes -/

inductive Axis | completeness | consistency | policy | coverage | evidence
  deriving DecidableEq, Repr

structure AxisFinding where
  axis : Axis
  code : String
  message : String
  deriving DecidableEq, Repr

def reqIdPrefix : String := "req:"

def slotToArtifact : List (ArtifactSlot × YamlSlot) :=
  [(.spec, .delta), (.tasks, .tasks), (.verification, .verification), (.evidence, .evidence),
    (.reconciliation, .reconciliation)]

def documentSlots : List ArtifactSlot := [.intent, .design]

def evidenceExpectedStatuses : List String := ["accepted", "reconciled", "closed"]

namespace DeltaOperation

def touched : DeltaOperation → Option String
  | add operation => if Text.startsWith operation.target reqIdPrefix then some operation.target else none
  | modify operation => if Text.startsWith operation.target reqIdPrefix then some operation.target else none
  | _ => none

def supersedesItself : DeltaOperation → Bool
  | supersede operation => operation.supersededBy = operation.target
  | _ => false

end DeltaOperation

def missingSlotFindings (manifest : ManifestFields) (riskClass : RiskClass) : List AxisFinding :=
  let required := requiredArtifacts manifest.workflow.profile riskClass
  let missing := required.filter fun slot => (manifest.artifacts slot).isNone
  (missing.insertionSort fun first second => first.value ≤ second.value).map fun slot =>
    ⟨.completeness, "missing_required_artifact",
      "required artifact slot " ++ Text.repr slot.value ++ " is not declared in change.yaml"⟩

def operationFindings (seen : List String) : List DeltaOperation → List AxisFinding
  | [] => []
  | operation :: rest =>
    (if operation.target ∈ seen then
      [⟨.consistency, "duplicate_delta_target",
        "target " ++ Text.repr operation.target ++ " appears in more than one operation"⟩]
    else []) ++
    (if operation.supersedesItself then
      [⟨.consistency, "self_supersede", "operation supersedes " ++ Text.repr operation.target ++ " by itself"⟩]
    else []) ++
    operationFindings (operation.target :: seen) rest

section Normalize

variable {α : Type} {codec : SddCodec α} (change : ChangeSet codec.models)

def completenessFindings : List AxisFinding := missingSlotFindings change.fields change.fields.riskClass

def deltaFindings (manifest : ManifestFields) (delta : Delta) : List AxisFinding :=
  (if delta.baselineRevision ≠ manifest.baseline.revision then
    [⟨.consistency, "baseline_revision_mismatch",
      "delta targets baseline " ++ Text.repr delta.baselineRevision ++ " but the manifest pins " ++
        Text.repr manifest.baseline.revision⟩]
  else []) ++ operationFindings [] delta.operations

def documentFindings (slot : ArtifactSlot) : List AxisFinding :=
  match change.fields.artifacts slot with
  | none => []
  | some path =>
    if change.documents.any fun document => document.path = path then []
    else
      [⟨.consistency, "declared_artifact_missing",
        "artifact " ++ Text.repr path ++ " of slot " ++ Text.repr slot.value ++ " is declared but absent"⟩]

def artifactFindings (slot : ArtifactSlot) (artifact : YamlSlot) : List AxisFinding :=
  if (change.fields.artifacts slot).isSome ∧ (change.artifacts artifact).isNone then
    [⟨.consistency, "declared_artifact_missing",
      "slot " ++ Text.repr slot.value ++ " is declared but its artifact is not present"⟩]
  else []

def consistencyFindings : List AxisFinding :=
  change.delta.elim [] (deltaFindings change.fields) ++ documentSlots.flatMap (documentFindings change) ++
    slotToArtifact.flatMap fun entry => artifactFindings change entry.1 entry.2

def planFinding (riskClass : RiskClass) : AxisFinding :=
  ⟨.policy, "reconciliation_required_for_high_risk",
    "risk class " ++ riskClass.value ++ " requires a reconciliation plan"⟩

def policyFindings : List AxisFinding :=
  if change.fields.riskClass ∈ highRisk ∧ change.reconciliation.isNone then [planFinding change.fields.riskClass] else []

def requirementTargets : List String := change.delta.elim [] fun delta => delta.operations.filterMap DeltaOperation.touched

def taskDefs : List TaskDef := change.tasks.elim [] TaskGraph.tasks

def verificationEntries : List RequirementVerification := change.verification.elim [] VerificationPlan.requirements

def evidenceEntries : List EvidenceEntry := change.evidence.elim [] EvidenceIndex.evidence

def coverageFindings : List AxisFinding :=
  let satisfied := (taskDefs change).flatMap TaskDef.satisfies
  let verified := (verificationEntries change).map RequirementVerification.requirement
  (requirementTargets change).flatMap fun target =>
    (if target ∉ satisfied then
      [⟨.coverage, "requirement_without_task",
        "requirement " ++ Text.repr target ++ " is not satisfied by any task"⟩]
    else []) ++
    (if target ∉ verified then
      [⟨.coverage, "requirement_without_verification",
        "requirement " ++ Text.repr target ++ " has no checks in the verification plan"⟩]
    else [])

def evidenceFindings : List AxisFinding :=
  ((evidenceEntries change).flatMap fun entry =>
    if entry.required ∧ ¬ entry.available then
      [⟨.evidence, "required_evidence_unavailable", "required evidence " ++ Text.repr entry.id ++ " is unavailable"⟩]
    else []) ++
  (if (evidenceEntries change).isEmpty ∧ change.fields.status.value ∈ evidenceExpectedStatuses then
    [⟨.evidence, "missing_evidence_for_accepted_change",
      "change in status " ++ Text.repr change.fields.status.value ++ " has no evidence"⟩]
  else [])

structure NormalizedChangeSet (codec : SddCodec α) where
  changeset : ChangeSet codec.models
  completeness : List AxisFinding
  consistency : List AxisFinding
  policy : List AxisFinding
  coverage : List AxisFinding
  evidence : List AxisFinding

def normalize : NormalizedChangeSet codec where
  changeset := change
  completeness := completenessFindings change
  consistency := consistencyFindings change
  policy := policyFindings change
  coverage := coverageFindings change
  evidence := evidenceFindings change

end Normalize

end DarkFactory
