import DarkFactory.Records.Model
import DarkFactory.Lib.Outcome
import DarkFactory.Scm.Agent

namespace DarkFactory

def manifestName : String := "manifest.yaml"
def snapshotName : String := "snapshot.json"
def evidenceIndexName : String := "evidence-index.json"
def usageName : String := "usage.json"
def decisionsName : String := "decisions.md"
def stagesDirName : String := "stages"

def maxRunRecordBytes : Nat := 512 * 1024

def EvidenceType.value : EvidenceType → String
  | .log => "log"
  | .report => "report"
  | .screenshot => "screenshot"
  | .sbom => "sbom"
  | .spec => "spec"
  | .diff => "diff"
  | .testResults => "test_results"
  | .deployment => "deployment"
  | .smoke => "smoke"
  | .other => "other"

def DecisionSource.value : DecisionSource → String
  | .human => "human"
  | .policy => "policy"
  | .agent => "agent"

def producerOf (result : StageResult) : String := result.stage.value ++ ":" ++ toString result.attemptNumber

def evidenceEntry (producer : String) (evidence : Evidence) : RunEvidenceEntry where
  id := evidence.id
  type := evidence.type.value
  uri := evidence.uri
  checksum := evidence.checksum
  producer := some producer
  createdAt := evidence.producedAt
  retentionClass := if evidence.required then .audit else .standard
  required := evidence.required
  available := evidence.available

def artifactId (producer : String) (index : Nat) : String := "artifact:" ++ producer ++ ":" ++ toString index

def artifactEntry (producer : String) (index : Nat) (artifact : ArtifactRef) : RunEvidenceEntry where
  id := artifactId producer index
  type := artifact.artifactType
  uri := artifact.uri
  checksum := artifact.sha256
  mediaType := some artifact.artifactType
  producer := some ((artifact.producer.filter (· ≠ "")).getD producer)

/-- An artifact has no id of its own: its attempt and its position stand for one. -/
def artifactEntries (result : StageResult) : List RunEvidenceEntry :=
  result.artifacts.mapIdx (artifactEntry (producerOf result))

def buildEvidenceIndex (record : RunRecord) : RunEvidenceIndex where
  changeId := record.change.id
  runId := record.run.id
  entries := record.stageResults.flatMap fun result =>
    result.evidence.map (evidenceEntry (producerOf result)) ++ artifactEntries result

def StageResult.usageOrZero (result : StageResult) : Usage := result.usage.getD {}

/-- A total stays absent until a stage reports one. -/
def addTotal {α : Type} (add : α → α → α) (total reported : Option α) : Option α :=
  match total, reported with
  | some total, some amount => some (add total amount)
  | total, reported => total.or reported

def addUsage (totals : Usage) (usage : Usage) : Usage where
  promptTokens := totals.promptTokens + usage.promptTokens
  completionTokens := totals.completionTokens + usage.completionTokens
  totalTokens := addTotal (· + ·) totals.totalTokens usage.totalTokens
  cost := addTotal Decimal.add totals.cost usage.cost

def buildUsageSummary (record : RunRecord) : RunUsageSummary where
  runId := record.run.id
  budget := record.run.budget
  stages := record.stageResults.map fun result =>
    { stage := result.stage.value, attemptNumber := result.attemptNumber, usage := result.usageOrZero }
  totals := (record.stageResults.map StageResult.usageOrZero).foldl addUsage {}

def cell (value : Option String) : String :=
  match value with
  | none => "-"
  | some text => String.join (text.toList.map fun c =>
      if c = '|' then "\\|" else if c = '\n' ∨ c = '\r' then " " else c.toString)

def decisionColumns : List String :=
  ["id", "gate", "outcome", "decided_by", "role", "decided_at", "commit_sha", "comment"]

def tableRow (cells : List String) : String := "| " ++ Text.join " | " cells ++ " |"

def renderDecisions (decisions : List Decision) : String :=
  let rows := decisions.map fun decision => tableRow
    [cell (some decision.id), decision.gate.value, decision.outcome.value, decision.decidedBy.value,
      cell (decision.role.map Role.value), Text.isoformat decision.decidedAt, cell decision.commitSha,
      cell decision.comment]
  Text.join "\n" (["# Decisions", "", tableRow decisionColumns,
    tableRow (decisionColumns.map fun _ => "---")] ++ rows) ++ "\n"

abbrev RecordFiles := List (String × String)

def stageFileName (result : StageResult) : String :=
  stagesDirName ++ "/" ++ result.stage.value ++ "-" ++ toString result.attemptNumber ++ ".json"

def sameAttempt (result : StageResult) : RecordError :=
  ⟨.store, "the run record holds two stage results for the same attempt: " ++ result.stage.value ++ " attempt " ++
    toString result.attemptNumber⟩

def addStageFile (codec : RecordCodec) (files : RecordFiles) (result : StageResult) : Except RecordError RecordFiles :=
  if (files.map Prod.fst).contains (stageFileName result) then .error (sameAttempt result)
  else .ok (files ++ [(stageFileName result, codec.stageResult result)])

def serialize (codec : RecordCodec) (record : RunRecord) : Except RecordError RecordFiles := do
  let files ← record.stageResults.foldlM (addStageFile codec)
    [(manifestName, codec.manifest record.manifest), (snapshotName, codec.snapshot record),
      (evidenceIndexName, codec.evidenceIndex (buildEvidenceIndex record)),
      (usageName, codec.usage (buildUsageSummary record))]
  return if record.decisions.isEmpty then files else files ++ [(decisionsName, renderDecisions record.decisions)]

def isMutableUri (uri : String) : Bool :=
  (uri.toList.splitOnP fun c => c = '/' || c = ':' || c = '@').any fun part =>
    part.map Char.toLower = "latest".toList

/-- The evidence declared so far, the latest first, and the defects found. -/
structure ChainScan where
  declared : List (String × String × Option String) := []
  violations : List String

def ChainScan.declare (strict : Bool) (scan : ChainScan) (evidence : Evidence) : ChainScan :=
  let source := (evidence.uri, evidence.checksum)
  let conflicting := (scan.declared.lookup evidence.id).any fun previous => previous ≠ source
  { declared := (evidence.id, source) :: scan.declared
    violations := scan.violations ++
      (if conflicting then ["duplicate evidence id with conflicting source: " ++ evidence.id] else []) ++
      (if strict && evidence.required && evidence.checksum.isNone then
        ["required evidence without a checksum: " ++ evidence.id] else []) ++
      (if isMutableUri evidence.uri then ["evidence URI is not immutable: " ++ evidence.id] else []) }

def ChainScan.refer (scan : ChainScan) (references : List String) : ChainScan :=
  { scan with violations := scan.violations ++
      (references.filter fun reference => (scan.declared.lookup reference).isNone).map fun reference =>
        "unresolved evidence reference: " ++ reference }

def referencedEvidenceIds (gateResults : List GateResult) (findings : List Finding) : List String :=
  gateResults.flatMap GateResult.evidenceIds ++ findings.flatMap Finding.evidenceIds

def ChainScan.result (strict : Bool) (scan : ChainScan) (result : StageResult) : ChainScan :=
  let declared := result.evidence.foldl (ChainScan.declare strict) scan
  let artifacts := (result.artifacts.filter fun artifact => isMutableUri artifact.uri).map fun artifact =>
    "artifact URI is not immutable: " ++ artifact.uri
  { declared with violations := declared.violations ++ artifacts }.refer
    (referencedEvidenceIds result.gateResults result.findings)

def evidenceChainViolations (record : RunRecord) : List String :=
  let strict := record.run.status = .succeeded
  let scanned := record.stageResults.foldl (ChainScan.result strict)
    { violations := completionViolations record.run record.stageResults }
  (record.decisions.foldl (fun scan decision => scan.refer decision.evidenceIds) scanned).violations

end DarkFactory
