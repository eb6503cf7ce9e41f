import DarkFactory.Changes.Run
import DarkFactory.Lib.Calendar

namespace DarkFactory

structure RunManifest where
  factoryVersion : String
  factoryCommit : String
  packName : Option String := none
  packVersion : Option String := none
  blueprintVersion : Option String := none
  productCommit : String
  gitopsCommit : Option String := none
  okfRevision : Option String := none
  deriving DecidableEq, Repr

namespace Timestamp

def days (t : Timestamp) : Int := t / 86400000000

/-- The instants a `datetime` can tell: the years 1 to 9999. -/
def Valid (t : Timestamp) : Prop := -719162 ≤ days t ∧ days t ≤ 2932896

instance (t : Timestamp) : Decidable (Valid t) := inferInstanceAs (Decidable (_ ∧ _))

end Timestamp

structure RunRecord where
  manifest : RunManifest
  change : Change
  run : ChangeRun
  createdAt : Timestamp
  stageResults : List StageResult := []
  decisions : List Decision := []
  release : Option ReleaseEvidence := none
  created_valid : Timestamp.Valid createdAt := by decide
  deriving DecidableEq

inductive RetentionClass | audit | standard
  deriving DecidableEq, Repr

structure RunEvidenceEntry where
  id : String
  type : String
  uri : String
  checksum : Option String := none
  mediaType : Option String := none
  producer : Option String := none
  createdAt : Option Timestamp := none
  retentionClass : RetentionClass := .standard
  required : Bool := false
  available : Bool := true
  deriving DecidableEq, Repr

structure RunEvidenceIndex where
  changeId : String
  runId : String
  entries : List RunEvidenceEntry := []
  deriving DecidableEq, Repr

structure RunStageUsage where
  stage : String
  attemptNumber : Nat
  usage : Usage
  deriving DecidableEq, Repr

structure RunUsageSummary where
  runId : String
  budget : BudgetSnapshot
  stages : List RunStageUsage := []
  totals : Usage := {}
  deriving DecidableEq, Repr

inductive PublishOutcome | created | unchanged
  deriving DecidableEq, Repr

structure RunRecordRef where
  changeId : String
  runId : String
  relativePath : String
  digest : String
  deriving DecidableEq, Repr

structure PublishResult where
  outcome : PublishOutcome
  ref : RunRecordRef
  deriving DecidableEq, Repr

/-- A screened value: where it sits in the payload and which pattern matched. -/
structure UnsafeValue where
  path : String
  kind : String
  deriving DecidableEq, Repr

inductive RecordErrorKind | store | unsafeRecord | tooLarge | immutability | evidenceChain | os | validation
  deriving DecidableEq, Repr

structure RecordError where
  kind : RecordErrorKind
  message : String
  deriving DecidableEq, Repr

/-- The JSON and YAML texts of the models, and the screening of a dumped record. -/
structure RecordCodec where
  manifest : RunManifest → String
  snapshot : RunRecord → String
  evidenceIndex : RunEvidenceIndex → String
  usage : RunUsageSummary → String
  stageResult : StageResult → String
  parse : String → Option RunRecord
  unsafeValues : RunRecord → List UnsafeValue

/-- `from_json` inverts `to_json`, whose text escapes every carriage return. -/
structure RecordCodec.ReadsBack (codec : RecordCodec) (record : RunRecord) : Prop where
  inverts : codec.parse (codec.snapshot record) = some record
  escaped : '\r' ∉ (codec.snapshot record).toList

end DarkFactory
