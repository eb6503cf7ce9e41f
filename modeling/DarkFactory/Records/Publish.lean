import DarkFactory.Records.Layout

namespace DarkFactory

structure RunsRoot where
  directories : List (TreePath × RecordFiles) := []
  unique : Table.Unique Prod.fst directories := by exact Table.Unique.nil

namespace RunsRoot

variable (root : RunsRoot)

def files (path : TreePath) : Option RecordFiles := (Table.find Prod.fst path root.directories).map Prod.snd

/-- `_read_snapshot_bytes`. -/
def snapshot (path : TreePath) : Option String := (root.files path).bind fun files => files.lookup snapshotName

def remove (path : TreePath) : RunsRoot where
  directories := Table.delete Prod.fst path root.directories
  unique := root.unique.delete

def place (path : TreePath) (files : RecordFiles) : RunsRoot where
  directories := Table.delete Prod.fst path root.directories ++ [(path, files)]
  unique := root.unique.delete.append fun other member => by simpa using (List.mem_filter.mp member).2

def occupied (path : TreePath) : Bool := (root.files path).any fun files => !files.isEmpty

end RunsRoot

def snapshotOf (files : RecordFiles) : String := (files.lookup snapshotName).getD ""

def describeUnsafeValues (values : List UnsafeValue) : String :=
  Text.join ", " (values.map fun value =>
    (if value.path = "" then "<root>" else value.path) ++ " [" ++ value.kind ++ "]")

def checkPayloadSize (totalBytes : Nat) : Except RecordError Unit :=
  if maxRunRecordBytes < totalBytes then
    .error ⟨.tooLarge, "the run record is " ++ toString totalBytes ++ " bytes, above the " ++
      toString maxRunRecordBytes ++ "-byte limit"⟩
  else .ok ()

def checked (codec : RecordCodec) (record : RunRecord) : Except RecordError (TreePath × RecordFiles) := do
  let directory ← runDir record
  let files ← serialize codec record
  checkPayloadSize (files.map fun file => file.2.utf8ByteSize).sum
  let found := codec.unsafeValues record
  if !found.isEmpty then
    throw ⟨.unsafeRecord, "the run record is not safe to publish: " ++ describeUnsafeValues found⟩
  let violations := evidenceChainViolations record
  if !violations.isEmpty then
    throw ⟨.evidenceChain, "the evidence chain of the run record is incomplete: " ++ Text.join "; " violations⟩
  return (directory, files)

def refOf (directory : TreePath) (files : RecordFiles) (record : RunRecord) : RunRecordRef where
  changeId := record.change.id
  runId := record.run.id
  relativePath := posixPath directory
  digest := Sha256.hexdigest (snapshotOf files)

def occupiedBy (directory : TreePath) : RecordError :=
  ⟨.immutability, "a different run record is already published at " ++ posixPath directory ++
    "; a correction is a new record, not a rewrite (ADR-015 p.4)"⟩

def ioFailure : RecordError := ⟨.os, "Input/output error"⟩

/-- `mkdtemp` beside the directory. -/
def stagingPath (directory : TreePath) (suffix : String) : TreePath :=
  directory.dropLast ++ ["." ++ directory.getLastD "" ++ "-" ++ suffix]

/-- What a rename that failed means: whether the tree in its place is the same record. -/
def classify (root : RunsRoot) (directory : TreePath) (files : RecordFiles) : Except RecordError Bool :=
  match root.snapshot directory with
  | none => .error ioFailure
  | some existing => if existing ≠ snapshotOf files then .error (occupiedBy directory) else .ok false

/-- The tree is written beside its place and renamed into it; `suffix` is the name drawn for it. -/
def writeAtomic (directory : TreePath) (files : RecordFiles) (suffix : String) (root : RunsRoot) :
    Except RecordError Bool × RunsRoot :=
  let staging := stagingPath directory suffix
  if (root.files staging).isSome then (.error ioFailure, root)
  else
    let staged := root.place staging files
    if staged.occupied directory then (classify staged directory files, staged.remove staging)
    else (.ok true, ((staged.remove staging).place directory files).remove staging)

namespace RunRecordStore

def publish (codec : RecordCodec) (suffix : String) (record : RunRecord) (root : RunsRoot) :
    Except RecordError PublishResult × RunsRoot :=
  match checked codec record with
  | .error error => (.error error, root)
  | .ok (directory, files) =>
    match root.snapshot directory with
    | some existing =>
      if existing ≠ snapshotOf files then (.error (occupiedBy directory), root)
      else (.ok ⟨.unchanged, refOf directory files record⟩, root)
    | none =>
      let (written, after) := writeAtomic directory files suffix root
      (written.map fun created => ⟨if created then .created else .unchanged, refOf directory files record⟩, after)

/-- `read_text` and `from_json`. -/
def readRecord (codec : RecordCodec) (ref : RunRecordRef) (root : RunsRoot) : Except RecordError RunRecord := do
  let directory ← resolveRefPath ref.relativePath
  match root.snapshot directory with
  | none => throw ⟨.os, "No such file or directory"⟩
  | some text =>
    match codec.parse (String.ofList (newlines false text.toList)) with
    | none => throw ⟨.validation, "1 validation error for RunRecord"⟩
    | some record => return record

end RunRecordStore

section Root

variable {root : RunsRoot} {path other : TreePath} {files : RecordFiles}

@[simp] theorem RunsRoot.files_place_self : (root.place path files).files path = some files := by
  have absent : Table.find Prod.fst path (Table.delete Prod.fst path root.directories) = none := Table.find_delete_self
  simp only [Table.find] at absent
  simp [RunsRoot.files, RunsRoot.place, Table.find, List.find?_append, absent]

theorem RunsRoot.files_place_other (apart : other ≠ path) : (root.place path files).files other = root.files other := by
  have kept : Table.find Prod.fst other (Table.delete Prod.fst path root.directories) =
      Table.find Prod.fst other root.directories := Table.find_delete_other apart
  simp only [Table.find] at kept
  simp [RunsRoot.files, RunsRoot.place, Table.find, List.find?_append, kept, apart.symm]

@[simp] theorem RunsRoot.files_remove_self : (root.remove path).files path = none := by
  rw [RunsRoot.files, RunsRoot.remove, Table.find_delete_self]
  rfl

theorem RunsRoot.files_remove_other (apart : other ≠ path) : (root.remove path).files other = root.files other := by
  rw [RunsRoot.files, RunsRoot.remove, Table.find_delete_other apart]
  rfl

theorem RunsRoot.snapshot_congr {after : RunsRoot} (same : after.files path = root.files path) :
    after.snapshot path = root.snapshot path := by
  rw [RunsRoot.snapshot, same]
  rfl

/-- A directory that takes a rename holds no snapshot. -/
theorem RunsRoot.snapshot_free (free : root.occupied path = false) : root.snapshot path = none := by
  unfold RunsRoot.occupied at free
  unfold RunsRoot.snapshot
  cases held : root.files path with
  | none => rfl
  | some files =>
    rw [held] at free
    cases files with
    | nil => rfl
    | cons first rest => simp at free

theorem RunsRoot.files_none : root.files path = none ↔ ∀ entry ∈ root.directories, entry.1 ≠ path := by
  rw [RunsRoot.files, Option.map_eq_none_iff, Table.find_none]

theorem RunsRoot.ext {after : RunsRoot} (same : after.directories = root.directories) : after = root := by
  cases after
  cases root
  cases same
  rfl

theorem RunsRoot.remove_absent (absent : root.files path = none) : root.remove path = root := by
  apply RunsRoot.ext
  show Table.delete Prod.fst path root.directories = root.directories
  rw [Table.delete, List.filter_eq_self]
  intro entry member
  simpa using RunsRoot.files_none.mp absent entry member

theorem RunsRoot.place_absent (absent : root.files path = none) :
    (root.place path files).directories = root.directories ++ [(path, files)] := by
  have kept : Table.delete Prod.fst path root.directories = root.directories :=
    congrArg RunsRoot.directories (RunsRoot.remove_absent absent)
  show Table.delete Prod.fst path root.directories ++ [(path, files)] = root.directories ++ [(path, files)]
  rw [kept]

theorem RunsRoot.place_place {other : RecordFiles} : (root.place path other).place path files = root.place path files := by
  apply RunsRoot.ext
  simp [RunsRoot.place, Table.delete, List.filter_append]

theorem RunsRoot.remove_placed : (root.place path files).remove path = root.remove path := by
  apply RunsRoot.ext
  simp [RunsRoot.place, RunsRoot.remove, Table.delete, List.filter_append]

theorem RunsRoot.remove_place (absent : root.files path = none) : (root.place path files).remove path = root := by
  rw [RunsRoot.remove_placed, RunsRoot.remove_absent absent]

theorem stagingPath_ne {suffix : String} : stagingPath path suffix ≠ path := by
  intro same
  unfold stagingPath at same
  have last := congrArg (fun parts : TreePath => (parts.getLastD "").length) same
  simp only [List.getLastD_concat, String.length_append] at last
  have dot : ".".length = 1 := rfl
  omega

end Root

section Checked

variable {codec : RecordCodec} {record : RunRecord} {directory : TreePath} {files : RecordFiles}

theorem addStageFile_lookup {before after : RecordFiles} {results : List StageResult} {text : String}
    (named : before.lookup snapshotName = some text) (added : results.foldlM (addStageFile codec) before = .ok after) :
    after.lookup snapshotName = some text := by
  induction results generalizing before with
  | nil => exact Outcome.pure_ok.mp added ▸ named
  | cons result rest ih =>
    rw [List.foldlM_cons] at added
    obtain ⟨middle, one, others⟩ := Outcome.bind_ok.mp added
    refine ih ?_ others
    unfold addStageFile at one
    split at one
    · cases one
    · cases one
      rw [List.lookup_append, named]
      rfl

theorem serialize_snapshot (made : serialize codec record = .ok files) :
    files.lookup snapshotName = some (codec.snapshot record) := by
  unfold serialize at made
  obtain ⟨before, added, made⟩ := Outcome.bind_ok.mp made
  have named := @addStageFile_lookup _ _ _ _ (codec.snapshot record) rfl added
  rw [Outcome.pure_ok] at made
  rw [← made]
  split
  · exact named
  · rw [List.lookup_append, named]
    rfl

theorem checked_ok (passed : checked codec record = .ok (directory, files)) :
    runDir record = .ok directory ∧ serialize codec record = .ok files := by
  unfold checked at passed
  obtain ⟨address, filed, passed⟩ := Outcome.bind_ok.mp passed
  obtain ⟨tree, made, passed⟩ := Outcome.bind_ok.mp passed
  obtain ⟨-, -, passed⟩ := Outcome.bind_ok.mp passed
  have same : (address, tree) = (directory, files) := by
    dsimp only at passed
    split at passed
    · cases passed
    · split at passed
      · cases passed
      · exact Outcome.pure_ok.mp passed
  cases same
  exact ⟨filed, made⟩

end Checked

theorem firstInstant_valid : Timestamp.Valid 1760000000000000 := by decide

theorem nextInstant_valid : Timestamp.Valid 1760000000000001 := by decide

def plainRecord (run : String) (createdAt : Timestamp)
    (valid : createdAt.Valid := by first | exact firstInstant_valid | exact nextInstant_valid | decide) : RunRecord where
  manifest := { factoryVersion := "1.0.0", factoryCommit := "f1", productCommit := "p1" }
  change := { id := "CHG-1", riskClass := .r1 }
  run := { id := run, changeId := "CHG-1", route := .standard, provider := .github }
  createdAt
  created_valid := valid

def plainSnapshot (record : RunRecord) : String :=
  "\x7b\"run\": \"" ++ record.run.id ++ "\", \"created_at\": " ++ toString record.createdAt ++ "\x7d"

def plainCodec (records : List RunRecord) : RecordCodec where
  manifest manifest := "factory_version: " ++ manifest.factoryVersion
  snapshot := plainSnapshot
  evidenceIndex index := "run_id: " ++ index.runId
  usage summary := "run_id: " ++ summary.runId
  stageResult result := "status: " ++ result.status.value
  parse text := records.find? fun record => plainSnapshot record = text
  unsafeValues _ := []

end DarkFactory
