import DarkFactory.Lib.Trace
import DarkFactory.Records.Publish

namespace DarkFactory

/-- How far a publish call has come: `absent` has looked for a snapshot and found none, `writing` has made its temporary
    directory and has these files left to write, `beaten` has failed to rename its tree. -/
inductive WriterPhase
  | ready
  | absent
  | writing (staging : TreePath) (left : RecordFiles)
  | beaten (staging : TreePath)
  | renamed (staging : TreePath)
  | lost (staging : TreePath) (outcome : Except RecordError Unit)
  | done (result : Except RecordError PublishResult)

structure Writer (codec : RecordCodec) where
  record : RunRecord
  directory : TreePath
  files : RecordFiles
  passed : checked codec record = .ok (directory, files)
  phase : WriterPhase := .ready

/-- What a writer does next, one access to the file system each; `fail` is an error of the file system, which may cut
    short the file it was writing. -/
inductive WriterEvent
  | look
  | stage (suffix : String)
  | write
  | rename
  | classify
  | unlink (name : String)
  | cleanup
  | fail (written : Option Nat)

namespace RunsRoot

variable (root : RunsRoot)

def write (path : TreePath) (file : String × String) : RunsRoot := root.place path ((root.files path).getD [] ++ [file])

def unlink (path : TreePath) (name : String) : RunsRoot :=
  match root.files path with
  | none => root
  | some files => root.place path (files.filter fun file => file.1 ≠ name)

def rmdir (path : TreePath) : RunsRoot := if root.files path = some [] then root.remove path else root

end RunsRoot

def cutShort (written : Nat) (file : String × String) : String × String :=
  (file.1, String.ofList (file.2.toList.take written))

namespace Writer

variable {codec : RecordCodec} (writer : Writer codec)

def enters (phase : WriterPhase) : Writer codec := { writer with phase }

def result (outcome : PublishOutcome) : PublishResult :=
  ⟨outcome, refOf writer.directory writer.files writer.record⟩

def look (root : RunsRoot) : Writer codec :=
  match root.snapshot writer.directory with
  | none => writer.enters .absent
  | some existing =>
    if existing ≠ snapshotOf writer.files then writer.enters (.done (.error (occupiedBy writer.directory)))
    else writer.enters (.done (.ok (writer.result .unchanged)))

/-- The name drawn is that of no entry; else `mkdtemp` draws another. -/
def stage (staging : TreePath) (root : RunsRoot) : RunsRoot × Writer codec :=
  if (root.files staging).isSome then (root, writer)
  else (root.place staging [], writer.enters (.writing staging writer.files))

/-- A file that could not be written is not there, or is there in part. -/
def failWrite (staging : TreePath) (file : String × String) (written : Option Nat) (root : RunsRoot) :
    RunsRoot × Writer codec :=
  (match written with
    | none => root
    | some n => root.write staging (cutShort n file),
  writer.enters (.lost staging (.error ioFailure)))

def rename (staging : TreePath) (root : RunsRoot) : RunsRoot × Writer codec :=
  match root.files staging with
  | none => (root, writer.enters (.beaten staging))
  | some tree =>
    if root.occupied writer.directory then (root, writer.enters (.beaten staging))
    else ((root.remove staging).place writer.directory tree, writer.enters (.renamed staging))

def step (root : RunsRoot) (event : WriterEvent) : RunsRoot × Writer codec :=
  match writer.phase, event with
  | .ready, .look => (root, writer.look root)
  | .absent, .stage suffix => writer.stage (stagingPath writer.directory suffix) root
  | .absent, .fail _ => (root, writer.enters (.done (.error ioFailure)))
  | .writing staging (file :: left), .write => (root.write staging file, writer.enters (.writing staging left))
  | .writing staging (file :: _), .fail written => writer.failWrite staging file written root
  | .writing staging [], .rename => writer.rename staging root
  | .writing staging [], .fail _ => (root, writer.enters (.beaten staging))
  | .beaten staging, .classify =>
    (root, writer.enters (.lost staging ((classify root writer.directory writer.files).map fun _ => ())))
  -- The clean-up takes file by file and then the directory; what it cannot remove stays.
  | .lost staging _, .unlink name | .renamed staging, .unlink name => (root.unlink staging name, writer)
  | .lost staging outcome, .cleanup =>
    (root.rmdir staging, writer.enters (.done (outcome.map fun _ => writer.result .unchanged)))
  | .lost _ outcome, .fail _ => (root, writer.enters (.done (outcome.map fun _ => writer.result .unchanged)))
  | .renamed staging, .cleanup => (root.rmdir staging, writer.enters (.done (.ok (writer.result .created))))
  | .renamed _, .fail _ => (root, writer.enters (.done (.ok (writer.result .created))))
  | _, _ => (root, writer)

def staging? : Option TreePath :=
  match writer.phase with
  | .writing staging _ | .beaten staging | .renamed staging | .lost staging _ => some staging
  | _ => none

def Filed : Prop :=
  match writer.phase with
  | .renamed _ | .lost _ (.ok _) | .done (.ok _) => True
  | _ => False

end Writer

structure Depot (codec : RecordCodec) where
  root : RunsRoot := {}
  writers : List (Writer codec) := []
  drawn : List TreePath := []

inductive DepotAction
  | start (record : RunRecord)
  | act (index : Nat) (event : WriterEvent)

variable {codec : RecordCodec}

def WriterEvent.draws (event : WriterEvent) (writer : Writer codec) (root : RunsRoot) : Option TreePath :=
  match writer.phase, event with
  | .absent, .stage suffix =>
    let staging := stagingPath writer.directory suffix
    if (root.files staging).isSome then none else some staging
  | _, _ => none

/-- A record that fails its checks raises before anything is read or written. -/
def Depot.next (depot : Depot codec) : DepotAction → Depot codec
  | .start record =>
    match passed : checked codec record with
    | .error _ => depot
    | .ok (directory, files) =>
      { depot with writers := depot.writers ++ [{ record, directory, files, passed }] }
  | .act index event =>
    match depot.writers[index]? with
    | none => depot
    | some writer =>
      let (root, moved) := writer.step depot.root event
      { root, writers := depot.writers.set index moved, drawn := depot.drawn ++ (event.draws writer depot.root).toList }

def Depot.after (depot : Depot codec) (actions : List DepotAction) : Depot codec := actions.foldl Depot.next depot

/-- `mkdtemp` draws a name no call has drawn before, and that is the address of no record. -/
def DrawsFresh (depot : Depot codec) : DepotAction → Prop
  | .start record => ∀ directory, runDir record = .ok directory → directory ∉ depot.drawn
  | .act index event => ∀ writer staging, depot.writers[index]? = some writer →
      event.draws writer depot.root = some staging →
      staging ∉ depot.drawn ∧ ∀ other ∈ depot.writers, other.directory ≠ staging

instance (depot : Depot codec) : (action : DepotAction) → Decidable (DrawsFresh depot action)
  | .start record =>
    match made : runDir record with
    | .error _ => .isTrue fun directory same => by rw [made] at same; cases same
    | .ok directory => decidable_of_iff (directory ∉ depot.drawn) (by
        constructor
        · intro away other same
          rw [made] at same
          cases same
          exact away
        · exact fun fresh => fresh directory made)
  | .act index event =>
    match found : depot.writers[index]? with
    | none => .isTrue fun writer staging same => by rw [found] at same; cases same
    | some writer =>
      match drawn : event.draws writer depot.root with
      | none => .isTrue fun other staging same draws => by
          rw [found] at same
          cases same
          rw [drawn] at draws
          cases draws
      | some staging =>
        decidable_of_iff (staging ∉ depot.drawn ∧ ∀ other ∈ depot.writers, other.directory ≠ staging) (by
          constructor
          · intro away other name same draws
            rw [found] at same
            cases same
            rw [drawn] at draws
            cases draws
            exact away
          · exact fun fresh => fresh writer staging found drawn)

/-- The snapshot at an address; a temporary directory publishes nothing. -/
def Depot.published (depot : Depot codec) (path : TreePath) : Option String :=
  if path ∈ depot.drawn then none else depot.root.snapshot path

def Writer.Wrote (writer : Writer codec) (staging : TreePath) (file : String × String) : Prop :=
  ∃ whole left, writer.phase = .writing staging (whole :: left) ∧
    (file = whole ∨ ∃ written, file = cutShort written whole)

/-- What an event does: to the checkout, to its own call, and the temporary directory it makes. -/
inductive Moved (root : RunsRoot) (writer : Writer codec) : RunsRoot → Writer codec → Option TreePath → Prop
  | quiet {phase : WriterPhase}
      (keeps : ∀ staging, (writer.enters phase).staging? = some staging → writer.staging? = some staging)
      (unstaged : ∀ staging left, phase = .writing staging left → writer.phase = phase)
      (filed : (writer.enters phase).Filed →
        writer.Filed ∨ root.snapshot writer.directory = some (snapshotOf writer.files))
      (ends : ∀ result, phase = .done (.ok result) →
        writer.phase = phase ∨ result.ref = refOf writer.directory writer.files writer.record) :
      Moved root writer root (writer.enters phase) none
  | made {staging : TreePath} (free : root.files staging = none) :
      Moved root writer (root.place staging []) (writer.enters (.writing staging writer.files)) (some staging)
  | touched {staging : TreePath} {tree : RecordFiles} {phase : WriterPhase} (here : writer.staging? = some staging)
      (keeps : (writer.enters phase).staging? = some staging)
      (grows : ∀ left, phase = .writing staging left → ∃ file, writer.phase = .writing staging (file :: left) ∧
        tree = (root.files staging).getD [] ++ [file])
      (part : ∀ file ∈ tree, file ∈ (root.files staging).getD [] ∨ writer.Wrote staging file)
      (filed : (writer.enters phase).Filed → writer.Filed) :
      Moved root writer (root.place staging tree) (writer.enters phase) none
  | renamed {staging : TreePath} {tree : RecordFiles} (here : writer.phase = .writing staging [])
      (held : root.files staging = some tree) (free : root.occupied writer.directory = false) :
      Moved root writer ((root.remove staging).place writer.directory tree) (writer.enters (.renamed staging)) none
  | cleaned {staging : TreePath} {result : Except RecordError PublishResult} (here : writer.staging? = some staging)
      (filed : (∃ published, result = .ok published) → writer.Filed)
      (ends : ∀ published, result = .ok published → published.ref = refOf writer.directory writer.files writer.record) :
      Moved root writer (root.remove staging) (writer.enters (.done result)) none

section Step

variable {root : RunsRoot} {writer : Writer codec}

theorem Moved.idle : Moved root writer root writer none :=
  @Moved.quiet _ root writer writer.phase (fun _ here => here) (fun _ _ _ => rfl) Or.inl fun _ _ => Or.inl rfl

theorem moved_raised (error : RecordError) : Moved root writer root (writer.enters (.done (.error error))) none := by
  refine .quiet ?_ ?_ ?_ ?_
  · intro staging here; cases here
  · intro staging left here; cases here
  · intro filed; cases filed
  · intro result here; cases here

theorem moved_beaten {staging : TreePath} (own : writer.staging? = some staging) :
    Moved root writer root (writer.enters (.beaten staging)) none := by
  refine .quiet ?_ ?_ ?_ ?_
  · intro other same
    cases same
    exact own
  · intro other left same; cases same
  · intro filed; cases filed
  · intro result same; cases same

theorem moved_lost {staging : TreePath} {outcome : Except RecordError Unit} (own : writer.staging? = some staging)
    (stands : outcome = .ok () → root.snapshot writer.directory = some (snapshotOf writer.files)) :
    Moved root writer root (writer.enters (.lost staging outcome)) none := by
  refine .quiet ?_ ?_ ?_ ?_
  · intro other same
    cases same
    exact own
  · intro other left same; cases same
  · intro filed
    cases outcome with
    | error error => cases filed
    | ok found => exact Or.inr (stands rfl)
  · intro result same; cases same

theorem moved_look : Moved root writer root (writer.look root) none := by
  unfold Writer.look
  cases held : root.snapshot writer.directory with
  | none =>
    refine .quiet ?_ ?_ ?_ ?_
    · intro staging here; cases here
    · intro staging left here; cases here
    · intro filed; cases filed
    · intro result here; cases here
  | some existing =>
    by_cases same : existing = snapshotOf writer.files
    · simp only [same, ne_eq, not_true_eq_false, if_false]
      refine .quiet ?_ ?_ ?_ ?_
      · intro staging here; cases here
      · intro staging left here; cases here
      · intro _; exact Or.inr (by rw [held, same])
      · intro result here
        cases here
        exact Or.inr rfl
    · simp only [ne_eq, same, not_false_eq_true, if_true]
      exact moved_raised _

theorem moved_stage {staging : TreePath} :
    Moved root writer (writer.stage staging root).1 (writer.stage staging root).2
      (if (root.files staging).isSome then none else some staging) := by
  unfold Writer.stage
  cases held : root.files staging with
  | none => exact .made held
  | some tree => exact .idle

theorem moved_write {staging : TreePath} {file : String × String} {left : RecordFiles}
    (here : writer.phase = .writing staging (file :: left)) :
    Moved root writer (root.write staging file) (writer.enters (.writing staging left)) none := by
  refine .touched (by rw [Writer.staging?, here]) rfl ?_ ?_ ?_
  · intro rest same
    cases same
    exact ⟨file, here, rfl⟩
  · intro other member
    rcases List.mem_append.mp member with old | new
    · exact Or.inl old
    · exact Or.inr ⟨file, left, here, Or.inl (List.mem_singleton.mp new)⟩
  · intro filed; cases filed

theorem moved_failWrite {staging : TreePath} {file : String × String} {left : RecordFiles} (written : Option Nat)
    (here : writer.phase = .writing staging (file :: left)) :
    Moved root writer (writer.failWrite staging file written root).1 (writer.failWrite staging file written root).2
      none := by
  have own : writer.staging? = some staging := by rw [Writer.staging?, here]
  unfold Writer.failWrite
  cases written with
  | none => exact moved_lost own nofun
  | some n =>
    refine .touched own rfl ?_ ?_ ?_
    · intro rest same; cases same
    · intro other member
      rcases List.mem_append.mp member with old | new
      · exact Or.inl old
      · exact Or.inr ⟨file, left, here, Or.inr ⟨n, List.mem_singleton.mp new⟩⟩
    · intro filed; cases filed

theorem moved_unlink {staging : TreePath} (name : String) (here : writer.staging? = some staging)
    (unwritten : ∀ left, writer.phase ≠ .writing staging left) :
    Moved root writer (root.unlink staging name) writer none := by
  unfold RunsRoot.unlink
  cases held : root.files staging with
  | none => exact .idle
  | some files =>
    refine @Moved.touched _ root writer staging (files.filter fun file => file.1 ≠ name) writer.phase here here ?_ ?_ id
    · intro left same
      exact absurd same (unwritten left)
    · intro file member
      rw [held]
      exact Or.inl (List.mem_of_mem_filter member)

theorem moved_cleanup {staging : TreePath} {result : Except RecordError PublishResult}
    (here : writer.staging? = some staging) (filed : (∃ published, result = .ok published) → writer.Filed)
    (ends : ∀ published, result = .ok published → published.ref = refOf writer.directory writer.files writer.record) :
    Moved root writer (root.rmdir staging) (writer.enters (.done result)) none ∧
      Moved root writer root (writer.enters (.done result)) none := by
  have left : Moved root writer root (writer.enters (.done result)) none := by
    refine .quiet ?_ ?_ ?_ ?_
    · intro other same; cases same
    · intro other rest same; cases same
    · intro done
      apply Or.inl
      apply filed
      cases result with
      | ok published => exact ⟨published, rfl⟩
      | error error => cases done
    · intro published same
      cases same
      exact Or.inr (ends published rfl)
  refine ⟨?_, left⟩
  unfold RunsRoot.rmdir
  split
  · exact .cleaned here filed ends
  · exact left

theorem moved_rename {staging : TreePath} (here : writer.phase = .writing staging []) :
    Moved root writer (writer.rename staging root).1 (writer.rename staging root).2 none := by
  have beaten : Moved root writer root (writer.enters (.beaten staging)) none :=
    moved_beaten (by rw [Writer.staging?, here])
  unfold Writer.rename
  cases held : root.files staging with
  | none => exact beaten
  | some tree =>
    cases free : root.occupied writer.directory with
    | true => simpa [free] using beaten
    | false => simpa [free] using Moved.renamed here held free

theorem moved_classify {staging : TreePath} (here : writer.phase = .beaten staging) :
    Moved root writer root
      (writer.enters (.lost staging ((classify root writer.directory writer.files).map fun _ => ()))) none := by
  apply moved_lost
  · rw [Writer.staging?, here]
  · intro found
    unfold classify at found
    cases held : root.snapshot writer.directory with
    | none =>
      rw [held] at found
      cases found
    | some existing =>
      rw [held] at found
      by_cases same : existing = snapshotOf writer.files
      · rw [same]
      · simp only [ne_eq, same, not_false_eq_true, if_true] at found
        cases found

/-- The one account of what an event can do. -/
theorem step_moved (event : WriterEvent) :
    Moved root writer (writer.step root event).1 (writer.step root event).2 (event.draws writer root) := by
  unfold Writer.step WriterEvent.draws
  cases here : writer.phase with
  | ready =>
    cases event with
    | look => exact moved_look
    | _ => exact Moved.idle
  | absent =>
    cases event with
    | stage suffix => exact moved_stage
    | fail written => exact moved_raised _
    | _ => exact Moved.idle
  | writing staging left =>
    cases left with
    | cons file left =>
      cases event with
      | write => exact moved_write here
      | fail written => exact moved_failWrite written here
      | _ => exact Moved.idle
    | nil =>
      cases event with
      | rename => exact moved_rename here
      | fail written => exact moved_beaten (by rw [Writer.staging?, here])
      | _ => exact Moved.idle
  | beaten staging =>
    cases event with
    | classify => exact moved_classify here
    | _ => exact Moved.idle
  | renamed staging =>
    have own : writer.staging? = some staging := by rw [Writer.staging?, here]
    have ended := @moved_cleanup _ root writer staging (.ok (writer.result .created)) own
      (fun _ => by rw [Writer.Filed, here]; trivial) (fun published made => by cases made; rfl)
    cases event with
    | unlink name => exact moved_unlink name own (by rw [here]; nofun)
    | cleanup => exact ended.1
    | fail written => exact ended.2
    | _ => exact Moved.idle
  | lost staging outcome =>
    have own : writer.staging? = some staging := by rw [Writer.staging?, here]
    have ended := @moved_cleanup _ root writer staging (outcome.map fun _ => writer.result .unchanged) own
      (fun ⟨published, made⟩ => by
        rw [Writer.Filed, here]
        cases outcome with
        | error error => cases made
        | ok _ => trivial)
      (fun published made => by
        cases outcome with
        | error error => cases made
        | ok _ =>
          cases made
          rfl)
    cases event with
    | unlink name => exact moved_unlink name own (by rw [here]; nofun)
    | cleanup => exact ended.1
    | fail written => exact ended.2
    | _ => exact Moved.idle
  | done result => exact Moved.idle

/-- An event touches its own temporary directory, the one it makes, and the address it renames its tree to. -/
theorem Moved.frame {after : RunsRoot} {moved : Writer codec} {drawn : Option TreePath} {path : TreePath}
    (step : Moved root writer after moved drawn) (apart : writer.staging? ≠ some path) (undrawn : drawn ≠ some path)
    (standing : path = writer.directory → root.occupied path = true) : after.files path = root.files path := by
  cases step with
  | quiet => rfl
  | @made staging free =>
    apply RunsRoot.files_place_other
    rintro rfl
    exact undrawn rfl
  | @touched staging tree phase here =>
    apply RunsRoot.files_place_other
    rintro rfl
    exact apart here
  | @renamed staging tree here held free =>
    have other : path ≠ writer.directory := by
      rintro rfl
      rw [standing rfl] at free
      cases free
    have away : path ≠ staging := by
      rintro rfl
      exact apart (by rw [Writer.staging?, here])
    exact (RunsRoot.files_place_other other).trans (RunsRoot.files_remove_other away)
  | @cleaned staging result here =>
    apply RunsRoot.files_remove_other
    rintro rfl
    exact apart here

theorem Moved.draws_free {after : RunsRoot} {moved : Writer codec} {staging : TreePath}
    (step : Moved root writer after moved (some staging)) : root.files staging = none := by
  cases step with
  | made free => exact free

theorem Moved.kept {after : RunsRoot} {moved : Writer codec} {drawn : Option TreePath} {path : TreePath} {text : String}
    (step : Moved root writer after moved drawn) (apart : writer.staging? ≠ some path)
    (held : root.snapshot path = some text) : after.snapshot path = some text := by
  rw [← held]
  apply RunsRoot.snapshot_congr
  apply step.frame apart
  · rintro rfl
    rw [RunsRoot.snapshot, step.draws_free] at held
    cases held
  · intro _
    by_contra free
    rw [RunsRoot.snapshot_free (by simpa using free)] at held
    cases held

theorem Moved.files_kept {after : RunsRoot} {moved : Writer codec} {drawn : Option TreePath} {path : TreePath}
    {tree : RecordFiles} (step : Moved root writer after moved drawn) (apart : writer.staging? ≠ some path)
    (away : path ≠ writer.directory) (held : root.files path = some tree) : after.files path = some tree := by
  rw [← held]
  apply step.frame apart
  · rintro rfl
    rw [step.draws_free] at held
    cases held
  · exact fun same => absurd same away

theorem Moved.staging {after : RunsRoot} {moved : Writer codec} {drawn : Option TreePath} {staging : TreePath}
    (step : Moved root writer after moved drawn) (own : moved.staging? = some staging) :
    writer.staging? = some staging ∨ drawn = some staging := by
  cases step with
  | quiet keeps => exact Or.inl (keeps staging own)
  | made free => exact Or.inr own
  | touched here keeps =>
    rw [keeps, Option.some.injEq] at own
    exact Or.inl (own ▸ here)
  | renamed here =>
    cases own
    exact Or.inl (by rw [Writer.staging?, here])
  | cleaned here => cases own

theorem Writer.snapshot_files (writer : Writer codec) :
    writer.files.lookup snapshotName = some (snapshotOf writer.files) ∧
      snapshotOf writer.files = codec.snapshot writer.record := by
  have named := serialize_snapshot (checked_ok writer.passed).2
  rw [snapshotOf, named]
  exact ⟨rfl, rfl⟩

theorem Moved.same {after : RunsRoot} {moved : Writer codec} {drawn : Option TreePath}
    (step : Moved root writer after moved drawn) : ∃ phase, moved = writer.enters phase := by
  cases step <;> exact ⟨_, rfl⟩

def Writer.Staged (writer : Writer codec) (root : RunsRoot) : Prop :=
  ∀ staging left, writer.phase = .writing staging left →
    ∃ tree, root.files staging = some tree ∧ tree ++ left = writer.files

theorem Moved.staged {after : RunsRoot} {phase : WriterPhase} {drawn : Option TreePath}
    (step : Moved root writer after (writer.enters phase) drawn) (before : writer.Staged root) :
    (writer.enters phase).Staged after := by
  intro staging left phased
  cases step with
  | quiet keeps unstaged => exact before staging left ((unstaged staging left phased).trans phased)
  | made free =>
    cases phased
    exact ⟨[], RunsRoot.files_place_self, rfl⟩
  | @touched own tree _ here keeps grows =>
    obtain rfl : own = staging := by
      rw [Writer.staging?, show (writer.enters phase).phase = .writing staging left from phased] at keeps
      exact (Option.some.inj keeps).symm
    obtain ⟨file, earlier, rfl⟩ := grows left phased
    obtain ⟨tree, held, whole⟩ := before own (file :: left) earlier
    refine ⟨_, RunsRoot.files_place_self, ?_⟩
    rw [held, Option.getD_some, List.append_assoc]
    exact whole
  | renamed => cases phased
  | cleaned => cases phased

theorem Moved.filed {after : RunsRoot} {phase : WriterPhase} {drawn : Option TreePath}
    (step : Moved root writer after (writer.enters phase) drawn) (apart : writer.staging? ≠ some writer.directory)
    (staged : writer.Staged root)
    (before : writer.Filed → root.snapshot writer.directory = some (snapshotOf writer.files))
    (filed : (writer.enters phase).Filed) : after.snapshot writer.directory = some (snapshotOf writer.files) := by
  cases step with
  | quiet keeps unstaged files =>
    rcases files filed with earlier | here
    · exact before earlier
    · exact here
  | made => cases filed
  | touched here keeps grows part files =>
    exact (Moved.touched here keeps grows part files).kept apart (before (files filed))
  | renamed here held free =>
    obtain ⟨tree, there, whole⟩ := staged _ _ here
    rw [held, Option.some.injEq] at there
    rw [List.append_nil] at whole
    rw [RunsRoot.snapshot, there, whole]
    exact (congrArg (·.bind fun files => files.lookup snapshotName) RunsRoot.files_place_self).trans
      writer.snapshot_files.1
  | @cleaned staging result here files ends =>
    apply (Moved.cleaned here files ends).kept apart
    apply before
    apply files
    cases result with
    | ok published => exact ⟨published, rfl⟩
    | error error => cases filed

theorem Moved.ends {after : RunsRoot} {phase : WriterPhase} {drawn : Option TreePath} {result : PublishResult}
    (step : Moved root writer after (writer.enters phase) drawn)
    (before : writer.phase = .done (.ok result) → result.ref = refOf writer.directory writer.files writer.record)
    (phased : phase = .done (.ok result)) : result.ref = refOf writer.directory writer.files writer.record := by
  cases step with
  | quiet keeps unstaged files ends =>
    rcases ends result phased with earlier | named
    · exact before (earlier.trans phased)
    · exact named
  | made => cases phased
  | touched here keeps =>
    rw [phased] at keeps
    cases keeps
  | renamed => cases phased
  | cleaned here files ends =>
    cases phased
    exact ends result rfl

end Step

/-- The calls keep apart: each works on its own temporary directory, away from every address, has there the files it does
    not have left to write, and finds its record at the address once it has filed it. -/
structure Depot.Sound (depot : Depot codec) : Prop where
  trees : ∀ (i : Nat) (writer : Writer codec) (staging : TreePath), depot.writers[i]? = some writer →
    writer.staging? = some staging → staging ∈ depot.drawn
  addresses : ∀ (i : Nat) (writer : Writer codec), depot.writers[i]? = some writer → writer.directory ∉ depot.drawn
  apart : ∀ (i j : Nat) (first second : Writer codec) (staging : TreePath), depot.writers[i]? = some first →
    depot.writers[j]? = some second → first.staging? = some staging → second.staging? = some staging → i = j
  staged : ∀ (i : Nat) (writer : Writer codec) (staging : TreePath) (left : RecordFiles),
    depot.writers[i]? = some writer → writer.phase = .writing staging left →
    ∃ tree, depot.root.files staging = some tree ∧ tree ++ left = writer.files
  filed : ∀ (i : Nat) (writer : Writer codec), depot.writers[i]? = some writer → writer.Filed →
    depot.root.snapshot writer.directory = some (snapshotOf writer.files)
  ends : ∀ (i : Nat) (writer : Writer codec) (result : PublishResult), depot.writers[i]? = some writer →
    writer.phase = .done (.ok result) → result.ref = refOf writer.directory writer.files writer.record

section Depot

variable {depot : Depot codec} {action : DepotAction} {path : TreePath} {text : String}

theorem Depot.published_some : depot.published path = some text ↔
    path ∉ depot.drawn ∧ depot.root.snapshot path = some text := by
  unfold Depot.published
  split <;> simp_all

theorem Depot.next_act {index : Nat} {event : WriterEvent} {writer : Writer codec}
    (found : depot.writers[index]? = some writer) : depot.next (.act index event) =
      { root := (writer.step depot.root event).1
        writers := depot.writers.set index (writer.step depot.root event).2
        drawn := depot.drawn ++ (event.draws writer depot.root).toList } := by
  simp only [Depot.next, found]

theorem Depot.next_absent {index : Nat} {event : WriterEvent} (absent : depot.writers[index]? = none) :
    depot.next (.act index event) = depot := by
  simp only [Depot.next, absent]

theorem Depot.next_start (record : RunRecord) : depot.next (.start record) = depot ∨
    ∃ writer : Writer codec, writer.record = record ∧ writer.phase = .ready ∧
      depot.next (.start record) = { depot with writers := depot.writers ++ [writer] } := by
  unfold Depot.next
  dsimp only
  split
  · exact Or.inl rfl
  · exact Or.inr ⟨_, rfl, rfl, rfl⟩

/-- What is published stays published, word for word. -/
theorem Depot.Sound.published_next (sound : depot.Sound) (held : depot.published path = some text) :
    (depot.next action).published path = some text := by
  obtain ⟨away, snapshot⟩ := Depot.published_some.mp held
  cases action with
  | start record =>
    rcases depot.next_start record with same | ⟨writer, -, -, same⟩
    · rw [same]
      exact held
    · rw [same]
      exact held
  | act index event =>
    cases found : depot.writers[index]? with
    | none =>
      rw [Depot.next_absent found]
      exact held
    | some writer =>
      have step := @step_moved _ depot.root writer event
      have apart : writer.staging? ≠ some path := fun own => away (sound.trees index writer path found own)
      have undrawn : event.draws writer depot.root ≠ some path := by
        intro drawn
        rw [drawn] at step
        rw [RunsRoot.snapshot, step.draws_free] at snapshot
        cases snapshot
      rw [Depot.next_act found, Depot.published_some]
      refine ⟨?_, step.kept apart snapshot⟩
      simpa [away] using undrawn

theorem writers_append {writers : List (Writer codec)} {new writer : Writer codec} {i : Nat}
    (found : (writers ++ [new])[i]? = some writer) :
    writers[i]? = some writer ∨ (i = writers.length ∧ writer = new) := by
  rw [List.getElem?_append] at found
  split at found
  · exact Or.inl found
  · rename_i beyond
    rw [List.getElem?_singleton] at found
    split at found
    · exact Or.inr ⟨by omega, (Option.some.inj found).symm⟩
    · cases found

theorem writers_set {writers : List (Writer codec)} {moved writer : Writer codec} {i index : Nat}
    (found : (writers.set index moved)[i]? = some writer) :
    (i ≠ index ∧ writers[i]? = some writer) ∨ (i = index ∧ writer = moved) := by
  rw [List.getElem?_set] at found
  split at found
  · rename_i here
    split at found
    · exact Or.inr ⟨here.symm, (Option.some.inj found).symm⟩
    · cases found
  · rename_i away
    exact Or.inl ⟨fun same => away same.symm, found⟩

theorem Depot.Sound.start {record : RunRecord} (sound : depot.Sound) (fresh : DrawsFresh depot (.start record)) :
    (depot.next (.start record)).Sound := by
  rcases depot.next_start record with same | ⟨new, named, ready, same⟩
  · rw [same]
    exact sound
  · have quiet : new.staging? = none := by rw [Writer.staging?, ready]
    have unfiled : ¬ new.Filed := by rw [Writer.Filed, ready]; exact id
    rw [same]
    constructor
    · intro i writer staging found own
      rcases writers_append found with old | ⟨-, rfl⟩
      · exact sound.trees i writer staging old own
      · rw [quiet] at own
        cases own
    · intro i writer found
      rcases writers_append found with old | ⟨-, rfl⟩
      · exact sound.addresses i writer old
      · exact fresh writer.directory (named ▸ (checked_ok writer.passed).1)
    · intro i j first second staging here there own other
      rcases writers_append here with here | ⟨-, rfl⟩
      · rcases writers_append there with there | ⟨-, rfl⟩
        · exact sound.apart i j first second staging here there own other
        · rw [quiet] at other
          cases other
      · rw [quiet] at own
        cases own
    · intro i writer staging left found phase
      rcases writers_append found with old | ⟨-, rfl⟩
      · exact sound.staged i writer staging left old phase
      · rw [ready] at phase
        cases phase
    · intro i writer found filed
      rcases writers_append found with old | ⟨-, rfl⟩
      · exact sound.filed i writer old filed
      · exact absurd filed unfiled
    · intro i writer result found phase
      rcases writers_append found with old | ⟨-, rfl⟩
      · exact sound.ends i writer result old phase
      · rw [ready] at phase
        cases phase

theorem Depot.Sound.act {index : Nat} {event : WriterEvent} (sound : depot.Sound)
    (fresh : DrawsFresh depot (.act index event)) : (depot.next (.act index event)).Sound := by
  cases found : depot.writers[index]? with
  | none =>
    rw [Depot.next_absent found]
    exact sound
  | some mover =>
    have step := @step_moved _ depot.root mover event
    have new (staging : TreePath) (drawn : event.draws mover depot.root = some staging) := fresh mover staging found drawn
    rw [Depot.next_act found]
    generalize (mover.step depot.root event).1 = root at step ⊢
    generalize (mover.step depot.root event).2 = moved at step ⊢
    generalize event.draws mover depot.root = drawn at step new ⊢
    obtain ⟨phase, rfl⟩ := step.same
    have address := sound.addresses index mover found
    have away (other : Writer codec) (member : other.directory ∉ depot.drawn) :
        mover.staging? ≠ some other.directory := fun own => member (sound.trees index mover _ found own)
    constructor
    · intro i writer staging there own
      rcases writers_set there with ⟨-, old⟩ | ⟨-, rfl⟩
      · exact List.mem_append_left _ (sound.trees i writer staging old own)
      · rcases step.staging own with before | made
        · exact List.mem_append_left _ (sound.trees index mover staging found before)
        · simp [made]
    · intro i writer there listed
      have other : ∃ (j : Nat) (old : Writer codec), depot.writers[j]? = some old ∧
          old.directory = writer.directory := by
        rcases writers_set there with ⟨-, old⟩ | ⟨-, rfl⟩
        · exact ⟨i, writer, old, rfl⟩
        · exact ⟨index, mover, found, rfl⟩
      obtain ⟨j, old, member, same⟩ := other
      rw [← same, List.mem_append] at listed
      rcases listed with before | made
      · exact sound.addresses j old member before
      · have drawnHere : drawn = some old.directory := by simpa using made
        exact (new old.directory drawnHere).2 old (List.mem_of_getElem? member) rfl
    · intro i j first second staging here there own other
      have undrawn (k : Nat) (writer : Writer codec) (present : depot.writers[k]? = some writer)
          (held : writer.staging? = some staging) : drawn ≠ some staging :=
        fun made => (new staging made).1 (sound.trees k writer staging present held)
      rcases writers_set here with ⟨-, old⟩ | ⟨rfl, rfl⟩
      · rcases writers_set there with ⟨-, old'⟩ | ⟨rfl, rfl⟩
        · exact sound.apart i j first second staging old old' own other
        · rcases step.staging other with before | made
          · exact sound.apart i j first mover staging old found own before
          · exact absurd made (undrawn i first old own)
      · rcases writers_set there with ⟨-, old'⟩ | ⟨rfl, rfl⟩
        · rcases step.staging own with before | made
          · exact sound.apart i j mover second staging found old' before other
          · exact absurd made (undrawn j second old' other)
        · rfl
    · intro i writer staging left there phased
      rcases writers_set there with ⟨apart, old⟩ | ⟨-, rfl⟩
      · have own : writer.staging? = some staging := by rw [Writer.staging?, phased]
        have listed := sound.trees i writer staging old own
        have distinct : mover.staging? ≠ some staging := fun held =>
          apart (sound.apart i index writer mover staging old found own held)
        have elsewhere : staging ≠ mover.directory := fun same => address (same ▸ listed)
        obtain ⟨tree, held, whole⟩ := sound.staged i writer staging left old phased
        exact ⟨tree, step.files_kept distinct elsewhere held, whole⟩
      · exact step.staged (fun place rest before => sound.staged index mover place rest found before) staging left phased
    · intro i writer there filed
      rcases writers_set there with ⟨-, old⟩ | ⟨-, rfl⟩
      · exact step.kept (away writer (sound.addresses i writer old)) (sound.filed i writer old filed)
      · exact step.filed (away mover address) (fun place rest before => sound.staged index mover place rest found before)
          (sound.filed index mover found) filed
    · intro i writer result there phased
      rcases writers_set there with ⟨-, old⟩ | ⟨-, rfl⟩
      · exact sound.ends i writer result old phased
      · exact step.ends (sound.ends index mover result found) phased

theorem Depot.Sound.next (sound : depot.Sound) (fresh : DrawsFresh depot action) : (depot.next action).Sound := by
  cases action with
  | start record => exact sound.start fresh
  | act index event => exact sound.act fresh

end Depot

section Runs

variable {depot : Depot codec} {actions : List DepotAction}

theorem Depot.sound_idle (root : RunsRoot) : ({ root } : Depot codec).Sound := by
  constructor <;> simp

theorem Depot.Sound.after (sound : depot.Sound) (fresh : Trace.Along Depot.next DrawsFresh depot actions) :
    (depot.after actions).Sound :=
  Trace.invariant (fun _ _ sound fresh => sound.next fresh) sound fresh

theorem Depot.Sound.published_after {path : TreePath} {text : String} (sound : depot.Sound)
    (fresh : Trace.Along Depot.next DrawsFresh depot actions) (held : depot.published path = some text) :
    (depot.after actions).published path = some text := by
  have step (depot : Depot codec) (action : DepotAction)
      (holding : depot.Sound ∧ depot.published path = some text) (fresh : DrawsFresh depot action) :
      (depot.next action).Sound ∧ (depot.next action).published path = some text :=
    ⟨holding.1.next fresh, holding.1.published_next holding.2⟩
  exact (Trace.invariant step ⟨sound, held⟩ fresh).2

/-- What every event of a call keeps of it, as long as a fact about the checkout lasts, holds of it after a run. -/
theorem Depot.Sound.follows {fact : Depot codec → Prop} {holds : Writer codec → Prop} {index : Nat}
    (lasts : ∀ (depot : Depot codec) action, depot.Sound → fact depot → fact (depot.next action))
    (keeps : ∀ (depot : Depot codec) writer event, fact depot → holds writer → holds (writer.step depot.root event).2)
    (sound : depot.Sound) (fresh : Trace.Along Depot.next DrawsFresh depot actions) (start : fact depot)
    (held : ∃ writer, depot.writers[index]? = some writer ∧ holds writer) :
    fact (depot.after actions) ∧ ∃ writer, (depot.after actions).writers[index]? = some writer ∧ holds writer := by
  have step (depot : Depot codec) (action : DepotAction)
      (holding : depot.Sound ∧ fact depot ∧ ∃ writer, depot.writers[index]? = some writer ∧ holds writer)
      (fresh : DrawsFresh depot action) :
      (depot.next action).Sound ∧ fact (depot.next action) ∧
        ∃ writer, (depot.next action).writers[index]? = some writer ∧ holds writer := by
    obtain ⟨sound, known, writer, there, holding⟩ := holding
    refine ⟨sound.next fresh, lasts depot action sound known, ?_⟩
    have bound := (List.getElem?_eq_some_iff.mp there).1
    cases action with
    | start record =>
      refine ⟨writer, ?_, holding⟩
      rcases depot.next_start record with same | ⟨new, -, -, same⟩
      · rw [same]
        exact there
      · rw [same, List.getElem?_append_left bound]
        exact there
    | act mover event =>
      cases found : depot.writers[mover]? with
      | none =>
        rw [Depot.next_absent found]
        exact ⟨writer, there, holding⟩
      | some moving =>
        rw [Depot.next_act found]
        by_cases here : mover = index
        · subst here
          rw [there, Option.some.injEq] at found
          subst found
          exact ⟨_, List.getElem?_set_self bound, keeps depot writer event known holding⟩
        · exact ⟨writer, by rw [List.getElem?_set_ne here]; exact there, holding⟩
  exact (Trace.invariant step ⟨sound, start, held⟩ fresh).2

def Depot.Ends (depot : Depot codec) (index : Nat) (verdict : Except RecordError PublishResult) : Prop :=
  ∃ writer, depot.writers[index]? = some writer ∧ (writer.phase = .ready ∨ writer.phase = .done verdict) ∧
    ∀ event, (writer.step depot.root event).1 = depot.root

/-- A call that has yet to look where a snapshot is published ends with what the snapshot says, and writes nothing. -/
theorem Depot.Sound.decided {index : Nat} {writer : Writer codec} {text : String} {verdict : Except RecordError PublishResult}
    (sound : depot.Sound) (fresh : Trace.Along Depot.next DrawsFresh depot actions)
    (there : depot.writers[index]? = some writer) (ready : writer.phase = .ready)
    (held : depot.published writer.directory = some text)
    (looks : ∀ root : RunsRoot, root.snapshot writer.directory = some text →
      writer.look root = writer.enters (.done verdict)) :
    (depot.after actions).Ends index verdict := by
  let known (depot : Depot codec) : Prop := depot.published writer.directory = some text
  let decides (moved : Writer codec) : Prop := moved = writer ∨ moved = writer.enters (.done verdict)
  have lasts (depot : Depot codec) (action : DepotAction) (sound : depot.Sound) (before : known depot) :
      known (depot.next action) := sound.published_next before
  have keeps (depot : Depot codec) (moved : Writer codec) (event : WriterEvent) (before : known depot)
      (holding : decides moved) : decides (moved.step depot.root event).2 := by
    rcases holding with rfl | rfl
    · unfold Writer.step
      rw [ready]
      cases event with
      | look => exact Or.inr (looks depot.root (Depot.published_some.mp before).2)
      | _ => exact Or.inl rfl
    · exact Or.inr rfl
  have follows := sound.follows lasts keeps fresh held ⟨writer, there, Or.inl rfl⟩
  obtain ⟨-, final, found, moved⟩ := follows
  refine ⟨final, found, ?_, fun event => ?_⟩
  · rcases moved with rfl | rfl
    · exact Or.inl ready
    · exact Or.inr rfl
  · rcases moved with rfl | rfl
    · unfold Writer.step
      rw [ready]
      cases event <;> rfl
    · rfl

/-- An event changes what is published by the rename of its call alone, which then ends with `CREATED`. -/
theorem Depot.Sound.publishes {index : Nat} {event : WriterEvent} {writer : Writer codec} (sound : depot.Sound)
    (found : depot.writers[index]? = some writer) :
    (depot.next (.act index event)).published = depot.published ∨
      ∃ staging, (writer.step depot.root event).2.phase = .renamed staging := by
  have step := @step_moved _ depot.root writer event
  rw [Depot.next_act found]
  unfold Depot.published
  generalize (writer.step depot.root event).1 = root at step ⊢
  generalize (writer.step depot.root event).2 = moved at step ⊢
  generalize event.draws writer depot.root = drawn at step ⊢
  cases step with
  | quiet => exact Or.inl (by simp)
  | @touched staging tree phase here =>
    left
    have listed := sound.trees index writer staging found here
    funext path
    by_cases own : path = staging
    · subst own
      simp [listed]
    · simp [RunsRoot.snapshot_congr (RunsRoot.files_place_other own)]
  | @made staging free =>
    left
    funext path
    by_cases here : path = staging
    · subst here
      simp [RunsRoot.snapshot, free]
    · simp [here, RunsRoot.snapshot_congr (RunsRoot.files_place_other here)]
  | @renamed staging tree => exact Or.inr ⟨staging, rfl⟩
  | @cleaned staging result here =>
    left
    have listed := sound.trees index writer staging found here
    funext path
    by_cases own : path = staging
    · subst own
      simp [listed]
    · simp [RunsRoot.snapshot_congr (RunsRoot.files_remove_other own)]

theorem Depot.Sound.commits {index : Nat} {writer : Writer codec} {staging : TreePath} (sound : depot.Sound)
    (fresh : Trace.Along Depot.next DrawsFresh depot actions) (there : depot.writers[index]? = some writer)
    (renamed : writer.phase = .renamed staging) :
    ∃ final, (depot.after actions).writers[index]? = some final ∧
      (final.phase = .renamed staging ∨ final.phase = .done (.ok (writer.result .created))) := by
  let commits (moved : Writer codec) : Prop :=
    moved = writer ∨ moved = writer.enters (.done (.ok (writer.result .created)))
  have keeps (depot : Depot codec) (moved : Writer codec) (event : WriterEvent) (_ : True) (holding : commits moved) :
      commits (moved.step depot.root event).2 := by
    rcases holding with rfl | rfl
    · unfold Writer.step
      rw [renamed]
      cases event with
      | cleanup | fail => exact Or.inr rfl
      | _ => exact Or.inl rfl
    · exact Or.inr rfl
  have follows := sound.follows (fun _ _ _ known => known) keeps fresh trivial ⟨writer, there, Or.inl rfl⟩
  obtain ⟨-, final, found, moved⟩ := follows
  refine ⟨final, found, ?_⟩
  rcases moved with rfl | rfl
  · exact Or.inl renamed
  · exact Or.inr rfl

end Runs

section Alone

def Writer.runs (events : List WriterEvent) (here : RunsRoot × Writer codec) : RunsRoot × Writer codec :=
  events.foldl (fun here event => here.2.step here.1 event) here

def Writer.alone (writer : Writer codec) (suffix : String) : List WriterEvent :=
  .look :: .stage suffix :: (writer.files.map (fun _ => .write) ++
    .rename :: .classify :: (writer.files.map (fun file => .unlink file.1) ++ [.cleanup]))

theorem publish_of_checked {root : RunsRoot} {suffix : String} (writer : Writer codec) :
    RunRecordStore.publish codec suffix writer.record root =
      match root.snapshot writer.directory with
      | some existing =>
        if existing ≠ snapshotOf writer.files then (.error (occupiedBy writer.directory), root)
        else (.ok (writer.result .unchanged), root)
      | none =>
        ((writeAtomic writer.directory writer.files suffix root).1.map fun created =>
          writer.result (if created then .created else .unchanged),
          (writeAtomic writer.directory writer.files suffix root).2) := by
  unfold RunRecordStore.publish
  rw [writer.passed]
  rfl

theorem classify_ok {root : RunsRoot} {directory : TreePath} {files : RecordFiles} {created : Bool}
    (classified : classify root directory files = .ok created) : created = false := by
  unfold classify at classified
  split at classified
  · cases classified
  · split at classified <;> cases classified
    rfl

section Events

variable {root : RunsRoot} {writer : Writer codec} {staging : TreePath}

theorem runs_cons (event : WriterEvent) (rest : List WriterEvent) :
    Writer.runs (event :: rest) (root, writer) = Writer.runs rest (writer.step root event) := rfl

theorem runs_append (events others : List WriterEvent) (here : RunsRoot × Writer codec) :
    Writer.runs (events ++ others) here = Writer.runs others (Writer.runs events here) := List.foldl_append

theorem runs_done (events : List WriterEvent) (result : Except RecordError PublishResult) :
    Writer.runs events (root, writer.enters (.done result)) = (root, writer.enters (.done result)) := by
  induction events with
  | nil => rfl
  | cons event rest ih => exact ih

theorem runs_written (tree left : RecordFiles) :
    Writer.runs (left.map fun _ => .write) (root.place staging tree, writer.enters (.writing staging left)) =
      (root.place staging (tree ++ left), writer.enters (.writing staging [])) := by
  induction left generalizing tree with
  | nil => rw [List.append_nil]; rfl
  | cons file left ih =>
    have wrote : (writer.enters (.writing staging (file :: left))).step (root.place staging tree) .write =
        (root.place staging (tree ++ [file]), writer.enters (.writing staging left)) := by
      show ((root.place staging tree).write staging file, _) = _
      rw [RunsRoot.write, RunsRoot.files_place_self, Option.getD_some, RunsRoot.place_place]
      rfl
    have next := ih (tree ++ [file])
    rw [List.append_assoc, List.singleton_append] at next
    rw [List.map_cons, Writer.runs, List.foldl_cons, wrote]
    exact next

theorem unlink_place (tree : RecordFiles) (name : String) : (root.place staging tree).unlink staging name =
    root.place staging (tree.filter fun file => file.1 ≠ name) := by
  rw [RunsRoot.unlink, RunsRoot.files_place_self]
  exact RunsRoot.place_place

/-- A clean-up that takes every file leaves an empty directory. -/
theorem runs_unlinked (outcome : Except RecordError Unit) (names tree : RecordFiles)
    (all : ∀ file ∈ tree, ∃ other ∈ names, other.1 = file.1) :
    Writer.runs (names.map fun file => .unlink file.1) (root.place staging tree, writer.enters (.lost staging outcome)) =
      (root.place staging [], writer.enters (.lost staging outcome)) := by
  induction names generalizing tree with
  | nil =>
    have empty : tree = [] := List.eq_nil_iff_forall_not_mem.mpr fun file member => by
      obtain ⟨other, listed, -⟩ := all file member
      cases listed
    rw [empty]
    rfl
  | cons name rest ih =>
    have removed : (writer.enters (.lost staging outcome)).step (root.place staging tree) (.unlink name.1) =
        (root.place staging (tree.filter fun file => file.1 ≠ name.1), writer.enters (.lost staging outcome)) := by
      show ((root.place staging tree).unlink staging name.1, _) = _
      rw [unlink_place]
    rw [List.map_cons, Writer.runs, List.foldl_cons, removed]
    apply ih
    intro file member
    obtain ⟨held, away⟩ := List.mem_filter.mp member
    obtain ⟨other, listed, same⟩ := all file held
    rcases List.mem_cons.mp listed with rfl | later
    · exact absurd same.symm (of_decide_eq_true away)
    · exact ⟨other, later, same⟩

theorem runs_renamed (names : RecordFiles) (absent : root.files staging = none) :
    Writer.runs (names.map fun file => .unlink file.1) (root, writer.enters (.renamed staging)) =
      (root, writer.enters (.renamed staging)) := by
  induction names with
  | nil => rfl
  | cons name rest ih =>
    have kept : (writer.enters (.renamed staging)).step root (.unlink name.1) =
        (root, writer.enters (.renamed staging)) := by
      show (root.unlink staging name.1, _) = _
      rw [RunsRoot.unlink, absent]
    rw [List.map_cons, Writer.runs, List.foldl_cons, kept]
    exact ih

end Events

/-- Step by step, an undisturbed call does what `publish` does at once. -/
theorem publish_alone {root : RunsRoot} {writer : Writer codec} {suffix : String} (ready : writer.phase = .ready)
    (free : root.files (stagingPath writer.directory suffix) = none) :
    let made := RunRecordStore.publish codec suffix writer.record root
    Writer.runs (writer.alone suffix) (root, writer) = (made.2, writer.enters (.done made.1)) := by
  intro made
  have published : made = RunRecordStore.publish codec suffix writer.record root := rfl
  rw [publish_of_checked] at published
  have look : writer.step root .look = (root, writer.look root) := by simp only [Writer.step, ready]
  rw [published, Writer.alone, runs_cons, look]
  cases held : root.snapshot writer.directory with
  | some existing =>
    by_cases same : existing = snapshotOf writer.files
    · simp only [Writer.look, held, same, ne_eq, not_true_eq_false, if_false]
      exact runs_done _ _
    · simp only [Writer.look, held, same, ne_eq, not_false_eq_true, if_true]
      exact runs_done _ _
  | none =>
    have absent : writer.look root = writer.enters .absent := by simp only [Writer.look, held]
    have stage : (writer.enters .absent).step root (.stage suffix) =
        (root.place (stagingPath writer.directory suffix) [],
          writer.enters (.writing (stagingPath writer.directory suffix) writer.files)) := by
      show (writer.enters .absent).stage _ root = _
      unfold Writer.stage
      simp only [Writer.enters, free, Option.isSome_none, Bool.false_eq_true, if_false]
    have apart : stagingPath writer.directory suffix ≠ writer.directory := stagingPath_ne
    rw [absent, runs_cons, stage]
    unfold writeAtomic
    generalize stagingPath writer.directory suffix = staging at *
    have present : (root.place staging writer.files).files staging = some writer.files := RunsRoot.files_place_self
    have rename : (writer.enters (.writing staging [])).step (root.place staging writer.files) .rename =
        (writer.enters (.writing staging [])).rename staging (root.place staging writer.files) := rfl
    rw [runs_append, runs_written, List.nil_append, runs_cons, rename]
    unfold Writer.rename
    simp only [free, present, Option.isSome_none, Bool.false_eq_true, if_false]
    by_cases full : (root.place staging writer.files).occupied writer.directory = true
    · -- The rename fails, the tree in its place decides, and the clean-up takes the files and the directory.
      have emptied (outcome : Except RecordError Unit) :=
        @runs_unlinked _ root writer staging outcome writer.files writer.files fun file member => ⟨file, member, rfl⟩
      have gone : (root.place staging []).rmdir staging = (root.place staging writer.files).remove staging := by
        rw [RunsRoot.rmdir, if_pos RunsRoot.files_place_self, RunsRoot.remove_placed, RunsRoot.remove_placed]
      simp only [Writer.enters, full, if_true]
      show Writer.runs _ (root.place staging writer.files, writer.enters (.lost staging _)) = _
      rw [runs_append, emptied]
      show ((root.place staging []).rmdir staging, _) = _
      rw [gone]
      cases verdict : classify (root.place staging writer.files) writer.directory writer.files with
      | error error => rfl
      | ok created =>
        rw [classify_ok verdict]
        rfl
    · have away : (((root.place staging writer.files).remove staging).place writer.directory writer.files).files staging =
          none := by
        rw [RunsRoot.files_place_other apart, RunsRoot.files_remove_self]
      have ignored (root : RunsRoot) : (writer.enters (.renamed staging)).step root .classify =
          (root, writer.enters (.renamed staging)) := rfl
      simp only [Writer.enters, full, Bool.false_eq_true, if_false]
      show Writer.runs _ (_, writer.enters (.renamed staging)) = _
      rw [runs_cons, ignored, runs_append, runs_renamed _ away, RunsRoot.remove_absent away]
      show (RunsRoot.rmdir _ staging, _) = _
      rw [RunsRoot.rmdir, if_neg (by rw [away]; nofun)]
      rfl

def Writer.rest (left : RecordFiles) : List WriterEvent := (left.map fun _ => .write) ++ [.rename, .classify, .cleanup]

def Writer.verdict (writer : Writer codec) (text : String) : Except RecordError PublishResult :=
  if text = codec.snapshot writer.record then .ok (writer.result .unchanged) else .error (occupiedBy writer.directory)

/-- A call that finds a snapshot at its address once its tree is written loses the race, and answers by it. -/
theorem raced_alone {staging : TreePath} {text : String} (left : RecordFiles) {root : RunsRoot} {writer : Writer codec}
    (phase : writer.phase = .writing staging left) (apart : writer.directory ≠ staging)
    (held : root.snapshot writer.directory = some text) :
    (Writer.runs (Writer.rest left) (root, writer)).2 = writer.enters (.done (writer.verdict text)) := by
  induction left generalizing root writer with
  | nil =>
    have full : root.occupied writer.directory = true := by
      by_contra free
      rw [RunsRoot.snapshot_free (by simpa using free)] at held
      cases held
    have beaten : writer.step root .rename = (root, writer.enters (.beaten staging)) := by
      have renames : writer.step root .rename = writer.rename staging root := by simp only [Writer.step, phase]
      rw [renames]
      unfold Writer.rename
      cases root.files staging with
      | none => rfl
      | some tree => simp only [full, if_true]
    have classified : (writer.enters (.beaten staging)).step root .classify = (root,
        writer.enters (.lost staging ((classify root writer.directory writer.files).map fun _ => ()))) := rfl
    show (Writer.runs [.rename, .classify, .cleanup] (root, writer)).2 = _
    rw [runs_cons, beaten, runs_cons, classified]
    show writer.enters (.done _) = _
    unfold classify Writer.verdict
    rw [held, writer.snapshot_files.2]
    by_cases same : text = codec.snapshot writer.record
    · simp only [same, ne_eq, not_true_eq_false, if_false, if_true]
      rfl
    · simp only [same, ne_eq, not_false_eq_true, if_true, if_false]
      rfl
  | cons file left ih =>
    have wrote : writer.step root .write = (root.write staging file, writer.enters (.writing staging left)) := by
      simp only [Writer.step, phase]
    show (Writer.runs (.write :: Writer.rest left) (root, writer)).2 = _
    have kept : (root.write staging file).snapshot writer.directory = some text := by
      rw [← held]
      exact RunsRoot.snapshot_congr (RunsRoot.files_place_other apart)
    rw [runs_cons, wrote]
    exact @ih (root.write staging file) (writer.enters (.writing staging left)) rfl apart kept

/-- Events of one call in a row do to the checkout and to the call what they do alone. -/
theorem Depot.after_runs {depot : Depot codec} {index : Nat} {writer : Writer codec} (events : List WriterEvent)
    (there : depot.writers[index]? = some writer) :
    let ended := depot.after (events.map (.act index))
    ended.root = (Writer.runs events (depot.root, writer)).1 ∧
      ended.writers[index]? = some (Writer.runs events (depot.root, writer)).2 := by
  induction events generalizing depot writer with
  | nil => exact ⟨rfl, there⟩
  | cons event rest ih =>
    have next : depot.next (.act index event) = _ := Depot.next_act there
    have moved : (depot.next (.act index event)).writers[index]? = some (writer.step depot.root event).2 := by
      rw [next]
      exact List.getElem?_set_self (List.getElem?_eq_some_iff.mp there).1
    have ended := ih moved
    rw [show (depot.next (.act index event)).root = (writer.step depot.root event).1 by rw [next]] at ended
    exact ended

end Alone

/-- The checkout and its calls after a run that starts with no call. -/
def Depot.ran (codec : RecordCodec) (root : RunsRoot) (actions : List DepotAction) : Depot codec :=
  Depot.after { root } actions

/-- The law of published records over a run of publish calls, each step of which may fall between those of
    others; and wherever a run has come to, a call that is left alone ends, with what `publish` answers, or with the
    verdict of the race it has lost. -/
structure PublishesImmutably (codec : RecordCodec) (root : RunsRoot) (actions : List DepotAction) : Prop where
  kept : ∀ earlier later, actions = earlier ++ later → ∀ path text,
    (Depot.ran codec root earlier).published path = some text → (Depot.ran codec root actions).published path = some text
  repeated : ∀ earlier later, actions = earlier ++ later → ∀ (i : Nat) (writer : Writer codec),
    (Depot.ran codec root earlier).writers[i]? = some writer → writer.phase = .ready →
    (Depot.ran codec root earlier).published writer.directory = some (codec.snapshot writer.record) →
    (Depot.ran codec root actions).Ends i (.ok (writer.result .unchanged))
  occupied : ∀ earlier later, actions = earlier ++ later → ∀ (i : Nat) (writer : Writer codec) (text : String),
    (Depot.ran codec root earlier).writers[i]? = some writer → writer.phase = .ready →
    (Depot.ran codec root earlier).published writer.directory = some text → text ≠ codec.snapshot writer.record →
    (Depot.ran codec root actions).Ends i (.error (occupiedBy writer.directory))
  raised : ∀ (i : Nat) (writer : Writer codec) (error : RecordError),
    (Depot.ran codec root actions).writers[i]? = some writer → writer.phase = .done (.error error) →
    ∀ earlier event later, actions = earlier ++ .act i event :: later →
      (Depot.ran codec root (earlier ++ [.act i event])).published = (Depot.ran codec root earlier).published
  returned : ∀ (i : Nat) (writer : Writer codec) (result : PublishResult),
    (Depot.ran codec root actions).writers[i]? = some writer → writer.phase = .done (.ok result) →
    result.ref = refOf writer.directory writer.files writer.record ∧
      RunRecordStore.readRecord codec result.ref (Depot.ran codec root actions).root = .ok writer.record
  sameRef : ∀ (i j : Nat) (first second : Writer codec) (result again : PublishResult),
    (Depot.ran codec root actions).writers[i]? = some first → (Depot.ran codec root actions).writers[j]? = some second →
    first.phase = .done (.ok result) → second.phase = .done (.ok again) →
    codec.snapshot first.record = codec.snapshot second.record → result.ref = again.ref
  alone : ∀ (i : Nat) (writer : Writer codec) (suffix : String),
    (Depot.ran codec root actions).writers[i]? = some writer → writer.phase = .ready →
    (Depot.ran codec root actions).root.files (stagingPath writer.directory suffix) = none →
    let made := RunRecordStore.publish codec suffix writer.record (Depot.ran codec root actions).root
    let ended := (Depot.ran codec root actions).after ((writer.alone suffix).map (.act i))
    ended.root = made.2 ∧ ended.writers[i]? = some (writer.enters (.done made.1))
  raced : ∀ (i : Nat) (writer : Writer codec) (staging : TreePath) (left : RecordFiles) (text : String),
    (Depot.ran codec root actions).writers[i]? = some writer → writer.phase = .writing staging left →
    (Depot.ran codec root actions).published writer.directory = some text →
    ((Depot.ran codec root actions).after ((Writer.rest left).map (.act i))).writers[i]? =
      some (writer.enters (.done (writer.verdict text)))

theorem Depot.ran_started {root : RunsRoot} {actions : List DepotAction} {i : Nat} {writer : Writer codec}
    (found : (Depot.ran codec root actions).writers[i]? = some writer) : .start writer.record ∈ actions := by
  have step (depot : Depot codec) (action : DepotAction)
      (started : ∀ writer ∈ depot.writers, .start writer.record ∈ actions) (listed : action ∈ actions) :
      ∀ writer ∈ (depot.next action).writers, .start writer.record ∈ actions := by
    cases action with
    | start record =>
      rcases depot.next_start record with same | ⟨new, named, -, same⟩
      · rw [same]
        exact started
      · rw [same]
        intro writer member
        rcases List.mem_append.mp member with old | made
        · exact started writer old
        · rw [List.mem_singleton.mp made, named]
          exact listed
    | act index event =>
      cases here : depot.writers[index]? with
      | none =>
        rw [Depot.next_absent here]
        exact started
      | some mover =>
        obtain ⟨phase, moved⟩ := (@step_moved _ depot.root mover event).same
        rw [Depot.next_act here, moved]
        intro writer member
        rcases List.mem_or_eq_of_mem_set member with old | made
        · exact started writer old
        · rw [made]
          exact started mover (List.mem_of_getElem? here)
  have along : Trace.Along Depot.next (fun _ action => action ∈ actions) ({ root } : Depot codec) actions :=
    Trace.along_of_forall fun _ member _ => member
  have all := Trace.invariant step (by simp) along
  exact all writer (List.mem_of_getElem? found)

theorem Writer.read_back {root : RunsRoot} (writer : Writer codec) (reads : codec.ReadsBack writer.record)
    (filed : root.snapshot writer.directory = some (snapshotOf writer.files)) :
    RunRecordStore.readRecord codec (refOf writer.directory writer.files writer.record) root = .ok writer.record := by
  have resolved := runDir_resolves (checked_ok writer.passed).1
  have text : String.ofList (newlines false (codec.snapshot writer.record).toList) = codec.snapshot writer.record := by
    rw [newlines_id, String.ofList_toList]
    rintro c member rfl
    exact reads.escaped member
  unfold RunRecordStore.readRecord refOf
  simp only [resolved, filed, writer.snapshot_files.2, text, reads.inverts, Bind.bind, Except.bind]
  rfl

/-- Two calls with one address and different records; the second is the first to rename its tree, and the clean-up of the
    first stops halfway. -/
def race : List DepotAction :=
  [.start (plainRecord "run-1" 1760000000000000), .start (plainRecord "run-1" 1760000000000001), .act 0 .look,
    .act 1 .look, .act 0 (.stage "k2"), .act 1 (.stage "m7")] ++ List.replicate 4 (.act 0 .write) ++
    List.replicate 4 (.act 1 .write) ++ [.act 1 .rename, .act 0 .rename, .act 0 .classify,
    .act 0 (.unlink "manifest.yaml"), .act 0 .cleanup, .act 1 .cleanup]

end DarkFactory
