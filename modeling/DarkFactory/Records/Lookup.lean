import Mathlib.Data.List.Lex
import Mathlib.Data.List.Sort
import Mathlib.Data.String.Basic
import DarkFactory.Lib.Last
import DarkFactory.Records.Publish

namespace DarkFactory

def unreadableRecord (directory : TreePath) : RecordError :=
  ⟨.store, "cannot read the run record at " ++ posixPath directory⟩

/-- A path `runs/*/*/<change>/*` that holds a snapshot. -/
def RunsRoot.candidate (root : RunsRoot) (change : String) (path : TreePath) : Bool :=
  match path with
  | [top, _, _, name, _] => top = runsDirName && name = change && (root.snapshot path).isSome
  | _ => false

/-- `_record_paths`, as directories. -/
def RunsRoot.candidates (root : RunsRoot) (change : String) : List TreePath :=
  ((root.directories.map Prod.fst).filter (root.candidate change)).insertionSort (· ≤ ·)

namespace RunRecordStore

def readAt (codec : RecordCodec) (root : RunsRoot) (directory : TreePath) : Except RecordError (RunRecordRef × RunRecord) :=
  match root.snapshot directory with
  | none => .error (unreadableRecord directory)
  | some text =>
    match codec.parse (String.ofList (newlines false text.toList)) with
    | none => .error (unreadableRecord directory)
    | some record => .ok (⟨record.change.id, record.run.id, posixPath directory, Sha256.hexdigest text⟩, record)

def iterRecords (codec : RecordCodec) (changeId : String) (root : RunsRoot) :
    Except RecordError (List (RunRecordRef × RunRecord)) := do
  let change ← slug changeId
  let found ← (root.candidates change).mapM (readAt codec root)
  return found.filter fun entry => entry.2.change.id = changeId

def wanted (runId : Option String) (record : RunRecord) : Bool := runId.all fun id => record.run.id = id

def findExisting (codec : RecordCodec) (changeId : String) (runId : Option String) (root : RunsRoot) :
    Except RecordError (Option RunRecordRef) := do
  let found ← iterRecords codec changeId root
  return ((found.filter fun entry => wanted runId entry.2).getLast?).map Prod.fst

def created (result : Except RecordError PublishResult) : Bool :=
  match result with
  | .ok ⟨.created, _⟩ => true
  | _ => false

/-- A publish call after others, with the name it draws: the checkout and the records published in it. -/
def file (codec : RecordCodec) (before : RunsRoot × List RunRecord) (call : RunRecord × String) :
    RunsRoot × List RunRecord :=
  let (result, root) := publish codec call.2 call.1 before.1
  (root, if created result then before.2 ++ [call.1] else before.2)

def published (codec : RecordCodec) (calls : List (RunRecord × String)) : RunsRoot × List RunRecord :=
  calls.foldl (file codec) ({}, [])

end RunRecordStore

def Filed (codec : RecordCodec) (root : RunsRoot) (records : List RunRecord) : Prop :=
  records.mapM (checked codec) = .ok root.directories

section Filing

variable {codec : RecordCodec} {root : RunsRoot} {records : List RunRecord} {new : RunRecord} {path : TreePath}
  {files : RecordFiles} {suffix : String}

theorem RunsRoot.files_of_mem (member : (path, files) ∈ root.directories) : root.files path = some files := by
  rw [RunsRoot.files, root.unique.find member]
  rfl

theorem checked_files (passed : checked codec new = .ok (path, files)) :
    files.lookup snapshotName = some (codec.snapshot new) :=
  serialize_snapshot (checked_ok passed).2

/-- A directory of the checkout is free for a rename only when there is none. -/
theorem Filed.absent (filed : Filed codec root records) (free : root.snapshot path = none) : root.files path = none := by
  rw [RunsRoot.files_none]
  rintro ⟨own, tree⟩ member rfl
  obtain ⟨record, -, passed⟩ := Outcome.mapM_origin filed (own, tree) member
  rw [RunsRoot.snapshot, RunsRoot.files_of_mem member, Option.bind_some, checked_files passed] at free
  cases free

/-- The tree of a record whose address is free is renamed into place, and nothing else changes. -/
theorem writeAtomic_free (free : root.files path = none) (drawn : root.files (stagingPath path suffix) = none) :
    writeAtomic path files suffix root = (.ok true, root.place path files) := by
  have apart : stagingPath path suffix ≠ path := stagingPath_ne
  have clear : (root.place (stagingPath path suffix) files).occupied path = false := by
    rw [RunsRoot.occupied, RunsRoot.files_place_other apart.symm, free]
    rfl
  have gone : (root.place path files).files (stagingPath path suffix) = none := by
    rw [RunsRoot.files_place_other apart]
    exact drawn
  unfold writeAtomic
  simp only [drawn, clear, Option.isSome_none, Bool.false_eq_true, if_false, RunsRoot.remove_place drawn,
    RunsRoot.remove_absent gone]

/-- A publish call leaves the checkout as it was, or files its record after the others. -/
theorem Filed.file (filed : Filed codec root records) :
    Filed codec (RunRecordStore.file codec (root, records) (new, suffix)).1
      (RunRecordStore.file codec (root, records) (new, suffix)).2 := by
  unfold RunRecordStore.file RunRecordStore.publish
  cases passed : checked codec new with
  | error error => exact filed
  | ok entry =>
    obtain ⟨directory, files⟩ := entry
    dsimp only
    cases held : root.snapshot directory with
    | some existing =>
      by_cases same : existing = snapshotOf files
      · simp only [same, ne_eq, not_true_eq_false, if_false]
        exact filed
      · simp only [same, ne_eq, not_false_eq_true, if_true]
        exact filed
    | none =>
      have free := filed.absent held
      cases drawn : root.files (stagingPath directory suffix) with
      | some tree =>
        have refused : writeAtomic directory files suffix root = (.error ioFailure, root) := by
          unfold writeAtomic
          simp only [drawn, Option.isSome_some, if_true]
        rw [refused]
        exact filed
      | none =>
        rw [writeAtomic_free free drawn]
        show (records ++ [new]).mapM (checked codec) = .ok (root.place directory files).directories
        unfold Filed at filed
        rw [RunsRoot.place_absent free, List.mapM_append]
        simp only [filed, passed, List.mapM_cons, List.mapM_nil, Bind.bind, Except.bind, Pure.pure, Except.pure]

theorem published_filed (codec : RecordCodec) (calls : List (RunRecord × String)) :
    Filed codec (RunRecordStore.published codec calls).1 (RunRecordStore.published codec calls).2 := by
  unfold RunRecordStore.published
  induction calls using List.reverseRecOn with
  | nil => rfl
  | append_singleton calls call ih =>
    rw [List.foldl_append]
    exact ih.file

end Filing

def ofChange (changeId : String) (records : List RunRecord) : List RunRecord :=
  records.filter fun record => record.change.id = changeId

def RefOf (codec : RecordCodec) (ref : RunRecordRef) (record : RunRecord) : Prop :=
  ∃ directory files, checked codec record = .ok (directory, files) ∧ ref = refOf directory files record

def Finds (codec : RecordCodec) (records : List RunRecord) (chosen : RunRecord → Prop)
    (found : Except RecordError (Option RunRecordRef)) : Prop :=
  (found = .ok none ∧ records = []) ∨ ∃ ref record, found = .ok (some ref) ∧ record ∈ records ∧ chosen record ∧ RefOf codec ref record

structure LooksUp (codec : RecordCodec) (root : RunsRoot) (records : List RunRecord) (changeId : String) : Prop where
  latest : Finds codec (ofChange changeId records)
    (fun record => ∀ other ∈ ofChange changeId records, other.createdAt ≤ record.createdAt)
    (RunRecordStore.findExisting codec changeId none root)
  ofRun : ∀ runId, Finds codec ((ofChange changeId records).filter fun record => record.run.id = runId) (fun _ => True)
    (RunRecordStore.findExisting codec changeId (some runId) root)

def runName (record : RunRecord) : String := (slug record.run.id).toOption.getD ""

/-- In the last month of the change the record with the last run name was created last. -/
def NamedInOrder (records : List RunRecord) : Prop :=
  ∀ last ∈ records,
    (∀ other ∈ records, monthOf other.createdAt < monthOf last.createdAt ∨
      (monthOf other.createdAt = monthOf last.createdAt ∧ runName other ≤ runName last)) →
    ∀ other ∈ records, monthOf other.createdAt = monthOf last.createdAt → other.createdAt ≤ last.createdAt

section Lookup

variable {codec : RecordCodec} {root : RunsRoot} {records : List RunRecord} {first second : RunRecord}
  {path other : TreePath} {files : RecordFiles} {changeId change : String}

theorem address_le_iff (firstPath : runDir first = .ok path) (secondPath : runDir second = .ok other)
    (same : slug first.change.id = slug second.change.id) :
    path ≤ other ↔ monthOf first.createdAt < monthOf second.createdAt ∨
      (monthOf first.createdAt = monthOf second.createdAt ∧ runName first ≤ runName second) := by
  obtain ⟨change, run, changeSlug, runSlug, rfl⟩ := runDir_ok.mp firstPath
  obtain ⟨change', run', changeSlug', runSlug', rfl⟩ := runDir_ok.mp secondPath
  have one : change = change' := by
    rw [changeSlug, changeSlug', Except.ok.injEq] at same
    exact same
  subst one
  have names : runName first = run ∧ runName second = run' := by
    rw [runName, runName, runSlug, runSlug']
    exact ⟨rfl, rfl⟩
  rw [names.1, names.2]
  rcases Int.lt_trichotomy (monthOf first.createdAt) (monthOf second.createdAt) with before | equal | after
  · have lt := @recordPath_lt_of_month _ _ change run run' second.created_valid
      first.created_valid before
    exact ⟨fun _ => Or.inl before, fun _ => le_of_lt lt⟩
  · obtain ⟨years, months⟩ := recordPath_parts_of_month equal
    rw [← not_lt, ← not_lt]
    simp [recordPath, years, months, equal, List.cons_lt_cons_iff]
  · have lt := @recordPath_lt_of_month _ _ change run' run first.created_valid
      second.created_valid after
    constructor
    · intro le
      exact absurd lt (not_lt.mpr le)
    · intro other
      omega

theorem readAt_filed (filed : Filed codec root records) (reads : codec.ReadsBack first)
    (member : first ∈ records) (passed : checked codec first = .ok (path, files)) :
    RunRecordStore.readAt codec root path = .ok (refOf path files first, first) := by
  have held : root.snapshot path = some (codec.snapshot first) := by
    rw [RunsRoot.snapshot, RunsRoot.files_of_mem (Outcome.mapM_image filed member passed), Option.bind_some,
      checked_files passed]
  have text : String.ofList (newlines false (codec.snapshot first).toList) = codec.snapshot first := by
    rw [newlines_id, String.ofList_toList]
    rintro c present rfl
    exact reads.escaped present
  have snapshot : snapshotOf files = codec.snapshot first := by
    rw [snapshotOf, checked_files passed]
    rfl
  unfold RunRecordStore.readAt refOf
  simp only [held, text, reads.inverts, snapshot]

theorem RunsRoot.mem_candidates (filed : Filed codec root records) : path ∈ root.candidates change ↔
    ∃ record ∈ records, ∃ files, slug record.change.id = .ok change ∧ checked codec record = .ok (path, files) := by
  unfold RunsRoot.candidates
  rw [List.mem_insertionSort, List.mem_filter, List.mem_map]
  constructor
  · rintro ⟨⟨⟨own, files⟩, member, rfl⟩, fits⟩
    obtain ⟨record, listed, passed⟩ := Outcome.mapM_origin filed (own, files) member
    obtain ⟨name, run, changeSlug, -, made⟩ := runDir_ok.mp (checked_ok passed).1
    refine ⟨record, listed, files, ?_, passed⟩
    subst made
    have named : name = change := by
      simp only [RunsRoot.candidate, recordPath, Bool.and_eq_true, decide_eq_true_eq] at fits
      exact fits.1.2
    rw [changeSlug, named]
  · rintro ⟨record, listed, files, changeSlug, passed⟩
    have member := Outcome.mapM_image filed listed passed
    refine ⟨⟨(path, files), member, rfl⟩, ?_⟩
    obtain ⟨name, run, changeSlug', -, made⟩ := runDir_ok.mp (checked_ok passed).1
    have named : name = change := by
      rw [changeSlug, Except.ok.injEq] at changeSlug'
      exact changeSlug'.symm
    have held : (root.snapshot path).isSome = true := by
      rw [RunsRoot.snapshot, RunsRoot.files_of_mem member, Option.bind_some, checked_files passed]
      rfl
    subst made
    unfold recordPath at held
    simp [RunsRoot.candidate, recordPath, named, named ▸ held]

/-- What an iteration over the records of a change yields: each of them, with its reference, by address. -/
structure Iterates (codec : RecordCodec) (records : List RunRecord) (changeId : String)
    (found : List (RunRecordRef × RunRecord)) : Prop where
  sound : ∀ entry ∈ found, entry.2 ∈ ofChange changeId records ∧ RefOf codec entry.1 entry.2
  complete : ∀ record ∈ ofChange changeId records, ∃ ref, (ref, record) ∈ found
  sorted : found.Pairwise fun entry later => ∀ path other, runDir entry.2 = .ok path → runDir later.2 = .ok other → path ≤ other

theorem iterRecords_ok (filed : Filed codec root records) (reads : ∀ record ∈ records, codec.ReadsBack record)
    (usable : slug changeId = .ok change) :
    ∃ found, RunRecordStore.iterRecords codec changeId root = .ok found ∧ Iterates codec records changeId found := by
  have read (path : TreePath) (listed : path ∈ root.candidates change) : ∃ record ∈ records, ∃ files,
      checked codec record = .ok (path, files) ∧
        RunRecordStore.readAt codec root path = .ok (refOf path files record, record) := by
    obtain ⟨record, member, files, -, passed⟩ := (RunsRoot.mem_candidates filed).mp listed
    exact ⟨record, member, files, passed, readAt_filed filed (reads record member) member passed⟩
  obtain ⟨values, mapped, -, origin⟩ := Outcome.mapM_ok fun path listed => by
    obtain ⟨record, -, files, -, made⟩ := read path listed
    exact ⟨_, made⟩
  refine ⟨values.filter fun entry => entry.2.change.id = changeId, ?_, ?_, ?_, ?_⟩
  · simp only [RunRecordStore.iterRecords, usable, mapped, Bind.bind, Except.bind]
    rfl
  · intro entry member
    obtain ⟨listed, own⟩ := List.mem_filter.mp member
    obtain ⟨path, there, made⟩ := origin entry listed
    obtain ⟨record, present, files, passed, again⟩ := read path there
    rw [made, Except.ok.injEq] at again
    subst again
    exact ⟨List.mem_filter.mpr ⟨present, own⟩, path, files, passed, rfl⟩
  · intro record member
    obtain ⟨present, own⟩ := List.mem_filter.mp member
    obtain ⟨⟨path, files⟩, passed⟩ := Outcome.mapM_each filed record present
    have named : slug record.change.id = .ok change := by
      rw [of_decide_eq_true own]
      exact usable
    have there : path ∈ root.candidates change := (RunsRoot.mem_candidates filed).mpr ⟨record, present, files, named, passed⟩
    have made := readAt_filed filed (reads record present) present passed
    exact ⟨_, List.mem_filter.mpr ⟨Outcome.mapM_image mapped there made, own⟩⟩
  · have order : (root.candidates change).Pairwise (· ≤ ·) := List.pairwise_insertionSort _ _
    refine List.Pairwise.filter _ (Outcome.mapM_pairwise mapped (List.Pairwise.and_mem.mp order) ?_)
    rintro path other entry later made made' ⟨here, there, le⟩ first second firstPath secondPath
    obtain ⟨record, -, files, passed, again⟩ := read path here
    obtain ⟨record', -, files', passed', again'⟩ := read other there
    rw [made, Except.ok.injEq] at again
    rw [made', Except.ok.injEq] at again'
    subst again again'
    rw [(checked_ok passed).1, Except.ok.injEq] at firstPath
    rw [(checked_ok passed').1, Except.ok.injEq] at secondPath
    exact firstPath ▸ secondPath ▸ le

/-- The lookup returns the candidate with the last address. -/
theorem findExisting_ok (filed : Filed codec root records) (reads : ∀ record ∈ records, codec.ReadsBack record)
    (usable : slug changeId = .ok change) (runId : Option String) :
    Finds codec ((ofChange changeId records).filter fun record => RunRecordStore.wanted runId record)
      (fun record => ∀ other ∈ (ofChange changeId records).filter fun record => RunRecordStore.wanted runId record,
        monthOf other.createdAt < monthOf record.createdAt ∨
          (monthOf other.createdAt = monthOf record.createdAt ∧ runName other ≤ runName record))
      (RunRecordStore.findExisting codec changeId runId root) := by
  obtain ⟨found, iterated, holds⟩ := iterRecords_ok filed reads usable
  have looked : RunRecordStore.findExisting codec changeId runId root =
      .ok (((found.filter fun entry => RunRecordStore.wanted runId entry.2).getLast?).map Prod.fst) := by
    simp only [RunRecordStore.findExisting, iterated, Bind.bind, Except.bind]
    rfl
  rw [looked]
  have listed (record : RunRecord)
      (member : record ∈ (ofChange changeId records).filter fun record => RunRecordStore.wanted runId record) :
      ∃ ref, (ref, record) ∈ found.filter fun entry => RunRecordStore.wanted runId entry.2 := by
    obtain ⟨own, fits⟩ := List.mem_filter.mp member
    obtain ⟨ref, there⟩ := holds.complete record own
    exact ⟨ref, List.mem_filter.mpr ⟨there, fits⟩⟩
  cases last : (found.filter fun entry => RunRecordStore.wanted runId entry.2).getLast? with
  | none =>
    left
    refine ⟨rfl, List.eq_nil_iff_forall_not_mem.mpr fun record member => ?_⟩
    obtain ⟨ref, there⟩ := listed record member
    rw [List.getLast?_eq_none_iff.mp last] at there
    cases there
  | some entry =>
    right
    obtain ⟨there, fits⟩ := List.mem_filter.mp (List.mem_of_getLast? last)
    obtain ⟨own, ref⟩ := holds.sound entry there
    refine ⟨entry.1, entry.2, rfl, List.mem_filter.mpr ⟨own, fits⟩, ?_, ref⟩
    intro other member
    obtain ⟨otherRef, listed⟩ := listed other member
    obtain ⟨front, split⟩ := List.getLast?_eq_some_iff.mp last
    have sorted := holds.sorted.filter fun entry => RunRecordStore.wanted runId entry.2
    rw [split] at listed sorted
    rcases List.mem_append.mp listed with earlier | here
    · have before := (List.pairwise_append.mp sorted).2.2 (otherRef, other) earlier entry (by simp)
      obtain ⟨path, files, passed, -⟩ := ref
      obtain ⟨⟨address, tree⟩, passed'⟩ := Outcome.mapM_each filed other
        (List.mem_filter.mp (List.mem_filter.mp member).1).1
      have firstPath := (checked_ok passed').1
      have secondPath := (checked_ok passed).1
      have same : other.change.id = entry.2.change.id := by
        rw [of_decide_eq_true (List.mem_filter.mp own).2]
        exact of_decide_eq_true (List.mem_filter.mp (List.mem_filter.mp member).1).2
      exact (address_le_iff firstPath secondPath (by rw [same])).mp (before address path firstPath secondPath)
    · rw [← List.mem_singleton.mp here]
      exact Or.inr ⟨rfl, le_refl _⟩

theorem Finds.mono {chosen weaker : RunRecord → Prop} {found : Except RecordError (Option RunRecordRef)}
    (finds : Finds codec records chosen found) (implies : ∀ record ∈ records, chosen record → weaker record) :
    Finds codec records weaker found := by
  rcases finds with absent | ⟨ref, record, same, member, best, own⟩
  · exact Or.inl absent
  · exact Or.inr ⟨ref, record, same, member, implies record member best, own⟩

theorem Filed.eq (filed : Filed codec root records) (reads : ∀ record ∈ records, codec.ReadsBack record)
    (here : first ∈ records) (there : second ∈ records) (firstPath : runDir first = .ok path)
    (secondPath : runDir second = .ok path) : first = second := by
  obtain ⟨⟨address, files⟩, passed⟩ := Outcome.mapM_each filed first here
  obtain ⟨⟨address', files'⟩, passed'⟩ := Outcome.mapM_each filed second there
  have same : address = path ∧ address' = path := by
    rw [(checked_ok passed).1, Except.ok.injEq] at firstPath
    rw [(checked_ok passed').1, Except.ok.injEq] at secondPath
    exact ⟨firstPath, secondPath⟩
  rw [same.1] at passed
  rw [same.2] at passed'
  have held := RunsRoot.files_of_mem (Outcome.mapM_image filed here passed)
  have held' := RunsRoot.files_of_mem (Outcome.mapM_image filed there passed')
  have texts := checked_files passed
  rw [held, Option.some.injEq] at held'
  rw [held', checked_files passed', Option.some.injEq] at texts
  have back := (reads first here).inverts
  rw [← texts, (reads second there).inverts] at back
  exact (Option.some.inj back).symm

theorem RefOf.eq {ref : RunRecordRef} (filed : Filed codec root records)
    (reads : ∀ record ∈ records, codec.ReadsBack record) (here : first ∈ records) (there : second ∈ records)
    (one : RefOf codec ref first) (other : RefOf codec ref second) : first = second := by
  obtain ⟨path, files, passed, named⟩ := one
  obtain ⟨path', files', passed', named'⟩ := other
  have written : posixPath path = posixPath path' := congrArg RunRecordRef.relativePath (named.symm.trans named')
  have resolved := runDir_resolves (checked_ok passed).1
  rw [written, runDir_resolves (checked_ok passed').1, Except.ok.injEq] at resolved
  subst resolved
  exact filed.eq reads here there (checked_ok passed).1 (checked_ok passed').1

theorem published_called (calls : List (RunRecord × String)) :
    ∀ record ∈ (RunRecordStore.published codec calls).2, ∃ call ∈ calls, call.1 = record := by
  unfold RunRecordStore.published
  induction calls using List.reverseRecOn with
  | nil => simp
  | append_singleton calls call ih =>
    intro record member
    rw [List.foldl_append] at member
    have listed : record ∈ (calls.foldl (RunRecordStore.file codec) ({}, [])).2 ++ [call.1] := by
      simp only [List.foldl_cons, List.foldl_nil, RunRecordStore.file] at member
      split at member
      · exact member
      · exact List.mem_append_left _ member
    rcases List.mem_append.mp listed with earlier | last
    · obtain ⟨other, present, same⟩ := ih record earlier
      exact ⟨other, List.mem_append_left _ present, same⟩
    · exact ⟨call, by simp, (List.mem_singleton.mp last).symm⟩

theorem findExisting_unusable {error : RecordError} (unusable : slug changeId = .error error) (runId : Option String) :
    RunRecordStore.findExisting codec changeId runId root = .error error := by
  simp [RunRecordStore.findExisting, RunRecordStore.iterRecords, unusable, Bind.bind, Except.bind]

/-- What is found is the record of the last month that has the last run name there. -/
theorem latest_inOrder (filed : Filed codec root records) (reads : ∀ record ∈ records, codec.ReadsBack record)
    (usable : slug changeId = .ok change) (looks : LooksUp codec root records changeId) :
    NamedInOrder (ofChange changeId records) := by
  intro last member heads other there _
  have chosen := findExisting_ok filed reads usable none
  simp only [RunRecordStore.wanted, Option.all_none, List.filter_true] at chosen
  rcases chosen with ⟨-, none_⟩ | ⟨ref, record, found, present, greatest, own⟩
  · rw [none_] at member
    cases member
  rcases looks.latest with ⟨absent, -⟩ | ⟨ref', record', found', present', latest, own'⟩
  · rw [absent] at found
    cases found
  rw [found, Except.ok.injEq, Option.some.injEq] at found'
  subst found'
  have inRecords {record : RunRecord} (listed : record ∈ ofChange changeId records) : record ∈ records :=
    (List.mem_filter.mp listed).1
  have named {record : RunRecord} (listed : record ∈ ofChange changeId records) : record.change.id = changeId :=
    of_decide_eq_true (List.mem_filter.mp listed).2
  have same : record = record' := own.eq filed reads (inRecords present) (inRecords present') own'
  subst same
  obtain ⟨⟨path, files⟩, passed⟩ := Outcome.mapM_each filed last (inRecords member)
  obtain ⟨⟨path', files'⟩, passed'⟩ := Outcome.mapM_each filed record (inRecords present)
  have slugs : slug last.change.id = slug record.change.id := by rw [named member, named present]
  have le := (address_le_iff (checked_ok passed).1 (checked_ok passed').1 slugs).mpr (greatest last member)
  have ge := (address_le_iff (checked_ok passed').1 (checked_ok passed).1 slugs.symm).mpr (heads record present)
  have equal : path = path' := le_antisymm le ge
  subst equal
  rw [filed.eq reads (inRecords member) (inRecords present) (checked_ok passed).1 (checked_ok passed').1]
  exact latest other there

end Lookup

/-- A lookup finds the record of the change that was created last exactly when the names of the runs of its last
    month are in the order of their times. -/
theorem lookup_latest_iff (codec : RecordCodec) (calls : List (RunRecord × String)) (changeId : String)
    (reads : ∀ call ∈ calls, codec.ReadsBack call.1) :
    LooksUp codec (RunRecordStore.published codec calls).1 (RunRecordStore.published codec calls).2 changeId ↔
      (∃ change, slug changeId = .ok change) ∧
        NamedInOrder (ofChange changeId (RunRecordStore.published codec calls).2) := by
  have filed := published_filed codec calls
  have back : ∀ record ∈ (RunRecordStore.published codec calls).2, codec.ReadsBack record := by
    intro record member
    obtain ⟨call, listed, same⟩ := published_called calls record member
    exact same ▸ reads call listed
  generalize (RunRecordStore.published codec calls).1 = root at filed ⊢
  generalize (RunRecordStore.published codec calls).2 = records at filed back ⊢
  cases usable : slug changeId with
  | error error =>
    constructor
    · intro looks
      rcases looks.latest with ⟨found, -⟩ | ⟨ref, record, found, -⟩
      · rw [findExisting_unusable usable] at found
        cases found
      · rw [findExisting_unusable usable] at found
        cases found
    · rintro ⟨⟨change, never⟩, -⟩
      cases never
  | ok change =>
    constructor
    · intro looks
      exact ⟨⟨change, rfl⟩, latest_inOrder filed back usable looks⟩
    · rintro ⟨-, ordered⟩
      constructor
      · have chosen := findExisting_ok filed back usable none
        simp only [RunRecordStore.wanted, Option.all_none, List.filter_true] at chosen
        refine chosen.mono fun record member greatest other there => ?_
        rcases greatest other there with before | ⟨same, -⟩
        · by_contra later
          have le := monthOf_mono (le_of_lt (not_le.mp later))
          omega
        · exact ordered record member greatest other there same
      · intro runId
        exact (findExisting_ok filed back usable (some runId)).mono fun _ _ _ => trivial

instance (records : List RunRecord) : Decidable (NamedInOrder records) :=
  inferInstanceAs (Decidable (∀ _ ∈ records, _))

/-- Two runs of a month, named in the order of their times. -/
def orderedCalls : List (RunRecord × String) :=
  [(plainRecord "run-1" 1760000000000000, "k2"), (plainRecord "run-2" 1760000000000001, "m7")]

theorem ordered_lookup_latest :
    LooksUp (plainCodec (orderedCalls.map Prod.fst))
      (RunRecordStore.published (plainCodec (orderedCalls.map Prod.fst)) orderedCalls).1
      (RunRecordStore.published (plainCodec (orderedCalls.map Prod.fst)) orderedCalls).2 "CHG-1" := by
  apply (lookup_latest_iff (plainCodec (orderedCalls.map Prod.fst)) orderedCalls "CHG-1" ?_).mpr
  · exact ⟨⟨"CHG-1", by decide⟩, by decide⟩
  · intro call listed
    simp only [orderedCalls, List.mem_cons, List.not_mem_nil, or_false] at listed
    rcases listed with rfl | rfl
    · exact ⟨by rfl, by decide⟩
    · exact ⟨by rfl, by decide⟩

/-- The run "run-10" starts after the run "run-9" of the same month, whose name sorts after its own. -/
def tenthCalls : List (RunRecord × String) :=
  [(plainRecord "run-9" 1760000000000000, "k2"), (plainRecord "run-10" 1760000000000001, "m7")]

theorem tenth_run_not_found :
    ¬ LooksUp (plainCodec (tenthCalls.map Prod.fst))
      (RunRecordStore.published (plainCodec (tenthCalls.map Prod.fst)) tenthCalls).1
      (RunRecordStore.published (plainCodec (tenthCalls.map Prod.fst)) tenthCalls).2 "CHG-1" := by
  intro looks
  have back : ∀ record ∈ (RunRecordStore.published (plainCodec (tenthCalls.map Prod.fst)) tenthCalls).2,
      (plainCodec (tenthCalls.map Prod.fst)).ReadsBack record := by
    intro record member
    obtain ⟨call, listed, rfl⟩ := published_called tenthCalls record member
    simp only [tenthCalls, List.mem_cons, List.not_mem_nil, or_false] at listed
    rcases listed with rfl | rfl
    · exact ⟨by rfl, by decide⟩
    · exact ⟨by rfl, by decide⟩
  have ordered := @latest_inOrder _ _ _ "CHG-1" "CHG-1" (published_filed _ tenthCalls) back
    (by decide) looks
  exact absurd ordered (by decide)

end DarkFactory
