import DarkFactory.Records.Publish
import DarkFactory.Runner.Scripts
import DarkFactory.Runner.Turns

namespace DarkFactory

def StageResult.attempt (result : StageResult) : Stage × Nat := (result.stage, result.attemptNumber)

def RunRecord.artifactIds (record : RunRecord) : List String :=
  (record.stageResults.flatMap artifactEntries).map RunEvidenceEntry.id

structure Recordable (codec : RecordCodec) (record : RunRecord) : Prop where
  serialized : ∃ files, serialize codec record = .ok files
  files : (record.stageResults.map stageFileName).Nodup
  artifacts : record.artifactIds.Nodup

section Names

variable {codec : RecordCodec} {result other : StageResult}

theorem stageFileName_inj (same : stageFileName result = stageFileName other) : result.attempt = other.attempt := by
  have letters := congrArg String.toList same
  simp only [stageFileName, String.toList_append, List.append_assoc, List.append_cancel_left_eq] at letters
  have cut : result.stage.value.toList ++ '-' :: (toString result.attemptNumber).toList =
      other.stage.value.toList ++ '-' :: (toString other.attemptNumber).toList := by
    have ended : (result.stage.value.toList ++ '-' :: (toString result.attemptNumber).toList) ++ ".json".toList =
        (other.stage.value.toList ++ '-' :: (toString other.attemptNumber).toList) ++ ".json".toList := by
      simpa using letters
    exact List.append_cancel_right ended
  obtain ⟨stages, numbers⟩ := (Delimited.cut_last (digits_free _ rfl) (digits_free _ rfl)).mp cut
  exact Prod.ext (stage_value_injective (String.toList_injective stages))
    (toString_nat_injective (String.toList_injective numbers))

theorem producerOf_inj (same : producerOf result = producerOf other) : result.attempt = other.attempt := by
  have letters := congrArg String.toList same
  simp only [producerOf, String.toList_append, List.append_assoc] at letters
  obtain ⟨stages, numbers⟩ := (Delimited.cut_last (digits_colonFree _) (digits_colonFree _)).mp letters
  exact Prod.ext (stage_value_injective (String.toList_injective stages))
    (toString_nat_injective (String.toList_injective numbers))

theorem artifactId_inj {producer another : String} {index place : Nat}
    (same : artifactId producer index = artifactId another place) : producer = another ∧ index = place := by
  have letters := congrArg String.toList same
  simp only [artifactId, String.toList_append, List.append_assoc, List.append_cancel_left_eq] at letters
  obtain ⟨producers, numbers⟩ := (Delimited.cut_last (digits_colonFree _) (digits_colonFree _)).mp letters
  exact ⟨String.toList_injective producers, toString_nat_injective (String.toList_injective numbers)⟩

theorem artifactEntries_ids (result : StageResult) : (artifactEntries result).map RunEvidenceEntry.id =
    (List.range result.artifacts.length).map (artifactId (producerOf result)) := by
  apply List.ext_getElem
  · simp [artifactEntries]
  · intro index _ _
    simp [artifactEntries, artifactEntry]

theorem stageFileName_stages (result : StageResult) : '/' ∈ (stageFileName result).toList := by
  simp [stageFileName]

end Names

section Recordable

variable {codec : RecordCodec} {record : RunRecord}

/-- The tree takes the files of the results exactly when their names are new and apart. -/
theorem addStageFiles_ok {results : List StageResult} {before : RecordFiles} :
    (∃ after, results.foldlM (addStageFile codec) before = .ok after) ↔
      (results.map stageFileName).Nodup ∧ ∀ result ∈ results, stageFileName result ∉ before.map Prod.fst := by
  induction results generalizing before with
  | nil => simp [Pure.pure, Except.pure]
  | cons result rest ih =>
    rw [List.foldlM_cons]
    by_cases taken : stageFileName result ∈ before.map Prod.fst
    · have refused : addStageFile codec before result = .error (sameAttempt result) := by
        rw [addStageFile, if_pos (List.contains_iff_mem.mpr taken)]
      constructor
      · rintro ⟨after, made⟩
        rw [refused] at made
        cases made
      · rintro ⟨-, fresh⟩
        exact absurd taken (fresh result (by simp))
    · have added : addStageFile codec before result =
          .ok (before ++ [(stageFileName result, codec.stageResult result)]) := by
        rw [addStageFile, if_neg (fun listed => taken (List.contains_iff_mem.mp listed))]
      simp only [added, Bind.bind, Except.bind]
      rw [ih, List.map_cons, List.nodup_cons, List.forall_mem_cons]
      constructor
      · rintro ⟨apart, fresh⟩
        refine ⟨⟨?_, apart⟩, taken, fun other member listed => fresh other member (by simp [listed])⟩
        rw [List.mem_map]
        rintro ⟨other, member, same⟩
        exact fresh other member (by simp [same])
      · rintro ⟨⟨unused, apart⟩, -, fresh⟩
        refine ⟨apart, fun other member listed => ?_⟩
        rw [List.map_append, List.mem_append] at listed
        rcases listed with old | new
        · exact fresh other member old
        · exact unused (List.mem_map.mpr ⟨other, member, by simpa using new⟩)

theorem serialize_iff : (∃ files, serialize codec record = .ok files) ↔ (record.stageResults.map stageFileName).Nodup := by
  have apart (result : StageResult) :
      stageFileName result ∉ [manifestName, snapshotName, evidenceIndexName, usageName] := by
    intro listed
    have slash := stageFileName_stages result
    simp only [List.mem_cons, List.not_mem_nil, or_false] at listed
    rcases listed with same | same | same | same <;> rw [same] at slash <;> exact absurd slash (by decide)
  have base (before : RecordFiles) (names : before.map Prod.fst = [manifestName, snapshotName, evidenceIndexName, usageName]) :
      (∃ after, record.stageResults.foldlM (addStageFile codec) before = .ok after) ↔
        (record.stageResults.map stageFileName).Nodup := by
    rw [addStageFiles_ok, names]
    exact ⟨And.left, fun nodup => ⟨nodup, fun result _ => apart result⟩⟩
  rw [← base [(manifestName, codec.manifest record.manifest), (snapshotName, codec.snapshot record),
      (evidenceIndexName, codec.evidenceIndex (buildEvidenceIndex record)),
      (usageName, codec.usage (buildUsageSummary record))] rfl]
  unfold serialize
  constructor
  · rintro ⟨files, made⟩
    obtain ⟨after, added, -⟩ := Outcome.bind_ok.mp made
    exact ⟨after, added⟩
  · rintro ⟨after, added⟩
    rw [added]
    exact ⟨_, rfl⟩

theorem stageFiles_nodup {results : List StageResult} :
    (results.map stageFileName).Nodup ↔ (results.map StageResult.attempt).Nodup := by
  have named (result : StageResult) : stageFileName result =
      stagesDirName ++ "/" ++ result.attempt.1.value ++ "-" ++ toString result.attempt.2 ++ ".json" := rfl
  have through : results.map stageFileName = (results.map StageResult.attempt).map fun attempt =>
      stagesDirName ++ "/" ++ attempt.1.value ++ "-" ++ toString attempt.2 ++ ".json" := by
    rw [List.map_map]
    exact List.map_congr_left fun result _ => named result
  constructor
  · intro nodup
    rw [through] at nodup
    exact nodup.of_map _
  · intro nodup
    have pairwise := List.pairwise_map.mp nodup
    exact List.pairwise_map.mpr (pairwise.imp fun apart same => apart (stageFileName_inj same))

theorem artifactIds_nodup (apart : (record.stageResults.map StageResult.attempt).Nodup) : record.artifactIds.Nodup := by
  unfold RunRecord.artifactIds
  rw [List.map_flatMap, List.nodup_flatMap]
  constructor
  · intro result _
    rw [artifactEntries_ids]
    exact List.nodup_range.map fun _ _ same => (artifactId_inj same).2
  · refine (List.pairwise_map.mp apart).imp fun {result other} distinct => ?_
    intro id here there
    simp only [artifactEntries_ids, List.mem_map] at here there
    obtain ⟨index, -, rfl⟩ := here
    obtain ⟨place, -, same⟩ := there
    exact distinct (producerOf_inj (artifactId_inj same).1.symm)

/-- A record has its tree exactly when no two of its results answer for one attempt number of a stage. -/
theorem recordable_iff : Recordable codec record ↔ (record.stageResults.map StageResult.attempt).Nodup := by
  constructor
  · intro recordable
    exact stageFiles_nodup.mp recordable.files
  · intro apart
    exact ⟨serialize_iff.mpr (stageFiles_nodup.mpr apart), stageFiles_nodup.mpr apart, artifactIds_nodup apart⟩

end Recordable

/-- `_build_run_record`: the run and its history from the store, the rest from intake and the environment. -/
def buildRunRecord (manifest : RunManifest) (change : Change) (release : Option ReleaseEvidence)
    (createdAt : { t : Timestamp // t.Valid }) (store : Store) (runId : String) : Option RunRecord :=
  (store.load runId).map fun run =>
    { manifest, change, run, createdAt := createdAt.1, stageResults := store.loadHistory run.id, release
      created_valid := createdAt.2 }

def Store.AttemptsApart (store : Store) (runId : String) : Prop :=
  ∀ row ∈ store.results, ∀ other ∈ store.results, row.runId = runId → other.runId = runId →
    row.payload.attempt = other.payload.attempt → row = other

theorem WellFormed.history_nodup {store : Store} (wf : WellFormed store) (runId : String) :
    ((store.loadHistory runId).map StageResult.attempt).Nodup ↔ store.AttemptsApart runId := by
  have rows : (store.results.filter (·.runId = runId)).Nodup := (wf.resultsUnique.of_map _).filter _
  unfold Store.loadHistory
  rw [List.map_map, ((List.perm_insertionSort _ _).map _).nodup_iff, List.nodup_map_iff_inj_on rows]
  simp only [List.mem_filter, decide_eq_true_eq, Function.comp_apply]
  constructor
  · intro apart row member other also own owned same
    exact apart row ⟨member, own⟩ other ⟨also, owned⟩ same
  · rintro apart row ⟨member, own⟩ other ⟨also, owned⟩ same
    exact apart row member other also own owned same

def appliedAttempt (input : AdvanceInput) (store : Store) : Option Attempted :=
  if (reportOf input store).any (·.decision.isSome) then attempted input store else none

/-- An attempt of the run that applies its result has a number of its stage that no result stored for another input
    revision has. -/
def Drive.numbersAnew (runId : String) (store : Store) : Drive → Prop
  | .create _ => True
  | .advance input => input.runId = runId → ∀ attempt, appliedAttempt input store = some attempt →
      ∀ row ∈ store.results, row.runId = runId → row.stage = attempt.stage →
        row.attemptNumber = attempt.attemptNumber → row.inputRevision = some attempt.inputRevision

section Effect

variable {input : AdvanceInput} {before after : Store} {attempt : Attempted} {row : StageRow} {reached : Verdict}
  {runId : String}

theorem AdvanceEffect.same_id_iff (effect : AdvanceEffect input before after attempt row reached) (wf : WellFormed before)
    {item : StageResultRow} (member : item ∈ before.results) : item.id = (resultRow attempt.result).id ↔
      item.runId = input.runId ∧ item.stage = attempt.stage ∧ item.attemptNumber = attempt.attemptNumber ∧
        item.inputRevision = some attempt.inputRevision := by
  have sound := wf.resultsSound item member
  rw [effect.answers.rowId]
  constructor
  · intro same
    have answers := sound.answers (effect.runId_free wf) same
    rw [sound.columns]
    exact ⟨answers.runId_eq, answers.stage_eq, answers.attemptNumber_eq, answers.inputRevision_eq⟩
  · rintro ⟨runs, stages, numbers, revisions⟩
    rw [sound.columns] at runs stages numbers revisions
    have answers : Answers input.runId attempt.stage attempt.attemptNumber attempt.inputRevision item.payload :=
      ⟨runs, stages, numbers, revisions⟩
    rw [sound.columns]
    exact answers.rowId

theorem AdvanceEffect.apart_other (effect : AdvanceEffect input before after attempt row reached)
    (wf : WellFormed before) (other : input.runId ≠ runId) : after.AttemptsApart runId ↔ before.AttemptsApart runId := by
  have same (item : StageResultRow) (own : item.runId = runId) : item ∈ after.results ↔ item ∈ before.results := by
    rw [effect.results wf]
    constructor
    · rintro (⟨member, -⟩ | rfl)
      · exact member
      · exact absurd (effect.answers.runId_eq.symm.trans own) other
    · intro member
      refine Or.inl ⟨member, fun here => other ?_⟩
      rw [← own]
      exact ((effect.same_id_iff wf member).mp here).1.symm
  constructor
  · intro apart first member second also own owned equal
    exact apart first ((same first own).mpr member) second ((same second owned).mpr also) own owned equal
  · intro apart first member second also own owned equal
    exact apart first ((same first own).mp member) second ((same second owned).mp also) own owned equal

theorem AdvanceEffect.attempt_eq (effect : AdvanceEffect input before after attempt row reached) :
    attempt.result.attempt = (attempt.stage, attempt.attemptNumber) :=
  Prod.ext effect.answers.stage_eq effect.answers.attemptNumber_eq

theorem AdvanceEffect.apart_iff (effect : AdvanceEffect input before after attempt row reached)
    (wf : WellFormed before) : after.AttemptsApart input.runId ↔ before.AttemptsApart input.runId ∧
      ∀ item ∈ before.results, item.runId = input.runId → item.stage = attempt.stage →
        item.attemptNumber = attempt.attemptNumber → item.inputRevision = some attempt.inputRevision := by
  have columns {item : StageResultRow} (member : item ∈ before.results) :
      item.payload.attempt = (item.stage, item.attemptNumber) := by
    rw [(wf.resultsSound item member).columns]
    rfl
  have made : resultRow attempt.result ∈ after.results := (effect.results wf _).mpr (Or.inr rfl)
  have ownRow : (resultRow attempt.result).runId = input.runId := effect.answers.runId_eq
  -- a row of the attempt's stage and number is that of the attempt itself
  have here (apart : after.AttemptsApart input.runId) (item : StageResultRow) (member : item ∈ before.results)
      (own : item.runId = input.runId) (same : item.payload.attempt = attempt.result.attempt) :
      item.id = (resultRow attempt.result).id := by
    by_contra away
    have kept := (effect.results wf item).mpr (Or.inl ⟨member, away⟩)
    exact away (congrArg StageResultRow.id (apart item kept _ made own ownRow same))
  constructor
  · intro apart
    refine ⟨?_, ?_⟩
    · intro first member second also own owned same
      by_cases away : first.id = (resultRow attempt.result).id
      · have equal : second.payload.attempt = attempt.result.attempt := by
          obtain ⟨-, stages, numbers, -⟩ := (effect.same_id_iff wf member).mp away
          rw [← same, columns member, stages, numbers, effect.attempt_eq]
        exact wf.resultsUnique.eq member also (away.trans (here apart second also owned equal).symm)
      · have others : second.id ≠ (resultRow attempt.result).id := by
          intro back
          obtain ⟨-, stages, numbers, -⟩ := (effect.same_id_iff wf also).mp back
          have equal : first.payload.attempt = attempt.result.attempt := by
            rw [same, columns also, stages, numbers, effect.attempt_eq]
          exact away (here apart first member own equal)
        exact apart first ((effect.results wf first).mpr (Or.inl ⟨member, away⟩)) second
          ((effect.results wf second).mpr (Or.inl ⟨also, others⟩)) own owned same
    · intro item member own stages numbers
      have equal : item.payload.attempt = attempt.result.attempt := by
        rw [columns member, stages, numbers, effect.attempt_eq]
      exact ((effect.same_id_iff wf member).mp (here apart item member own equal)).2.2.2
  · rintro ⟨apart, anew⟩
    have never (item : StageResultRow) (member : item ∈ before.results) (away : item.id ≠ (resultRow attempt.result).id)
        (own : item.runId = input.runId) : item.payload.attempt ≠ attempt.result.attempt := by
      intro same
      rw [columns member, effect.attempt_eq, Prod.mk.injEq] at same
      exact away ((effect.same_id_iff wf member).mpr ⟨own, same.1, same.2, anew item member own same.1 same.2⟩)
    intro first member second also own owned same
    rcases (effect.results wf first).mp member with ⟨old, away⟩ | rfl
    · rcases (effect.results wf second).mp also with ⟨old', -⟩ | rfl
      · exact apart first old second old' own owned same
      · exact absurd same (never first old away own)
    · rcases (effect.results wf second).mp also with ⟨old', away'⟩ | rfl
      · exact absurd same.symm (never second old' away' owned)
      · rfl

end Effect

theorem apart_congr {before after : Store} {runId : String} (same : after.results = before.results) :
    after.AttemptsApart runId ↔ before.AttemptsApart runId := by
  rw [Store.AttemptsApart, same]
  exact Iff.rfl

theorem afterDrive_apart {store : Store} {runId : String} (wf : WellFormed store) (drive : Drive)
    (faithful : drive.faithful) :
    (afterDrive store drive).AttemptsApart runId ↔ store.AttemptsApart runId ∧ drive.numbersAnew runId store := by
  cases drive with
  | create input =>
    have kept : (afterDrive store (.create input)).results = store.results := by
      rcases afterDrive_create input store with same | ⟨run, creating⟩
      · rw [same]
      · rcases createRun_ok wf creating with same | effect
        · rw [same]
        · exact effect.results
    rw [apart_congr kept]
    exact (and_iff_left trivial).symm
  | advance input =>
    rw [afterDrive_advance_eq]
    rcases committedReport_cases (advanceRun input) store with ⟨silent, same⟩ | ⟨report, reported, done⟩
    · have unapplied : appliedAttempt input store = none := by
        rw [appliedAttempt, show reportOf input store = none from silent]
        rfl
      rw [same]
      simp [Drive.numbersAnew, unapplied]
    · have known : reportOf input store = some report := reported
      rcases advanceRun_ok wf faithful done with ⟨replayed, frame⟩ | ⟨attempt, row, reached, effect, decided, -⟩
      · have unapplied : appliedAttempt input store = none := by
          rw [appliedAttempt, known, Option.any_some, replayed]
          rfl
        rw [apart_congr frame.results]
        simp [Drive.numbersAnew, unapplied]
      · have applied : appliedAttempt input store = some attempt := by
          rw [appliedAttempt, known, Option.any_some, decided]
          exact effect.plan
        by_cases own : input.runId = runId
        · subst own
          rw [effect.apart_iff wf]
          simp [Drive.numbersAnew, applied]
        · rw [effect.apart_other wf own]
          simp [Drive.numbersAnew, own]

theorem driven_apart {drives : List Drive} (faithful : ∀ drive ∈ drives, drive.faithful) (runId : String) :
    (driven drives).AttemptsApart runId ↔ Trace.Along afterDrive (fun store drive => drive.numbersAnew runId store) {} drives := by
  have keeps (store : Store) (drive : Drive) (member : drive ∈ drives) (wf : WellFormed store) :
      WellFormed (afterDrive store drive) := afterDrive_wellFormed wf drive (faithful drive member)
  have each (store : Store) (drive : Drive) (member : drive ∈ drives) (wf : WellFormed store) :
      (afterDrive store drive).AttemptsApart runId ↔ store.AttemptsApart runId ∧ drive.numbersAnew runId store :=
    afterDrive_apart wf drive (faithful drive member)
  have run := @Trace.holds_after_iff _ _ afterDrive (fun store drive => drive.numbersAnew runId store) WellFormed
    (fun store => store.AttemptsApart runId) {} drives keeps each WellFormed.empty
  have start : ({} : Store).AttemptsApart runId := by
    intro row member
    cases member
  exact run.trans (and_iff_right start)

/-- A run can be recorded, in every state it reaches, exactly when no attempt that applied its result took the number
    of an attempt of its stage at another input revision. -/
theorem run_recorded_iff (codec : RecordCodec) {drives : List Drive} (faithful : ∀ drive ∈ drives, drive.faithful)
    {manifest : RunManifest} {change : Change} {release : Option ReleaseEvidence}
    {createdAt : { t : Timestamp // t.Valid }} {runId : String} {record : RunRecord}
    (built : buildRunRecord manifest change release createdAt (driven drives) runId = some record) :
    Recordable codec record ↔
      Trace.Along afterDrive (fun store drive => drive.numbersAnew runId store) {} drives := by
  obtain ⟨run, loaded, rfl⟩ := Option.map_eq_some_iff.mp built
  obtain ⟨execution, -, named, -⟩ := load_some loaded
  rw [recordable_iff, ← driven_apart faithful runId, ← (driven_wellFormed faithful).history_nodup runId, named]

instance (store : Store) (runId : String) : Decidable (store.AttemptsApart runId) :=
  inferInstanceAs (Decidable (∀ _ ∈ store.results, _))

def releaseManifest : RunManifest := { factoryVersion := "1.0.0", factoryCommit := "f1", productCommit := "p1" }

def recordOf (drives : List Drive) : Option RunRecord :=
  buildRunRecord releaseManifest { id := "change-1", riskClass := .r1 } none ⟨0, by decide⟩ (driven drives) quickRun.runId

theorem released_run_recorded : ∃ record, recordOf quickReleased = some record ∧
    record.run.status = .succeeded ∧ Recordable (plainCodec []) record := by
  obtain ⟨released, apart⟩ : (recordOf quickReleased).map (·.run.status) = some .succeeded ∧
      (driven quickReleased).AttemptsApart quickRun.runId := by decide +kernel
  obtain ⟨record, built, status⟩ := Option.map_eq_some_iff.mp released
  exact ⟨record, built, status, (run_recorded_iff (plainCodec []) quickReleased_faithful built).mpr
    ((driven_apart quickReleased_faithful quickRun.runId).mp apart)⟩

def secondRound : List Drive :=
  [.create quickRun,
    .advance (scripted quickRun.runId 1 "c1"
      { status := .succeeded, nextAction := .phaseRound .architecture none
        gateResults := [Gate.passed .specification] }),
    .advance (scripted quickRun.runId 2 "c2" { status := .failed, nextAction := .stop .failed "given up" })]

/-- Both rounds number their first attempt 1, and the finished run has no tree. -/
theorem second_round_unrecorded : (∀ drive ∈ secondRound, drive.faithful) ∧
    ∃ record, recordOf secondRound = some record ∧ runTerminal record.run.status = true ∧
      ∀ codec, (∀ files, serialize codec record ≠ .ok files) ∧ ¬ Recordable codec record := by
  refine ⟨?_, ?_⟩
  · simp only [secondRound, List.forall_mem_cons, List.not_mem_nil, false_implies, implies_true, and_true]
    exact ⟨trivial, scripted_faithful _ _ _ _, scripted_faithful _ _ _ _⟩
  · have finished : (recordOf secondRound).map (fun record => (runTerminal record.run.status,
        record.stageResults.map StageResult.attempt)) =
          some (true, [(.specification, 1), (.specification, 1)]) := by decide +kernel
    obtain ⟨record, built, facts⟩ := Option.map_eq_some_iff.mp finished
    obtain ⟨terminal, attempts⟩ := Prod.mk.inj facts
    have collide : ¬ (record.stageResults.map StageResult.attempt).Nodup := by
      rw [attempts]
      decide
    refine ⟨record, built, terminal, fun codec => ⟨fun files made => collide ?_, fun recordable => collide ?_⟩⟩
    · exact stageFiles_nodup.mp (serialize_iff.mp ⟨files, made⟩)
    · exact recordable_iff.mp recordable

end DarkFactory
