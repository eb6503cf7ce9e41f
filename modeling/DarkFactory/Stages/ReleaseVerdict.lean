import DarkFactory.Stages.Release

namespace DarkFactory

def CompletesRelease (checkpoint : StageResult) (observation : ReleaseObservation) (now : Timestamp) : Prop :=
  ∃ result, buildReleaseResolution checkpoint observation now = .ok result ∧ result.status = .succeeded ∧
    ∃ gate ∈ result.gateResults, gate.gate = .release ∧ gate.status = .passed

def recordedDigest (checkpoint : StageResult) : Option String :=
  checkpoint.release.bind fun evidence => normalizeDigest evidence.expectedDigest

structure Verified (observation : ReleaseObservation) (expected : Option String) : Prop where
  digest : ∃ digest, normalizeDigest observation.observedDigest = some digest ∧ expected = some digest
  synced : argoSyncFromRaw observation.argoSyncRaw = .synced
  healthy : argoHealthFromRaw observation.argoHealthRaw = .healthy
  probed : observation.smoke ≠ []
  passed : ∀ probe ∈ observation.smoke, probe.passed = true

/-- A digest as the normalisation reads it: a blank one is none. -/
def absentIfBlank (digest : Option String) : Option String := if normalizeDigest digest = none then none else digest

def ReleaseObservation.blanksAbsent (observation : ReleaseObservation) : ReleaseObservation :=
  { observation with
    expectedDigest := absentIfBlank observation.expectedDigest
    observedDigest := absentIfBlank observation.observedDigest }

def StageResult.blanksAbsent (checkpoint : StageResult) : StageResult :=
  { checkpoint with
    release := checkpoint.release.map fun evidence =>
      { evidence with expectedDigest := absentIfBlank evidence.expectedDigest } }

/-- The verdict is the one of the facts, and a blank digest makes no difference to a digest that is not there. -/
def RuledByFacts (checkpoint : StageResult) (observation : ReleaseObservation) : Prop :=
  ∀ now, (CompletesRelease checkpoint observation now ↔
      Verified observation ((normalizeDigest observation.expectedDigest).or (recordedDigest checkpoint))) ∧
    buildReleaseResolution checkpoint observation now =
      buildReleaseResolution checkpoint.blanksAbsent observation.blanksAbsent now

/-- The observation wakes the attempt with a blank expected digest while the checkpoint has one. -/
structure HidesRecorded (checkpoint : StageResult) (observation : ReleaseObservation) : Prop where
  resolves : releaseResolved (some observation) = true
  blank : observation.expectedDigest ≠ none ∧ normalizeDigest observation.expectedDigest = none
  recorded : recordedDigest checkpoint ≠ none

section Decision

variable {observation : ReleaseObservation} {raw : Option String}

@[simp] theorem normalizeDigest_absentIfBlank (digest : Option String) :
    normalizeDigest (absentIfBlank digest) = normalizeDigest digest := by
  unfold absentIfBlank
  by_cases blank : normalizeDigest digest = none
  · rw [if_pos blank, blank]
    rfl
  · rw [if_neg blank]

theorem digestFailure_none : digestFailure observation = none ↔ ∃ digest,
    normalizeDigest observation.observedDigest = some digest ∧
      normalizeDigest observation.expectedDigest = some digest := by
  unfold digestFailure
  cases normalizeDigest observation.expectedDigest with
  | none => simp
  | some expected =>
    cases normalizeDigest observation.observedDigest with
    | none => simp
    | some observed =>
      by_cases same : expected = observed
      · simp [same]
      · simp [same]

theorem argoFailure_none : argoFailure observation = none ↔
    argoSyncFromRaw observation.argoSyncRaw = .synced ∧ argoHealthFromRaw observation.argoHealthRaw = .healthy := by
  unfold argoFailure
  by_cases synced : argoSyncFromRaw observation.argoSyncRaw = .synced
  · by_cases healthy : argoHealthFromRaw observation.argoHealthRaw = .healthy
    · simp [synced, healthy]
    · simp [synced, healthy]
  · simp [synced]

theorem smokeStatus_passed {probes : List SmokeProbeEvidence} :
    smokeStatus probes = .passed ↔ probes ≠ [] ∧ ∀ probe ∈ probes, probe.passed = true := by
  unfold smokeStatus
  cases probes with
  | nil => simp
  | cons first rest => simp

theorem evaluateRelease_released : (evaluateRelease observation).status = .released ↔
    Verified observation (normalizeDigest observation.expectedDigest) := by
  have gathered : (digestFailure observation = none ∧ argoFailure observation = none) ∧
      smokeStatus observation.smoke = .passed ↔ Verified observation (normalizeDigest observation.expectedDigest) := by
    rw [digestFailure_none, argoFailure_none, smokeStatus_passed]
    constructor
    · intro facts
      exact ⟨facts.1.1, facts.1.2.1, facts.1.2.2, facts.2.1, facts.2.2⟩
    · intro verified
      exact ⟨⟨verified.digest, verified.synced, verified.healthy⟩, verified.probed, verified.passed⟩
  have failed (decision : ReleaseDecision) (stops : decision.status = .releaseFailed) : decision.status ≠ .released := by
    rw [stops]
    decide
  rw [← gathered]
  unfold evaluateRelease
  cases digests : digestFailure observation with
  | some failure =>
    have stops : failure.status = .releaseFailed := by
      unfold digestFailure at digests
      split at digests <;> grind [releaseFailed]
    simpa using failed failure stops
  | none =>
    cases argo : argoFailure observation with
    | some failure =>
      have stops : failure.status = .releaseFailed := by
        unfold argoFailure at argo
        split at argo <;> grind [releaseFailed]
      simpa using failed failure stops
    | none =>
      cases smoke : smokeStatus observation.smoke <;> simp [releaseFailed]

theorem present_iff : present raw = true ↔ stripped raw ≠ none := by
  rw [present, Option.isSome_iff_ne_none]

theorem argoSync_present (synced : argoSyncFromRaw raw = .synced) : present raw = true := by
  apply present_iff.mpr
  intro blank
  rw [argoSyncFromRaw, foldedRaw, blank] at synced
  simp at synced

theorem argoHealth_present (healthy : argoHealthFromRaw raw = .healthy) : present raw = true := by
  apply present_iff.mpr
  intro blank
  rw [argoHealthFromRaw, foldedRaw, blank] at healthy
  simp at healthy

theorem Verified.resolves {expected : Option String} (verified : Verified observation expected) :
    releaseResolved (some observation) = true := by
  obtain ⟨digest, observed, -⟩ := verified.digest
  have there : present observation.observedDigest = true := by
    apply present_iff.mpr
    rw [show stripped observation.observedDigest = some digest from observed]
    exact Option.some_ne_none digest
  simp only [releaseResolved, there, argoSync_present verified.synced, argoHealth_present verified.healthy,
    Bool.and_self]

end Decision

section Resolution

variable {checkpoint : StageResult} {observation : ReleaseObservation} {now : Timestamp}

def pinnedDigest (checkpoint : StageResult) (observation : ReleaseObservation) : Option String :=
  (withPinnedDigest checkpoint observation).expectedDigest

theorem withPinnedDigest_eq :
    withPinnedDigest checkpoint observation =
      { observation with expectedDigest := pinnedDigest checkpoint observation } := by
  unfold pinnedDigest withPinnedDigest
  split <;> rfl

theorem normalizeDigest_pinned : normalizeDigest (pinnedDigest checkpoint observation) =
    if observation.expectedDigest = none then recordedDigest checkpoint
    else normalizeDigest observation.expectedDigest := by
  unfold pinnedDigest withPinnedDigest recordedDigest
  cases named : observation.expectedDigest with
  | some digest => simp [named]
  | none =>
    cases checkpoint.release with
    | none => simp [named]; rfl
    | some evidence => simp

theorem completes_iff : CompletesRelease checkpoint observation now ↔
    Verified observation (normalizeDigest (pinnedDigest checkpoint observation)) := by
  have decided : (evaluateRelease (withPinnedDigest checkpoint observation)).status = .released ↔
      Verified observation (normalizeDigest (pinnedDigest checkpoint observation)) := by
    rw [evaluateRelease_released, withPinnedDigest_eq]
    exact ⟨fun v => ⟨v.digest, v.synced, v.healthy, v.probed, v.passed⟩,
      fun v => ⟨v.digest, v.synced, v.healthy, v.probed, v.passed⟩⟩
  rw [← decided]
  unfold CompletesRelease buildReleaseResolution
  dsimp only
  by_cases resolves : releaseResolved (some observation) = true
  · rw [if_neg (by simp [resolves])]
    by_cases released : (evaluateRelease (withPinnedDigest checkpoint observation)).status = .released
    · simp [released, resultOfCheckpoint]
    · simp [released, resultOfCheckpoint]
  · rw [if_pos (by simp [resolves])]
    have never : ¬ (evaluateRelease (withPinnedDigest checkpoint observation)).status = .released := fun released =>
      resolves (decided.mp released).resolves
    simp [never]

theorem evaluateRelease_digests {expected expected' observed observed' : Option String}
    (expects : normalizeDigest expected = normalizeDigest expected')
    (observes : normalizeDigest observed = normalizeDigest observed') :
    evaluateRelease { observation with expectedDigest := expected, observedDigest := observed } =
      evaluateRelease { observation with expectedDigest := expected', observedDigest := observed' } := by
  unfold evaluateRelease digestFailure
  dsimp only
  rw [expects, observes]
  rfl

/-- The evidence of a resolution names the digest the decision was about. -/
theorem resolution_expected {result : StageResult}
    (built : buildReleaseResolution checkpoint observation now = .ok result) :
    result.release.bind (·.expectedDigest) = normalizeDigest (pinnedDigest checkpoint observation) := by
  unfold buildReleaseResolution at built
  by_cases unresolved : (!releaseResolved (some observation)) = true
  · simp [unresolved] at built
  · rw [if_neg unresolved] at built
    dsimp only at built
    by_cases released : (evaluateRelease (withPinnedDigest checkpoint observation)).status = .released
    · rw [if_pos released] at built
      cases built
      rfl
    · rw [if_neg released] at built
      cases built
      rfl

theorem resolution_returns (resolves : releaseResolved (some observation) = true) :
    ∃ result, buildReleaseResolution checkpoint observation now = .ok result := by
  unfold buildReleaseResolution
  rw [if_neg (by simp [resolves])]
  dsimp only
  by_cases released : (evaluateRelease (withPinnedDigest checkpoint observation)).status = .released
  · rw [if_pos released]
    exact ⟨_, rfl⟩
  · rw [if_neg released]
    exact ⟨_, rfl⟩

theorem recordedDigest_blanksAbsent : recordedDigest checkpoint.blanksAbsent = recordedDigest checkpoint := by
  unfold recordedDigest StageResult.blanksAbsent
  cases checkpoint.release with
  | none => rfl
  | some evidence => exact normalizeDigest_absentIfBlank evidence.expectedDigest

theorem releaseResolved_blanksAbsent :
    releaseResolved (some observation.blanksAbsent) = releaseResolved (some observation) := by
  have same : present (absentIfBlank observation.observedDigest) = present observation.observedDigest :=
    congrArg Option.isSome (normalizeDigest_absentIfBlank observation.observedDigest)
  simp only [releaseResolved, ReleaseObservation.blanksAbsent, same]

theorem pinnedDigest_blanksAbsent :
    normalizeDigest (pinnedDigest checkpoint.blanksAbsent observation.blanksAbsent) =
      (normalizeDigest observation.expectedDigest).or (recordedDigest checkpoint) := by
  rw [normalizeDigest_pinned, recordedDigest_blanksAbsent]
  by_cases blank : normalizeDigest observation.expectedDigest = none
  · have gone : observation.blanksAbsent.expectedDigest = none := if_pos blank
    rw [if_pos gone, blank, Option.none_or]
  · have named : observation.blanksAbsent.expectedDigest = observation.expectedDigest := if_neg blank
    have there : observation.expectedDigest ≠ none := fun absent => blank (by rw [absent]; rfl)
    rw [named, if_neg there]
    obtain ⟨digest, known⟩ := Option.ne_none_iff_exists'.mp blank
    rw [known, Option.some_or]

/-- Blank digests make no difference once they make none to the digest the decision is about. -/
theorem resolution_blanksAbsent
    (same : normalizeDigest (pinnedDigest checkpoint observation) =
      normalizeDigest (pinnedDigest checkpoint.blanksAbsent observation.blanksAbsent)) :
    buildReleaseResolution checkpoint observation now =
      buildReleaseResolution checkpoint.blanksAbsent observation.blanksAbsent now := by
  have observed : normalizeDigest observation.observedDigest =
      normalizeDigest (absentIfBlank observation.observedDigest) :=
    (normalizeDigest_absentIfBlank observation.observedDigest).symm
  have decision : evaluateRelease (withPinnedDigest checkpoint observation) =
      evaluateRelease (withPinnedDigest checkpoint.blanksAbsent observation.blanksAbsent) := by
    rw [withPinnedDigest_eq, withPinnedDigest_eq]
    exact evaluateRelease_digests same observed
  have evidence (decision : ReleaseDecision) (verifiedAt : Timestamp) (application : Option String) :
      buildReleaseEvidence (withPinnedDigest checkpoint observation) decision verifiedAt application =
        buildReleaseEvidence (withPinnedDigest checkpoint.blanksAbsent observation.blanksAbsent) decision verifiedAt
          application := by
    rw [withPinnedDigest_eq, withPinnedDigest_eq]
    unfold buildReleaseEvidence
    dsimp only
    rw [same, observed]
    rfl
  have verifiedAt : (withPinnedDigest checkpoint observation).verifiedAt =
      (withPinnedDigest checkpoint.blanksAbsent observation.blanksAbsent).verifiedAt := by
    rw [withPinnedDigest_eq, withPinnedDigest_eq]
    rfl
  have application : (withPinnedDigest checkpoint observation).application =
      (withPinnedDigest checkpoint.blanksAbsent observation.blanksAbsent).application := by
    rw [withPinnedDigest_eq, withPinnedDigest_eq]
    rfl
  have gateSha : normalizeDigest (withPinnedDigest checkpoint observation).observedDigest =
      normalizeDigest (withPinnedDigest checkpoint.blanksAbsent observation.blanksAbsent).observedDigest := by
    rw [withPinnedDigest_eq, withPinnedDigest_eq]
    exact observed
  unfold buildReleaseResolution
  rw [releaseResolved_blanksAbsent]
  dsimp only
  rw [decision, evidence, verifiedAt, application, gateSha]
  rfl

end Resolution

/-- The verdict is ruled by the facts exactly where no blank digest hides the recorded one. -/
theorem release_ruled_by_facts_iff (checkpoint : StageResult) (observation : ReleaseObservation) :
    RuledByFacts checkpoint observation ↔ ¬ HidesRecorded checkpoint observation := by
  constructor
  · intro ruled hides
    have same := (ruled 0).2
    obtain ⟨result, built⟩ := @resolution_returns checkpoint observation 0 hides.resolves
    have read := resolution_expected (same ▸ built)
    rw [pinnedDigest_blanksAbsent, hides.blank.2, Option.none_or, resolution_expected built, normalizeDigest_pinned,
      if_neg hides.blank.1, hides.blank.2] at read
    exact hides.recorded read.symm
  · intro shows now
    by_cases resolves : releaseResolved (some observation) = true
    · have pinned : normalizeDigest (pinnedDigest checkpoint observation) =
          (normalizeDigest observation.expectedDigest).or (recordedDigest checkpoint) := by
        rw [normalizeDigest_pinned]
        by_cases unnamed : observation.expectedDigest = none
        · rw [if_pos unnamed, unnamed]
          rfl
        · rw [if_neg unnamed]
          by_cases blank : normalizeDigest observation.expectedDigest = none
          · have unrecorded : recordedDigest checkpoint = none := by
              by_contra recorded
              exact shows ⟨resolves, ⟨unnamed, blank⟩, recorded⟩
            rw [unrecorded, Option.or_none]
          · obtain ⟨digest, known⟩ := Option.ne_none_iff_exists'.mp blank
            rw [known, Option.some_or]
      refine ⟨?_, resolution_blanksAbsent (pinned.trans pinnedDigest_blanksAbsent.symm)⟩
      rw [completes_iff, pinned]
    · refine ⟨?_, ?_⟩
      · rw [completes_iff]
        exact ⟨fun verified => absurd verified.resolves resolves, fun verified => absurd verified.resolves resolves⟩
      · unfold buildReleaseResolution
        rw [releaseResolved_blanksAbsent, if_pos (by simp [resolves]), if_pos (by simp [resolves])]
        rfl

def pinnedCheckpoint (digest : String) : StageResult :=
  { stage := .release, runId := "run_1", changeId := "change-1", inputRevision := some "c1", status := .waiting
    nextAction := .waitForCi "release promoted" none, producedAt := 0
    release := some { verifiedAt := 0, decision := .releaseFailed, expectedDigest := some digest } }

def deployed (expected : Option String) (observed : String) : ReleaseObservation :=
  { expectedDigest := expected, observedDigest := some observed, argoSyncRaw := some "Synced"
    argoHealthRaw := some "Healthy", smoke := [{ name := "health", passed := true }] }

/-- The pinned digest is deployed and healthy, but the observation names blanks as the expected one. -/
theorem blank_digest_hides_recorded : ¬ ∀ checkpoint observation, RuledByFacts checkpoint observation := by
  intro ruled
  have verdict := (ruled (pinnedCheckpoint "sha256:1") (deployed (some "  ") "sha256:1") 0).1
  rw [completes_iff] at verdict
  have verified : Verified (deployed (some "  ") "sha256:1")
      ((normalizeDigest (some "  ")).or (recordedDigest (pinnedCheckpoint "sha256:1"))) :=
    { digest := ⟨"sha256:1", by decide +kernel, by decide +kernel⟩
      synced := by decide +kernel
      healthy := by decide +kernel
      probed := by decide
      passed := by decide }
  obtain ⟨digest, -, expected⟩ := (verdict.mpr verified).digest
  have unknown : normalizeDigest (pinnedDigest (pinnedCheckpoint "sha256:1") (deployed (some "  ") "sha256:1")) = none := by
    decide +kernel
  rw [unknown] at expected
  cases expected

end DarkFactory
