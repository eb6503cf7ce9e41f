import DarkFactory.Scm.Promotion

namespace DarkFactory

/-- Without release evidence on the checkpoint, an observation that names no digest is verified against none: the
    attempt ends blocked. -/
theorem resolution_unpinned {checkpoint : StageResult} {observation : ReleaseObservation} (now : Timestamp)
    (bare : checkpoint.release = none) (unnamed : observation.expectedDigest = none)
    (resolved : releaseResolved (some observation) = true) :
    ∃ result release, buildReleaseResolution checkpoint observation now = .ok result ∧ result.status = .blocked ∧
      result.release = some release ∧ release.expectedDigest = none := by
  have same : withPinnedDigest checkpoint observation = observation := by
    simp [withPinnedDigest, bare, unnamed]
  have failed : evaluateRelease observation =
      releaseFailed "cannot verify digest immutability: the expected digest is unknown (FR-011)" := by
    simp [evaluateRelease, digestFailure, unnamed, normalizeDigest, stripped, shaOr]
  unfold buildReleaseResolution
  rw [if_neg (by simp [resolved])]
  dsimp only
  rw [same, failed, if_neg (by simp [releaseFailed])]
  refine ⟨_, _, rfl, rfl, rfl, ?_⟩
  simp [buildReleaseEvidence, unnamed, normalizeDigest, stripped, shaOr]

/-- Every observation that wakes the checkpoint and names no expected digest is verified against the digest. -/
def VerifiesAgainst (checkpoint : StageResult) (digest : String) : Prop :=
  ∀ observation now, observation.expectedDigest = none → releaseResolved (some observation) = true →
    ∃ result release, buildReleaseResolution checkpoint observation now = .ok result ∧
      result.release = some release ∧ release.expectedDigest = some digest

def rolledOut (digest : String) : ReleaseObservation :=
  { observedDigest := some digest, argoSyncRaw := some "Synced", argoHealthRaw := some "Healthy"
    smoke := [{ name := "health", passed := true }] }

theorem unpinned_not_verified {checkpoint : StageResult} (bare : checkpoint.release = none) (digest : String) :
    ¬ VerifiesAgainst checkpoint digest := by
  intro verifies
  have resolved : releaseResolved (some (rolledOut "sha256:1")) = true := by decide +kernel
  obtain ⟨result, release, built, -, recorded, none⟩ := resolution_unpinned 0 bare rfl resolved
  obtain ⟨result', release', built', recorded', named⟩ := verifies (rolledOut "sha256:1") 0 rfl resolved
  rw [built, Except.ok.injEq] at built'
  rw [← built', recorded, Option.some.injEq] at recorded'
  rw [← recorded', none] at named
  cases named

namespace ReleaseAttempt

variable (executor : ReleaseStageExecutor) (attempt : ReleaseAttempt)

def Pinned (repo : FakeRepository) (digest : String) : Prop :=
  repo.readFile executor.gitopsRepository (attempt.branch executor) (digestPath attempt.context.runId) =
    .ok (digestBytes digest)

/-- The record can still bring the head of the promotion branch to the target, or has brought it there. -/
def Brings (repo : FakeRepository) (record : ChangeRequestRecord) : Prop :=
  record.status = .open ∨ record.status = .merged ∧
    repo.branches.lookup (executor.gitopsRepository, attempt.branch executor) = some record.headSha

def Carried (checkpoint : StageResult) (after : Scm) : Prop :=
  ∃ reason request record, checkpoint.nextAction = .waitForCi reason (some request) ∧
    after.requests.records.lookup (request.repository, request.number) = some record ∧
    attempt.Brings executor after.repository record

/-- The request of the run before the attempt: found under the run, or recorded under the key of the operation. -/
def earlierRequest (scm : Scm) : Option ChangeRequestRecord :=
  ((scm.requests.byChange.lookup (executor.gitopsRepository, attempt.context.runId)).or
    (scm.requests.openKeys.lookup (attempt.requestKey executor))).bind fun place => scm.requests.records.lookup place

theorem changeRequest_named {scm after : Scm} {sha : String} {request : ChangeRequestRef}
    (done : attempt.changeRequest executor sha scm = .ok request after) :
    after.repository = scm.repository ∧ ∃ record,
      after.requests.records.lookup (request.repository, request.number) = some record ∧
      (attempt.earlierRequest executor scm = some record ∨
        attempt.earlierRequest executor scm = none ∧ record.status = .open) := by
  rcases ((attempt.changeRequest_ok executor).mp done).2 with ⟨there, rfl⟩ | ⟨there, -, requests, opened, rfl⟩
  · obtain ⟨place, record, listed, held, rfl⟩ := findExisting_cases there
    obtain rfl := after.requests.placed place record held
    exact ⟨rfl, record, held, Or.inl (by simp [earlierRequest, listed, held])⟩
  · have unlisted := findExisting_none there
    rcases openRequest_cases opened with ⟨place, record, known, held, rfl, rfl⟩ | ⟨fresh, record, held, rfl, isOpen⟩
    · obtain rfl := scm.requests.placed place record held
      exact ⟨rfl, record, held, Or.inl (by simp [earlierRequest, unlisted, known, held])⟩
    · exact ⟨rfl, record, held, Or.inr ⟨by simp [earlierRequest, unlisted, fresh], isOpen⟩⟩

section Parked

variable {scm : Scm} (parked : (attempt.promote executor scm).1.status = .waiting)
include parked

/-- The head holds the digest unless its commit was replayed under a head that holds another. -/
theorem pinned_iff {digest base : String} (configured : normalizeDigest attempt.expectedDigest = some digest)
    (known : scm.repository.getRevision executor.gitopsRepository executor.targetBranch = .ok base) :
    attempt.Pinned executor (attempt.promote executor scm).2.repository digest ↔
      scm.repository.commitKeys.lookup (attempt.commitKey executor digest) = none ∨
        attempt.Pinned executor (attempt.ensured executor scm base) digest := by
  obtain ⟨digest', sha, request, configured', ran, -⟩ := attempt.promote_inv executor parked
  obtain ⟨-, base', made, known', landed, named⟩ := (attempt.effects_ok executor).mp ran
  rw [configured, Option.some.injEq] at configured'
  rw [known, Except.ok.injEq] at known'
  subst configured' known'
  rw [(attempt.changeRequest_named executor named).1]
  dsimp only
  rcases publishCommit_cases landed with ⟨seen, rfl⟩ | ⟨fresh, parent, committed⟩
  · rw [ensured, ensureBranch_commits.2] at seen
    simp [seen]
  · rw [ensured, ensureBranch_commits.2] at fresh
    have given : (attempt.pin digest).lookup (digestPath attempt.context.runId) = some (digestBytes digest) := by
      simp [pin, AList.lookup]
    have reads : attempt.Pinned executor made digest := by
      rw [show made = _ from congrArg Prod.snd committed]
      exact commitOn_reads given
    exact ⟨fun _ => Or.inl fresh, fun _ => reads⟩

/-- The named request brings the head on unless an earlier one of the run was closed, or merged at another head. -/
theorem carried_iff : attempt.Carried executor (attempt.promote executor scm).1 (attempt.promote executor scm).2 ↔
    ∀ record, attempt.earlierRequest executor scm = some record →
      attempt.Brings executor (attempt.promote executor scm).2.repository record := by
  obtain ⟨digest, sha, request, -, ran, checkpoint⟩ := attempt.promote_inv executor parked
  obtain ⟨-, base, made, -, -, named⟩ := (attempt.effects_ok executor).mp ran
  obtain ⟨-, record, held, origin⟩ := attempt.changeRequest_named executor named
  have earlier : attempt.earlierRequest executor { scm with repository := made } =
      attempt.earlierRequest executor scm := rfl
  rw [earlier] at origin
  constructor
  · rintro ⟨reason, named', record', same, held', brings⟩ other found
    rw [checkpoint] at same
    cases same
    rw [held, Option.some.injEq] at held'
    subst held'
    rcases origin with found' | ⟨absent, -⟩
    · rw [found, Option.some.injEq] at found'
      exact found' ▸ brings
    · rw [absent] at found
      cases found
  · intro each
    refine ⟨_, request, record, by rw [checkpoint]; rfl, held, ?_⟩
    rcases origin with found | ⟨-, isOpen⟩
    · exact each record found
    · exact Or.inl isOpen

theorem promote_bare : (attempt.promote executor scm).1.release = none := by
  obtain ⟨digest, sha, request, -, -, checkpoint⟩ := attempt.promote_inv executor parked
  rw [checkpoint]
  rfl

end Parked

structure Agrees (digest : String) (checkpoint : StageResult) (after : Scm) : Prop where
  pinned : attempt.Pinned executor after.repository digest
  carried : attempt.Carried executor checkpoint after
  verified : VerifiesAgainst checkpoint digest

/-- What is promised of an attempt: if it parks, promotion and verification agree on its digest. -/
def Agreement (scm : Scm) : Prop :=
  (attempt.promote executor scm).1.status = .waiting → ∀ digest,
    normalizeDigest attempt.expectedDigest = some digest →
      attempt.Agrees executor digest (attempt.promote executor scm).1 (attempt.promote executor scm).2

theorem agreement_iff (scm : Scm) : attempt.Agreement executor scm ↔ ¬ attempt.Promotes executor scm := by
  constructor
  · intro agreement promotes
    obtain ⟨digest, configured, -⟩ := promotes.configured
    have parked := (attempt.promote_waits_iff executor scm).mpr promotes
    exact unpinned_not_verified (attempt.promote_bare executor parked) digest (agreement parked digest configured).verified
  · intro away parked
    exact absurd ((attempt.promote_waits_iff executor scm).mp parked) away

end ReleaseAttempt

/-- What happens to the promotion of a run: its attempts, and the merges of its requests. -/
inductive ReleaseStep
  | attempt (attempt : ReleaseAttempt)
  | merge (request : ChangeRequestRef) (expectedSha : String)

section Steps

variable (executor : ReleaseStageExecutor)

def afterRelease (scm : Scm) : ReleaseStep → Scm
  | .attempt attempt => (attempt.promote executor scm).2
  | .merge request expectedSha =>
    match scm.requests.merge request expectedSha with
    | .ok requests => { scm with requests }
    | .error _ => scm

def TurnedAway (scm : Scm) : ReleaseStep → Prop
  | .attempt attempt => ¬ attempt.Promotes executor scm
  | .merge .. => True

/-- The checkpoint carries no release evidence, so the agreement fails after every attempt that parks: it holds
    throughout exactly where every attempt is turned away. -/
theorem agreement_only_when_turned_away (scm : Scm) (steps : List ReleaseStep) :
    (∀ before attempt later, steps = before ++ .attempt attempt :: later →
      attempt.Agreement executor (before.foldl (afterRelease executor) scm)) ↔
    Trace.Along (afterRelease executor) (TurnedAway executor) scm steps := by
  rw [Trace.along_iff_at]
  constructor
  · intro agreement before step later split
    cases step with
    | merge request expectedSha => trivial
    | attempt attempt => exact (attempt.agreement_iff executor _).mp (agreement before attempt later split)
  · intro away before attempt later split
    exact (attempt.agreement_iff executor _).mpr (away before (.attempt attempt) later split)

end Steps

def releaseOf (digest : String) : ReleaseAttempt where
  context :=
    { change := { id := "change-1", title := "Export", riskClass := .r1 }
      stage := .release, route := .standard, runId := "run-1", inputRevision := some "main-1"
      requiredGates := ∅, humanGates := ∅, budget := {} }
  isRelease := rfl
  expectedDigest := some digest

def gitops : ReleaseStageExecutor := { gitopsRepository := ⟨.github, "org/gitops"⟩ }

def gitopsScm : Scm :=
  { repository := { branches := AList.singleton (gitops.gitopsRepository, "main") "g0" } }

/-- Each part of the agreement fails on a run of its own: the first attempt is verified against no digest; a digest
    that comes back leaves the one between at the head; after a merge the next digest has no request to bring it. -/
theorem promotion_and_verification_disagree :
    ¬ (releaseOf "sha256:1").Agreement gitops gitopsScm ∧
    (let reached := [ReleaseStep.attempt (releaseOf "sha256:1"), .attempt (releaseOf "sha256:2")].foldl
        (afterRelease gitops) gitopsScm
      let ended := (releaseOf "sha256:1").promote gitops reached
      ended.1.status = .waiting ∧ ¬ (releaseOf "sha256:1").Pinned gitops ended.2.repository "sha256:1") ∧
    (let reached := [ReleaseStep.attempt (releaseOf "sha256:1"),
        .merge { repository := gitops.gitopsRepository, number := 1, status := .open } "c0001"].foldl
          (afterRelease gitops) gitopsScm
      let ended := (releaseOf "sha256:2").promote gitops reached
      ended.1.status = .waiting ∧ ¬ (releaseOf "sha256:2").Carried gitops ended.1 ended.2) := by
  refine ⟨?_, ?_, ?_⟩
  · rw [ReleaseAttempt.agreement_iff, not_not, ← ReleaseAttempt.promote_waits_iff]
    decide +kernel
  · refine ⟨by decide +kernel, fun pinned => ?_⟩
    have between := congrArg Except.toOption pinned
    exact absurd between (by decide +kernel)
  · intro reached ended
    have parked : ended.1.status = .waiting := by decide +kernel
    have earlier : ((releaseOf "sha256:2").earlierRequest gitops reached).map (fun record =>
        (record.status, record.headSha)) = some (.merged, "c0001") := by decide +kernel
    have head : ended.2.repository.branches.lookup (gitops.gitopsRepository, (releaseOf "sha256:2").branch gitops) =
        some "c0002" := by decide +kernel
    refine ⟨parked, fun carried => ?_⟩
    obtain ⟨record, found, same⟩ := Option.map_eq_some_iff.mp earlier
    simp only [Prod.mk.injEq] at same
    rcases ((releaseOf "sha256:2").carried_iff gitops parked).mp carried record found with isOpen | ⟨-, merged⟩
    · rw [same.1] at isOpen
      cases isOpen
    · rw [show AList.lookup _ _ = _ from head, same.2] at merged
      exact absurd merged (by decide)

end DarkFactory
