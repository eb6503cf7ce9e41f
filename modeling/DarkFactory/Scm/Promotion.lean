import DarkFactory.Lib.Trace
import DarkFactory.Scm.Agent
import DarkFactory.Stages.Release

namespace DarkFactory

structure ReleaseStageExecutor where
  gitopsRepository : RepositoryRef
  targetBranch : String := "main"
  isalnum : Char → Bool := Char.isAlphanum

inductive ReleaseBoundary
  | getRevision | ensureBranch | publishCommit | findExisting | openRequest
  deriving DecidableEq, Repr

structure ReleaseAttempt where
  context : StageContext
  isRelease : context.stage = .release
  expectedDigest : Option String
  raises : ReleaseBoundary → Option String := fun _ => none
  now : Timestamp := 0

def digestPath (runId : String) : String := "releases/" ++ runId ++ "/digest"

def digestBytes (digest : String) : List UInt8 := (digest ++ "\n").toUTF8.data.toList

namespace ReleaseAttempt

variable (executor : ReleaseStageExecutor) (attempt : ReleaseAttempt)

def identity : String :=
  operationKey attempt.context.runId attempt.context.stage (attempt.context.inputRevision.getD "")

def branch : String := branchName executor.isalnum attempt.context.runId "factory-release"

def branchKey : String := effectKey attempt.identity "gitops_branch" (attempt.branch executor)

def commitKey (digest : String) : String :=
  effectKey attempt.identity "gitops_commit" (attempt.branch executor ++ ":" ++ digest)

def requestKey : String := effectKey attempt.identity "gitops_change_request" (attempt.branch executor)

def pin (digest : String) : FileSet := AList.singleton (digestPath attempt.context.runId) (digestBytes digest)

def message (digest : String) : String :=
  "factory release " ++ attempt.context.runId ++ ": pin digest " ++ digest

def openFor (sha : String) : OpenChangeRequest :=
  { repository := executor.gitopsRepository, changeId := attempt.context.runId
    sourceBranch := attempt.branch executor, targetBranch := executor.targetBranch
    title := "factory release " ++ attempt.context.runId, headSha := sha }

def changeRequest (sha : String) : Ports ChangeRequestRef := do
  match ← askExisting (attempt.raises .findExisting) executor.gitopsRepository attempt.context.runId with
  | some request => return request
  | none => askOpen (attempt.raises .openRequest) (attempt.openFor executor sha) (attempt.requestKey executor)

/-- The effects of a promotion; the digest is part of the commit key. -/
def effects (digest : String) : Ports (String × ChangeRequestRef) := do
  let base ← askRevision (attempt.raises .getRevision) executor.gitopsRepository executor.targetBranch
  askBranch (attempt.raises .ensureBranch) executor.gitopsRepository (attempt.branch executor) base
    (attempt.branchKey executor)
  let sha ← askCommit (attempt.raises .publishCommit) executor.gitopsRepository (attempt.branch executor)
    (attempt.pin digest) (attempt.message digest) (attempt.commitKey executor digest)
  let request ← attempt.changeRequest executor sha
  return (sha, request)

def blocked (reason : String) : StageResult :=
  { stage := attempt.context.stage
    runId := attempt.context.runId
    changeId := attempt.context.change.id
    attemptNumber := attempt.context.attemptNumber
    inputRevision := attempt.context.inputRevision
    status := .blocked
    nextAction := .stop .blocked reason
    gateResults := pendingGateResults attempt.context.requiredGates
    producedAt := attempt.now }

def waiting (digest sha : String) (request : ChangeRequestRef) : StageResult :=
  let place := executor.gitopsRepository.slug ++ "#" ++ toString request.number
  { stage := attempt.context.stage
    runId := attempt.context.runId
    changeId := attempt.context.change.id
    attemptNumber := attempt.context.attemptNumber
    inputRevision := attempt.context.inputRevision
    status := .waiting
    nextAction := .waitForCi ("stage " ++ attempt.context.stage.value ++ " pinned " ++ digest ++ " in " ++ place ++
      " (" ++ attempt.branch executor ++ ") at the promotion commit; waiting for the Argo sync and the smoke probes")
      (some request)
    artifacts :=
      [{ artifactType := "change_request", uri := (request.url.filter (· ≠ "")).getD place, revision := some sha
         producer := some Role.ciCd.value }]
    gateResults := pendingGateResults attempt.context.requiredGates
    producedAt := attempt.now }

/-- `_promote`: an exception at a boundary becomes a blocked result, its effects stay. -/
def promote (scm : Scm) : StageResult × Scm :=
  match normalizeDigest attempt.expectedDigest with
  | none => (attempt.blocked ("stage release: no expected digest is configured — pass --expected-digest" ++
      " or --digest-json; promoting without one would be an invented release"), scm)
  | some digest =>
    match attempt.effects executor digest scm with
    | .ok (sha, request) after => (attempt.waiting executor digest sha request, after)
    | .error exception after =>
      (attempt.blocked ("stage " ++ attempt.context.stage.value ++
        ": release promotion failed at the boundary (" ++ exception ++ ")"), after)

def ensured (scm : Scm) (base : String) : FakeRepository :=
  (scm.repository.ensureBranch executor.gitopsRepository (attempt.branch executor) base (attempt.branchKey executor)).2

/-- The attempt gets through to its checkpoint: a digest is configured, the target has a revision, the pin is
    recorded or has a branch to land on, and no port fails that it calls. -/
structure Promotes (scm : Scm) : Prop where
  configured : ∃ digest, normalizeDigest attempt.expectedDigest = some digest ∧ ∃ base,
    scm.repository.getRevision executor.gitopsRepository executor.targetBranch = .ok base ∧
      (scm.repository.commitKeys.lookup (attempt.commitKey executor digest) ≠ none ∨
        (attempt.ensured executor scm base).branches.lookup (executor.gitopsRepository, attempt.branch executor) ≠ none)
  revised : attempt.raises .getRevision = none
  branched : attempt.raises .ensureBranch = none
  published : attempt.raises .publishCommit = none
  looked : attempt.raises .findExisting = none
  requested : attempt.raises .openRequest = none ∨ ∃ request,
    scm.requests.findExisting executor.gitopsRepository attempt.context.runId = .ok (some request)

theorem changeRequest_ok {scm after : Scm} {sha : String} {request : ChangeRequestRef} :
    attempt.changeRequest executor sha scm = .ok request after ↔ attempt.raises .findExisting = none ∧
      ((scm.requests.findExisting executor.gitopsRepository attempt.context.runId = .ok (some request) ∧ after = scm) ∨
        (scm.requests.findExisting executor.gitopsRepository attempt.context.runId = .ok none ∧
          attempt.raises .openRequest = none ∧ ∃ requests,
            scm.requests.openRequest (attempt.openFor executor sha) (attempt.requestKey executor) = .ok (request, requests) ∧
              after = { scm with requests })) := by
  unfold changeRequest
  rw [Outcome.state_bind_ok]
  constructor
  · rintro ⟨found, between, looked, moved⟩
    obtain ⟨quiet, there, rfl⟩ := askExisting_ok.mp looked
    cases found with
    | some held =>
      obtain ⟨rfl, rfl⟩ := Outcome.state_pure_ok.mp moved
      exact ⟨quiet, Or.inl ⟨there, rfl⟩⟩
    | none => exact ⟨quiet, Or.inr ⟨there, askOpen_ok.mp moved⟩⟩
  · rintro ⟨quiet, ⟨there, rfl⟩ | ⟨there, opened⟩⟩
    · exact ⟨some request, after, askExisting_ok.mpr ⟨quiet, there, rfl⟩, rfl⟩
    · exact ⟨none, scm, askExisting_ok.mpr ⟨quiet, there, rfl⟩, askOpen_ok.mpr opened⟩

theorem effects_ok {scm after : Scm} {digest sha : String} {request : ChangeRequestRef} :
    attempt.effects executor digest scm = .ok (sha, request) after ↔
      (attempt.raises .getRevision = none ∧ attempt.raises .ensureBranch = none ∧
        attempt.raises .publishCommit = none) ∧
      ∃ base made, scm.repository.getRevision executor.gitopsRepository executor.targetBranch = .ok base ∧
        (attempt.ensured executor scm base).publishCommit executor.gitopsRepository (attempt.branch executor)
          (attempt.pin digest) (attempt.message digest) (attempt.commitKey executor digest) = .ok (sha, made) ∧
        attempt.changeRequest executor sha { scm with repository := made } = .ok request after := by
  unfold effects
  constructor
  · intro done
    obtain ⟨base, _, asked, branching⟩ := Outcome.state_bind_ok.mp done
    obtain ⟨revised, known, rfl⟩ := askRevision_ok.mp asked
    obtain ⟨_, _, branched, committing⟩ := Outcome.state_bind_ok.mp branching
    obtain ⟨quiet, rfl⟩ := askBranch_ok.mp branched
    obtain ⟨named, _, committed, requesting⟩ := Outcome.state_bind_ok.mp committing
    obtain ⟨published, made, landed, rfl⟩ := askCommit_ok.mp committed
    obtain ⟨chosen, _, requested, finish⟩ := Outcome.state_bind_ok.mp requesting
    obtain ⟨same, rfl⟩ := Outcome.state_pure_ok.mp finish
    cases same
    exact ⟨⟨revised, quiet, published⟩, base, made, known, landed, requested⟩
  · rintro ⟨⟨revised, quiet, published⟩, base, made, known, landed, requested⟩
    refine Outcome.state_bind_ok.mpr ⟨base, scm, askRevision_ok.mpr ⟨revised, known, rfl⟩, ?_⟩
    refine Outcome.state_bind_ok.mpr ⟨(), { scm with repository := attempt.ensured executor scm base },
      askBranch_ok.mpr ⟨quiet, rfl⟩, ?_⟩
    refine Outcome.state_bind_ok.mpr ⟨sha, { scm with repository := made },
      askCommit_ok.mpr ⟨published, made, landed, rfl⟩, ?_⟩
    exact Outcome.state_bind_ok.mpr ⟨request, after, requested, rfl⟩

theorem pin_keys (digest : String) : (attempt.pin digest).keys ≠ [] := by
  simp [pin]

theorem promote_inv {scm : Scm} (parked : (attempt.promote executor scm).1.status = .waiting) :
    ∃ digest sha request, normalizeDigest attempt.expectedDigest = some digest ∧
      attempt.effects executor digest scm = .ok (sha, request) (attempt.promote executor scm).2 ∧
      (attempt.promote executor scm).1 = attempt.waiting executor digest sha request := by
  unfold promote at parked ⊢
  cases configured : normalizeDigest attempt.expectedDigest with
  | none => simp [configured, blocked] at parked
  | some digest =>
    cases ran : attempt.effects executor digest scm with
    | error exception after => simp [configured, ran, blocked] at parked
    | ok made after =>
      obtain ⟨sha, request⟩ := made
      exact ⟨digest, sha, request, rfl, by simp only [ran], by simp only [ran]⟩

theorem promote_waits_iff (scm : Scm) :
    (attempt.promote executor scm).1.status = .waiting ↔ attempt.Promotes executor scm := by
  constructor
  · intro parked
    obtain ⟨digest, sha, request, configured, ran, -⟩ := attempt.promote_inv executor parked
    obtain ⟨⟨revised, quiet, published⟩, base, made, known, landed, requested⟩ := (attempt.effects_ok executor).mp ran
    obtain ⟨looked, chosen⟩ := (attempt.changeRequest_ok executor).mp requested
    refine ⟨⟨digest, configured, base, known, ?_⟩, revised, quiet, published, looked, ?_⟩
    · have able := (publishCommit_returns (attempt.pin_keys digest)).mp ⟨_, landed⟩
      rw [ensured, ensureBranch_commits.2] at able
      exact able
    · rcases chosen with ⟨there, -⟩ | ⟨-, free, -⟩
      · exact Or.inr ⟨request, there⟩
      · exact Or.inl free
  · rintro ⟨⟨digest, configured, base, known, able⟩, revised, quiet, published, looked, requested⟩
    have lands : (attempt.ensured executor scm base).commitKeys.lookup (attempt.commitKey executor digest) ≠ none ∨
        (attempt.ensured executor scm base).branches.lookup (executor.gitopsRepository, attempt.branch executor) ≠
          none := by
      rw [ensured, ensureBranch_commits.2]
      exact able
    obtain ⟨⟨sha, made⟩, landed⟩ := (publishCommit_returns (attempt.pin_keys digest)).mpr lands
    have asked : ∃ request after, attempt.changeRequest executor sha { scm with repository := made } = .ok request after := by
      obtain ⟨found, there⟩ := findExisting_returns scm.requests executor.gitopsRepository attempt.context.runId
      cases found with
      | some request => exact ⟨request, _, (attempt.changeRequest_ok executor).mpr ⟨looked, Or.inl ⟨there, rfl⟩⟩⟩
      | none =>
        have free : attempt.raises .openRequest = none := by
          rcases requested with free | ⟨request, other⟩
          · exact free
          · rw [there] at other
            cases other
        obtain ⟨⟨request, requests⟩, opened⟩ := openRequest_returns scm.requests (attempt.openFor executor sha)
          (attempt.requestKey executor)
        exact ⟨request, _, (attempt.changeRequest_ok executor).mpr
          ⟨looked, Or.inr ⟨there, free, requests, opened, rfl⟩⟩⟩
    obtain ⟨request, after, named⟩ := asked
    have ran := (attempt.effects_ok executor).mpr ⟨⟨revised, quiet, published⟩, base, made, known, landed, named⟩
    simp only [promote, configured, ran]
    rfl

end ReleaseAttempt

end DarkFactory
