import DarkFactory.Flow.Apply

namespace DarkFactory

inductive ArgoSyncStatus | synced | outOfSync | unknown
  deriving DecidableEq, Repr

def ArgoSyncStatus.value : ArgoSyncStatus → String
  | .synced => "Synced"
  | .outOfSync => "OutOfSync"
  | .unknown => "Unknown"

inductive ArgoHealthStatus | healthy | progressing | degraded | suspended | missing | unknown
  deriving DecidableEq, Repr

def ArgoHealthStatus.value : ArgoHealthStatus → String
  | .healthy => "Healthy"
  | .progressing => "Progressing"
  | .degraded => "Degraded"
  | .suspended => "Suspended"
  | .missing => "Missing"
  | .unknown => "Unknown"

/-- `str.casefold` as far as it reaches ASCII: upper case, and the code points that fold into it. -/
def casefoldChar (c : Char) : String :=
  if c.toNat = 0x17F then "s"
  else if c.toNat = 0x212A then "k"
  else if c.toNat = 0xDF ∨ c.toNat = 0x1E9E then "ss"
  else if c.toNat = 0xFB00 then "ff"
  else if c.toNat = 0xFB01 then "fi"
  else if c.toNat = 0xFB02 then "fl"
  else if c.toNat = 0xFB03 then "ffi"
  else if c.toNat = 0xFB04 then "ffl"
  else if c.toNat = 0xFB05 ∨ c.toNat = 0xFB06 then "st"
  else c.toLower.toString

def casefold (text : String) : String := String.join (text.toList.map casefoldChar)

/-- `value.strip() or None`. -/
def stripped (text : Option String) : Option String := shaOr (text.map Text.strip) none

def foldedRaw (raw : Option String) : Option String := (stripped raw).map casefold

def argoSyncFromRaw (raw : Option String) : ArgoSyncStatus :=
  ([ArgoSyncStatus.synced, .outOfSync, .unknown].find? fun status =>
    foldedRaw raw = some (casefold status.value)).getD .unknown

def argoHealthFromRaw (raw : Option String) : ArgoHealthStatus :=
  ([ArgoHealthStatus.healthy, .progressing, .degraded, .suspended, .missing, .unknown].find? fun status =>
    foldedRaw raw = some (casefold status.value)).getD .unknown

inductive SmokeStatus | notRun | passed | failed
  deriving DecidableEq, Repr

def smokeStatus (probes : List SmokeProbeEvidence) : SmokeStatus :=
  if probes.isEmpty then .notRun else if probes.any (fun probe => !probe.passed) then .failed else .passed

structure ReleaseObservation where
  expectedDigest : Option String := none
  observedDigest : Option String := none
  argoSyncRaw : Option String := none
  argoHealthRaw : Option String := none
  smoke : List SmokeProbeEvidence := []
  application : Option String := none
  verifiedAt : Option Timestamp := none
  deriving DecidableEq, Repr

structure ReleaseDecision where
  status : ReleaseStatus
  reason : Option String := none
  rollbackSignal : Option String := none
  deriving DecidableEq, Repr

def rollbackSignal : String :=
  "revert the GitOps commit that pinned this digest in the GitOps repository:" ++
    " Argo CD auto-sync then restores the previous digest (ADR-010, ADR-011 p.6)"

def releaseFailed (reason : String) : ReleaseDecision :=
  { status := .releaseFailed, reason := some reason, rollbackSignal := some rollbackSignal }

def normalizeDigest (value : Option String) : Option String := stripped value

def digestFailure (observation : ReleaseObservation) : Option ReleaseDecision :=
  match normalizeDigest observation.expectedDigest, normalizeDigest observation.observedDigest with
  | none, _ => some (releaseFailed
      "cannot verify digest immutability: the expected digest is unknown (FR-011)")
  | some _, none => some (releaseFailed ("cannot verify digest immutability: the digest observed on " ++
      "the deployment is unknown (FR-011)"))
  | some expected, some observed =>
    if expected ≠ observed then
      some (releaseFailed (s!"expected digest {expected} does not match the observed digest {observed}: " ++
        "the release is stopped (FR-011)"))
    else none

def rawOrUnknown (raw : Option String) : String := ((stripped raw).map Text.repr).getD "unknown"

def argoFailure (observation : ReleaseObservation) : Option ReleaseDecision :=
  if argoSyncFromRaw observation.argoSyncRaw ≠ .synced then
    some (releaseFailed (s!"argo application sync status is {rawOrUnknown observation.argoSyncRaw}, " ++
      s!"not {Text.repr ArgoSyncStatus.synced.value} (ADR-010)"))
  else if argoHealthFromRaw observation.argoHealthRaw ≠ .healthy then
    some (releaseFailed (s!"argo application health status is {rawOrUnknown observation.argoHealthRaw}, " ++
      s!"not {Text.repr ArgoHealthStatus.healthy.value} (ADR-010)"))
  else none

/-- Digest, sync, health, smoke: the first check that fails decides. -/
def evaluateRelease (observation : ReleaseObservation) : ReleaseDecision :=
  match (digestFailure observation).or (argoFailure observation) with
  | some failure => failure
  | none =>
    match smokeStatus observation.smoke with
    | .notRun => releaseFailed ("smoke was not run: the released status requires a passing smoke check " ++
        "(FR-013, ADR-011 p.6)")
    | .failed =>
      let names := Text.join ", " ((observation.smoke.filter fun probe => !probe.passed).map (·.name))
      releaseFailed s!"smoke probes failed: {names} (ADR-011 p.6)"
    | .passed => { status := .released }

def buildReleaseEvidence (observation : ReleaseObservation) (decision : ReleaseDecision)
    (verifiedAt : Timestamp) (application : Option String) : ReleaseEvidence :=
  { verifiedAt
    decision := decision.status
    reason := decision.reason
    expectedDigest := normalizeDigest observation.expectedDigest
    observedDigest := normalizeDigest observation.observedDigest
    argoSyncStatus := observation.argoSyncRaw
    argoHealthStatus := observation.argoHealthRaw
    application := stripped application
    smoke := observation.smoke
    rollbackSignal := decision.rollbackSignal }

def present (value : Option String) : Bool := (stripped value).isSome

def releaseResolved (observation : Option ReleaseObservation) : Bool :=
  match observation with
  | none => false
  | some observation =>
    present observation.observedDigest && present observation.argoSyncRaw && present observation.argoHealthRaw

def resultOfCheckpoint (checkpoint : StageResult) (status : StageStatus) (nextAction : NextAction)
    (now : Timestamp) (isResult : resultStatus status = true := by
    first | exact succeeded_isResult | exact waiting_isResult | exact failed_isResult | exact blocked_isResult | decide) : StageResult :=
  { stage := checkpoint.stage, runId := checkpoint.runId, changeId := checkpoint.changeId,
    attemptNumber := checkpoint.attemptNumber, inputRevision := checkpoint.inputRevision, status, nextAction,
    producedAt := now, statusIsResult := isResult }

/-- The expected digest the promotion pinned stands in for one the observation does not name. -/
def withPinnedDigest (checkpoint : StageResult) (observation : ReleaseObservation) : ReleaseObservation :=
  match observation.expectedDigest, checkpoint.release with
  | none, some evidence => { observation with expectedDigest := evidence.expectedDigest }
  | _, _ => observation

def buildReleaseResolution (checkpoint : StageResult) (observation : ReleaseObservation) (now : Timestamp) :
    Except Failure StageResult :=
  if !releaseResolved (some observation) then
    .error ⟨.value, s!"observation does not resolve the external wait of stage {checkpoint.stage.value}; " ++
      "the driver replays the waiting checkpoint instead"⟩
  else
    let observation := withPinnedDigest checkpoint observation
    let decision := evaluateRelease observation
    let release := buildReleaseEvidence observation decision (observation.verifiedAt.getD now)
      observation.application
    let gateSha := normalizeDigest observation.observedDigest
    if decision.status = .released then
      let verified := resultOfCheckpoint checkpoint .succeeded (.release "dev"
        (some "release verified: digest unchanged, argo synced and healthy, smoke passed")) now
      .ok { verified with
        gateResults := [{ gate := .release, status := .passed, sha := gateSha
                          summary := some "release verification passed" }]
        release := some release }
    else
      let reason := textOr decision.reason "release verification failed (T034)"
      let reason := match decision.rollbackSignal with
        | some signal => s!"{reason}; rollback: {signal}"
        | none => reason
      let failed := resultOfCheckpoint checkpoint .blocked (.stop .blocked reason) now
      .ok { failed with
        gateResults := [{ gate := .release, status := .failed, sha := gateSha, summary := decision.reason }]
        release := some release }

/-- A resolution completes the attempt of its checkpoint and never leaves it waiting. -/
theorem buildReleaseResolution_ok {checkpoint result : StageResult} {observation : ReleaseObservation}
    {now : Timestamp} (built : buildReleaseResolution checkpoint observation now = .ok result) :
    result.stage = checkpoint.stage ∧ result.runId = checkpoint.runId ∧
      result.attemptNumber = checkpoint.attemptNumber ∧ result.inputRevision = checkpoint.inputRevision ∧
      result.status ≠ .waiting := by
  unfold buildReleaseResolution at built
  by_cases unresolved : (!releaseResolved (some observation)) = true
  · simp [unresolved] at built
  · rw [if_neg unresolved] at built
    dsimp only at built
    by_cases released : (evaluateRelease (withPinnedDigest checkpoint observation)).status = .released
    · rw [if_pos released] at built
      cases built
      exact ⟨rfl, rfl, rfl, rfl, by simp [resultOfCheckpoint]⟩
    · rw [if_neg released] at built
      cases built
      exact ⟨rfl, rfl, rfl, rfl, by simp [resultOfCheckpoint]⟩

end DarkFactory
