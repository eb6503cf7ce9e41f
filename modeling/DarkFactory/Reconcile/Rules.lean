import DarkFactory.Changes.Run
import DarkFactory.Policy.Merge
import Mathlib.Data.String.Basic

namespace DarkFactory

inductive AnomalyKind
  | repeatedError | expiredLease | duplicateRuns | mergedCrWithoutRun | approvedPassedWithoutMerge | branchBehind
  deriving DecidableEq, Repr

inductive ReconcileActionKind
  | leaseTakeover | supersede | recordMerge | planMerge | waitForHuman | updateBranch | escalate
  deriving DecidableEq, Repr

def ReconcileActionKind.value : ReconcileActionKind → String
  | .leaseTakeover => "lease_takeover"
  | .supersede => "supersede"
  | .recordMerge => "record_merge"
  | .planMerge => "plan_merge"
  | .waitForHuman => "wait_for_human"
  | .updateBranch => "update_branch"
  | .escalate => "escalate"

structure ReconcileAction where
  kind : ReconcileActionKind
  anomaly : AnomalyKind
  runId : String
  reason : String
  mergedSha : Option String := none
  mergeMethod : Option String := none
  deriving DecidableEq, Repr

structure LeaseFacts where
  ownerId : String
  fencingToken : Nat
  expiresAt : Timestamp
  deriving DecidableEq, Repr

structure ChangeRequestFacts where
  status : ChangeRequestStatus
  headSha : Option String := none
  mergedSha : Option String := none
  deriving DecidableEq, Repr

structure BranchFacts where
  headSha : String
  baseSha : String
  behindCount : Int := 0
  deriving DecidableEq, Repr

structure ExternalFacts where
  changeRequest : Option ChangeRequestFacts := none
  branch : Option BranchFacts := none
  merge : Option MergeRequestContext := none
  deriving DecidableEq, Repr

structure RunFacts where
  runId : String
  changeId : String
  desiredStatus : RunStatus
  desiredRevision : Nat
  observedStatus : Option RunStatus := none
  lease : Option LeaseFacts := none
  activeSiblingIds : List String := []
  changeRequest : Option ChangeRequestFacts := none
  branch : Option BranchFacts := none
  merge : Option MergeRequestContext := none
  repeatedError : Bool := false
  repeatedErrorStage : Option String := none
  deriving DecidableEq, Repr

def activeRunStatus (status : RunStatus) : Bool :=
  status = .pending || status = .running || status = .waiting || status = .blocked

def waitingOnWork (status : RunStatus) : Bool := status = .running || status = .waiting

def skippedRunStatus (status : RunStatus) : Bool := status = .succeeded || status = .superseded

def detectRepeatedError (facts : RunFacts) : Option ReconcileAction :=
  if !facts.repeatedError || !waitingOnWork facts.desiredStatus then none
  else
    let stage := match facts.repeatedErrorStage with
      | some name => if name = "" then "" else s!" of stage {Text.repr name}"
      | none => ""
    some
      { kind := .escalate, anomaly := .repeatedError, runId := facts.runId
        reason := s!"repeated error: the same failure recurred on consecutive attempts{stage}; " ++
          "escalated to blocked for a human (ADR-006 p.7, ADR-018 p.5)" }

def detectExpiredLease (facts : RunFacts) (now : Timestamp) : Option ReconcileAction :=
  match facts.lease with
  | none => none
  | some lease =>
    if now < lease.expiresAt then none
    else some
      { kind := .leaseTakeover, anomaly := .expiredLease, runId := facts.runId
        reason := s!"lease of {Text.repr lease.ownerId} expired at {Text.isoformat lease.expiresAt} " ++
          s!"(fencing token {lease.fencingToken}); takeover with a fresh fencing token " ++ "(ADR-006 p.6)" }

/-- `min(run_id, *siblings)`. -/
def canonicalRun (runId : String) (siblings : List String) : String :=
  siblings.foldl (fun least id => if id < least then id else least) runId

def detectDuplicateRuns (facts : RunFacts) : Option ReconcileAction :=
  if !activeRunStatus facts.desiredStatus || facts.activeSiblingIds.isEmpty then none
  else
    let canonical := canonicalRun facts.runId facts.activeSiblingIds
    if facts.runId = canonical then none
    else some
      { kind := .supersede, anomaly := .duplicateRuns, runId := facts.runId
        reason := s!"duplicate active run of change {facts.changeId}: canonical run {canonical}; " ++
          "closed as superseded (ADR-006 p.5)" }

def detectMergedChangeRequest (facts : RunFacts) : Option ReconcileAction :=
  match facts.changeRequest with
  | none => none
  | some request =>
    if request.status ≠ .merged then none
    else if facts.desiredStatus = .succeeded then none
    else
      let merged := match request.mergedSha with
        | some sha => if sha = "" then "" else s!" (merge commit {sha})"
        | none => ""
      some
        { kind := .recordMerge, anomaly := .mergedCrWithoutRun, runId := facts.runId
          reason := s!"change request merged{merged} without a completed run: the merge fact is " ++
            "recorded in the authoritative state (ADR-006 p.5)"
          mergedSha := request.mergedSha }

/-- The merge policy is asked for the trusted finalizer, the only executor the pass may plan for. -/
def detectApprovedPassed (facts : RunFacts) (policy : MergePolicy) : Option ReconcileAction :=
  match facts.merge, facts.changeRequest with
  | some merge, some request =>
    if request.status ≠ .open || !waitingOnWork facts.desiredStatus then none
    else
      let decision := evaluateMerge { merge with executor := .trustedFinalizer } policy
      let planned (kind : ReconcileActionKind) (reason : String) : ReconcileAction :=
        { kind, anomaly := .approvedPassedWithoutMerge, runId := facts.runId, reason }
      match decision.kind with
      | .finalizerMergeAllowed =>
        let method := match decision.mergeMethod with
          | some name => if name = "" then "" else s!" via {name}"
          | none => ""
        some { planned .planMerge ("change request approved with gates passed but not merged: merge planned for " ++
          s!"the trusted finalizer{method} (FR-010, T-026)") with mergeMethod := decision.mergeMethod }
      | .blocked => some (planned .escalate
          s!"merge policy blocked the approved change request: {Text.shown decision.reason}")
      | .manualMergeRequired | .humanMergeAuthorized =>
        let reason := match decision.reason with
          | some text => if text = "" then "merge waits for the human (FR-010, ADR-011 p.2)" else text
          | none => "merge waits for the human (FR-010, ADR-011 p.2)"
        some (planned .waitForHuman reason)
  | _, _ => none

def detectBranchBehind (facts : RunFacts) : Option ReconcileAction :=
  match facts.branch with
  | none => none
  | some branch =>
    if branch.behindCount ≤ 0 || !waitingOnWork facts.desiredStatus then none
    else some
      { kind := .updateBranch, anomaly := .branchBehind, runId := facts.runId
        reason := s!"branch {branch.headSha} is {branch.behindCount} commit(s) behind base " ++
          s!"{branch.baseSha}: update planned for the provider wiring; a persistent " ++
          "failure resurfaces as a repeated error and escalates" }

def anomalyRules : List (RunFacts → Timestamp → MergePolicy → Option ReconcileAction) :=
  [fun facts _ _ => detectRepeatedError facts, fun facts now _ => detectExpiredLease facts now,
    fun facts _ _ => detectDuplicateRuns facts, fun facts _ _ => detectMergedChangeRequest facts,
    fun facts _ policy => detectApprovedPassed facts policy, fun facts _ _ => detectBranchBehind facts]

/-- At most one action: the first rule that fires wins. -/
def planAction (facts : RunFacts) (now : Timestamp) (policy : MergePolicy := defaultMergePolicy) :
    Option ReconcileAction :=
  if skippedRunStatus facts.desiredStatus then none
  else anomalyRules.findSome? fun detect => detect facts now policy

section Kinds

variable {facts : RunFacts} {now : Timestamp} {policy : MergePolicy} {action : ReconcileAction}

theorem detectRepeatedError_kind (found : detectRepeatedError facts = some action) : action.kind = .escalate := by
  unfold detectRepeatedError at found
  split at found
  · cases found
  · cases found
    rfl

theorem detectRepeatedError_working (found : detectRepeatedError facts = some action) :
    waitingOnWork facts.desiredStatus = true := by
  unfold detectRepeatedError at found
  split at found
  · cases found
  · rename_i working
    simp only [Bool.or_eq_true, not_or, Bool.not_eq_true', Bool.not_eq_false] at working
    exact working.2

theorem detectExpiredLease_kind (found : detectExpiredLease facts now = some action) :
    action.kind = .leaseTakeover := by
  unfold detectExpiredLease at found
  split at found
  · cases found
  · split at found
    · cases found
    · cases found
      rfl

theorem detectDuplicateRuns_kind (found : detectDuplicateRuns facts = some action) : action.kind = .supersede := by
  unfold detectDuplicateRuns at found
  split at found
  · cases found
  · dsimp only at found
    split at found
    · cases found
    · cases found
      rfl

theorem detectDuplicateRuns_active (found : detectDuplicateRuns facts = some action) :
    activeRunStatus facts.desiredStatus = true := by
  by_contra settled
  rw [Bool.not_eq_true] at settled
  simp [detectDuplicateRuns, settled] at found

theorem detectMergedChangeRequest_kind (found : detectMergedChangeRequest facts = some action) :
    action.kind = .recordMerge := by
  unfold detectMergedChangeRequest at found
  split at found
  · cases found
  · split at found
    · cases found
    · split at found
      · cases found
      · cases found
        rfl

theorem detectMergedChangeRequest_merged (found : detectMergedChangeRequest facts = some action) :
    ∃ request, facts.changeRequest = some request ∧ request.status = .merged := by
  unfold detectMergedChangeRequest at found
  split at found
  · cases found
  · rename_i request observed
    split at found
    · cases found
    · rename_i merged
      exact ⟨request, observed, not_not.mp merged⟩

theorem detectApprovedPassed_kind (found : detectApprovedPassed facts policy = some action) :
    action.kind ≠ .recordMerge ∧ action.kind ≠ .leaseTakeover := by
  unfold detectApprovedPassed at found
  split at found
  · split at found
    · cases found
    · dsimp only at found
      split at found <;> cases found <;> simp
  · cases found

theorem detectApprovedPassed_working (found : detectApprovedPassed facts policy = some action) :
    waitingOnWork facts.desiredStatus = true := by
  unfold detectApprovedPassed at found
  split at found
  · split at found
    · cases found
    · rename_i request merge_ open_
      simp only [Bool.or_eq_true, not_or, Bool.not_eq_true', Bool.not_eq_false] at open_
      exact open_.2
  · cases found

theorem detectBranchBehind_kind (found : detectBranchBehind facts = some action) : action.kind = .updateBranch := by
  unfold detectBranchBehind at found
  split at found
  · cases found
  · split at found
    · cases found
    · cases found
      rfl

theorem planAction_found (planned : planAction facts now policy = some action) :
    detectRepeatedError facts = some action ∨ detectExpiredLease facts now = some action ∨
      detectDuplicateRuns facts = some action ∨ detectMergedChangeRequest facts = some action ∨
      detectApprovedPassed facts policy = some action ∨ detectBranchBehind facts = some action := by
  unfold planAction at planned
  split at planned
  · cases planned
  · obtain ⟨detect, listed, found⟩ := List.exists_of_findSome?_eq_some planned
    simp only [anomalyRules, List.mem_cons, List.not_mem_nil, or_false] at listed
    rcases listed with rfl | rfl | rfl | rfl | rfl | rfl
    · exact Or.inl found
    · exact Or.inr (Or.inl found)
    · exact Or.inr (Or.inr (Or.inl found))
    · exact Or.inr (Or.inr (Or.inr (Or.inl found)))
    · exact Or.inr (Or.inr (Or.inr (Or.inr (Or.inl found))))
    · exact Or.inr (Or.inr (Or.inr (Or.inr (Or.inr found))))

theorem planAction_recordMerge (planned : planAction facts now policy = some action)
    (records : action.kind = .recordMerge) :
    ∃ request, facts.changeRequest = some request ∧ request.status = .merged := by
  rcases planAction_found planned with found | found | found | found | found | found
  · rw [detectRepeatedError_kind found] at records
    cases records
  · rw [detectExpiredLease_kind found] at records
    cases records
  · rw [detectDuplicateRuns_kind found] at records
    cases records
  · exact detectMergedChangeRequest_merged found
  · exact absurd records (detectApprovedPassed_kind found).1
  · rw [detectBranchBehind_kind found] at records
    cases records

theorem planAction_eq (live : skippedRunStatus facts.desiredStatus = false) :
    planAction facts now policy =
      (detectRepeatedError facts).or ((detectExpiredLease facts now).or ((detectDuplicateRuns facts).or
        ((detectMergedChangeRequest facts).or ((detectApprovedPassed facts policy).or (detectBranchBehind facts))))) := by
  rw [planAction, live, if_neg Bool.false_ne_true]
  simp only [anomalyRules, List.findSome?_cons, List.findSome?_nil]
  cases detectRepeatedError facts with
  | some => rfl
  | none =>
    cases detectExpiredLease facts now with
    | some => rfl
    | none =>
      cases detectDuplicateRuns facts with
      | some => rfl
      | none =>
        cases detectMergedChangeRequest facts with
        | some => rfl
        | none =>
          cases detectApprovedPassed facts policy with
          | some => rfl
          | none => cases detectBranchBehind facts <;> rfl

theorem detectExpiredLease_some {lease : LeaseFacts} (leased : facts.lease = some lease)
    (expired : lease.expiresAt ≤ now) :
    ∃ action, detectExpiredLease facts now = some action ∧ action.kind = .leaseTakeover := by
  simp [detectExpiredLease, leased, expired]

theorem detectExpiredLease_none (unleased : facts.lease = none) : detectExpiredLease facts now = none := by
  rw [detectExpiredLease, unleased]

theorem planAction_escalate (planned : planAction facts now policy = some action) (escalates : action.kind = .escalate) :
    waitingOnWork facts.desiredStatus = true := by
  rcases planAction_found planned with found | found | found | found | found | found
  · exact detectRepeatedError_working found
  · rw [detectExpiredLease_kind found] at escalates
    cases escalates
  · rw [detectDuplicateRuns_kind found] at escalates
    cases escalates
  · rw [detectMergedChangeRequest_kind found] at escalates
    cases escalates
  · exact detectApprovedPassed_working found
  · rw [detectBranchBehind_kind found] at escalates
    cases escalates

theorem planAction_takeover (planned : planAction facts now policy = some action)
    (takeover : action.kind = .leaseTakeover) : facts.lease ≠ none := by
  rcases planAction_found planned with found | found | found | found | found | found
  · rw [detectRepeatedError_kind found] at takeover
    cases takeover
  · intro unleased
    rw [detectExpiredLease_none unleased] at found
    cases found
  · rw [detectDuplicateRuns_kind found] at takeover
    cases takeover
  · rw [detectMergedChangeRequest_kind found] at takeover
    cases takeover
  · exact absurd takeover (detectApprovedPassed_kind found).2
  · rw [detectBranchBehind_kind found] at takeover
    cases takeover

theorem planAction_expired {lease : LeaseFacts} (live : skippedRunStatus facts.desiredStatus = false)
    (leased : facts.lease = some lease) (expired : lease.expiresAt ≤ now) :
    ∃ action, planAction facts now policy = some action ∧ (action.kind = .leaseTakeover ∨ action.kind = .escalate) := by
  rw [planAction_eq live]
  cases repeated : detectRepeatedError facts with
  | some action => exact ⟨action, rfl, Or.inr (detectRepeatedError_kind repeated)⟩
  | none =>
    obtain ⟨action, found, kind⟩ := detectExpiredLease_some leased expired
    refine ⟨action, ?_, Or.inl kind⟩
    rw [found]
    rfl

theorem planAction_timeless (unleased : facts.lease = none) (other : Timestamp) :
    planAction facts now policy = planAction facts other policy := by
  cases live : skippedRunStatus facts.desiredStatus with
  | true => rw [planAction, planAction, live, if_pos rfl, if_pos rfl]
  | false => rw [planAction_eq live, planAction_eq live, detectExpiredLease_none unleased, detectExpiredLease_none unleased]

theorem planAction_shrunk {other : RunFacts} {siblings : List String}
    (shrunk : other = { facts with activeSiblingIds := siblings }) (single : detectDuplicateRuns facts = none)
    (still : detectDuplicateRuns other = none) : planAction other now policy = planAction facts now policy := by
  have status : other.desiredStatus = facts.desiredStatus := by rw [shrunk]
  cases live : skippedRunStatus facts.desiredStatus with
  | true => rw [planAction, planAction, status, live, if_pos rfl, if_pos rfl]
  | false =>
    rw [planAction_eq live, planAction_eq (status ▸ live), single, still, shrunk]
    rfl

/-- The smallest run is not closed, however its siblings become fewer. -/
theorem canonicalRun_le (runId : String) (siblings : List String) : canonicalRun runId siblings ≤ runId := by
  unfold canonicalRun
  induction siblings generalizing runId with
  | nil => exact le_refl runId
  | cons id rest ih =>
    rw [List.foldl_cons]
    split
    · rename_i smaller
      exact (ih id).trans smaller.le
    · exact ih runId

theorem canonicalRun_eq_iff {runId : String} {siblings : List String} :
    canonicalRun runId siblings = runId ↔ ∀ id ∈ siblings, runId ≤ id := by
  unfold canonicalRun
  induction siblings with
  | nil => simp
  | cons id rest ih =>
    rw [List.foldl_cons, List.forall_mem_cons]
    by_cases smaller : id < runId
    · rw [if_pos smaller]
      constructor
      · intro same
        have bound := canonicalRun_le id rest
        rw [canonicalRun, same] at bound
        exact absurd smaller (not_lt.mpr bound)
      · rintro ⟨least, -⟩
        exact absurd smaller (not_lt.mpr least)
    · rw [if_neg smaller, ih]
      exact (and_iff_right (not_lt.mp smaller)).symm

theorem detectDuplicateRuns_none (active : activeRunStatus facts.desiredStatus = true) :
    detectDuplicateRuns facts = none ↔ ∀ id ∈ facts.activeSiblingIds, facts.runId ≤ id := by
  rw [← canonicalRun_eq_iff, detectDuplicateRuns, active]
  cases empty : facts.activeSiblingIds with
  | nil => simp [canonicalRun]
  | cons id rest => simp [eq_comm]

theorem planAction_duplicate (live : skippedRunStatus facts.desiredStatus = false) (unleased : facts.lease = none)
    (unescalated : (planAction facts now policy).map (·.kind) ≠ some .escalate)
    (duplicate : detectDuplicateRuns facts = some action) : planAction facts now policy = some action := by
  rw [planAction_eq live] at unescalated ⊢
  cases repeated : detectRepeatedError facts with
  | some other =>
    rw [repeated] at unescalated
    exact absurd (congrArg some (detectRepeatedError_kind repeated)) unescalated
  | none =>
    rw [detectExpiredLease_none unleased, duplicate]
    rfl

theorem detectDuplicateRuns_fewer {other : RunFacts} {siblings : List String}
    (shrunk : other = { facts with activeSiblingIds := siblings }) (fewer : siblings ⊆ facts.activeSiblingIds)
    (single : detectDuplicateRuns facts = none) : detectDuplicateRuns other = none := by
  subst shrunk
  by_cases active : activeRunStatus facts.desiredStatus = true
  · rw [detectDuplicateRuns_none active] at single
    apply (@detectDuplicateRuns_none { facts with activeSiblingIds := siblings } active).mpr
    intro id member
    exact single id (fewer member)
  · rw [Bool.not_eq_true] at active
    simp [detectDuplicateRuns, active]

end Kinds

end DarkFactory
