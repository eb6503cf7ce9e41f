import DarkFactory.Lib.Trace
import DarkFactory.Scm.Agent

namespace DarkFactory

def HoldsWork (repo : FakeRepository) (attempt : AgentAttempt) (sha : String) : Prop :=
  ∀ path ∈ attempt.collected, ∃ tree, repo.commitFiles sha = some tree ∧
    tree.lookup path = attempt.collected.lookup path

theorem HoldsWork.mono {before after : FakeRepository} {attempt : AgentAttempt} {sha : String}
    (held : HoldsWork before attempt sha) (grows : Grows before after) : HoldsWork after attempt sha := by
  intro path member
  obtain ⟨tree, found, same⟩ := held path member
  obtain ⟨record, there, rfl⟩ := Option.map_eq_some_iff.mp found
  exact ⟨record.files, by rw [FakeRepository.commitFiles, grows sha record there]; rfl, same⟩

namespace AgentAttempt

variable (executor : AgentStageExecutor) (attempt : AgentAttempt)

def afterAttempt (scm : Scm) (attempt : AgentAttempt) : Scm := (attempt.execute executor scm).2

def Requestable (scm : Scm) : Prop :=
  attempt.raises .openRequest = none ∨ ∃ request,
    scm.requests.findExisting attempt.product attempt.context.change.id = .ok (some request) ∧ request.status = .open

structure Delivers (scm : Scm) : Prop where
  accepted : attempt.refusal = none
  produced : attempt.harnessOk = true
  collects : attempt.collected.keys ≠ []
  prepared : attempt.raises .prepareWorkspace = none
  ran : attempt.raises .harness = none
  read : attempt.raises .collectChanges = none
  branched : attempt.raises .ensureBranch = none
  published : attempt.raises .publishCommit = none
  looked : attempt.raises .findExisting = none
  requested : attempt.Requestable scm
  parsed : attempt.raises .parseOutput = none

def KeyServes (scm : Scm) (attempt : AgentAttempt) : Prop :=
  attempt.Delivers scm → ∀ sha, scm.repository.commitKeys.lookup (attempt.commitKey executor) = some sha →
    HoldsWork scm.repository attempt sha

/-- An attempt that parks with collected files names a revision that holds them, then and ever after. -/
def Reports (scm : Scm) (attempt : AgentAttempt) (later : List AgentAttempt) : Prop :=
  (attempt.execute executor scm).1.status = .waiting → attempt.collected.keys ≠ [] →
    ∀ artifact ∈ (attempt.execute executor scm).1.artifacts, ∃ sha, artifact.revision = some sha ∧
      ∀ more rest, later = more ++ rest →
        HoldsWork (more.foldl (afterAttempt executor) (attempt.execute executor scm).2).repository attempt sha

section Grows

theorem publishedUnderReview_within : Outcome.Within CommitsKept attempt.publishedUnderReview := by
  unfold publishedUnderReview
  split
  · exact Outcome.within_pure CommitsKept.refl _
  · refine Outcome.within_bind CommitsKept.trans (askExisting_within _ _ _) fun found => ?_
    cases found with
    | none => exact Outcome.within_pure CommitsKept.refl _
    | some request =>
      dsimp only
      split <;> exact Outcome.within_pure CommitsKept.refl _

theorem changeRequest_within (sha : String) : Outcome.Within CommitsKept (attempt.changeRequest executor sha) := by
  refine Outcome.within_bind CommitsKept.trans (askExisting_within _ _ _) fun found => ?_
  cases found.filter fun request => request.status = .open with
  | some request => exact Outcome.within_pure CommitsKept.refl _
  | none => exact askOpen_within _ _ _

theorem publish_within : Outcome.Within CommitsKept (attempt.publish executor) := by
  refine Outcome.within_bind CommitsKept.trans (boundary_within _) fun _ => ?_
  split
  · exact attempt.publishedUnderReview_within
  · refine Outcome.within_bind CommitsKept.trans (askBranch_within _ _ _ _ _) fun _ => ?_
    refine Outcome.within_bind CommitsKept.trans (askCommit_within _ _ _ _ _ _) fun sha => ?_
    refine Outcome.within_bind CommitsKept.trans (attempt.changeRequest_within executor sha) fun request => ?_
    exact Outcome.within_pure CommitsKept.refl _

theorem run_within : Outcome.Within CommitsKept (attempt.run executor) := by
  refine Outcome.within_bind CommitsKept.trans (boundary_within _) fun _ => ?_
  refine Outcome.within_bind CommitsKept.trans (boundary_within _) fun _ => ?_
  split
  · exact Outcome.within_pure CommitsKept.refl _
  · refine Outcome.within_bind CommitsKept.trans (attempt.publish_within executor) fun published => ?_
    cases published with
    | none => exact Outcome.within_pure CommitsKept.refl _
    | some work =>
      exact Outcome.within_bind CommitsKept.trans (boundary_within _) fun _ => Outcome.within_pure CommitsKept.refl _

theorem execute_grows (scm : Scm) : CommitsKept scm (attempt.execute executor scm).2 := by
  have within := attempt.run_within executor scm
  unfold execute
  cases attempt.refusal with
  | some reason => exact CommitsKept.refl scm
  | none =>
    cases ran : attempt.run executor scm with
    | ok result after =>
      rw [ran] at within
      exact within
    | error exception after =>
      rw [ran] at within
      exact within

theorem foldl_grows (later : List AgentAttempt) (scm : Scm) :
    CommitsKept scm (later.foldl (afterAttempt executor) scm) := by
  induction later generalizing scm with
  | nil => exact CommitsKept.refl scm
  | cons attempt rest ih => exact (attempt.execute_grows executor scm).trans (ih _)

end Grows

section Delivery

def ensured (scm : Scm) : FakeRepository :=
  (scm.repository.ensureBranch attempt.product (attempt.branch executor) attempt.revision
    (effectKey attempt.identity "branch" (attempt.branch executor))).2

theorem changeRequest_inv {scm after : Scm} {sha : String} {request : ChangeRequestRef}
    (done : attempt.changeRequest executor sha scm = .ok request after) :
    attempt.raises .findExisting = none ∧ attempt.Requestable scm ∧ after.repository = scm.repository := by
  unfold changeRequest at done
  obtain ⟨found, between, looked, moved⟩ := Outcome.state_bind_ok.mp done
  obtain ⟨quiet, there, rfl⟩ := askExisting_ok.mp looked
  cases chosen : found.filter fun request => request.status = .open with
  | some held =>
    rw [chosen] at moved
    obtain ⟨rfl, rfl⟩ := Outcome.state_pure_ok.mp moved
    obtain ⟨same, isOpen⟩ := Option.filter_eq_some_iff.mp chosen
    rw [same] at there
    exact ⟨quiet, Or.inr ⟨held, there, by simpa using isOpen⟩, rfl⟩
  | none =>
    rw [chosen] at moved
    obtain ⟨free, requests, -, rfl⟩ := askOpen_ok.mp moved
    exact ⟨quiet, Or.inl free, rfl⟩

theorem changeRequest_returns {scm : Scm} (sha : String) (quiet : attempt.raises .findExisting = none)
    (able : attempt.Requestable scm) :
    ∃ request after, attempt.changeRequest executor sha scm = .ok request after := by
  obtain ⟨found, there⟩ := findExisting_returns scm.requests attempt.product attempt.context.change.id
  have looked : attempt.existing scm = .ok found scm := askExisting_ok.mpr ⟨quiet, there, rfl⟩
  unfold changeRequest
  rw [Outcome.state_bind_eq looked]
  cases chosen : found.filter fun request => request.status = .open with
  | some held => exact ⟨held, scm, rfl⟩
  | none =>
    have free : attempt.raises .openRequest = none := by
      rcases able with free | ⟨request, known, isOpen⟩
      · exact free
      · rw [there, Except.ok.injEq] at known
        simp [known, isOpen] at chosen
    obtain ⟨⟨request, requests⟩, opened⟩ := openRequest_returns scm.requests
      { repository := attempt.product, changeId := attempt.context.change.id, sourceBranch := attempt.branch executor
        targetBranch := executor.targetBranch, title := attempt.context.change.title, headSha := sha }
      (effectKey attempt.identity "change_request" (attempt.branch executor))
    exact ⟨request, { scm with requests }, askOpen_ok.mpr ⟨free, requests, opened, rfl⟩⟩

/-- A publication with files: what it got past, and the commit its artifact names. -/
theorem publish_inv {scm after : Scm} {published : Option (List ArtifactRef × ChangeRequestRef)}
    (done : attempt.publish executor scm = .ok published after) (files : attempt.collected.keys ≠ []) :
    (attempt.raises .collectChanges = none ∧ attempt.raises .ensureBranch = none ∧
      attempt.raises .publishCommit = none ∧ attempt.raises .findExisting = none ∧ attempt.Requestable scm) ∧
    ∃ sha request, (attempt.ensured executor scm).publishCommit attempt.product (attempt.branch executor)
        attempt.collected attempt.message (attempt.commitKey executor) = .ok (sha, after.repository) ∧
      published = some ([attempt.artifact request (some sha) attempt.role], request) := by
  unfold publish at done
  obtain ⟨read, moved⟩ := boundary_bind.mp done
  rw [if_neg (by simpa using files)] at moved
  obtain ⟨_, branched, ensuring, rest⟩ := Outcome.state_bind_ok.mp moved
  obtain ⟨sha, committed, committing, asking⟩ := Outcome.state_bind_ok.mp rest
  obtain ⟨request, requested, naming, finish⟩ := Outcome.state_bind_ok.mp asking
  obtain ⟨rfl, rfl⟩ := Outcome.state_pure_ok.mp finish
  obtain ⟨branchQuiet, rfl⟩ := askBranch_ok.mp ensuring
  obtain ⟨commitQuiet, repository, made, rfl⟩ := askCommit_ok.mp committing
  obtain ⟨looked, able, kept⟩ := attempt.changeRequest_inv executor naming
  refine ⟨⟨read, branchQuiet, commitQuiet, looked, able⟩, sha, request, ?_, rfl⟩
  rw [kept]
  exact made

theorem execute_inv {scm : Scm} (parked : (attempt.execute executor scm).1.status = .waiting)
    (files : attempt.collected.keys ≠ []) :
    attempt.Delivers scm ∧ ∃ sha request,
      (attempt.ensured executor scm).publishCommit attempt.product (attempt.branch executor) attempt.collected
        attempt.message (attempt.commitKey executor) = .ok (sha, (attempt.execute executor scm).2.repository) ∧
      (attempt.execute executor scm).1.artifacts = [attempt.artifact request (some sha) attempt.role] := by
  unfold execute at parked ⊢
  cases refused : attempt.refusal with
  | some reason => simp [refused, blocked] at parked
  | none =>
    cases ran : attempt.run executor scm with
    | error exception after => simp [refused, ran, blocked] at parked
    | ok result after =>
      simp only [refused, ran] at parked ⊢
      obtain ⟨prepared, moved⟩ := boundary_bind.mp ran
      obtain ⟨harness, worked⟩ := boundary_bind.mp moved
      split at worked
      · obtain ⟨rfl, -⟩ := Outcome.state_pure_ok.mp worked
        cases parked
      · rename_i produced
        obtain ⟨published, _, publishing, finish⟩ := Outcome.state_bind_ok.mp worked
        obtain ⟨⟨read, branched, committed, looked, able⟩, sha, request, made, rfl⟩ :=
          attempt.publish_inv executor publishing files
        obtain ⟨parsed, returned⟩ := boundary_bind.mp finish
        obtain ⟨rfl, rfl⟩ := Outcome.state_pure_ok.mp returned
        refine ⟨⟨refused, by simpa using produced, files, prepared, harness, read, branched, committed, looked, able,
          parsed⟩, sha, request, made, rfl⟩

/-- An attempt whose commit key is known parks with the commit recorded under it and commits nothing. -/
theorem execute_replays {scm : Scm} {sha : String} (delivers : attempt.Delivers scm)
    (seen : scm.repository.commitKeys.lookup (attempt.commitKey executor) = some sha) :
    (attempt.execute executor scm).1.status = .waiting ∧ ∃ request,
      (attempt.execute executor scm).1.artifacts = [attempt.artifact request (some sha) attempt.role] ∧
        (attempt.execute executor scm).2.repository.commits = scm.repository.commits := by
  have known : (attempt.ensured executor scm).commitKeys.lookup (attempt.commitKey executor) = some sha := by
    rw [ensured, ensureBranch_commits.2]
    exact seen
  have replay : (attempt.ensured executor scm).publishCommit attempt.product (attempt.branch executor)
      attempt.collected attempt.message (attempt.commitKey executor) = .ok (sha, attempt.ensured executor scm) := by
    unfold FakeRepository.publishCommit
    rw [if_neg (by simpa using delivers.collects), known]
  let between : Scm := { scm with repository := attempt.ensured executor scm }
  have branched : attempt.ensureBranch executor scm = .ok () between :=
    askBranch_ok.mpr ⟨delivers.branched, rfl⟩
  have committed : attempt.publishCommit executor between = .ok sha between :=
    askCommit_ok.mpr ⟨delivers.published, attempt.ensured executor scm, replay, rfl⟩
  have able : attempt.Requestable between := delivers.requested
  obtain ⟨request, after, asked⟩ := attempt.changeRequest_returns executor sha delivers.looked able
  have ran : attempt.run executor scm =
      .ok (attempt.waiting executor [attempt.artifact request (some sha) attempt.role] request) after := by
    refine boundary_bind.mpr ⟨delivers.prepared, boundary_bind.mpr ⟨delivers.ran, ?_⟩⟩
    rw [if_neg (by simp [delivers.produced])]
    refine Outcome.state_bind_ok.mpr ⟨some ([attempt.artifact request (some sha) attempt.role], request), after, ?_,
      boundary_bind.mpr ⟨delivers.parsed, rfl⟩⟩
    refine boundary_bind.mpr ⟨delivers.read, ?_⟩
    rw [if_neg (by simpa using delivers.collects), Outcome.state_bind_eq branched, Outcome.state_bind_eq committed,
      Outcome.state_bind_eq asked]
    rfl
  have kept := (attempt.changeRequest_inv executor asked).2.2
  have done : attempt.execute executor scm =
      (attempt.waiting executor [attempt.artifact request (some sha) attempt.role] request, after) := by
    simp only [execute, delivers.accepted, ran]
  rw [done]
  refine ⟨rfl, request, rfl, ?_⟩
  rw [kept]
  exact ensureBranch_commits.1

end Delivery

section Left

def collects : Bool :=
  attempt.refusal.isNone && (attempt.raises .prepareWorkspace).isNone && (attempt.raises .harness).isNone &&
    attempt.harnessOk && (attempt.raises .collectChanges).isNone && !attempt.collected.keys.isEmpty &&
    (attempt.raises .ensureBranch).isNone

def RepositoryKept (before after : Scm) : Prop := after.repository = before.repository

theorem RepositoryKept.refl (scm : Scm) : RepositoryKept scm scm := rfl

theorem RepositoryKept.trans {first second third : Scm} (left : RepositoryKept first second)
    (right : RepositoryKept second third) : RepositoryKept first third := Eq.trans right left

theorem boundary_keeps (raised : Option String) : Outcome.Within RepositoryKept (boundary raised) := by
  unfold boundary
  cases raised with
  | none => exact Outcome.within_pure RepositoryKept.refl ()
  | some exception => exact Outcome.within_throw RepositoryKept.refl exception

theorem existing_keeps : Outcome.Within RepositoryKept attempt.existing :=
  Outcome.within_bind RepositoryKept.trans (boundary_keeps _) fun _ => Outcome.within_bind RepositoryKept.trans
    (Outcome.within_get RepositoryKept.refl) fun _ => Outcome.within_lift RepositoryKept.refl _

theorem underReview_keeps : Outcome.Within RepositoryKept attempt.publishedUnderReview := by
  unfold publishedUnderReview
  split
  · exact Outcome.within_pure RepositoryKept.refl _
  · refine Outcome.within_bind RepositoryKept.trans attempt.existing_keeps fun found => ?_
    cases found with
    | none => exact Outcome.within_pure RepositoryKept.refl _
    | some request =>
      dsimp only
      split <;> exact Outcome.within_pure RepositoryKept.refl _

theorem changeRequest_keeps (sha : String) :
    Outcome.Within RepositoryKept (attempt.changeRequest executor sha) := by
  refine Outcome.within_bind RepositoryKept.trans attempt.existing_keeps fun found => ?_
  cases found.filter fun request => request.status = .open with
  | some request => exact Outcome.within_pure RepositoryKept.refl _
  | none =>
    refine Outcome.within_bind RepositoryKept.trans (boundary_keeps _) fun _ => Outcome.within_perform RepositoryKept.refl ?_
    intro scm opened after done
    obtain ⟨made, -, finish⟩ := Outcome.bind_ok.mp done
    cases finish
    rfl

def repositoryOf {α : Type} : EStateM.Result String Scm α → FakeRepository
  | .ok _ after => after.repository
  | .error _ after => after.repository

theorem repositoryOf_kept {α : Type} {x : Ports α} (kept : Outcome.Within RepositoryKept x) (scm : Scm) :
    repositoryOf (x scm) = scm.repository := by
  cases ran : x scm with
  | ok value after => exact kept.ok ran
  | error exception after => exact kept.error ran

theorem repositoryOf_bind {α β : Type} {x : Ports α} {rest : α → Ports β}
    (kept : ∀ value, Outcome.Within RepositoryKept (rest value)) (scm : Scm) :
    repositoryOf ((x >>= rest) scm) = repositoryOf (x scm) := by
  cases ran : x scm with
  | ok value after =>
    rw [Outcome.state_bind_eq ran]
    exact repositoryOf_kept (kept value) after
  | error exception after =>
    rw [Outcome.state_bind_error ran]
    rfl

theorem repositoryOf_boundary {α : Type} {rest : Ports α} (raised : Option String) (scm : Scm) :
    repositoryOf ((do boundary raised; rest) scm) = if raised.isNone then repositoryOf (rest scm) else scm.repository := by
  cases raised <;> rfl

theorem execute_repository (scm : Scm) :
    (attempt.execute executor scm).2.repository =
      if attempt.refusal.isNone then repositoryOf (attempt.run executor scm) else scm.repository := by
  unfold execute
  cases attempt.refusal with
  | some reason => rfl
  | none =>
    dsimp only
    cases attempt.run executor scm <;> rfl

theorem run_repository (scm : Scm) :
    repositoryOf (attempt.run executor scm) =
      if (attempt.raises .prepareWorkspace).isNone && (attempt.raises .harness).isNone && attempt.harnessOk then
        repositoryOf (attempt.publish executor scm)
      else scm.repository := by
  unfold run
  rw [repositoryOf_boundary, repositoryOf_boundary]
  cases (attempt.raises .prepareWorkspace).isNone
  · rfl
  · cases (attempt.raises .harness).isNone
    · rfl
    · cases attempt.harnessOk
      · rfl
      · refine repositoryOf_bind (fun published => ?_) scm
        cases published with
        | none => exact Outcome.within_pure RepositoryKept.refl _
        | some work => exact Outcome.within_bind RepositoryKept.trans (boundary_keeps _) fun _ =>
            Outcome.within_pure RepositoryKept.refl _

theorem publish_repository (scm : Scm) :
    repositoryOf (attempt.publish executor scm) =
      if (attempt.raises .collectChanges).isNone && !attempt.collected.keys.isEmpty &&
          (attempt.raises .ensureBranch).isNone then
        repositoryOf (attempt.publishCommit executor { scm with repository := attempt.ensured executor scm })
      else scm.repository := by
  unfold publish
  rw [repositoryOf_boundary]
  cases (attempt.raises .collectChanges).isNone
  · rfl
  · cases attempt.collected.keys.isEmpty
    · have later (sha : String) : Outcome.Within RepositoryKept (do
          let request ← attempt.changeRequest executor sha
          return some ([attempt.artifact request (some sha) attempt.role], request)) :=
        Outcome.within_bind RepositoryKept.trans (attempt.changeRequest_keeps executor sha) fun _ =>
          Outcome.within_pure RepositoryKept.refl _
      simp only [Bool.false_eq_true, if_false]
      unfold ensureBranch askBranch
      rw [bind_assoc, repositoryOf_boundary]
      cases (attempt.raises .ensureBranch).isNone
      · rfl
      · exact repositoryOf_bind later _
    · exact repositoryOf_kept attempt.underReview_keeps scm

theorem publishCommit_repository (scm : Scm) :
    repositoryOf (attempt.publishCommit executor scm) =
      match attempt.raises .publishCommit, scm.repository.publishCommit attempt.product (attempt.branch executor)
          attempt.collected attempt.message (attempt.commitKey executor) with
      | none, .ok (_, after) => after
      | _, _ => scm.repository := by
  unfold publishCommit askCommit
  rw [repositoryOf_boundary]
  cases attempt.raises .publishCommit with
  | some exception => rfl
  | none =>
    unfold Outcome.perform
    cases made : scm.repository.publishCommit attempt.product (attempt.branch executor) attempt.collected attempt.message
        (attempt.commitKey executor) with
    | error exception =>
      simp only [made, Bind.bind, Except.bind]
      rfl
    | ok made' =>
      simp only [made, Bind.bind, Except.bind]
      rfl

theorem execute_collects (scm : Scm) :
    (attempt.execute executor scm).2.repository =
      if attempt.collects then
        repositoryOf (attempt.publishCommit executor { scm with repository := attempt.ensured executor scm })
      else scm.repository := by
  rw [execute_repository, run_repository, publish_repository]
  unfold collects
  cases attempt.refusal.isNone
  · rfl
  · cases (attempt.raises .prepareWorkspace).isNone
    · rfl
    · cases (attempt.raises .harness).isNone
      · rfl
      · cases attempt.harnessOk
        · rfl
        · simp

end Left

/-- A report is true exactly when the commit key stands for the same work, or for none yet. -/
theorem reports_iff (scm : Scm) (later : List AgentAttempt) :
    attempt.Reports executor scm later ↔ KeyServes executor scm attempt := by
  constructor
  · intro reports delivers sha seen
    obtain ⟨parked, request, listed, kept⟩ := attempt.execute_replays executor delivers seen
    obtain ⟨named, same, held⟩ := reports parked delivers.collects _ (by rw [listed]; exact List.mem_singleton_self _)
    cases same
    intro path member
    obtain ⟨tree, found, equal⟩ := held [] later rfl path member
    refine ⟨tree, ?_, equal⟩
    rw [← found, List.foldl_nil, FakeRepository.commitFiles, FakeRepository.commitFiles, kept]
  · intro serves parked files artifact member
    obtain ⟨delivers, sha, request, committed, listed⟩ := attempt.execute_inv executor parked files
    rw [listed, List.mem_singleton] at member
    subst member
    have held : HoldsWork (attempt.execute executor scm).2.repository attempt sha := by
      rcases publishCommit_cases committed with ⟨seen, -⟩ | ⟨-, parent, made⟩
      · rw [ensured, ensureBranch_commits.2] at seen
        exact (serves delivers sha seen).mono (attempt.execute_grows executor scm)
      · intro path collected
        rw [show sha = _ from congrArg Prod.fst made, show (attempt.execute executor scm).2.repository = _ from
          congrArg Prod.snd made]
        exact commitOn_holds collected
    refine ⟨sha, rfl, ?_⟩
    rintro more rest -
    exact held.mono (foldl_grows executor more _)

/-- Over any sequence of attempts: every parked attempt reports its own work, for good, exactly when no attempt
    finds its commit key taken by other work. -/
theorem attempts_report_their_work (scm : Scm) (attempts : List AgentAttempt) :
    (∀ before attempt later, attempts = before ++ attempt :: later →
      attempt.Reports executor (before.foldl (afterAttempt executor) scm) later) ↔
    Trace.Along (afterAttempt executor) (KeyServes executor) scm attempts := by
  rw [Trace.along_iff_at]
  constructor
  · intro reports before attempt later split
    exact (attempt.reports_iff executor _ later).mp (reports before attempt later split)
  · intro serves before attempt later split
    exact (attempt.reports_iff executor _ later).mpr (serves before attempt later split)

end AgentAttempt

def specAttempt (number : Nat) (text : List UInt8) (failing : Option String) : AgentAttempt where
  context :=
    { change := { id := "change-1", title := "Export", riskClass := .r1 }
      stage := .specification, route := .standard, runId := "run-1", inputRevision := some "base"
      requiredGates := ∅, humanGates := ∅, budget := {}, attemptNumber := number }
  product := ⟨.github, "org/repo"⟩
  collected := AList.singleton "spec.md" text
  raises place := if place = .openRequest then failing else none

/-- The provider fails to open the request after the first commit; the retry writes another text, parks, and
    names the commit of the first one. -/
theorem retry_reports_first_commit :
    ¬ ∀ (executor : AgentStageExecutor) (scm : Scm) (attempts : List AgentAttempt),
      (∀ first ∈ attempts, ∀ second ∈ attempts, first.context.change = second.context.change ∧
        first.product = second.product) →
      ∀ before attempt later, attempts = before ++ attempt :: later →
        attempt.Reports executor (before.foldl (AgentAttempt.afterAttempt executor) scm) later := by
  intro always
  let first : AgentAttempt := specAttempt 1 [1] (some "ConnectionError")
  let retry : AgentAttempt := specAttempt 2 [2] none
  have reports := always {} {} [first, retry] (by simp [first, retry, specAttempt]) [first] retry [] rfl
  have observed : (retry.execute {} ([first].foldl (AgentAttempt.afterAttempt {}) {})).1.status = .waiting ∧
      (retry.execute {} ([first].foldl (AgentAttempt.afterAttempt {}) {})).1.artifacts.map ArtifactRef.revision =
        [some "c0001"] ∧
      ((retry.execute {} ([first].foldl (AgentAttempt.afterAttempt {}) {})).2.repository.commitFiles "c0001").map
        (·.lookup "spec.md") = some (some [1]) := by decide +kernel
  have work : retry.collected.lookup "spec.md" = some [2] := by decide
  have files : retry.collected.keys ≠ [] := by decide
  have collected : "spec.md" ∈ retry.collected := by decide
  unfold AgentAttempt.Reports at reports
  generalize retry.execute {} ([first].foldl (AgentAttempt.afterAttempt {}) {}) = done at observed reports
  obtain ⟨parked, revisions, content⟩ := observed
  have listed : some "c0001" ∈ done.1.artifacts.map ArtifactRef.revision := by
    rw [revisions]
    exact List.mem_singleton_self _
  obtain ⟨artifact, member, revision⟩ := List.mem_map.mp listed
  obtain ⟨sha, named, held⟩ := reports parked files artifact member
  rw [revision, Option.some.injEq] at named
  subst named
  obtain ⟨tree, found, same⟩ := held [] [] rfl "spec.md" collected
  rw [List.foldl_nil] at found
  rw [found, Option.map_some, Option.some.injEq, same, work] at content
  exact absurd content (by decide)

end DarkFactory
