import DarkFactory.Lib.Outcome
import DarkFactory.Scm.Fakes

namespace DarkFactory

abbrev Ports := EStateM String Scm

def boundary (raised : Option String) : Ports Unit :=
  match raised with
  | some exception => throw exception
  | none => pure ()

section Calls

variable (raised : Option String) (repository : RepositoryRef) (branch : String)

def askRevision : Ports String := do
  boundary raised
  let scm ← get
  Outcome.lift (scm.repository.getRevision repository branch)

def askBranch (fromRevision key : String) : Ports Unit := do
  boundary raised
  modify fun scm => { scm with repository := (scm.repository.ensureBranch repository branch fromRevision key).2 }

def askCommit (changes : FileSet) (message key : String) : Ports String := do
  boundary raised
  Outcome.perform fun scm => do
    let (sha, repository) ← scm.repository.publishCommit repository branch changes message key
    return (sha, { scm with repository })

def askExisting (changeId : String) : Ports (Option ChangeRequestRef) := do
  boundary raised
  let scm ← get
  Outcome.lift (scm.requests.findExisting repository changeId)

def askOpen (request : OpenChangeRequest) (key : String) : Ports ChangeRequestRef := do
  boundary raised
  Outcome.perform fun scm => do
    let (opened, requests) ← scm.requests.openRequest request key
    return (opened, { scm with requests })

end Calls

/-! ## What the calls do -/

section Specs

variable {raised : Option String} {repository : RepositoryRef} {branch : String} {scm after : Scm}

theorem boundary_ok {value : Unit} : boundary raised scm = .ok value after ↔ raised = none ∧ after = scm := by
  unfold boundary
  cases raised with
  | none => simp [Outcome.state_pure_ok, eq_comm]
  | some exception => simp [Outcome.state_throw_ok]

theorem boundary_bind {α : Type} {rest : Ports α} {value : α} :
    (do boundary raised; rest) scm = .ok value after ↔ raised = none ∧ rest scm = .ok value after := by
  constructor
  · intro done
    obtain ⟨_, between, passed, moved⟩ := Outcome.state_bind_ok.mp done
    obtain ⟨quiet, rfl⟩ := boundary_ok.mp passed
    exact ⟨quiet, moved⟩
  · rintro ⟨quiet, moved⟩
    exact Outcome.state_bind_ok.mpr ⟨(), scm, boundary_ok.mpr ⟨quiet, rfl⟩, moved⟩

theorem askRevision_ok {head : String} : askRevision raised repository branch scm = .ok head after ↔
    raised = none ∧ scm.repository.getRevision repository branch = .ok head ∧ after = scm := by
  unfold askRevision
  rw [boundary_bind, Outcome.state_get_bind, Outcome.lift_ok, eq_comm (a := scm)]

theorem askBranch_ok {fromRevision key : String} {value : Unit} :
    askBranch raised repository branch fromRevision key scm = .ok value after ↔ raised = none ∧
      after = { scm with repository := (scm.repository.ensureBranch repository branch fromRevision key).2 } := by
  unfold askBranch
  rw [boundary_bind, Outcome.state_modify_ok]

theorem askCommit_ok {changes : FileSet} {message key sha : String} :
    askCommit raised repository branch changes message key scm = .ok sha after ↔ raised = none ∧ ∃ made,
      scm.repository.publishCommit repository branch changes message key = .ok (sha, made) ∧
        after = { scm with repository := made } := by
  unfold askCommit
  rw [boundary_bind, Outcome.perform_ok, Outcome.bind_ok]
  constructor
  · rintro ⟨quiet, ⟨named, made⟩, committing, finish⟩
    cases finish
    exact ⟨quiet, made, committing, rfl⟩
  · rintro ⟨quiet, made, committing, rfl⟩
    exact ⟨quiet, (sha, made), committing, rfl⟩

theorem askExisting_ok {changeId : String} {found : Option ChangeRequestRef} :
    askExisting raised repository changeId scm = .ok found after ↔
      raised = none ∧ scm.requests.findExisting repository changeId = .ok found ∧ after = scm := by
  unfold askExisting
  rw [boundary_bind, Outcome.state_get_bind, Outcome.lift_ok, eq_comm (a := scm)]

theorem askOpen_ok {request : OpenChangeRequest} {key : String} {opened : ChangeRequestRef} :
    askOpen raised request key scm = .ok opened after ↔ raised = none ∧ ∃ requests,
      scm.requests.openRequest request key = .ok (opened, requests) ∧ after = { scm with requests } := by
  unfold askOpen
  rw [boundary_bind, Outcome.perform_ok, Outcome.bind_ok]
  constructor
  · rintro ⟨quiet, ⟨named, requests⟩, opening, finish⟩
    cases finish
    exact ⟨quiet, requests, opening, rfl⟩
  · rintro ⟨quiet, requests, opening, rfl⟩
    exact ⟨quiet, (opened, requests), opening, rfl⟩

end Specs

/-! ## What the calls keep -/

def Grows (before after : FakeRepository) : Prop :=
  ∀ sha record, before.commits.lookup sha = some record → after.commits.lookup sha = some record

theorem Grows.refl (repo : FakeRepository) : Grows repo repo := fun _ _ found => found

theorem Grows.trans {first second third : FakeRepository} (left : Grows first second) (right : Grows second third) :
    Grows first third :=
  fun sha record found => right sha record (left sha record found)

section Repository

variable {repo : FakeRepository} {repository : RepositoryRef} {branch fromRevision key : String}

theorem ensureBranch_commits :
    (repo.ensureBranch repository branch fromRevision key).2.commits = repo.commits ∧
      (repo.ensureBranch repository branch fromRevision key).2.commitKeys = repo.commitKeys := by
  unfold FakeRepository.ensureBranch
  cases repo.branchKeys.lookup key <;> exact ⟨rfl, rfl⟩

theorem nextCommit_fresh (repo : FakeRepository) : commitName (repo.nextCommit + 1) ∉ repo.commits := by
  intro taken
  obtain ⟨n, bound, named⟩ := repo.numbered _ taken
  have same := commitName_injective named
  omega

variable {changes : FileSet} {message parent sha : String}

theorem commitOn_grows (repo : FakeRepository) (repository : RepositoryRef) (branch : String) (changes : FileSet)
    (message key parent : String) : Grows repo (repo.commitOn repository branch changes message key parent).2 := by
  intro sha record found
  have apart : sha ≠ commitName (repo.nextCommit + 1) := by
    rintro rfl
    have taken : commitName (repo.nextCommit + 1) ∈ repo.commits := by
      rw [← AList.lookup_isSome, found]
      rfl
    exact nextCommit_fresh repo taken
  exact (AList.lookup_insert_ne apart).trans found

theorem publishCommit_cases {after : FakeRepository}
    (done : repo.publishCommit repository branch changes message key = .ok (sha, after)) :
    (repo.commitKeys.lookup key = some sha ∧ after = repo) ∨
      (repo.commitKeys.lookup key = none ∧ ∃ parent,
        (sha, after) = repo.commitOn repository branch changes message key parent) := by
  unfold FakeRepository.publishCommit at done
  split at done
  · cases done
  · cases seen : repo.commitKeys.lookup key with
    | some replayed =>
      simp only [seen, Except.ok.injEq, Prod.mk.injEq] at done
      exact Or.inl ⟨congrArg some done.1, done.2.symm⟩
    | none =>
      simp only [seen] at done
      cases head : repo.branches.lookup (repository, branch) with
      | none => simp [head] at done
      | some parent =>
        simp only [head, Except.ok.injEq] at done
        exact Or.inr ⟨rfl, parent, done.symm⟩

theorem publishCommit_returns (files : changes.keys ≠ []) :
    (∃ made, repo.publishCommit repository branch changes message key = .ok made) ↔
      repo.commitKeys.lookup key ≠ none ∨ repo.branches.lookup (repository, branch) ≠ none := by
  unfold FakeRepository.publishCommit
  rw [if_neg (by simpa using files)]
  cases repo.commitKeys.lookup key with
  | some replayed => simp
  | none => cases repo.branches.lookup (repository, branch) <;> simp

theorem publishCommit_grows {after : FakeRepository}
    (done : repo.publishCommit repository branch changes message key = .ok (sha, after)) : Grows repo after := by
  rcases publishCommit_cases done with ⟨-, rfl⟩ | ⟨-, parent, same⟩
  · exact Grows.refl _
  · rw [show after = _ from congrArg Prod.snd same]
    exact commitOn_grows repo repository branch changes message key parent

theorem commitOn_holds {path : String} (member : path ∈ changes) :
    ∃ tree, (repo.commitOn repository branch changes message key parent).2.commitFiles
        (repo.commitOn repository branch changes message key parent).1 = some tree ∧
      tree.lookup path = changes.lookup path := by
  refine ⟨changes ∪ repo.parentFiles parent, ?_, AList.lookup_union_left member⟩
  simp [FakeRepository.commitFiles, FakeRepository.commitOn]

theorem commitOn_reads {path : String} {content : List UInt8} (given : changes.lookup path = some content) :
    (repo.commitOn repository branch changes message key parent).2.readFile repository branch path = .ok content := by
  have member : path ∈ changes := by
    rw [← AList.lookup_isSome, given]
    rfl
  have tree : (changes ∪ repo.parentFiles parent).lookup path = some content :=
    (AList.lookup_union_left member).trans given
  simp [FakeRepository.readFile, FakeRepository.resolve, FakeRepository.commitFiles, FakeRepository.commitOn, tree,
    Bind.bind, Except.bind, Pure.pure, Except.pure]

end Repository

section Requests

variable {requests after : FakeMergeRequests} {repository : RepositoryRef} {changeId key : String}
  {opening : OpenChangeRequest} {request : ChangeRequestRef}

theorem findExisting_cases (there : requests.findExisting repository changeId = .ok (some request)) :
    ∃ place record, requests.byChange.lookup (repository, changeId) = some place ∧
      requests.records.lookup place = some record ∧ request = record.ref := by
  unfold FakeMergeRequests.findExisting at there
  cases listed : requests.byChange.lookup (repository, changeId) with
  | none => simp [listed] at there
  | some place =>
    cases held : requests.records.lookup place with
    | none => simp [listed, held] at there
    | some record =>
      simp only [listed, held, Except.ok.injEq, Option.some.injEq] at there
      exact ⟨place, record, rfl, held, there.symm⟩

theorem findExisting_none (there : requests.findExisting repository changeId = .ok none) :
    requests.byChange.lookup (repository, changeId) = none := by
  unfold FakeMergeRequests.findExisting at there
  cases listed : requests.byChange.lookup (repository, changeId) with
  | none => rfl
  | some place => cases held : requests.records.lookup place <;> simp [listed, held] at there

theorem openRequest_cases (done : requests.openRequest opening key = .ok (request, after)) :
    (∃ place record, requests.openKeys.lookup key = some place ∧ requests.records.lookup place = some record ∧
      request = record.ref ∧ after = requests) ∨
    (requests.openKeys.lookup key = none ∧ ∃ record,
      after.records.lookup (record.repository, record.number) = some record ∧ request = record.ref ∧
        record.status = .open) := by
  unfold FakeMergeRequests.openRequest at done
  cases known : requests.openKeys.lookup key with
  | some place =>
    cases held : requests.records.lookup place with
    | none => simp [known, held] at done
    | some record =>
      simp only [known, held, Except.ok.injEq, Prod.mk.injEq] at done
      exact Or.inl ⟨place, record, rfl, held, done.1.symm, done.2.symm⟩
  | none =>
    simp only [known, Except.ok.injEq, Prod.mk.injEq] at done
    obtain ⟨rfl, rfl⟩ := done
    exact Or.inr ⟨rfl, _, AList.lookup_insert _, rfl, rfl⟩

end Requests

def CommitsKept (before after : Scm) : Prop := Grows before.repository after.repository

theorem CommitsKept.refl (scm : Scm) : CommitsKept scm scm := Grows.refl _

theorem CommitsKept.trans {first second third : Scm} (left : CommitsKept first second)
    (right : CommitsKept second third) : CommitsKept first third := Grows.trans left right

section Kept

variable (raised : Option String) (repository : RepositoryRef) (branch : String)

theorem boundary_within : Outcome.Within CommitsKept (boundary raised) := by
  unfold boundary
  cases raised with
  | none => exact Outcome.within_pure CommitsKept.refl ()
  | some exception => exact Outcome.within_throw CommitsKept.refl exception

theorem askBranch_within (fromRevision key : String) :
    Outcome.Within CommitsKept (askBranch raised repository branch fromRevision key) := by
  refine Outcome.within_bind CommitsKept.trans (boundary_within raised) fun _ => ?_
  refine Outcome.within_modify fun scm => ?_
  intro sha record found
  rw [ensureBranch_commits.1]
  exact found

theorem askCommit_within (changes : FileSet) (message key : String) :
    Outcome.Within CommitsKept (askCommit raised repository branch changes message key) := by
  refine Outcome.within_bind CommitsKept.trans (boundary_within raised) fun _ => ?_
  refine Outcome.within_perform CommitsKept.refl fun scm sha after done => ?_
  obtain ⟨⟨made, repository⟩, committing, finish⟩ := Outcome.bind_ok.mp done
  cases finish
  exact publishCommit_grows committing

theorem askExisting_within (changeId : String) :
    Outcome.Within CommitsKept (askExisting raised repository changeId) :=
  Outcome.within_bind CommitsKept.trans (boundary_within raised) fun _ =>
    Outcome.within_bind CommitsKept.trans (Outcome.within_get CommitsKept.refl) fun _ =>
      Outcome.within_lift CommitsKept.refl _

theorem askOpen_within (request : OpenChangeRequest) (key : String) :
    Outcome.Within CommitsKept (askOpen raised request key) := by
  refine Outcome.within_bind CommitsKept.trans (boundary_within raised) fun _ => ?_
  refine Outcome.within_perform CommitsKept.refl fun scm opened after done => ?_
  obtain ⟨⟨made, requests⟩, opening, finish⟩ := Outcome.bind_ok.mp done
  cases finish
  exact Grows.refl _

end Kept

theorem findExisting_returns (requests : FakeMergeRequests) (repository : RepositoryRef) (changeId : String) :
    ∃ found, requests.findExisting repository changeId = .ok found := by
  unfold FakeMergeRequests.findExisting
  cases there : requests.byChange.lookup (repository, changeId) with
  | none => exact ⟨none, rfl⟩
  | some place =>
    have known := AList.lookup_isSome.mpr (requests.changes_recorded _ _ there)
    obtain ⟨record, held⟩ := Option.isSome_iff_exists.mp known
    exact ⟨some record.ref, by simp [held]⟩

theorem openRequest_returns (requests : FakeMergeRequests) (request : OpenChangeRequest) (key : String) :
    ∃ made, requests.openRequest request key = .ok made := by
  unfold FakeMergeRequests.openRequest
  cases there : requests.openKeys.lookup key with
  | none => exact ⟨_, rfl⟩
  | some place =>
    have known := AList.lookup_isSome.mpr (requests.keys_recorded _ _ there)
    obtain ⟨record, held⟩ := Option.isSome_iff_exists.mp known
    exact ⟨(record.ref, requests), by simp [held]⟩

end DarkFactory
