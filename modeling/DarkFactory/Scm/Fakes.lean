import DarkFactory.Changes.Keys
import DarkFactory.Changes.Records
import Mathlib.Data.List.AList

namespace DarkFactory

abbrev Dict (κ α : Type) : Type := AList fun _ : κ => α

abbrev FileSet : Type := Dict String (List UInt8)

structure CommitRecord where
  message : String
  files : FileSet
  parent : String
  deriving DecidableEq

/-- The counter with at least four digits. -/
def commitName (n : Nat) : String :=
  let digits := Nat.toDigits 10 n
  "c" ++ String.ofList (List.replicate (4 - digits.length) '0' ++ digits)

theorem commitName_injective {n m : Nat} (same : commitName n = commitName m) : n = m := by
  simp only [commitName, String.append_right_inj, String.ofList_inj] at same
  have values := congrArg (fun digits => Nat.ofDigitChars 10 digits 0) same
  simpa [Nat.ofDigitChars_append] using values

theorem lookup_insert_mem {κ α β : Type} [DecidableEq κ] [DecidableEq α] {map : Dict κ α} {target : Dict α β} {key : κ}
    {place : α} {value : β} (held : ∀ k a, map.lookup k = some a → a ∈ target) (k : κ) (a : α)
    (found : (map.insert key place).lookup k = some a) : a ∈ target.insert place value := by
  by_cases here : k = key
  · subst here
    rw [AList.lookup_insert, Option.some.injEq] at found
    exact (AList.mem_insert _).mpr (Or.inl found.symm)
  · rw [AList.lookup_insert_ne here] at found
    exact (AList.mem_insert _).mpr (Or.inr (held k a found))

theorem lookup_insert_all {κ α : Type} [DecidableEq κ] {map : Dict κ α} {key : κ} {value : α} {holds : κ → α → Prop}
    (held : ∀ k a, map.lookup k = some a → holds k a) (new : holds key value) (k : κ) (a : α)
    (found : (map.insert key value).lookup k = some a) : holds k a := by
  by_cases here : k = key
  · subst here
    rw [AList.lookup_insert, Option.some.injEq] at found
    exact found ▸ new
  · rw [AList.lookup_insert_ne here] at found
    exact held k a found

theorem noCommits_numbered : ∀ sha ∈ (∅ : Dict String CommitRecord), ∃ n ≤ 0, sha = commitName n := by simp

theorem noCommits_recorded : ∀ key sha, (∅ : Dict String String).lookup key = some sha →
    sha ∈ (∅ : Dict String CommitRecord) := by simp

/-- The in-memory repository. Every commit has its number, and every commit key names a commit. -/
structure FakeRepository where
  branches : Dict (RepositoryRef × String) String := ∅
  branchKeys : Dict String String := ∅
  commits : Dict String CommitRecord := ∅
  commitKeys : Dict String String := ∅
  nextCommit : Nat := 0
  numbered : ∀ sha ∈ commits, ∃ n ≤ nextCommit, sha = commitName n := by
    first | exact noCommits_numbered | simp
  recorded : ∀ key sha, commitKeys.lookup key = some sha → sha ∈ commits := by
    first | exact noCommits_recorded | simp

namespace FakeRepository

variable (repo : FakeRepository) (repository : RepositoryRef) (branch : String)

def getRevision : Except String String :=
  match repo.branches.lookup (repository, branch) with
  | some head => .ok head
  | none => .error "KeyError"

/-- A replay returns the revision of the first call; an existing branch is left where it is. -/
def ensureBranch (fromRevision key : String) : String × FakeRepository :=
  match repo.branchKeys.lookup key with
  | some replayed => (replayed, repo)
  | none =>
    let head := (repo.branches.lookup (repository, branch)).getD fromRevision
    (head, { repo with
      branches := repo.branches.insert (repository, branch) head
      branchKeys := repo.branchKeys.insert key head })

def parentFiles (parent : String) : FileSet := ((repo.commits.lookup parent).map CommitRecord.files).getD ∅

def commitOn (changes : FileSet) (message key parent : String) : String × FakeRepository :=
  let sha := commitName (repo.nextCommit + 1)
  (sha, { repo with
    nextCommit := repo.nextCommit + 1
    commits := repo.commits.insert sha { message, files := changes ∪ repo.parentFiles parent, parent }
    branches := repo.branches.insert (repository, branch) sha
    commitKeys := repo.commitKeys.insert key sha
    numbered := by
      intro other member
      rcases (AList.mem_insert _).mp member with rfl | old
      · exact ⟨_, Nat.le_refl _, rfl⟩
      · obtain ⟨n, bound, named⟩ := repo.numbered other old
        exact ⟨n, Nat.le_succ_of_le bound, named⟩
    recorded := lookup_insert_mem repo.recorded })

/-- The files land on the head as one commit; a known key returns the commit recorded under it, whatever
    the changes. -/
def publishCommit (changes : FileSet) (message key : String) : Except String (String × FakeRepository) :=
  if changes.keys.isEmpty then .error "ValueError"
  else
    match repo.commitKeys.lookup key with
    | some replayed => .ok (replayed, repo)
    | none =>
      match repo.branches.lookup (repository, branch) with
      | none => .error "KeyError"
      | some parent => .ok (repo.commitOn repository branch changes message key parent)

def commitFiles (sha : String) : Option FileSet := (repo.commits.lookup sha).map CommitRecord.files

/-- A branch name, the sha of a commit, or the revision a branch stands at. -/
def resolve (ref : String) : Except String String :=
  match repo.branches.lookup (repository, ref) with
  | some head => .ok head
  | none =>
    if ref ∈ repo.commits || repo.branches.entries.any (fun entry => entry.2 = ref) then .ok ref
    else .error "KeyError"

def readFile (ref path : String) : Except String (List UInt8) := do
  let sha ← repo.resolve repository ref
  match ((repo.commitFiles sha).getD ∅).lookup path with
  | some content => return content
  | none => throw "KeyError"

end FakeRepository

structure ChangeRequestRecord where
  repository : RepositoryRef
  number : Nat
  changeId : String
  headSha : String
  status : ChangeRequestStatus := .open
  deriving DecidableEq, Repr

def ChangeRequestRecord.ref (record : ChangeRequestRecord) : ChangeRequestRef :=
  { repository := record.repository
    number := record.number
    url := some ("https://scm.fake/" ++ record.repository.slug ++ "/cr/" ++ toString record.number)
    status := record.status }

structure OpenChangeRequest where
  repository : RepositoryRef
  changeId : String
  sourceBranch : String
  targetBranch : String
  title : String
  headSha : String
  deriving DecidableEq, Repr

/-- The in-memory change requests; whatever names a request names a record, and a record stands where its
    reference points. -/
structure FakeMergeRequests where
  records : Dict (RepositoryRef × Nat) ChangeRequestRecord := ∅
  byChange : Dict (RepositoryRef × String) (RepositoryRef × Nat) := ∅
  openKeys : Dict String (RepositoryRef × Nat) := ∅
  numbers : Dict RepositoryRef Nat := ∅
  changes_recorded : ∀ change place, byChange.lookup change = some place → place ∈ records := by simp
  keys_recorded : ∀ key place, openKeys.lookup key = some place → place ∈ records := by simp
  placed : ∀ place record, records.lookup place = some record → place = (record.repository, record.number) := by simp

namespace FakeMergeRequests

variable (requests : FakeMergeRequests)

/-- A replay returns the request of the first call. -/
def openRequest (request : OpenChangeRequest) (key : String) : Except String (ChangeRequestRef × FakeMergeRequests) :=
  match requests.openKeys.lookup key with
  | some replayed =>
    match requests.records.lookup replayed with
    | some record => .ok (record.ref, requests)
    | none => .error "KeyError"
  | none =>
    let number := (requests.numbers.lookup request.repository).getD 0 + 1
    let record : ChangeRequestRecord :=
      { repository := request.repository, number, changeId := request.changeId, headSha := request.headSha }
    .ok (record.ref,
      { records := requests.records.insert (request.repository, number) record
        byChange := requests.byChange.insert (request.repository, request.changeId) (request.repository, number)
        openKeys := requests.openKeys.insert key (request.repository, number)
        numbers := requests.numbers.insert request.repository number
        changes_recorded := lookup_insert_mem requests.changes_recorded
        keys_recorded := lookup_insert_mem requests.keys_recorded
        placed := lookup_insert_all requests.placed rfl })

def findExisting (repository : RepositoryRef) (changeId : String) : Except String (Option ChangeRequestRef) :=
  match requests.byChange.lookup (repository, changeId) with
  | none => .ok none
  | some place =>
    match requests.records.lookup place with
    | some record => .ok (some record.ref)
    | none => .error "KeyError"

/-- Only at the head recorded when the request was opened; a replay changes nothing. -/
def merge (request : ChangeRequestRef) (expectedSha : String) : Except String FakeMergeRequests :=
  let place := (request.repository, request.number)
  match found : requests.records.lookup place with
  | none => .error "KeyError"
  | some record =>
    if record.headSha ≠ expectedSha then .error "HeadMismatchError"
    else if record.status = .merged then .ok requests
    else .ok { requests with
      records := requests.records.insert place { record with status := .merged }
      changes_recorded := fun change other listed =>
        (AList.mem_insert _).mpr (Or.inr (requests.changes_recorded change other listed))
      keys_recorded := fun key other listed =>
        (AList.mem_insert _).mpr (Or.inr (requests.keys_recorded key other listed))
      placed := lookup_insert_all requests.placed (requests.placed place record found) }

end FakeMergeRequests

structure Scm where
  repository : FakeRepository := {}
  requests : FakeMergeRequests := {}

end DarkFactory
