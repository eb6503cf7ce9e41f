import DarkFactory.Lib.Trace
import DarkFactory.Lib.Utf8
import DarkFactory.Scm.Agent

namespace DarkFactory

inductive ArtifactError
  | conflict (path : String) (baseRevision : Option String) (headRevision : String)
  | port (exception : String)
  deriving DecidableEq, Repr

def ArtifactError.text : ArtifactError → String
  | .conflict path baseRevision headRevision =>
    path ++ " changed after revision " ++ (baseRevision.filter (· ≠ "")).getD "<none>" ++ ": the branch head is now " ++
      headRevision ++ "; reload the document and re-apply the edit"
  | .port exception => exception

def editEffect : String := "artifact-edit"

/-- Of a save without a key of the caller's. -/
def editEffectKey (changeId path content : String) (baseRevision : Option String) : String :=
  let digest := String.ofList ((Sha256.hex (baseRevision.getD "" ++ "\n" ++ content)).take 24)
  editEffect ++ ":" ++ changeId ++ ":" ++ path ++ ":" ++ digest

structure ArtifactWrite where
  path : String
  revision : String
  previousRevision : Option String
  deriving DecidableEq, Repr

structure ArtifactEdit where
  path : String
  content : String
  baseRevision : Option String := none
  actor : String
  idempotencyKey : Option String := none
  message : Option String := none
  deriving DecidableEq, Repr

structure ArtifactService where
  branchPrefix : String := "factory"
  isalnum : Char → Bool := Char.isAlphanum

/-! ## The service -/

namespace ArtifactService

variable (service : ArtifactService) (product : RepositoryRef) (changeId : String) (repo : FakeRepository)

def branchOf : String := branchName service.isalnum changeId service.branchPrefix

def head : Option String := (repo.getRevision product (service.branchOf changeId)).toOption

def read (revision path : String) : Option String := (repo.readFile product revision path).toOption.map Utf8.decode

def branchKey : String := editEffect ++ ":" ++ changeId ++ ":branch"

def openBranch : Except String (String × FakeRepository) :=
  match service.head product changeId repo with
  | some head => .ok (head, repo)
  | none => do
    let base ← repo.getRevision product "main"
    return repo.ensureBranch product (service.branchOf changeId) base (branchKey changeId)

variable (edit : ArtifactEdit)

def editKey : String :=
  (edit.idempotencyKey.filter (· ≠ "")).getD (editEffectKey changeId edit.path edit.content edit.baseRevision)

def editMessage : String :=
  (edit.message.filter (· ≠ "")).getD ("docs(" ++ changeId ++ "): edit " ++ edit.path ++ " by " ++ edit.actor)

def editFiles : FileSet := (∅ : FileSet).insert edit.path (Utf8.encode edit.content)

/-- What is read at the stated base is not what is read at the head. -/
def conflicting (head : String) (current : Option String) : Bool :=
  match edit.baseRevision with
  | some base => base ≠ head && read product repo base edit.path ≠ current
  | none => false

def publishEdit : Except String (String × FakeRepository) :=
  repo.publishCommit product (service.branchOf changeId) (editFiles edit) (editMessage changeId edit)
    (editKey changeId edit)

def write : Except ArtifactError ArtifactWrite × FakeRepository :=
  match service.openBranch product changeId repo with
  | .error exception => (.error (.port exception), repo)
  | .ok (head, opened) =>
    let current := read product opened head edit.path
    if current = some edit.content then
      (.ok { path := edit.path, revision := head, previousRevision := some head }, opened)
    else if conflicting product opened edit head current then
      (.error (.conflict edit.path edit.baseRevision head), opened)
    else
      match service.publishEdit product changeId opened edit with
      | .error exception => (.error (.port exception), opened)
      | .ok (revision, published) =>
        (.ok { path := edit.path, revision, previousRevision := some head }, published)

def afterWrite : FakeRepository := (service.write product changeId repo edit).2

/-- The revision is the head of the branch, and the text read there is what was submitted. -/
structure Landed (written : ArtifactWrite) : Prop where
  revision : service.head product changeId repo = some written.revision
  content : read product repo written.revision edit.path = some edit.content

def Saves : Prop :=
  ∀ written after, service.write product changeId repo edit = (.ok written, after) →
    service.Landed product changeId after edit written

/-- The branch stands where the text is at its head already, and the key is new where the text is published. -/
def LandsAt (opened : FakeRepository) (head : String) : Prop :=
  let current := read product opened head edit.path
  (current = some edit.content → service.head product changeId opened = some head) ∧
    (current ≠ some edit.content → conflicting product opened edit head current = false →
      opened.commitKeys.lookup (editKey changeId edit) = none)

instance (opened : FakeRepository) (head : String) : Decidable (service.LandsAt product changeId edit opened head) :=
  inferInstanceAs (Decidable ((_ → _) ∧ (_ → _ → _)))

def LandsAnew : Prop :=
  ∀ head opened, service.openBranch product changeId repo = .ok (head, opened) →
    service.LandsAt product changeId edit opened head

instance : Decidable (service.LandsAnew product changeId repo edit) :=
  match opening : service.openBranch product changeId repo with
  | .ok (head, opened) => decidable_of_iff (service.LandsAt product changeId edit opened head) (by
      simp only [LandsAnew, opening, Except.ok.injEq, Prod.mk.injEq, and_imp, forall_eq', forall_apply_eq_imp_iff])
  | .error _ => isTrue fun _ _ done => by rw [opening] at done; cases done

end ArtifactService

/-! ## Revisions and branches apart -/

def FakeRepository.NamesApart (product : RepositoryRef) (repo : FakeRepository) : Prop :=
  ∀ n, repo.branches.lookup (product, commitName n) = none

theorem branchName_slash (isalnum : Char → Bool) (id front : String) : '/' ∈ (branchName isalnum id front).toList := by
  simp [branchName]

theorem commitName_slash (n : Nat) : '/' ∉ (commitName n).toList := by
  intro member
  simp only [commitName, String.toList_append, String.toList_ofList, List.mem_append, List.mem_replicate] at member
  rcases member with head | ⟨-, zero⟩ | digits
  · exact absurd head (by decide)
  · exact absurd zero (by decide)
  · exact absurd (Nat.isDigit_of_mem_toDigits (by decide) (by decide) digits) (by decide)

theorem commitName_ne_branchName (n : Nat) (isalnum : Char → Bool) (id front : String) :
    commitName n ≠ branchName isalnum id front := by
  intro same
  have slash := branchName_slash isalnum id front
  rw [← same] at slash
  exact commitName_slash n slash

namespace FakeRepository

variable {repo : FakeRepository} {product : RepositoryRef} {isalnum : Char → Bool} {id front : String}

theorem NamesApart.insert (apart : repo.NamesApart product) (head : String) (n : Nat) :
    (repo.branches.insert (product, branchName isalnum id front) head).lookup (product, commitName n) = none := by
  have other : (product, commitName n) ≠ (product, branchName isalnum id front) := by
    intro same
    exact commitName_ne_branchName n isalnum id front (congrArg Prod.snd same)
  rw [AList.lookup_insert_ne other]
  exact apart n

theorem NamesApart.ensureBranch (apart : repo.NamesApart product) (fromRevision key : String) :
    (repo.ensureBranch product (branchName isalnum id front) fromRevision key).2.NamesApart product := by
  unfold FakeRepository.ensureBranch
  cases repo.branchKeys.lookup key with
  | some replayed => exact apart
  | none => exact fun n => apart.insert _ n

theorem NamesApart.publishCommit {after : FakeRepository} {changes : FileSet} {message key sha : String}
    (apart : repo.NamesApart product)
    (done : repo.publishCommit product (branchName isalnum id front) changes message key = .ok (sha, after)) :
    after.NamesApart product := by
  rcases publishCommit_cases done with ⟨-, rfl⟩ | ⟨-, parent, made⟩
  · exact apart
  · rw [show after = _ from congrArg Prod.snd made]
    exact fun n => apart.insert _ n

theorem readFile_commit {sha path : String} {record : CommitRecord} (apart : repo.branches.lookup (product, sha) = none)
    (held : repo.commits.lookup sha = some record) :
    (repo.readFile product sha path).toOption = record.files.lookup path := by
  have known : sha ∈ repo.commits := by
    rw [← AList.lookup_isSome, held]
    rfl
  have resolved : repo.resolve product sha = .ok sha := by
    simp [resolve, apart, known]
  unfold readFile
  rw [resolved]
  cases there : record.files.lookup path <;>
    simp [commitFiles, held, there, Bind.bind, Except.bind, Pure.pure, Except.pure, Except.toOption, throw, throwThe,
      MonadExceptOf.throw]

end FakeRepository

/-! ## What a save does -/

namespace ArtifactService

variable {service : ArtifactService} {product : RepositoryRef} {changeId : String} {repo opened : FakeRepository}
  {edit : ArtifactEdit} {at_ : String}

theorem head_eq (service : ArtifactService) (product : RepositoryRef) (changeId : String) (repo : FakeRepository) :
    service.head product changeId repo = repo.branches.lookup (product, service.branchOf changeId) := by
  unfold head FakeRepository.getRevision
  cases repo.branches.lookup (product, service.branchOf changeId) <;> rfl

/-- The branch stands at the revision, or is missing though its key is known. -/
theorem openBranch_cases (done : service.openBranch product changeId repo = .ok (at_, opened)) :
    opened.commits = repo.commits ∧ opened.commitKeys = repo.commitKeys ∧
      (service.head product changeId opened = some at_ ∨ service.head product changeId opened = none) := by
  unfold openBranch at done
  cases standing : service.head product changeId repo with
  | some head =>
    simp only [standing, Except.ok.injEq, Prod.mk.injEq] at done
    obtain ⟨rfl, rfl⟩ := done
    exact ⟨rfl, rfl, Or.inl standing⟩
  | none =>
    simp only [standing] at done
    obtain ⟨base, -, made⟩ := Outcome.bind_ok.mp done
    have made := Outcome.pure_ok.mp made
    have kept := @ensureBranch_commits repo product (service.branchOf changeId) base (branchKey changeId)
    rw [made] at kept
    refine ⟨kept.1, kept.2, ?_⟩
    unfold FakeRepository.ensureBranch at made
    cases known : repo.branchKeys.lookup (branchKey changeId) with
    | some replayed =>
      simp only [known, Prod.mk.injEq] at made
      rw [← made.2]
      exact Or.inr standing
    | none =>
      simp only [known, Prod.mk.injEq] at made
      obtain ⟨rfl, rfl⟩ := made
      rw [head_eq]
      exact Or.inl (AList.lookup_insert _)

theorem openBranch_apart (apart : repo.NamesApart product)
    (done : service.openBranch product changeId repo = .ok (at_, opened)) : opened.NamesApart product := by
  unfold openBranch at done
  cases standing : service.head product changeId repo with
  | some head =>
    simp only [standing, Except.ok.injEq, Prod.mk.injEq] at done
    exact done.2 ▸ apart
  | none =>
    simp only [standing] at done
    obtain ⟨base, -, made⟩ := Outcome.bind_ok.mp done
    rw [show opened = _ from (congrArg Prod.snd (Outcome.pure_ok.mp made)).symm]
    exact apart.ensureBranch base (branchKey changeId)

/-- A save that returns found its content at the head, or published it there or under a key it had before. -/
theorem write_ok {written : ArtifactWrite} {after : FakeRepository} :
    service.write product changeId repo edit = (.ok written, after) ↔
      ∃ head opened, service.openBranch product changeId repo = .ok (head, opened) ∧
        (read product opened head edit.path = some edit.content ∧ after = opened ∧
            written = { path := edit.path, revision := head, previousRevision := some head } ∨
          read product opened head edit.path ≠ some edit.content ∧
            conflicting product opened edit head (read product opened head edit.path) = false ∧
            ∃ revision, service.publishEdit product changeId opened edit = .ok (revision, after) ∧
              written = { path := edit.path, revision, previousRevision := some head }) := by
  unfold write
  cases opening : service.openBranch product changeId repo with
  | error exception => simp
  | ok found =>
    obtain ⟨head, opened⟩ := found
    simp only [Except.ok.injEq, Prod.mk.injEq, existsAndEq, and_true, true_and]
    by_cases there : read product opened head edit.path = some edit.content
    · rw [if_pos there]
      simp only [there, Prod.mk.injEq, Except.ok.injEq, true_and, ne_eq, not_true_eq_false, false_and, or_false]
      exact ⟨fun done => ⟨done.2.symm, done.1.symm⟩, fun done => ⟨done.2.symm, done.1.symm⟩⟩
    · rw [if_neg there]
      cases refused : conflicting product opened edit head (read product opened head edit.path) with
      | true => simp [there]
      | false =>
        cases published : service.publishEdit product changeId opened edit with
        | error exception => simp [there]
        | ok made =>
          simp only [there, Prod.mk.injEq, Except.ok.injEq, false_and, not_false_eq_true, true_and, ne_eq, false_or,
            Bool.false_eq_true, if_false]
          constructor
          · rintro ⟨rfl, rfl⟩
            exact ⟨made.1, rfl, rfl⟩
          · rintro ⟨revision, rfl, rfl⟩
            exact ⟨rfl, rfl⟩

theorem publishEdit_landed {revision : String} {after : FakeRepository} (apart : opened.NamesApart product)
    (fresh : opened.commitKeys.lookup (editKey changeId edit) = none)
    (done : service.publishEdit product changeId opened edit = .ok (revision, after)) :
    service.head product changeId after = some revision ∧
      read product after revision edit.path = some edit.content := by
  have apartAfter : after.NamesApart product := apart.publishCommit done
  rcases publishCommit_cases done with ⟨known, -⟩ | ⟨-, parent, made⟩
  · rw [fresh] at known
    cases known
  · obtain ⟨rfl, rfl⟩ := Prod.mk.inj made
    have head : service.head product changeId
        (opened.commitOn product (service.branchOf changeId) (editFiles edit) (editMessage changeId edit)
          (editKey changeId edit) parent).2 = some (commitName (opened.nextCommit + 1)) := by
      rw [head_eq]
      exact AList.lookup_insert _
    refine ⟨head, ?_⟩
    have member : edit.path ∈ editFiles edit := (AList.mem_insert _).mpr (Or.inl rfl)
    have held : (editFiles edit ∪ opened.parentFiles parent).lookup edit.path = some (Utf8.encode edit.content) :=
      (AList.lookup_union_left member).trans (AList.lookup_insert _)
    unfold read
    rw [FakeRepository.readFile_commit (apartAfter _) (AList.lookup_insert _), held, Option.map_some,
      Utf8.decode_encode]

/-- A known key returns its commit and leaves the branch. -/
theorem publishEdit_replayed {revision : String} (known : opened.commitKeys.lookup (editKey changeId edit) = some revision) :
    service.publishEdit product changeId opened edit = .ok (revision, opened) := by
  have files : (editFiles edit).keys.isEmpty = false := by
    simp [editFiles]
  unfold publishEdit FakeRepository.publishCommit
  simp [files, known]

theorem saves_iff (apart : repo.NamesApart product) :
    service.Saves product changeId repo edit ↔ service.LandsAnew product changeId repo edit := by
  constructor
  · intro saves head opened opening
    obtain ⟨-, -, standing⟩ := openBranch_cases opening
    constructor
    · intro there
      exact (saves _ _ (write_ok.mpr ⟨head, opened, opening, Or.inl ⟨there, rfl, rfl⟩⟩)).revision
    · intro absent accepted
      by_contra seen
      obtain ⟨replayed, known⟩ := Option.ne_none_iff_exists'.mp seen
      have landed := saves _ _ (write_ok.mpr ⟨head, opened, opening,
        Or.inr ⟨absent, accepted, replayed, publishEdit_replayed known, rfl⟩⟩)
      have moved : service.head product changeId opened = some replayed := landed.revision
      rcases standing with there | missing
      · rw [there, Option.some.injEq] at moved
        subst moved
        exact absent landed.content
      · rw [missing] at moved
        cases moved
  · intro condition written after done
    obtain ⟨head, opened, opening, outcome⟩ := write_ok.mp done
    obtain ⟨stands, fresh⟩ := condition head opened opening
    rcases outcome with ⟨there, rfl, rfl⟩ | ⟨absent, accepted, revision, published, rfl⟩
    · exact ⟨stands there, there⟩
    · obtain ⟨moved, content⟩ := publishEdit_landed (openBranch_apart apart opening) (fresh absent accepted) published
      exact ⟨moved, content⟩

theorem afterWrite_apart (apart : repo.NamesApart product) :
    (service.afterWrite product changeId repo edit).NamesApart product := by
  unfold afterWrite write
  cases opening : service.openBranch product changeId repo with
  | error exception => exact apart
  | ok found =>
    obtain ⟨head, opened⟩ := found
    have kept := openBranch_apart apart opening
    dsimp only
    split
    · exact kept
    · split
      · exact kept
      · cases published : service.publishEdit product changeId opened edit with
        | error exception => exact kept
        | ok made => exact kept.publishCommit published

variable (service product changeId)

def EverySaves (repo : FakeRepository) (edits : List ArtifactEdit) : Prop :=
  ∀ earlier edit later, edits = earlier ++ edit :: later →
    service.Saves product changeId (earlier.foldl (service.afterWrite product changeId) repo) edit

theorem saved_edits_iff (repo : FakeRepository) (apart : repo.NamesApart product) (edits : List ArtifactEdit) :
    service.EverySaves product changeId repo edits ↔
      Trace.Along (service.afterWrite product changeId) (service.LandsAnew product changeId) repo edits := by
  have same : Trace.Along (service.afterWrite product changeId) (service.Saves product changeId) repo edits ↔
      Trace.Along (service.afterWrite product changeId) (service.LandsAnew product changeId) repo edits :=
    Trace.along_congr_under (fun _ _ kept _ => afterWrite_apart kept) (fun _ _ kept => saves_iff kept) apart
  exact Trace.along_iff_at.symm.trans same

end ArtifactService

/-! ## A text that returns -/

def shopProduct : RepositoryRef := { provider := .github, slug := "acme/shop" }

def startedRepo : FakeRepository where
  branches := (∅ : Dict (RepositoryRef × String) String).insert (shopProduct, "main") "base"

theorem startedRepo_apart : startedRepo.NamesApart shopProduct := by
  intro n
  have other : (shopProduct, commitName n) ≠ (shopProduct, "main") := by
    intro same
    have first := congrArg (fun place => place.2.toList.head?) same
    simp [commitName] at first
  exact AList.lookup_insert_ne other

def specEdit (content : String) : ArtifactEdit := { path := "spec.md", content, actor := "alice" }

theorem two_texts_saved :
    ({} : ArtifactService).EverySaves shopProduct "CHG-1" startedRepo [specEdit "x", specEdit "y"] :=
  (ArtifactService.saved_edits_iff {} shopProduct "CHG-1" startedRepo startedRepo_apart _).mpr
    ⟨by decide +kernel, by decide +kernel, trivial⟩

/-- The third save returns the first commit while the head holds the second text. -/
theorem returned_text_not_saved :
    ¬ ({} : ArtifactService).EverySaves shopProduct "CHG-1" startedRepo [specEdit "x", specEdit "y", specEdit "x"] := by
  intro every
  have last := every [specEdit "x", specEdit "y"] (specEdit "x") [] rfl
  have condition := (ArtifactService.saves_iff (ArtifactService.afterWrite_apart
    (ArtifactService.afterWrite_apart startedRepo_apart))).mp last
  revert condition
  decide +kernel

end DarkFactory
