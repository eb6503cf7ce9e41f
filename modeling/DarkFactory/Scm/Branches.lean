import DarkFactory.Lib.Lines
import DarkFactory.Scm.Published
import Mathlib.Data.List.Forall2

namespace DarkFactory

/-! ## Ids that read alike -/

section Reading

variable (isalnum : Char → Bool)

/-- A character of an id that a branch name shows as a dash. -/
def Dashed (c : Char) : Prop := c = '-' ∨ (isalnum c || c = '.' || c = '_' || c = '-') = false

def loose (c : Char) : Bool := c = '.' || c = '-' || !(isalnum c || c = '.' || c = '_' || c = '-')

/-- The id between its loose ends; an id of loose characters only counts as the word `change`. -/
def core (id : String) : List Char :=
  let kept := Lines.strip (loose isalnum) id.toList
  if kept = [] then "change".toList else kept

def ReadAlike (left right : String) : Prop :=
  List.Forall₂ (fun c d => c = d ∨ Dashed isalnum c ∧ Dashed isalnum d) (core isalnum left) (core isalnum right)

instance (c : Char) : Decidable (Dashed isalnum c) := inferInstanceAs (Decidable (_ ∨ _))

instance (left right : String) : Decidable (ReadAlike isalnum left right) :=
  inferInstanceAs (Decidable (List.Forall₂ _ _ _))

def shownChar (c : Char) : Char := if isalnum c || c = '.' || c = '_' || c = '-' then c else '-'

end Reading

section Names

variable {isalnum : Char → Bool} {id left right head : String} {c d : Char}

theorem shownChar_dash : shownChar isalnum c = '-' ↔ Dashed isalnum c := by
  unfold shownChar Dashed
  by_cases kept : (isalnum c || c = '.' || c = '_' || c = '-') = true
  · simp [kept]
  · simp [kept]

theorem shownChar_loose : (shownChar isalnum c = '-' || shownChar isalnum c = '.') = loose isalnum c := by
  unfold shownChar loose
  by_cases kept : (isalnum c || c = '.' || c = '_' || c = '-') = true
  · rw [if_pos kept, kept, Bool.not_true, Bool.or_false, Bool.or_comm]
  · rw [if_neg kept]
    simp [kept]

theorem shownChar_kept (shown : shownChar isalnum c ≠ '-') : shownChar isalnum c = c := by
  by_cases kept : (isalnum c || c = '.' || c = '_' || c = '-') = true
  · exact if_pos kept
  · exact absurd (if_neg kept) shown

theorem shownChar_same : shownChar isalnum c = shownChar isalnum d ↔ c = d ∨ Dashed isalnum c ∧ Dashed isalnum d := by
  constructor
  · intro same
    by_cases dash : shownChar isalnum c = '-'
    · exact Or.inr ⟨shownChar_dash.mp dash, shownChar_dash.mp (same ▸ dash)⟩
    · have dash' : shownChar isalnum d ≠ '-' := by rwa [← same]
      rw [shownChar_kept dash, shownChar_kept dash'] at same
      exact Or.inl same
  · intro alike
    rcases alike with rfl | ⟨left, right⟩
    · rfl
    · rw [shownChar_dash.mpr left, shownChar_dash.mpr right]

/-- The word for an empty slug is made of letters. -/
def ReadsLetters (isalnum : Char → Bool) : Prop := ∀ c ∈ "change".toList, isalnum c = true

instance (isalnum : Char → Bool) : Decidable (ReadsLetters isalnum) :=
  decidable_of_iff ("change".toList.all isalnum = true) List.all_eq_true

theorem branchName_core (letters : ReadsLetters isalnum) : branchName isalnum id head =
    head ++ "/" ++ String.ofList ((core isalnum id).map (shownChar isalnum)) := by
  have slug : (((id.toList.map (shownChar isalnum)).dropWhile fun c => c = '-' || c = '.').reverse.dropWhile
      fun c => c = '-' || c = '.').reverse = (Lines.strip (loose isalnum) id.toList).map (shownChar isalnum) := by
    have edges : ((fun c : Char => c = '-' || c = '.') ∘ shownChar isalnum) = loose isalnum :=
      funext fun c => by simpa using shownChar_loose
    rw [List.dropWhile_map, edges, ← List.map_reverse, List.dropWhile_map, edges, ← List.map_reverse]
    rfl
  have word : "change".toList.map (shownChar isalnum) = "change".toList := by
    refine (List.map_congr_left fun c member => ?_).trans (List.map_id _)
    simp [shownChar, letters c member]
  unfold branchName core
  dsimp only
  congr 1
  rw [show (id.toList.map fun c => if (isalnum c || c = '.' || c = '_' || c = '-') = true then c else '-') =
    id.toList.map (shownChar isalnum) from rfl, slug, List.isEmpty_map]
  by_cases empty : Lines.strip (loose isalnum) id.toList = []
  · rw [if_pos empty, if_pos (by simp [empty]), word, String.ofList_toList]
  · rw [if_neg empty, if_neg (by simp [empty])]

/-- Two ids are given one branch exactly where they read alike. -/
theorem branchName_same (letters : ReadsLetters isalnum) :
    branchName isalnum left head = branchName isalnum right head ↔ ReadAlike isalnum left right := by
  rw [branchName_core letters, branchName_core letters, String.append_right_inj, String.ofList_inj,
    ← List.forall₂_eq_eq_eq, List.forall₂_map_left_iff, List.forall₂_map_right_iff]
  exact ⟨fun same => same.imp fun _ _ => shownChar_same.mp, fun alike => alike.imp fun _ _ => shownChar_same.mpr⟩

end Names

/-! ## What an attempt writes -/

namespace AgentAttempt

variable (executor : AgentStageExecutor) (attempt : AgentAttempt) (scm : Scm) {product : RepositoryRef} {name : String}

theorem ensured_branches (other : (product, name) ≠ (attempt.product, attempt.branch executor)) :
    (attempt.ensured executor scm).branches.lookup (product, name) = scm.repository.branches.lookup (product, name) := by
  unfold ensured FakeRepository.ensureBranch
  cases scm.repository.branchKeys.lookup (effectKey attempt.identity "branch" (attempt.branch executor)) with
  | some replayed => rfl
  | none => exact AList.lookup_insert_ne other

theorem publishCommit_branches (other : (product, name) ≠ (attempt.product, attempt.branch executor)) :
    (repositoryOf (attempt.publishCommit executor scm)).branches.lookup (product, name) =
      scm.repository.branches.lookup (product, name) := by
  rw [publishCommit_repository]
  split
  · rename_i sha after quiet made
    rcases publishCommit_cases made with ⟨-, rfl⟩ | ⟨-, parent, made⟩
    · rfl
    · rw [show after = _ from congrArg Prod.snd made]
      exact AList.lookup_insert_ne other
  · rfl

theorem execute_branches (other : (product, name) ≠ (attempt.product, attempt.branch executor)) :
    (attempt.execute executor scm).2.repository.branches.lookup (product, name) =
      scm.repository.branches.lookup (product, name) := by
  rw [execute_collects]
  split
  · rw [publishCommit_branches executor attempt _ other]
    exact ensured_branches executor attempt scm other
  · rfl

end AgentAttempt

/-! ## Branches of different changes -/

def BranchesApart (executor : AgentStageExecutor) (left right : String) : Prop :=
  branchName executor.isalnum left executor.branchPrefix ≠ branchName executor.isalnum right executor.branchPrefix ∧
    ∀ (attempts : List AgentAttempt) (scm : Scm) (product : RepositoryRef),
      (∀ attempt ∈ attempts, attempt.context.change.id = left) →
        (attempts.foldl (AgentAttempt.afterAttempt executor) scm).repository.branches.lookup
            (product, branchName executor.isalnum right executor.branchPrefix) =
          scm.repository.branches.lookup (product, branchName executor.isalnum right executor.branchPrefix)

variable {executor : AgentStageExecutor}

theorem attempts_keep_branch {attempts : List AgentAttempt} {name : String} (scm : Scm) (product : RepositoryRef)
    (apart : ∀ attempt ∈ attempts, attempt.branch executor ≠ name) :
    (attempts.foldl (AgentAttempt.afterAttempt executor) scm).repository.branches.lookup (product, name) =
      scm.repository.branches.lookup (product, name) := by
  induction attempts generalizing scm with
  | nil => rfl
  | cons attempt rest ih =>
    have other : (product, name) ≠ (attempt.product, attempt.branch executor) := fun same =>
      apart attempt List.mem_cons_self (congrArg Prod.snd same).symm
    rw [List.foldl_cons, ih _ fun later member => apart later (List.mem_cons_of_mem _ member)]
    exact attempt.execute_branches executor scm other

/-- Two changes have branches of their own exactly where their ids do not read alike. -/
theorem branches_apart_iff (letters : ReadsLetters executor.isalnum) (left right : String) :
    BranchesApart executor left right ↔ ¬ ReadAlike executor.isalnum left right := by
  rw [← branchName_same letters]
  constructor
  · intro apart
    exact apart.1
  · intro differ
    refine ⟨differ, fun attempts scm product ofLeft => ?_⟩
    apply attempts_keep_branch
    intro attempt member same
    apply differ
    rw [← same, AgentAttempt.branch, ofLeft attempt member]

theorem similar_ids_apart : BranchesApart {} "chg-1" "chg-2" :=
  (branches_apart_iff (by decide) "chg-1" "chg-2").mpr (by decide)

/-- A colon and a dash are one character of a branch. -/
theorem punctuation_shares_branch :
    ¬ ∀ (executor : AgentStageExecutor) (left right : String), ReadsLetters executor.isalnum → left ≠ right →
      BranchesApart executor left right := by
  intro apart
  have shared := (apart {} "team:a" "team-a" (by decide) (by decide)).1
  exact shared (by decide)

end DarkFactory
