import DarkFactory.Scm.Fakes
import DarkFactory.Stages.Phases
import Mathlib.Data.List.Dedup
import Mathlib.Data.String.Basic

namespace DarkFactory

/-- A commit of a linear history with the files it leaves. -/
structure HistoryCommit where
  sha : String
  files : FileSet

def headFiles : List HistoryCommit → FileSet
  | [] => ∅
  | commit :: _ => commit.files

def touching (path : String) : List HistoryCommit → List HistoryCommit
  | [] => []
  | commit :: older =>
    if commit.files.lookup path ≠ (headFiles older).lookup path then commit :: touching path older
    else touching path older

inductive RepositoryAdapter | github | fake
  deriving DecidableEq, Repr

/-- `_PER_PAGE` of the provider, whose first page is all that is read; the fake answers in full. -/
def RepositoryAdapter.perPage : RepositoryAdapter → Option Nat
  | .github => some 100
  | .fake => none

def listCommits (adapter : RepositoryAdapter) (history : List HistoryCommit) (path : Option String) :
    List HistoryCommit :=
  let commits := match path with
    | none => history
    | some path => touching path history
  match adapter.perPage with
  | none => commits
  | some perPage => commits.take perPage

def latestCommits (adapter : RepositoryAdapter) (history : List HistoryCommit) (paths : List String) : List String :=
  (paths.filterMap fun path => (listCommits adapter history (some path)).head?.map HistoryCommit.sha).dedup

/-- `ArtifactService._latest_revision`: of several latest commits the first one the branch listing names, else the
    head. A branch that is not there has no history. -/
def latestRevision (adapter : RepositoryAdapter) (history : List HistoryCommit) (paths : List String) :
    Option String :=
  match history with
  | [] => none
  | head :: _ =>
    if paths.isEmpty then none
    else
      match latestCommits adapter history paths with
      | [] => none
      | [only] => some only
      | heads =>
        let named := (listCommits adapter history none).find? fun commit => commit.sha ∈ heads
        some ((named.map HistoryCommit.sha).getD head.sha)

def phasePaths (phaseOf : String → Option Phase) (files : FileSet) (phase : Phase) : List String :=
  (files.keys.filter fun path => phaseOf path = some phase).insertionSort (· ≤ ·)

def phaseRevision (adapter : RepositoryAdapter) (phaseOf : String → Option Phase) (history : List HistoryCommit)
    (phase : Phase) : Option String :=
  match history with
  | [] => none
  | head :: _ =>
    let paths := phasePaths phaseOf head.files phase
    if paths.isEmpty then none else (latestRevision adapter history paths).or (some head.sha)

/-! ## The newest commit of some paths -/

def touches (paths : List String) (commit : HistoryCommit) (older : List HistoryCommit) : Bool :=
  paths.any fun path => commit.files.lookup path ≠ (headFiles older).lookup path

def newestTouching (paths : List String) : List HistoryCommit → Option HistoryCommit
  | [] => none
  | commit :: older => if touches paths commit older then some commit else newestTouching paths older

def depth (paths : List String) : List HistoryCommit → Nat
  | [] => 0
  | commit :: older => if touches paths commit older then 0 else depth paths older + 1

section Newest

variable {adapter : RepositoryAdapter} {history older : List HistoryCommit} {paths : List String} {path : String}
  {commit found : HistoryCommit}

theorem head?_touching : (touching path history).head? = newestTouching [path] history := by
  induction history with
  | nil => rfl
  | cons commit older ih =>
    unfold touching newestTouching touches
    by_cases changed : commit.files.lookup path ≠ (headFiles older).lookup path
    · simp [changed]
    · simp [changed, ih]

theorem head?_listCommits : (listCommits adapter history (some path)).head? = newestTouching [path] history := by
  rw [← head?_touching]
  cases adapter with
  | fake => rfl
  | github =>
    show ((touching path history).take 100).head? = _
    rw [List.head?_take, if_neg (by decide)]

theorem mem_latestCommits {sha : String} : sha ∈ latestCommits adapter history paths ↔
    ∃ path ∈ paths, ∃ commit, newestTouching [path] history = some commit ∧ commit.sha = sha := by
  simp only [latestCommits, List.mem_dedup, List.mem_filterMap, head?_listCommits, Option.map_eq_some_iff]

theorem newestTouching_mem (newest : newestTouching paths history = some commit) : commit ∈ history := by
  induction history with
  | nil => cases newest
  | cons first older ih =>
    unfold newestTouching at newest
    split at newest
    · rw [Option.some.inj newest]
      exact List.mem_cons_self
    · exact List.mem_cons_of_mem _ (ih newest)

theorem touches_iff : touches paths commit older = true ↔
    ∃ path ∈ paths, commit.files.lookup path ≠ (headFiles older).lookup path := by
  simp [touches]

theorem newestTouching_skip (quiet : touches paths commit older = false) (member : path ∈ paths) :
    newestTouching [path] (commit :: older) = newestTouching [path] older := by
  have same : touches [path] commit older = false := by
    rw [Bool.eq_false_iff, Ne, touches_iff] at quiet ⊢
    rintro ⟨other, here, changed⟩
    rw [List.mem_singleton] at here
    exact quiet ⟨path, member, here ▸ changed⟩
  rw [newestTouching, same]
  rfl

theorem latestCommits_skip (quiet : touches paths commit older = false) :
    latestCommits adapter (commit :: older) paths = latestCommits adapter older paths := by
  unfold latestCommits
  congr 1
  apply List.filterMap_congr
  intro path member
  rw [head?_listCommits, head?_listCommits, newestTouching_skip quiet member]

theorem newest_latest (newest : newestTouching paths history = some commit) :
    commit.sha ∈ latestCommits adapter history paths := by
  induction history with
  | nil => cases newest
  | cons first older ih =>
    unfold newestTouching at newest
    cases changed : touches paths first older with
    | true =>
      rw [changed, if_pos rfl] at newest
      obtain rfl := Option.some.inj newest
      obtain ⟨path, member, differs⟩ := touches_iff.mp changed
      refine mem_latestCommits.mpr ⟨path, member, first, ?_, rfl⟩
      rw [newestTouching, if_pos (touches_iff.mpr ⟨path, List.mem_singleton_self _, differs⟩)]
    | false =>
      rw [changed] at newest
      rw [latestCommits_skip changed]
      exact ih newest

/-- The first commits of a history name the newest one of the paths exactly when it is that near. -/
theorem find_latest (distinct : (history.map HistoryCommit.sha).Nodup) (page : Nat) :
    ((history.take page).find? fun commit => commit.sha ∈ latestCommits adapter history paths) =
      if depth paths history < page then newestTouching paths history else none := by
  induction history generalizing page with
  | nil => simp [newestTouching]
  | cons first older ih =>
    rw [List.map_cons, List.nodup_cons] at distinct
    cases page with
    | zero => simp
    | succ page =>
      rw [List.take_succ_cons, List.find?_cons]
      unfold depth newestTouching
      cases changed : touches paths first older with
      | true =>
        have newest : newestTouching paths (first :: older) = some first := by
          rw [newestTouching, changed, if_pos rfl]
        simp [newest_latest newest]
      | false =>
        have absent : first.sha ∉ latestCommits adapter older paths := by
          intro listed
          obtain ⟨path, -, commit, latest, same⟩ := mem_latestCommits.mp listed
          exact distinct.1 (same ▸ List.mem_map_of_mem (newestTouching_mem latest))
        rw [latestCommits_skip changed]
        simp only [absent, decide_false, Bool.false_eq_true, if_false, Nat.add_lt_add_iff_right]
        exact ih distinct.2 page

theorem depth_lt (newest : newestTouching paths history = some commit) : depth paths history < history.length := by
  induction history with
  | nil => cases newest
  | cons first older ih =>
    unfold newestTouching at newest
    unfold depth
    cases changed : touches paths first older with
    | true => simp
    | false =>
      rw [changed] at newest
      simpa using ih newest

/-- A later commit with the newest commit's sha is that commit itself. -/
theorem depth_of_head (distinct : ((commit :: older).map HistoryCommit.sha).Nodup)
    (newest : newestTouching paths (commit :: older) = some found) (same : commit.sha = found.sha) :
    depth paths (commit :: older) = 0 := by
  unfold newestTouching at newest
  unfold depth
  cases changed : touches paths commit older with
  | true => rfl
  | false =>
    rw [changed] at newest
    rw [List.map_cons, List.nodup_cons] at distinct
    exact absurd (same ▸ List.mem_map_of_mem (newestTouching_mem newest)) distinct.1

/-- The newest commit of the paths is within what the adapter lists. -/
def OnFirstPage (adapter : RepositoryAdapter) (front : Nat) : Prop :=
  ∀ perPage, adapter.perPage = some perPage → front < perPage

instance (adapter : RepositoryAdapter) (front : Nat) : Decidable (OnFirstPage adapter front) :=
  match pages : adapter.perPage with
  | none => .isTrue fun perPage some => by rw [pages] at some; cases some
  | some perPage =>
    decidable_of_iff (front < perPage) ⟨fun near other some => by rw [pages] at some; cases some; exact near,
      fun near => near perPage pages⟩

theorem find_listed (distinct : (history.map HistoryCommit.sha).Nodup)
    (newest : newestTouching paths history = some found) :
    ((listCommits adapter history none).find? fun commit => commit.sha ∈ latestCommits adapter history paths) =
      if OnFirstPage adapter (depth paths history) then some found else none := by
  cases pages : adapter.perPage with
  | none =>
    have listed : OnFirstPage adapter (depth paths history) := fun perPage some => by rw [pages] at some; cases some
    have whole := @find_latest adapter history paths distinct history.length
    rw [List.take_length, if_pos (depth_lt newest), newest] at whole
    rw [if_pos listed, ← whole, listCommits, pages]
  | some perPage =>
    have listed : OnFirstPage adapter (depth paths history) ↔ depth paths history < perPage :=
      ⟨fun near => near perPage pages, fun near other some => by rw [pages] at some; cases some; exact near⟩
    simp only [listed]
    rw [← newest, ← @find_latest adapter history paths distinct perPage, listCommits, pages]

theorem onFirstPage_zero : OnFirstPage adapter 0 := by
  intro perPage pages
  cases adapter with
  | fake => cases pages
  | github =>
    obtain rfl := Option.some.inj pages
    decide

/-- The revision is the newest commit of the paths if their latest commits are one, or the newest is listed; where it
    is neither, the revision is the head. -/
theorem latestRevision_iff (distinct : (history.map HistoryCommit.sha).Nodup)
    (newest : newestTouching paths history = some found) :
    latestRevision adapter history paths = some found.sha ↔
      (∀ sha ∈ latestCommits adapter history paths, sha = found.sha) ∨ OnFirstPage adapter (depth paths history) := by
  have member : found.sha ∈ latestCommits adapter history paths := newest_latest newest
  have apart : (latestCommits adapter history paths).Nodup := List.nodup_dedup _
  obtain ⟨head, older, rfl⟩ := List.exists_cons_of_ne_nil (List.ne_nil_of_mem (newestTouching_mem newest))
  have occupied : paths.isEmpty = false := by
    rw [List.isEmpty_eq_false_iff]
    rintro rfl
    simp [latestCommits] at member
  have named := @find_listed adapter _ _ _ distinct newest
  unfold latestRevision
  rw [occupied]
  dsimp only
  rw [if_neg (by decide)]
  cases heads : latestCommits adapter (head :: older) paths with
  | nil =>
    rw [heads] at member
    cases member
  | cons first rest =>
    rw [heads] at member apart named
    cases rest with
    | nil =>
      have own : found.sha = first := by simpa using member
      simp [own]
    | cons second others =>
      have several : ¬ ∀ sha ∈ first :: second :: others, sha = found.sha := by
        intro one
        have same : first = second := (one first (by simp)).trans (one second (by simp)).symm
        exact (List.nodup_cons.mp apart).1 (same ▸ List.mem_cons_self)
      dsimp only
      rw [named, or_iff_right several]
      by_cases listed : OnFirstPage adapter (depth paths (head :: older))
      · simp [listed]
      · rw [if_neg listed, Option.map_none, Option.getD_none, Option.some.injEq]
        refine ⟨fun same => ?_, fun near => absurd near listed⟩
        rw [depth_of_head distinct newest same]
        exact onFirstPage_zero

end Newest

/-! ## Later commits -/

/-- A branch at which one of the paths was committed, and what was committed there since without changing any of
    them. -/
structure PhaseHistory where
  commits : List HistoryCommit
  later : List HistoryCommit
  paths : List String
  distinct : ((later ++ commits).map HistoryCommit.sha).Nodup
  newest : HistoryCommit
  committed : newestTouching paths commits = some newest
  elsewhere : ∀ commit ∈ later, ∀ path ∈ paths, commit.files.lookup path = (headFiles commits).lookup path

namespace PhaseHistory

variable (branch : PhaseHistory)

def OneLatest : Prop :=
  ∀ path ∈ branch.paths, ∀ commit, newestTouching [path] branch.commits = some commit → commit.sha = branch.newest.sha

/-- The revision of the paths is their newest commit, before and after the later commits. -/
def RevisionStands (adapter : RepositoryAdapter) : Prop :=
  latestRevision adapter branch.commits branch.paths = some branch.newest.sha ∧
    latestRevision adapter (branch.later ++ branch.commits) branch.paths = some branch.newest.sha

theorem later_quiet (front back : List HistoryCommit) (commit : HistoryCommit)
    (split : branch.later = front ++ commit :: back) :
    touches branch.paths commit (back ++ branch.commits) = false := by
  rw [Bool.eq_false_iff, Ne, touches_iff]
  rintro ⟨path, member, changed⟩
  apply changed
  have here : commit ∈ branch.later := by rw [split]; exact List.mem_append_right _ List.mem_cons_self
  rw [branch.elsewhere commit here path member]
  cases back with
  | nil => rfl
  | cons next rest =>
    have below : next ∈ branch.later := by
      rw [split]
      exact List.mem_append_right _ (List.mem_cons_of_mem _ List.mem_cons_self)
    exact (branch.elsewhere next below path member).symm

theorem later_kept (front back : List HistoryCommit) (split : branch.later = front ++ back)
    (adapter : RepositoryAdapter) :
    newestTouching branch.paths (back ++ branch.commits) = some branch.newest ∧
      depth branch.paths (back ++ branch.commits) = back.length + depth branch.paths branch.commits ∧
      latestCommits adapter (back ++ branch.commits) branch.paths =
        latestCommits adapter branch.commits branch.paths := by
  induction back generalizing front with
  | nil => exact ⟨branch.committed, by simp, rfl⟩
  | cons commit back ih =>
    obtain ⟨newest, near, heads⟩ := ih (front ++ [commit]) (by rw [split]; simp)
    have quiet := branch.later_quiet front back commit split
    rw [List.cons_append]
    refine ⟨?_, ?_, ?_⟩
    · rw [newestTouching, quiet]
      exact newest
    · rw [depth, quiet, if_neg (by decide), near, List.length_cons]
      omega
    · rw [latestCommits_skip quiet]
      exact heads

theorem oneLatest_iff (adapter : RepositoryAdapter) : branch.OneLatest ↔
    ∀ sha ∈ latestCommits adapter branch.commits branch.paths, sha = branch.newest.sha := by
  constructor
  · intro one sha member
    obtain ⟨path, listed, commit, latest, rfl⟩ := mem_latestCommits.mp member
    exact one path listed commit latest
  · intro one path listed commit latest
    exact one commit.sha (mem_latestCommits.mpr ⟨path, listed, commit, latest, rfl⟩)

/-- The revision of the paths stands if and only if their latest commits are one, or the later commits leave the newest
    of them on the first page of the branch. -/
theorem revision_stands_iff (adapter : RepositoryAdapter) :
    branch.RevisionStands adapter ↔
      branch.OneLatest ∨ OnFirstPage adapter (branch.later.length + depth branch.paths branch.commits) := by
  obtain ⟨newest, near, heads⟩ := branch.later_kept [] branch.later rfl adapter
  have distinct : (branch.commits.map HistoryCommit.sha).Nodup := by
    have both := branch.distinct
    rw [List.map_append] at both
    exact (List.nodup_append.mp both).2.1
  unfold RevisionStands
  rw [latestRevision_iff distinct branch.committed, latestRevision_iff branch.distinct newest, heads, near,
    ← branch.oneLatest_iff adapter]
  have nearer : OnFirstPage adapter (branch.later.length + depth branch.paths branch.commits) →
      OnFirstPage adapter (depth branch.paths branch.commits) := by
    intro listed perPage pages
    have bound := listed perPage pages
    omega
  constructor
  · intro stands
    exact stands.2
  · intro listed
    exact ⟨listed.imp_right nearer, listed⟩

end PhaseHistory

section Phases

variable {adapter : RepositoryAdapter} {phaseOf : String → Option Phase} {phase : Phase} {history : List HistoryCommit}

theorem phasePaths_eq {files others : FileSet}
    (same : ∀ path, phaseOf path = some phase → files.lookup path = others.lookup path) :
    phasePaths phaseOf files phase = phasePaths phaseOf others phase := by
  have own {files : FileSet} {path : String} : path ∈ files.keys.filter (fun path => phaseOf path = some phase) ↔
      (files.lookup path).isSome ∧ phaseOf path = some phase := by
    rw [List.mem_filter, decide_eq_true_eq, AList.lookup_isSome]
    rfl
  have members : (files.keys.filter fun path => phaseOf path = some phase).Perm
      (others.keys.filter fun path => phaseOf path = some phase) := by
    apply (List.perm_ext_iff_of_nodup (files.keys_nodup.filter _) (others.keys_nodup.filter _)).mpr
    intro path
    rw [own, own]
    constructor
    · rintro ⟨there, phased⟩
      exact ⟨same path phased ▸ there, phased⟩
    · rintro ⟨there, phased⟩
      exact ⟨same path phased ▸ there, phased⟩
  unfold phasePaths
  apply List.Perm.eq_of_pairwise fun _ _ _ _ => le_antisymm
  · exact List.pairwise_insertionSort _ _
  · exact List.pairwise_insertionSort _ _
  · exact (List.perm_insertionSort _ _).trans (members.trans (List.perm_insertionSort _ _).symm)

theorem phaseRevision_of_latest {sha : String}
    (latest : latestRevision adapter history (phasePaths phaseOf (headFiles history) phase) = some sha) :
    phaseRevision adapter phaseOf history phase = some sha := by
  cases history with
  | nil => cases latest
  | cons head older =>
    unfold phaseRevision
    dsimp only
    have occupied : ¬ (phasePaths phaseOf head.files phase).isEmpty = true := by
      intro empty
      simp [latestRevision, headFiles, empty] at latest
    rw [if_neg occupied]
    exact (congrArg (·.or (some head.sha)) latest).trans rfl

/-- Where the revision of a phase's documents stands, its decisions settle it after the later commits as before. -/
theorem PhaseHistory.settlement_stands (branch : PhaseHistory)
    (own : branch.paths = phasePaths phaseOf (headFiles branch.commits) phase)
    (kept : ∀ commit ∈ branch.later, ∀ path, phaseOf path = some phase →
      commit.files.lookup path = (headFiles branch.commits).lookup path)
    (stands : branch.RevisionStands adapter) (decisions : List Decision) :
    phaseSettlement decisions phase (phaseRevision adapter phaseOf (branch.later ++ branch.commits) phase) =
      phaseSettlement decisions phase (phaseRevision adapter phaseOf branch.commits phase) := by
  have same : phasePaths phaseOf (headFiles (branch.later ++ branch.commits)) phase = branch.paths := by
    rw [own]
    apply phasePaths_eq
    intro path phased
    cases shape : branch.later with
    | nil => rfl
    | cons commit rest => exact kept commit (by rw [shape]; exact List.mem_cons_self) path phased
  rw [phaseRevision_of_latest (same ▸ stands.2), phaseRevision_of_latest (own ▸ stands.1)]

end Phases

def twoDocuments : List HistoryCommit :=
  let intent : FileSet := (∅ : FileSet).insert "intent.md" [1]
  [{ sha := commitName 2, files := intent.insert "spec.md" [1] }, { sha := commitName 1, files := intent }]

def screenCommits (count : Nat) : List HistoryCommit :=
  (List.range count).map fun i =>
    { sha := commitName (count + 2 - i), files := (headFiles twoDocuments).insert "ui.md" [1] }

theorem twoDocuments_newest : newestTouching ["intent.md", "spec.md"] twoDocuments =
    some { sha := commitName 2, files := headFiles twoDocuments } := by rfl

theorem screenCommits_distinct (count : Nat) : ((screenCommits count ++ twoDocuments).map HistoryCommit.sha).Nodup := by
  have numbers : (screenCommits count ++ twoDocuments).map HistoryCommit.sha =
      ((List.range count).map (fun i => count + 2 - i) ++ [2, 1]).map commitName := by
    simp [screenCommits, twoDocuments, Function.comp_def]
  rw [numbers]
  refine List.Nodup.map (fun _ _ => commitName_injective) ?_
  rw [List.nodup_append]
  refine ⟨?_, by decide, ?_⟩
  · rw [List.Nodup, List.pairwise_map]
    refine List.Pairwise.imp_of_mem (fun {i j} first second below => ?_) List.pairwise_lt_range
    rw [List.mem_range] at first second
    omega
  · intro n above m below
    obtain ⟨i, inside, rfl⟩ := List.mem_map.mp above
    rw [List.mem_range] at inside
    simp only [List.mem_cons, List.not_mem_nil, or_false] at below
    omega

theorem screenCommits_elsewhere (count : Nat) : ∀ commit ∈ screenCommits count, ∀ path ∈ ["intent.md", "spec.md"],
    commit.files.lookup path = (headFiles twoDocuments).lookup path := by
  intro commit member path listed
  obtain ⟨i, -, rfl⟩ := List.mem_map.mp member
  apply AList.lookup_insert_ne
  rintro rfl
  revert listed
  decide

def busyBranch (count : Nat) : PhaseHistory where
  commits := twoDocuments
  later := screenCommits count
  paths := ["intent.md", "spec.md"]
  newest := { sha := commitName 2, files := headFiles twoDocuments }
  committed := twoDocuments_newest
  distinct := screenCommits_distinct count
  elsewhere := screenCommits_elsewhere count

/-- A hundred commits of a screen change the revision of the two documents. -/
theorem screens_move_revision :
    ¬ ∀ (adapter : RepositoryAdapter) (branch : PhaseHistory), branch.RevisionStands adapter := by
  intro stands
  have moved := (stands .github (busyBranch 100)).2
  obtain ⟨newest, near, heads⟩ := (busyBranch 100).later_kept [] (busyBranch 100).later rfl .github
  rw [latestRevision_iff (busyBranch 100).distinct newest, heads, near] at moved
  rcases moved with one | listed
  · have first := one (commitName 1) (by decide +kernel)
    exact absurd (commitName_injective first) (by decide)
  · have bound := listed 100 rfl
    have above : (busyBranch 100).later.length = 100 := by simp [busyBranch, screenCommits]
    omega

end DarkFactory
