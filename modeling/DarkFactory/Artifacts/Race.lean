import DarkFactory.Artifacts.Service
import DarkFactory.Scm.Published

namespace DarkFactory

/-- One of the two writers of a change branch: a save that states its base, or an attempt of an agent. -/
inductive BranchWriter
  | edit (edit : ArtifactEdit) (base : String)
  | agent (attempt : AgentAttempt)

/-- What a writer works from: the text of its path at the head that a save read and at the base it states, or the
    files of the pinned revision of an attempt. -/
inductive Basis
  | text (current atBase : Option String)
  | files (pinned : FileSet)

def Basis.Held : Basis → String → List UInt8 → Prop
  | .text _ atBase, _, content => atBase = some (Utf8.decode content)
  | .files pinned, path, content => pinned.lookup path = some content

instance (basis : Basis) (path : String) (content : List UInt8) : Decidable (basis.Held path content) :=
  match basis with
  | .text _ atBase => inferInstanceAs (Decidable (atBase = _))
  | .files pinned => inferInstanceAs (Decidable (pinned.lookup path = _))

/-- What the revision that the writer read shows at the path: a save reads the head, an attempt its pinned revision. -/
def Basis.Read : Basis → String → List UInt8 → Prop
  | .text current _, _, content => current = some (Utf8.decode content)
  | .files pinned, path, content => pinned.lookup path = some content

inductive Position
  | asked
  | rootless
  | rooted (base : String)
  | headed (head : String)
  | compares (head : String) (current : Option String)
  | ready (basis : Basis)
  | ended

def ArtifactEdit.stated (edit : ArtifactEdit) (base : String) : ArtifactEdit := { edit with baseRevision := some base }

structure Race where
  service : ArtifactService
  executor : AgentStageExecutor
  product : RepositoryRef
  changeId : String
  writers : Bool → BranchWriter
  shared : ∀ who attempt, writers who = .agent attempt →
    attempt.product = product ∧ attempt.branch executor = service.branchOf changeId

structure Publication where
  writer : Bool
  files : FileSet
  basis : Basis

structure RaceState where
  repo : FakeRepository
  positions : Bool → Position
  log : List Publication

namespace Race

variable (race : Race)

def branch : String := race.service.branchOf race.changeId

def start (repo : FakeRepository) : RaceState := { repo, positions := fun _ => .asked, log := [] }

def files : BranchWriter → FileSet
  | .edit edit base => ArtifactService.editFiles (edit.stated base)
  | .agent attempt => attempt.collected

def message : BranchWriter → String
  | .edit edit base => ArtifactService.editMessage race.changeId (edit.stated base)
  | .agent attempt => attempt.message

def key : BranchWriter → String
  | .edit edit base => ArtifactService.editKey race.changeId (edit.stated base)
  | .agent attempt => attempt.commitKey race.executor

def raised : BranchWriter → Option String
  | .edit _ _ => none
  | .agent attempt => attempt.raises .publishCommit

end Race

namespace RaceState

variable (state : RaceState) (who : Bool)

def moved (position : Position) : RaceState :=
  { state with positions := Function.update state.positions who position }

end RaceState

namespace Race

variable (race : Race) (state : RaceState) (who : Bool)

def publish (writer : BranchWriter) (basis : Basis) : RaceState :=
  let ended := state.moved who .ended
  match raised writer, state.repo.publishCommit race.product race.branch (files writer) (race.message writer)
      (race.key writer) with
  | none, .ok (_, after) =>
    if state.repo.commitKeys.lookup (race.key writer) = none then
      { ended with repo := after, log := state.log ++ [{ writer := who, files := files writer, basis }] }
    else { ended with repo := after }
  | _, _ => ended

def step : RaceState :=
  match state.positions who, race.writers who with
  | .asked, .edit _ _ =>
    match race.service.head race.product race.changeId state.repo with
    | some head => state.moved who (.headed head)
    | none => state.moved who .rootless
  | .rootless, .edit _ _ =>
    match state.repo.getRevision race.product "main" with
    | .ok base => state.moved who (.rooted base)
    | .error _ => state.moved who .ended
  | .rooted base, .edit _ _ =>
    let (head, repo) := state.repo.ensureBranch race.product race.branch base (ArtifactService.branchKey race.changeId)
    { state.moved who (.headed head) with repo }
  | .headed head, .edit edit _ =>
    let current := ArtifactService.read race.product state.repo head edit.path
    if current = some edit.content then state.moved who .ended else state.moved who (.compares head current)
  | .compares head current, .edit edit base =>
    if ArtifactService.conflicting race.product state.repo (edit.stated base) head current then state.moved who .ended
    else
      let atBase := if base = head then current else ArtifactService.read race.product state.repo base edit.path
      state.moved who (.ready (.text current atBase))
  | .asked, .agent attempt =>
    if attempt.collects then
      { state.moved who (.ready (.files (state.repo.parentFiles attempt.revision))) with
        repo := (state.repo.ensureBranch race.product race.branch attempt.revision
          (effectKey attempt.identity "branch" race.branch)).2 }
    else state.moved who .ended
  | .ready basis, writer => race.publish state who writer basis
  | _, _ => state

def run (repo : FakeRepository) (turns : List Bool) : RaceState := turns.foldl race.step (start repo)

/-- Where two commits differ on a path, the later writer took it to hold what the earlier had published. -/
def NoLostEdit (log : List Publication) : Prop :=
  log.Pairwise fun earlier later => ∀ path theirs mine, earlier.files.lookup path = some theirs →
    later.files.lookup path = some mine → mine ≠ theirs → later.basis.Held path theirs

structure Lands (basis : Basis) (head : String) : Prop where
  ready : state.positions who = .ready basis
  quiet : raised (race.writers who) = none
  given : (files (race.writers who)).keys ≠ []
  fresh : state.repo.commitKeys.lookup (race.key (race.writers who)) = none
  head : state.repo.branches.lookup (race.product, race.branch) = some head

/-- No publication has changed a path of the landing commit since its writer read the revision it works from: each
    path published before holds on the head what was read there, or what the commit brings anyway. -/
def Undisturbed : Prop :=
  ∀ basis head, race.Lands state who basis head → ∀ path mine held, (files (race.writers who)).lookup path = some mine →
    (∃ earlier ∈ state.log, path ∈ earlier.files) → (state.repo.parentFiles head).lookup path = some held →
      mine = held ∨ basis.Read path held

/-! ## What one call does -/

def Shown (repo : FakeRepository) (publication : Publication) : Prop :=
  ∃ head, repo.branches.lookup (race.product, race.branch) = some head ∧ ∀ path content,
    publication.files.lookup path = some content → (repo.parentFiles head).lookup path = some content

/-- A writer that is ready has read at its base what it read at the head. -/
def Compared (state : RaceState) (who : Bool) : Prop :=
  ∀ current atBase, state.positions who = .ready (.text current atBase) → atBase = current

/-- A call that lands nothing: a writer that has ended stays so, and the other is where it was. -/
structure Quiet (before after : RaceState) (who : Bool) : Prop where
  log : after.log = before.log
  other : ∀ other, other ≠ who → after.positions other = before.positions other
  ended : before.positions who = .ended → after.positions who = .ended
  shown : ∀ publication, race.Shown before.repo publication → race.Shown after.repo publication

def landed (basis : Basis) (head : String) : RaceState where
  repo := (state.repo.commitOn race.product race.branch (files (race.writers who)) (race.message (race.writers who))
    (race.key (race.writers who)) head).2
  positions := Function.update state.positions who .ended
  log := state.log ++ [{ writer := who, files := files (race.writers who), basis }]

section Step

variable {race : Race} {state : RaceState} {who : Bool}

theorem ensureBranch_shown {fromRevision key : String} {publication : Publication}
    (shown : race.Shown state.repo publication) :
    race.Shown (state.repo.ensureBranch race.product race.branch fromRevision key).2 publication := by
  obtain ⟨head, standing, holds⟩ := shown
  have kept := @ensureBranch_commits state.repo race.product race.branch fromRevision key
  refine ⟨head, ?_, ?_⟩
  · unfold FakeRepository.ensureBranch
    cases state.repo.branchKeys.lookup key with
    | some replayed => exact standing
    | none =>
      rw [standing]
      exact AList.lookup_insert _
  · intro path content published
    unfold FakeRepository.parentFiles
    rw [kept.1]
    exact holds path content published

theorem moved_quiet (position : Position) (unfinished : state.positions who ≠ .ended) :
    race.Quiet state (state.moved who position) who where
  log := rfl
  other _ apart := Function.update_of_ne apart _ _
  ended finished := absurd finished unfinished
  shown _ shown := shown

theorem Quiet.with_branch {after : RaceState} {fromRevision key : String} (quiet : race.Quiet state after who) :
    race.Quiet state { after with repo := (state.repo.ensureBranch race.product race.branch fromRevision key).2 } who where
  log := quiet.log
  other := quiet.other
  ended := quiet.ended
  shown _ shown := ensureBranch_shown shown

theorem stay_quiet (race : Race) (state : RaceState) (who : Bool) : race.Quiet state state who :=
  ⟨rfl, fun _ _ => rfl, id, fun _ => id⟩

theorem publish_cases {basis : Basis} (ready : state.positions who = .ready basis) :
    (∃ head, race.Lands state who basis head ∧
      race.publish state who (race.writers who) basis = race.landed state who basis head) ∨
    ((∀ other head, ¬ race.Lands state who other head) ∧
      race.Quiet state (race.publish state who (race.writers who) basis) who) := by
  have unfinished : state.positions who ≠ .ended := by
    rw [ready]
    nofun
  have ended := @moved_quiet race _ _ .ended unfinished
  unfold publish FakeRepository.publishCommit
  cases failing : raised (race.writers who) with
  | some exception =>
    refine Or.inr ⟨fun other head lands => ?_, ended⟩
    rw [lands.quiet] at failing
    cases failing
  | none =>
    by_cases given : (files (race.writers who)).keys = []
    · rw [given]
      exact Or.inr ⟨fun other head lands => lands.given given, ended⟩
    · rw [if_neg (by simpa using given)]
      cases known : state.repo.commitKeys.lookup (race.key (race.writers who)) with
      | some replayed =>
        refine Or.inr ⟨fun other head lands => ?_, ended⟩
        rw [lands.fresh] at known
        cases known
      | none =>
        cases standing : state.repo.branches.lookup (race.product, race.branch) with
        | none =>
          refine Or.inr ⟨fun other head lands => ?_, ended⟩
          rw [lands.head] at standing
          cases standing
        | some head => exact Or.inl ⟨head, ⟨ready, failing, given, known, standing⟩, rfl⟩

/-- The comparison lets a save through only where its base reads as the head does. -/
theorem conflicting_false {product : RepositoryRef} {repo : FakeRepository} {edit : ArtifactEdit} {base head : String}
    {current : Option String}
    (agrees : ArtifactService.conflicting product repo (edit.stated base) head current = false) :
    (if base = head then current else ArtifactService.read product repo base edit.path) = current := by
  by_cases same : base = head
  · rw [if_pos same]
  · rw [if_neg same]
    by_contra differs
    simp [ArtifactService.conflicting, ArtifactEdit.stated, same, differs] at agrees

/-- A call before its writer is ready: it moves its writer on, or it makes the branch besides. -/
inductive Moves (race : Race) (state : RaceState) (who : Bool) : RaceState → Prop
  | stays : Moves race state who state
  | moves (position : Position) (unfinished : state.positions who ≠ .ended)
      (compared : ∀ current atBase, position = .ready (.text current atBase) → atBase = current) :
      Moves race state who (state.moved who position)
  | branches (position : Position) (fromRevision key : String) (unfinished : state.positions who ≠ .ended)
      (compared : ∀ current atBase, position = .ready (.text current atBase) → atBase = current) :
      Moves race state who { state.moved who position with
        repo := (state.repo.ensureBranch race.product race.branch fromRevision key).2 }

theorem step_moves (race : Race) (state : RaceState) (who : Bool) (preparing : ∀ basis, state.positions who ≠ .ready basis) :
    Moves race state who (race.step state who) := by
  have goes (position : Position) (unfinished : state.positions who ≠ .ended) (plain : ∀ basis, position ≠ .ready basis) :
      Moves race state who (state.moved who position) :=
    .moves position unfinished fun current atBase ready => absurd ready (plain _)
  unfold step
  cases position : state.positions who with
  | ready basis => exact absurd position (preparing basis)
  | ended => cases race.writers who <;> exact .stays
  | asked =>
    have unfinished : state.positions who ≠ .ended := by rw [position]; nofun
    cases race.writers who with
    | edit edit base =>
      cases race.service.head race.product race.changeId state.repo <;> exact goes _ unfinished nofun
    | agent attempt =>
      dsimp only
      split
      · exact .branches _ _ _ unfinished nofun
      · exact goes _ unfinished nofun
  | rootless =>
    cases race.writers who with
    | edit edit base =>
      cases state.repo.getRevision race.product "main" <;> exact goes _ (by rw [position]; nofun) nofun
    | agent attempt => exact .stays
  | rooted root =>
    cases race.writers who with
    | edit edit base => exact .branches _ _ _ (by rw [position]; nofun) nofun
    | agent attempt => exact .stays
  | headed head =>
    cases race.writers who with
    | edit edit base =>
      dsimp only
      split <;> exact goes _ (by rw [position]; nofun) nofun
    | agent attempt => exact .stays
  | compares head current =>
    have unfinished : state.positions who ≠ .ended := by rw [position]; nofun
    cases race.writers who with
    | edit edit base =>
      dsimp only
      cases agrees : ArtifactService.conflicting race.product state.repo (edit.stated base) head current with
      | true => exact goes _ unfinished nofun
      | false =>
        refine .moves _ unfinished fun seen atBase ready => ?_
        cases ready
        exact conflicting_false agrees
    | agent attempt => exact .stays

theorem Moves.quiet {after : RaceState} (moves : Moves race state who after) : race.Quiet state after who := by
  cases moves with
  | stays => exact stay_quiet race state who
  | moves position unfinished => exact moved_quiet position unfinished
  | branches position fromRevision key unfinished => exact (moved_quiet position unfinished).with_branch

theorem Moves.compared {after : RaceState} (moves : Moves race state who after) (compared : Compared state who) :
    Compared after who := by
  have reached {position : Position} (settled : ∀ current atBase, position = .ready (.text current atBase) →
      atBase = current) : Compared (state.moved who position) who :=
    fun current atBase ready => settled current atBase ((Function.update_self _ _ _).symm.trans ready)
  cases moves with
  | stays => exact compared
  | moves position unfinished settled => exact reached settled
  | branches position fromRevision key unfinished settled => exact reached settled

theorem step_ready {basis : Basis} (ready : state.positions who = .ready basis) :
    race.step state who = race.publish state who (race.writers who) basis := by
  unfold step
  rw [ready]

/-- A call lands the commit of its writer on the head, or lands nothing. -/
theorem step_cases (race : Race) (state : RaceState) (who : Bool) :
    (∃ basis head, race.Lands state who basis head ∧ race.step state who = race.landed state who basis head) ∨
    ((∀ basis head, ¬ race.Lands state who basis head) ∧ race.Quiet state (race.step state who) who) := by
  by_cases preparing : ∀ basis, state.positions who ≠ .ready basis
  · exact Or.inr ⟨fun basis head lands => preparing basis lands.ready, (step_moves race state who preparing).quiet⟩
  · simp only [ne_eq, not_forall, not_not] at preparing
    obtain ⟨basis, ready⟩ := preparing
    rw [step_ready ready]
    rcases publish_cases ready with ⟨head, lands, made⟩ | quiet
    · exact Or.inl ⟨basis, head, lands, made⟩
    · exact Or.inr quiet

theorem publish_ended (writer : BranchWriter) (basis : Basis) :
    (race.publish state who writer basis).positions who = .ended := by
  unfold publish
  split
  · split <;> exact Function.update_self _ _ _
  · exact Function.update_self _ _ _

theorem step_compared (compared : ∀ writer, Compared state writer) (writer : Bool) :
    Compared (race.step state who) writer := by
  by_cases same : writer = who
  · subst same
    by_cases preparing : ∀ basis, state.positions writer ≠ .ready basis
    · exact (step_moves race state writer preparing).compared (compared writer)
    · simp only [ne_eq, not_forall, not_not] at preparing
      obtain ⟨basis, ready⟩ := preparing
      rw [step_ready ready]
      intro current atBase again
      rw [publish_ended] at again
      cases again
  · have kept : (race.step state who).positions writer = state.positions writer := by
      rcases step_cases race state who with ⟨basis, head, -, made⟩ | ⟨-, quiet⟩
      · rw [made]
        exact Function.update_of_ne same _ _
      · exact quiet.other writer same
    intro current atBase ready
    rw [kept] at ready
    exact compared writer current atBase ready

structure Kept (race : Race) (state : RaceState) : Prop where
  compared : ∀ writer, Compared state writer
  ended : ∀ publication ∈ state.log, state.positions publication.writer = .ended
  shown : ∀ who, state.positions who ≠ .ended → ∀ publication ∈ state.log, race.Shown state.repo publication

theorem landed_shown (race : Race) (state : RaceState) (who : Bool) (basis : Basis) (head : String) :
    race.Shown (race.landed state who basis head).repo { writer := who, files := files (race.writers who), basis } := by
  refine ⟨commitName (state.repo.nextCommit + 1), AList.lookup_insert _, fun path content published => ?_⟩
  have member : path ∈ files (race.writers who) := by
    rw [← AList.lookup_isSome, published]
    rfl
  have tree : (files (race.writers who) ∪ state.repo.parentFiles head).lookup path = some content :=
    (AList.lookup_union_left member).trans published
  simpa [landed, FakeRepository.commitOn, FakeRepository.parentFiles] using tree

theorem step_kept (kept : Kept race state) : Kept race (race.step state who) := by
  have compared := @step_compared race state who kept.compared
  rcases step_cases race state who with ⟨basis, head, lands, made⟩ | ⟨-, quiet⟩
  · rw [made] at compared ⊢
    have started : state.positions who ≠ .ended := by
      rw [lands.ready]
      nofun
    refine ⟨compared, ?_, ?_⟩
    · intro publication member
      rcases List.mem_append.mp member with earlier | new
      · have apart : publication.writer ≠ who := by
          rintro same
          exact started (same ▸ kept.ended publication earlier)
        exact (Function.update_of_ne apart _ _).trans (kept.ended publication earlier)
      · rw [List.mem_singleton.mp new]
        exact Function.update_self _ _ _
    · intro other unfinished publication member
      have apart : other ≠ who := by
        rintro rfl
        exact unfinished (Function.update_self _ _ _)
      have before : state.positions other ≠ .ended := by
        rw [← Function.update_of_ne apart Position.ended state.positions]
        exact unfinished
      rcases List.mem_append.mp member with earlier | new
      · -- Only the two write, and neither had ended: nothing was published before.
        have over_ := kept.ended publication earlier
        have either : publication.writer = who ∨ publication.writer = other := by
          revert apart
          cases publication.writer <;> cases who <;> cases other <;> simp
        rcases either with same | same
        · exact absurd (same ▸ over_) started
        · exact absurd (same ▸ over_) before
      · rw [List.mem_singleton.mp new]
        exact landed_shown race state who basis head
  · have stays (writer : Bool) (over_ : state.positions writer = .ended) :
        (race.step state who).positions writer = .ended := by
      by_cases same : writer = who
      · subst same
        exact quiet.ended over_
      · rw [quiet.other writer same]
        exact over_
    refine ⟨compared, ?_, ?_⟩
    · intro publication member
      rw [quiet.log] at member
      exact stays _ (kept.ended publication member)
    · intro other unfinished publication member
      rw [quiet.log] at member
      exact quiet.shown publication (kept.shown other (fun over_ => unfinished (stays other over_)) publication member)

theorem lands_unique {basis other : Basis} {head place : String} (lands : race.Lands state who basis head)
    (again : race.Lands state who other place) : basis = other ∧ head = place := by
  have ready := lands.ready.symm.trans again.ready
  have standing := lands.head.symm.trans again.head
  cases ready
  cases standing
  exact ⟨rfl, rfl⟩

theorem Kept.held_iff (kept : Kept race state) {basis : Basis} {head path : String} {content : List UInt8}
    (lands : race.Lands state who basis head) : basis.Held path content ↔ basis.Read path content := by
  cases basis with
  | text current atBase =>
    rw [Basis.Held, Basis.Read, kept.compared who current atBase lands.ready]
  | files pinned => exact Iff.rfl

theorem step_noLostEdit (kept : Kept race state) :
    NoLostEdit (race.step state who).log ↔ NoLostEdit state.log ∧ race.Undisturbed state who := by
  rcases step_cases race state who with ⟨basis, head, lands, made⟩ | ⟨none_, quiet⟩
  · have started : state.positions who ≠ .ended := by
      rw [lands.ready]
      nofun
    have shown := kept.shown who started
    rw [made]
    unfold NoLostEdit landed
    rw [List.pairwise_append]
    refine and_congr_right fun _ => ?_
    simp only [List.pairwise_singleton, List.mem_singleton, forall_eq, true_and]
    constructor
    · intro based other place lands' path mine held own published standing
      obtain ⟨rfl, rfl⟩ := lands_unique lands lands'
      obtain ⟨earlier, member, touched⟩ := published
      obtain ⟨theirs, found⟩ := Option.isSome_iff_exists.mp (AList.lookup_isSome.mpr touched)
      obtain ⟨there, branched, holds⟩ := shown earlier member
      rw [lands.head, Option.some.injEq] at branched
      subst branched
      rw [holds path theirs found, Option.some.injEq] at standing
      subst standing
      by_cases same : mine = theirs
      · exact Or.inl same
      · exact Or.inr ((kept.held_iff lands).mp (based earlier member path theirs mine found own same))
    · intro undisturbed earlier member path theirs mine found own differs
      obtain ⟨there, branched, holds⟩ := shown earlier member
      rw [lands.head, Option.some.injEq] at branched
      subst branched
      have touched : path ∈ earlier.files := by
        rw [← AList.lookup_isSome, found]
        rfl
      have outcome := undisturbed basis head lands path mine theirs own ⟨earlier, member, touched⟩
        (holds path theirs found)
      exact (kept.held_iff lands).mpr (outcome.resolve_left differs)
  · rw [quiet.log]
    exact ⟨fun clean => ⟨clean, fun basis head lands => absurd lands (none_ basis head)⟩, And.left⟩

end Step

/-! ## Writers alone -/

section Alone

def alone (race : Race) (who : Bool) (n : Nat) (state : RaceState) : RaceState :=
  (List.replicate n who).foldl race.step state

variable {race : Race} {state : RaceState} {who : Bool} {edit : ArtifactEdit} {base : String}

theorem alone_succ (n : Nat) : race.alone who (n + 1) state = race.alone who n (race.step state who) := rfl

theorem alone_ended (ended : state.positions who = .ended) (n : Nat) : race.alone who n state = state := by
  induction n with
  | zero => rfl
  | succ n ih =>
    have stays : race.step state who = state := by
      unfold step
      rw [ended]
    rw [alone_succ, stays, ih]

theorem alone_moved_ended (state : RaceState) (n : Nat) :
    (race.alone who n (state.moved who .ended)).repo = state.repo := by
  rw [alone_ended (Function.update_self _ _ _)]
  rfl

@[simp] theorem stated_path : (edit.stated base).path = edit.path := rfl

@[simp] theorem stated_content : (edit.stated base).content = edit.content := rfl

def savedAt (race : Race) (edit : ArtifactEdit) (repo : FakeRepository) (head : String) : FakeRepository :=
  let current := ArtifactService.read race.product repo head edit.path
  if current = some edit.content then repo
  else if ArtifactService.conflicting race.product repo edit head current then repo
  else
    match race.service.publishEdit race.product race.changeId repo edit with
    | .error _ => repo
    | .ok (_, published) => published

theorem publish_repo (writer : BranchWriter) (basis : Basis) :
    (race.publish state who writer basis).repo =
      match raised writer, state.repo.publishCommit race.product race.branch (files writer) (race.message writer)
          (race.key writer) with
      | none, .ok (_, after) => after
      | _, _ => state.repo := by
  unfold publish
  cases raised writer with
  | some exception => rfl
  | none =>
    cases state.repo.publishCommit race.product race.branch (files writer) (race.message writer) (race.key writer) with
    | error exception => rfl
    | ok made =>
      dsimp only
      split <;> rfl

theorem alone_ready {basis : Basis} (position : state.positions who = .ready basis) (n : Nat) :
    (race.alone who (n + 1) state).repo = (race.publish state who (race.writers who) basis).repo := by
  rw [alone_succ, step_ready position, alone_ended (publish_ended _ _)]

theorem alone_headed {head : String} (writer : race.writers who = .edit edit base)
    (position : state.positions who = .headed head) (n : Nat) :
    (race.alone who (n + 3) state).repo = race.savedAt (edit.stated base) state.repo head := by
  have read : race.step state who =
      if ArtifactService.read race.product state.repo head edit.path = some edit.content then state.moved who .ended
      else state.moved who (.compares head (ArtifactService.read race.product state.repo head edit.path)) := by
    unfold step
    rw [position, writer]
  unfold savedAt
  rw [show n + 3 = n + 1 + 1 + 1 from rfl, alone_succ, read, stated_path, stated_content]
  generalize ArtifactService.read race.product state.repo head edit.path = current
  by_cases there : current = some edit.content
  · rw [if_pos there, if_pos there]
    exact alone_moved_ended state _
  · rw [if_neg there, if_neg there]
    have compared : race.step (state.moved who (.compares head current)) who =
        if ArtifactService.conflicting race.product state.repo (edit.stated base) head current then
          (state.moved who (.compares head current)).moved who .ended
        else (state.moved who (.compares head current)).moved who (.ready (.text current
          (if base = head then current else ArtifactService.read race.product state.repo base edit.path))) := by
      unfold step
      rw [show (state.moved who (.compares head current)).positions who = .compares head current from
        Function.update_self _ _ _, writer]
      rfl
    rw [alone_succ, compared]
    by_cases refused : ArtifactService.conflicting race.product state.repo (edit.stated base) head current = true
    · rw [if_pos refused, if_pos refused]
      exact alone_moved_ended _ _
    · rw [if_neg refused, if_neg refused]
      rw [alone_ready (Function.update_self _ _ _), publish_repo, writer]
      have same : state.repo.publishCommit race.product race.branch (files (.edit edit base))
          (race.message (.edit edit base)) (race.key (.edit edit base)) =
          race.service.publishEdit race.product race.changeId state.repo (edit.stated base) := rfl
      rw [← same]
      change (match raised (.edit edit base), state.repo.publishCommit race.product race.branch (files (.edit edit base))
        (race.message (.edit edit base)) (race.key (.edit edit base)) with
        | none, .ok (_, after) => after
        | _, _ => state.repo) = _
      cases state.repo.publishCommit race.product race.branch (files (.edit edit base)) (race.message (.edit edit base))
        (race.key (.edit edit base)) <;> rfl

/-- A save whose calls no other writer separates leaves what the service leaves. -/
theorem edit_alone (writer : race.writers who = .edit edit base) (position : state.positions who = .asked) :
    (race.alone who 6 state).repo = race.service.afterWrite race.product race.changeId state.repo (edit.stated base) := by
  have saved (repo : FakeRepository) (head : String)
      (opening : race.service.openBranch race.product race.changeId state.repo = .ok (head, repo)) :
      race.savedAt (edit.stated base) repo head =
        race.service.afterWrite race.product race.changeId state.repo (edit.stated base) := by
    unfold savedAt ArtifactService.afterWrite ArtifactService.write
    rw [opening]
    dsimp only
    split
    · rfl
    · split
      · rfl
      · cases race.service.publishEdit race.product race.changeId repo (edit.stated base) <;> rfl
  cases standing : race.service.head race.product race.changeId state.repo with
  | some head =>
    have asked : race.step state who = state.moved who (.headed head) := by
      unfold step
      rw [position, writer]
      simp [standing]
    rw [show 6 = 2 + 3 + 1 from rfl, alone_succ, asked, alone_headed writer (Function.update_self _ _ _)]
    exact saved state.repo head (by simp [ArtifactService.openBranch, standing])
  | none =>
    have asked : race.step state who = state.moved who .rootless := by
      unfold step
      rw [position, writer]
      simp [standing]
    have rootless : (state.moved who .rootless).positions who = .rootless := Function.update_self _ _ _
    rw [show 6 = 3 + 1 + 1 + 1 from rfl, alone_succ, asked, alone_succ]
    cases main : state.repo.getRevision race.product "main" with
    | error exception =>
      have failed : race.step (state.moved who .rootless) who = (state.moved who .rootless).moved who .ended := by
        unfold step
        rw [rootless, writer]
        simp [RaceState.moved, main]
      rw [failed, alone_moved_ended]
      simp [ArtifactService.afterWrite, ArtifactService.write, ArtifactService.openBranch, standing, main, RaceState.moved,
        Bind.bind, Except.bind]
    | ok root =>
      have rooted : race.step (state.moved who .rootless) who = (state.moved who .rootless).moved who (.rooted root) := by
        unfold step
        rw [rootless, writer]
        simp [RaceState.moved, main]
      have headed : race.step ((state.moved who .rootless).moved who (.rooted root)) who =
          { ((state.moved who .rootless).moved who (.rooted root)).moved who (.headed (state.repo.ensureBranch race.product
              race.branch root (ArtifactService.branchKey race.changeId)).1) with
            repo := (state.repo.ensureBranch race.product race.branch root
              (ArtifactService.branchKey race.changeId)).2 } := by
        unfold step
        rw [show ((state.moved who .rootless).moved who (.rooted root)).positions who = .rooted root from
          Function.update_self _ _ _, writer]
        rfl
      rw [rooted, alone_succ, headed, show 3 = 0 + 3 from rfl, alone_headed writer (Function.update_self _ _ _)]
      refine saved _ _ ?_
      unfold ArtifactService.openBranch
      rw [standing, main]
      rfl

/-- An attempt whose calls no other writer separates leaves what the executor leaves. -/
theorem attempt_alone {attempt : AgentAttempt} (writer : race.writers who = .agent attempt)
    (position : state.positions who = .asked) (requests : FakeMergeRequests) :
    (race.alone who 2 state).repo = (attempt.execute race.executor ⟨state.repo, requests⟩).2.repository := by
  obtain ⟨product, branch⟩ := race.shared who attempt writer
  have asked : race.step state who =
      if attempt.collects then
        { state.moved who (.ready (.files (state.repo.parentFiles attempt.revision))) with
          repo := attempt.ensured race.executor ⟨state.repo, requests⟩ }
      else state.moved who .ended := by
    unfold step AgentAttempt.ensured
    rw [position, writer, product, branch]
    rfl
  rw [show 2 = 1 + 1 from rfl, alone_succ, asked, attempt.execute_collects]
  cases attempt.collects with
  | false => exact alone_moved_ended state 1
  | true =>
    rw [if_pos rfl, if_pos rfl, attempt.publishCommit_repository, show 1 = 0 + 1 from rfl,
      alone_ready (Function.update_self _ _ _), publish_repo, writer, product, branch]
    rfl

end Alone

theorem lost_edits_iff (race : Race) (repo : FakeRepository) (turns : List Bool) :
    NoLostEdit (race.run repo turns).log ↔ Trace.Along race.step race.Undisturbed (start repo) turns := by
  have first : Kept race (start repo) := ⟨fun _ _ _ => nofun, by simp [start], by simp [start]⟩
  have keeps (state : RaceState) (who : Bool) (_ : who ∈ turns) (kept : Kept race state) : Kept race (race.step state who) :=
    step_kept kept
  have each (state : RaceState) (who : Bool) (_ : who ∈ turns) (kept : Kept race state) :=
    @step_noLostEdit race state who kept
  have iff := @Trace.holds_after_iff _ _ race.step race.Undisturbed race.Kept (fun state => NoLostEdit state.log) (start repo) turns
    keeps each first
  have clean : NoLostEdit (start repo).log := List.Pairwise.nil
  exact iff.trans (and_iff_right clean)

end Race

/-! ## Two writers over one file -/

def draftAttempt : AgentAttempt :=
  { specAttempt 1 (Utf8.encode "y") none with product := shopProduct }

def sharedSpec : Race where
  service := {}
  executor := {}
  product := shopProduct
  changeId := draftAttempt.context.change.id
  writers who := if who then .agent draftAttempt else .edit (specEdit "x") "base"
  shared who attempt writes := by
    cases who <;> cases writes
    exact ⟨rfl, rfl⟩

/-- The save lands between the collection of the attempt's files and their publication, or the attempt between the
    save's comparison and its publication: what landed first is gone from the head. -/
theorem first_edit_lost :
    ¬ Race.NoLostEdit (sharedSpec.run startedRepo [true, false, false, false, false, true]).log ∧
      ¬ Race.NoLostEdit (sharedSpec.run startedRepo [true, false, false, false, true, false]).log := by
  constructor
  · intro clean
    have pair := List.pairwise_iff_getElem.mp clean 0 1 (by decide +kernel) (by decide +kernel) (by decide)
    have held := pair "spec.md" (Utf8.encode "x") (Utf8.encode "y") (by decide +kernel) (by decide +kernel) (by decide)
    revert held
    decide +kernel
  · intro clean
    have pair := List.pairwise_iff_getElem.mp clean 0 1 (by decide +kernel) (by decide +kernel) (by decide)
    have held := pair "spec.md" (Utf8.encode "y") (Utf8.encode "x") (by decide +kernel) (by decide +kernel) (by decide)
    revert held
    decide +kernel

end DarkFactory
