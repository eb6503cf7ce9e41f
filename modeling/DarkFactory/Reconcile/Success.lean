import DarkFactory.Reconcile.Service
import DarkFactory.Runner.Finished
import DarkFactory.Runner.Ladder
import DarkFactory.State.Withdraw

namespace DarkFactory

inductive Move
  | drive (drive : Drive)
  | withdraw (input : WithdrawInput)
  | reconcile (input : PassInput)

def afterMove (store : Store) : Move → Store
  | .drive drive => afterDrive store drive
  | .withdraw input => commit (withdrawRun input) store
  | .reconcile input => commit (runPass input) store

def moved (moves : List Move) : Store := moves.foldl afterMove {}

def Move.faithful : Move → Prop
  | .drive step => step.faithful
  | .withdraw _ | .reconcile _ => True

def Completed (store : Store) (id : String) : Prop :=
  Passed store id .release ∧
    ∃ run, store.load id = some run ∧ run.status = .succeeded ∧ completionViolations run (store.loadHistory id) = []

theorem moved_snoc (moves : List Move) (move : Move) : moved (moves ++ [move]) = afterMove (moved moves) move := by
  rw [moved, List.foldl_append]
  rfl

section Steps

variable {before : Store} {id : String}

theorem afterMove_wellFormed (move : Move) (wf : WellFormed before) (faithful : move.faithful) :
    WellFormed (afterMove before move) := by
  cases move with
  | drive drive => exact afterDrive_wellFormed wf drive faithful
  | withdraw input =>
    rcases commit_cases (withdrawRun input) before with same | ⟨withdrawal, done⟩
    · rw [afterMove, same]
      exact wf
    · exact (withdrawRun_ok done).1.wellFormed wf
  | reconcile input =>
    rcases commit_cases (runPass input) before with same | ⟨report, done⟩
    · rw [afterMove, same]
      exact wf
    · exact (runPass_ok wf done).1.wellFormed wf

theorem completed_of_clean {store : Store} (passed : Passed store id .release)
    (succeeded : store.runStatus id = some .succeeded)
    (clean : ∀ row ∈ store.results, row.runId = id → row.payload.clean = true) : Completed store id := by
  obtain ⟨execution, found, status⟩ := Option.map_eq_some_iff.mp succeeded
  have loads : store.load id ≠ none := by
    simp [Store.load, found]
  obtain ⟨run, loaded⟩ := Option.ne_none_iff_exists'.mp loads
  obtain ⟨same, there, -, -, copied, -⟩ := load_some loaded
  rw [found, Option.some.injEq] at there
  rw [← there, status] at copied
  refine ⟨passed, run, loaded, copied, (completionViolations_empty run _ copied).mpr ?_⟩
  intro result listed
  obtain ⟨row, member, owner, rfl⟩ := mem_loadHistory.mp listed
  exact clean row member owner

theorem afterDrive_succeeds (drive : Drive) (wf : WellFormed before) (faithful : drive.faithful)
    (succeeded : (afterDrive before drive).runStatus id = some .succeeded) :
    before.runStatus id = some .succeeded ∨ Completed (afterDrive before drive) id := by
  rcases afterDrive_cases wf drive faithful with frame | ⟨input, -, effect⟩ |
    ⟨input, report, attempt, row, reached, -, -, effect, -⟩
  · left
    rw [runStatus_congr frame.executions] at succeeded
    exact succeeded
  · left
    by_cases own : id = input.runId
    · obtain ⟨created, there, pending, -⟩ := effect.execution_self
      rw [own, Store.runStatus, there, Option.map_some, pending] at succeeded
      cases succeeded
    · rw [Store.runStatus, effect.execution_other id own] at succeeded
      exact succeeded
  · by_cases own : id = input.runId
    · right
      subst own
      obtain ⟨revision, budget, changed⟩ := effect.execution_self
      have status : reached.runStatus = .succeeded := by
        rw [Store.runStatus, changed, Option.map_map] at succeeded
        obtain ⟨old, -, same⟩ := Option.map_eq_some_iff.mp succeeded
        exact same
      obtain ⟨last, settled⟩ := effect.released status
      have passed := effect.passes wf settled
      rw [last] at passed
      exact completed_of_clean passed succeeded fun held member owner => effect.completes wf status member owner
    · left
      rw [Store.runStatus, effect.execution_other own] at succeeded
      exact succeeded

theorem afterMove_succeeds (move : Move) (wf : WellFormed before) (faithful : move.faithful)
    (succeeded : (afterMove before move).runStatus id = some .succeeded) :
    before.runStatus id = some .succeeded ∨ Completed (afterMove before move) id ∨
      ∃ input execution, move = .reconcile input ∧ before.execution id = some execution ∧
        input.sawMerge execution := by
  cases move with
  | drive drive =>
    rcases afterDrive_succeeds drive wf faithful succeeded with earlier | completed
    · exact Or.inl earlier
    · exact Or.inr (Or.inl completed)
  | withdraw input =>
    left
    change (commit (withdrawRun input) before).runStatus id = _ at succeeded
    rcases commit_cases (withdrawRun input) before with same | ⟨withdrawal, done⟩
    · rw [same] at succeeded
      exact succeeded
    · rcases (withdrawRun_ok done).2 id with unmoved | ⟨-, canceled⟩
      · rw [← unmoved]
        exact succeeded
      · rw [canceled] at succeeded
        cases succeeded
  | reconcile input =>
    change (commit (runPass input) before).runStatus id = _ at succeeded
    rcases commit_cases (runPass input) before with same | ⟨report, done⟩
    · rw [same] at succeeded
      exact Or.inl succeeded
    · rcases (runPass_ok wf done).2 id succeeded with earlier | ⟨execution, found, saw⟩
      · exact Or.inl earlier
      · exact Or.inr (Or.inr ⟨input, execution, rfl, found, saw⟩)

end Steps

theorem moved_wellFormed {moves : List Move} (faithful : ∀ move ∈ moves, move.faithful) :
    WellFormed (moved moves) := by
  have along : Trace.Along afterMove (fun _ move => move.faithful) {} moves :=
    Trace.along_of_forall fun move member _ => faithful move member
  exact Trace.invariant (fun _ move held met => afterMove_wellFormed move held met) WellFormed.empty along

/-- In any interleaving of the driver, the operator and the reconciler, a run becomes succeeded through its
    release, with nothing left open in its results, or by a pass that recorded an observed merge of a
    running run. -/
theorem success_through_release_or_merge {moves : List Move} (faithful : ∀ move ∈ moves, move.faithful)
    {earlier later : List Move} {move : Move} (split : moves = earlier ++ move :: later) {id : String}
    (before : (moved earlier).runStatus id ≠ some .succeeded)
    (after : (moved (earlier ++ [move])).runStatus id = some .succeeded) :
    Completed (moved (earlier ++ [move])) id ∨
      ∃ input execution, move = .reconcile input ∧ (moved earlier).execution id = some execution ∧
        input.sawMerge execution := by
  subst split
  have wf : WellFormed (moved earlier) := moved_wellFormed fun held listed => faithful held (by simp [listed])
  rw [moved_snoc] at after ⊢
  rcases afterMove_succeeds move wf (faithful move (by simp)) after with already | completed | recorded
  · exact absurd already before
  · exact Or.inl completed
  · exact Or.inr recorded

def watchedToMerge : List Move :=
  .reconcile { ownerId := "reconciler-1", now := 0, globalLeasedAt := 0, leasedAt := fun _ => 0 } ::
    (quickToReview ++ [Drive.advance quickMerge]).map Move.drive

theorem quick_release_completes :
    Completed (moved (watchedToMerge ++ [.drive (.advance quickRelease)])) quickRun.runId := by
  have faithful : ∀ move ∈ watchedToMerge ++ [.drive (.advance quickRelease)], move.faithful := by
    intro move member
    have listed : move ∈ Move.reconcile
        { ownerId := "reconciler-1", now := 0, globalLeasedAt := 0, leasedAt := fun _ => 0 } ::
          quickReleased.map Move.drive := member
    rcases List.mem_cons.mp listed with rfl | driven
    · trivial
    · obtain ⟨drive, held, rfl⟩ := List.mem_map.mp driven
      exact quickReleased_faithful drive held
  have status : (moved watchedToMerge).runStatus quickRun.runId = some .running ∧
      (moved (watchedToMerge ++ [.drive (.advance quickRelease)])).runStatus quickRun.runId =
        some .succeeded := by decide +kernel
  have unfinished : (moved watchedToMerge).runStatus quickRun.runId ≠ some .succeeded := by
    rw [status.1]
    decide
  rcases success_through_release_or_merge faithful rfl unfinished status.2 with completed | ⟨input, _, other, -⟩
  · exact completed
  · cases other

def mergedSeen : PassInput :=
  { ownerId := "reconciler-1", now := 2, globalLeasedAt := 2, leasedAt := fun _ => 2
    observer := some fun _ _ => some { changeRequest := some { status := .merged } } }

/-- A worker that was handed the specification and answers for the release. -/
def strayRelease : AdvanceInput :=
  { scripted quickRun.runId 1 "c1" { status := .succeeded, nextAction := .release "staging" none } with
    executor := fun context => .ok
      { (Answer.result { status := .succeeded, nextAction := .release "staging" none
                         gateResults := [Gate.passed .release] } context 1) with stage := .release } }

/-- Two runs that succeed without a succeeded release row: one recorded merged at its planning, one whose
    worker answered for another stage. -/
theorem success_without_release :
    (moved ((quickToReview.take 2).map Move.drive)).runStatus quickRun.runId = some .running ∧
      (moved ((quickToReview.take 2).map Move.drive ++ [.reconcile mergedSeen])).runStatus quickRun.runId =
        some .succeeded ∧
      (moved ((quickToReview.take 2).map Move.drive ++ [.reconcile mergedSeen])).progress =
        [(.specification, "c0", .succeeded), (.planning, "c1", .pending)] ∧
      (moved [.drive (.create quickRun), .drive (.advance strayRelease)]).runStatus quickRun.runId =
        some .succeeded ∧
      (moved [.drive (.create quickRun), .drive (.advance strayRelease)]).progress =
        [(.specification, "c0", .succeeded), (.release, "c1", .pending)] := by
  decide +kernel

end DarkFactory
