import DarkFactory.Lib.Trace
import DarkFactory.Runner.Advance

namespace DarkFactory

inductive Drive
  | create (input : CreateInput)
  | advance (input : AdvanceInput)

def Drive.perform : Drive → Session (Option RunAdvance)
  | .create input => do
    let _ ← createRun input
    pure none
  | .advance input => some <$> advanceRun input

def afterDrive (store : Store) (drive : Drive) : Store := commit drive.perform store

def driven (drives : List Drive) : Store := drives.foldl afterDrive {}

theorem driven_snoc (drives : List Drive) (drive : Drive) :
    driven (drives ++ [drive]) = afterDrive (driven drives) drive := by
  rw [driven, List.foldl_append]
  rfl

theorem afterDrive_create (input : CreateInput) (store : Store) :
    afterDrive store (.create input) = store ∨
      ∃ run, createRun input store = .ok run (afterDrive store (.create input)) := by
  rw [afterDrive]
  rcases commit_cases (Drive.create input).perform store with same | ⟨value, done⟩
  · exact Or.inl same
  · obtain ⟨run, made, creating, returned⟩ := Outcome.state_bind_ok.mp done
    rw [← (Outcome.state_pure_ok.mp returned).2]
    exact Or.inr ⟨run, creating⟩

theorem afterDrive_advance (input : AdvanceInput) (store : Store) :
    afterDrive store (.advance input) = store ∨
      ∃ report, advanceRun input store = .ok report (afterDrive store (.advance input)) := by
  rw [afterDrive, Drive.perform, map_eq_pure_bind]
  rcases commit_cases (advanceRun input >>= fun report => pure (some report)) store with same | ⟨value, done⟩
  · exact Or.inl same
  · obtain ⟨report, made, advancing, returned⟩ := Outcome.state_bind_ok.mp done
    rw [← (Outcome.state_pure_ok.mp returned).2]
    exact Or.inr ⟨report, advancing⟩

def reportOf (input : AdvanceInput) (store : Store) : Option RunAdvance :=
  match advanceRun input store with
  | .ok report _ => some report
  | .error _ _ => none

end DarkFactory
