import Mathlib.Data.List.Induction
import DarkFactory.Changes.Run
import DarkFactory.Lib.Table

namespace DarkFactory

/-- `findings[finding.id] = finding` -/
def storeFinding (findings : List Finding) (finding : Finding) : List Finding :=
  Table.update Finding.id finding.id (fun _ => finding) (Table.insertNew Finding.id finding findings)

def findingsById (results : List StageResult) : List Finding :=
  results.foldl (fun findings result => result.findings.foldl storeFinding findings) []

def openBlockerCount (results : List StageResult) : Nat := (findingsById results).countP Finding.openBlocker

def openBlockerViolations (run : ChangeRun) (results : List StageResult) : List String :=
  (completionViolations run results).filter fun violation => Text.startsWith violation "open blocker finding "

/-- The findings of one id are all open blockers or none is. -/
def SteadyFindings (results : List StageResult) : Prop :=
  ∀ finding ∈ results.flatMap StageResult.findings, ∀ other ∈ results.flatMap StageResult.findings,
    finding.id = other.id → finding.openBlocker = other.openBlocker

section Count

variable {findings : List Finding} {finding other : Finding} {results : List StageResult} {run : ChangeRun}

theorem mem_storeFinding : other ∈ storeFinding findings finding ↔
    other = finding ∨ other ∈ findings ∧ other.id ≠ finding.id := by
  have present : ∃ row ∈ Table.insertNew Finding.id finding findings, row.id = finding.id := by
    have found := @Table.find_insertNew_self _ _ _ Finding.id finding findings
    obtain ⟨member, own⟩ := Table.find_some found
    exact ⟨_, member, own⟩
  rw [storeFinding, Table.mem_update, Table.mem_insertNew, or_comm]
  refine or_congr ⟨fun ⟨_, _, _, same⟩ => same, ?_⟩ (and_congr_left fun apart => or_iff_left ?_)
  · rintro rfl
    obtain ⟨row, member, own⟩ := present
    exact ⟨row, member, own, rfl⟩
  · rintro ⟨-, rfl⟩
    exact apart rfl

theorem mem_storeFindings {more : List Finding} : other ∈ more.foldl storeFinding findings ↔
    (more.filter (·.id = other.id)).getLast? = some other ∨
      other ∈ findings ∧ ∀ later ∈ more, later.id ≠ other.id := by
  induction more using List.reverseRecOn with
  | nil => simp
  | append_singleton more last ih =>
    rw [List.foldl_append, List.foldl_cons, List.foldl_nil, mem_storeFinding, ih, List.filter_append, List.forall_mem_append,
      List.forall_mem_singleton]
    by_cases own : last.id = other.id
    · have only : [last].filter (·.id = other.id) = [last] := List.filter_cons_of_pos (decide_eq_true own)
      rw [only, List.getLast?_concat, Option.some.injEq, eq_comm]
      exact or_congr_right ⟨fun both => absurd own.symm both.2, fun both => absurd own both.2.2⟩
    · have none : [last].filter (·.id = other.id) = [] := List.filter_cons_of_neg (by simpa using own)
      have apart : other ≠ last := by
        rintro rfl
        exact own rfl
      rw [none, List.append_nil, or_iff_right apart, and_iff_left (Ne.symm own), and_iff_left own]

theorem findingsById_flat : findingsById results = (results.flatMap StageResult.findings).foldl storeFinding [] := by
  unfold findingsById
  rw [List.foldl_flatMap]

theorem mem_findingsById : other ∈ findingsById results ↔
    ((results.flatMap StageResult.findings).filter (·.id = other.id)).getLast? = some other := by
  rw [findingsById_flat, mem_storeFindings]
  simp

theorem openBlockerCount_zero : openBlockerCount results = 0 ↔ ∀ finding,
    ((results.flatMap StageResult.findings).filter (·.id = finding.id)).getLast? = some finding →
      finding.openBlocker = false := by
  unfold openBlockerCount
  rw [List.countP_eq_zero]
  simp only [mem_findingsById, Bool.not_eq_true]

theorem evidence_text {text : String} : Text.startsWith ("required evidence " ++ text) "open blocker finding " = false := by
  rw [Text.startsWith, String.toList_append]
  rfl

theorem finding_text {text : String} : Text.startsWith ("open blocker finding " ++ text) "open blocker finding " = true := by
  rw [Text.startsWith, String.toList_append, List.isPrefixOf_iff_prefix]
  exact List.prefix_append _ _

theorem openBlockerViolations_empty (succeeded : run.status = .succeeded) : openBlockerViolations run results = [] ↔
    ∀ finding ∈ results.flatMap StageResult.findings, finding.openBlocker = false := by
  unfold openBlockerViolations completionViolations
  rw [if_neg (by simp [succeeded]), List.filter_eq_nil_iff]
  constructor
  · intro none finding member
    obtain ⟨result, listed, inside⟩ := List.mem_flatMap.mp member
    rw [Bool.eq_false_iff]
    intro blocks
    have violation : s!"open blocker finding {Text.repr finding.id} of stage {result.stage.value}" ∈
        results.flatMap resultViolations := by
      refine List.mem_flatMap.mpr ⟨result, listed, List.mem_append_right _ ?_⟩
      exact List.mem_map.mpr ⟨finding, List.mem_filter.mpr ⟨inside, blocks⟩, rfl⟩
    refine none _ violation ?_
    simp only [toString, String.append_assoc]
    exact finding_text
  · intro clean violation member
    obtain ⟨result, listed, violates⟩ := List.mem_flatMap.mp member
    rcases List.mem_append.mp violates with evidence | blocked
    · obtain ⟨item, -, rfl⟩ := List.mem_map.mp evidence
      simp only [toString, String.append_assoc]
      rw [evidence_text]
      decide
    · obtain ⟨finding, filtered, -⟩ := List.mem_map.mp blocked
      obtain ⟨inside, blocks⟩ := List.mem_filter.mp filtered
      rw [clean finding (List.mem_flatMap.mpr ⟨result, listed, inside⟩)] at blocks
      cases blocks

theorem openBlockerCount_clean (clean : ∀ finding ∈ results.flatMap StageResult.findings, finding.openBlocker = false) :
    openBlockerCount results = 0 := by
  rw [openBlockerCount_zero]
  intro finding last
  exact clean finding (List.mem_filter.mp (List.mem_of_getLast? last)).1

theorem openBlockerCount_steady (steady : SteadyFindings results) (zero : openBlockerCount results = 0) :
    ∀ finding ∈ results.flatMap StageResult.findings, finding.openBlocker = false := by
  intro finding member
  have occupied : (results.flatMap StageResult.findings).filter (·.id = finding.id) ≠ [] :=
    List.ne_nil_of_mem (List.mem_filter.mpr ⟨member, decide_eq_true rfl⟩)
  have last := List.getLast?_eq_some_getLast occupied
  obtain ⟨listed, own⟩ := List.mem_filter.mp (List.getLast_mem occupied)
  have same := of_decide_eq_true own
  rw [steady finding member _ listed same.symm]
  refine openBlockerCount_zero.mp zero _ ?_
  rw [same]
  exact last

end Count

/-- A run that has not succeeded has no violation. A run that has counts no open blocker where it has no violation, and
    the two agree where the findings of each id do. -/
theorem blocker_count_agrees (run : ChangeRun) (results : List StageResult) :
    (run.status ≠ .succeeded → openBlockerViolations run results = []) ∧
    (run.status = .succeeded → openBlockerViolations run results = [] → openBlockerCount results = 0) ∧
    (run.status = .succeeded → SteadyFindings results →
      (openBlockerCount results = 0 ↔ openBlockerViolations run results = [])) := by
  refine ⟨fun unfinished => ?_, fun succeeded none => ?_, fun succeeded steady => ?_⟩
  · unfold openBlockerViolations completionViolations
    rw [if_pos unfinished, List.filter_nil]
  · exact openBlockerCount_clean ((openBlockerViolations_empty succeeded).mp none)
  · rw [openBlockerViolations_empty succeeded]
    exact ⟨openBlockerCount_steady steady, openBlockerCount_clean⟩

def blockerResult (status : FindingStatus) : StageResult :=
  { stage := .construction, runId := "run-1", changeId := "CHG-1", status := .failed, nextAction := .stop .failed "blocked by finding-1"
    findings := [{ id := "finding-1", origin := .ci, severity := .blocker, status }], producedAt := 0 }

def finishedRun (status : RunStatus) : ChangeRun :=
  { id := "run-1", changeId := "CHG-1", route := .quick, provider := .github, status }

theorem open_blocker_counted : openBlockerCount [blockerResult .open, blockerResult .open] = 1 ∧
    openBlockerViolations (finishedRun .succeeded) [blockerResult .open, blockerResult .open] ≠ [] := by
  have counted : openBlockerCount [blockerResult .open, blockerResult .open] = 1 := by decide
  have steady : SteadyFindings [blockerResult .open, blockerResult .open] := by
    unfold SteadyFindings
    decide
  have agrees := (blocker_count_agrees (finishedRun .succeeded) [blockerResult .open, blockerResult .open]).2.2 rfl steady
  refine ⟨counted, fun none => ?_⟩
  rw [← agrees, counted] at none
  cases none

/-- A run that has not succeeded has no violation; a resolved blocker is not counted and still a violation. -/
theorem blocker_count_disagrees :
    ¬ (openBlockerCount [blockerResult .open] = 0 ↔ openBlockerViolations (finishedRun .running) [blockerResult .open] = []) ∧
    ¬ (openBlockerCount [blockerResult .open, blockerResult .resolved] = 0 ↔
      openBlockerViolations (finishedRun .succeeded) [blockerResult .open, blockerResult .resolved] = []) := by
  decide +kernel

end DarkFactory
