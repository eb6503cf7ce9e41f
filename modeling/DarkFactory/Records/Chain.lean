import DarkFactory.Records.Publish

namespace DarkFactory

def unresolvedReference (id : String) : String := "unresolved evidence reference: " ++ id

def conflictingDuplicate (id : String) : String := "duplicate evidence id with conflicting source: " ++ id

def Evidence.source (item : Evidence) : String × Option String := (item.uri, item.checksum)

def StageResult.references (result : StageResult) : List String :=
  referencedEvidenceIds result.gateResults result.findings

def StageResult.Declares (result : StageResult) (id : String) : Prop := ∃ item ∈ result.evidence, item.id = id

namespace RunRecord

def Declared (record : RunRecord) (id : String) : Prop := ∃ result ∈ record.stageResults, result.Declares id

def Referenced (record : RunRecord) (id : String) : Prop :=
  (∃ result ∈ record.stageResults, id ∈ result.references) ∨ ∃ decision ∈ record.decisions, id ∈ decision.evidenceIds

def Conflicting (record : RunRecord) (id : String) : Prop :=
  ∃ item ∈ record.stageResults.flatMap StageResult.evidence, ∃ other ∈ record.stageResults.flatMap StageResult.evidence,
    item.id = id ∧ other.id = id ∧ item.source ≠ other.source

def DeclaredFirst (record : RunRecord) : Prop :=
  ∀ before result after, record.stageResults = before ++ result :: after → ∀ id ∈ result.references,
    record.Declared id → ∃ earlier ∈ before ++ [result], earlier.Declares id

def DeclaredOwn (record : RunRecord) : Prop :=
  ∀ result ∈ record.stageResults, ∀ id ∈ result.references, record.Declared id → result.Declares id

structure Reordered (record other : RunRecord) : Prop where
  results : other.stageResults.Perm record.stageResults
  decisions : other.decisions = record.decisions

def SameDefects (record other : RunRecord) : Prop :=
  ∀ id, (unresolvedReference id ∈ evidenceChainViolations other ↔
      unresolvedReference id ∈ evidenceChainViolations record) ∧
    (conflictingDuplicate id ∈ evidenceChainViolations other ↔
      conflictingDuplicate id ∈ evidenceChainViolations record)

end RunRecord

section Texts

variable {id other : String}

theorem unresolvedReference_injective (same : unresolvedReference id = unresolvedReference other) : id = other :=
  (String.append_right_inj _).mp same

theorem conflictingDuplicate_injective (same : conflictingDuplicate id = conflictingDuplicate other) : id = other :=
  (String.append_right_inj _).mp same

/-- The texts of the chain's defects by their first letters. -/
theorem head_text {text front : String} {c : Char} (starts : front.toList.head? = some c) :
    (front ++ text).toList.head? = some c := by
  rw [String.toList_append, List.head?_append, starts]
  rfl

theorem completionViolations_head {run : ChangeRun} {results : List StageResult} {text : String}
    (member : text ∈ completionViolations run results) : text.toList.head? = some 'r' ∨ text.toList.head? = some 'o' := by
  unfold completionViolations at member
  split at member
  · cases member
  · obtain ⟨result, -, listed⟩ := List.mem_flatMap.mp member
    unfold resultViolations at listed
    rcases List.mem_append.mp listed with evidence | findings
    · obtain ⟨item, -, rfl⟩ := List.mem_map.mp evidence
      left
      simp only [toString, String.append_assoc]
      exact head_text rfl
    · obtain ⟨finding, -, rfl⟩ := List.mem_map.mp findings
      right
      simp only [toString, String.append_assoc]
      exact head_text rfl

theorem unresolvedReference_head (id : String) : (unresolvedReference id).toList.head? = some 'u' := head_text rfl

theorem conflictingDuplicate_head (id : String) : (conflictingDuplicate id).toList.head? = some 'd' := head_text rfl

end Texts

section Scan

variable {strict : Bool} {scan : ChainScan} {item : Evidence} {items : List Evidence} {result : StageResult} {id : String}

theorem text_apart {text front other : String} {c d : Char} (starts : text.toList.head? = some c)
    (begins : front.toList.head? = some d) (apart : c ≠ d) : text ≠ front ++ other := by
  rintro rfl
  rw [head_text begins, Option.some.injEq] at starts
  exact apart starts.symm

theorem unresolved_declare : unresolvedReference id ∈ (scan.declare strict item).violations ↔
    unresolvedReference id ∈ scan.violations := by
  have first := unresolvedReference_head id
  have conflict : unresolvedReference id ≠ "duplicate evidence id with conflicting source: " ++ item.id :=
    text_apart first rfl (by decide)
  have unchecked : unresolvedReference id ≠ "required evidence without a checksum: " ++ item.id :=
    text_apart first rfl (by decide)
  have mutable : unresolvedReference id ≠ "evidence URI is not immutable: " ++ item.id :=
    text_apart first rfl (by decide)
  simp only [ChainScan.declare, List.mem_append, List.mem_ite_nil_right, List.mem_singleton, conflict, unchecked, mutable,
    and_false, or_false]

theorem conflict_declare : conflictingDuplicate id ∈ (scan.declare strict item).violations ↔
    conflictingDuplicate id ∈ scan.violations ∨
      item.id = id ∧ ∃ previous, scan.declared.lookup id = some previous ∧ previous ≠ item.source := by
  have first := conflictingDuplicate_head id
  have unchecked : conflictingDuplicate id ≠ "required evidence without a checksum: " ++ item.id :=
    text_apart first rfl (by decide)
  have mutable : conflictingDuplicate id ≠ "evidence URI is not immutable: " ++ item.id :=
    text_apart first rfl (by decide)
  have own : conflictingDuplicate id = "duplicate evidence id with conflicting source: " ++ item.id ↔ item.id = id :=
    ⟨fun same => (conflictingDuplicate_injective same).symm, fun same => same ▸ rfl⟩
  simp only [ChainScan.declare, List.mem_append, List.mem_ite_nil_right, List.mem_singleton, own, unchecked, mutable,
    and_false, or_false, Option.any_eq_true, decide_eq_true_eq]
  refine or_congr_right ⟨?_, ?_⟩
  · rintro ⟨⟨previous, held, apart⟩, rfl⟩
    exact ⟨rfl, previous, held, apart⟩
  · rintro ⟨rfl, previous, held, apart⟩
    exact ⟨⟨previous, held, apart⟩, rfl⟩

theorem unresolved_refer {references : List String} : unresolvedReference id ∈ (scan.refer references).violations ↔
    unresolvedReference id ∈ scan.violations ∨ id ∈ references ∧ scan.declared.lookup id = none := by
  simp only [ChainScan.refer, List.mem_append, List.mem_map, List.mem_filter, Option.isNone_iff_eq_none]
  refine or_congr_right ⟨?_, fun found => ⟨id, found, rfl⟩⟩
  rintro ⟨reference, found, same⟩
  rw [unresolvedReference_injective same.symm]
  exact found

theorem conflict_refer {references : List String} : conflictingDuplicate id ∈ (scan.refer references).violations ↔
    conflictingDuplicate id ∈ scan.violations := by
  simp only [ChainScan.refer, List.mem_append, List.mem_map]
  refine or_iff_left ?_
  rintro ⟨reference, -, same⟩
  exact text_apart (conflictingDuplicate_head id) rfl (by decide) same.symm

structure Scanned (items : List Evidence) (scan : ChainScan) : Prop where
  latest : ∀ id, scan.declared.lookup id = ((items.filter (·.id = id)).getLast?).map Evidence.source
  conflicts : ∀ id, conflictingDuplicate id ∈ scan.violations ↔
    ∃ item ∈ items, ∃ other ∈ items, item.id = id ∧ other.id = id ∧ item.source ≠ other.source

theorem Scanned.declare (strict : Bool) (item : Evidence) (scanned : Scanned items scan) : Scanned (items ++ [item]) (scan.declare strict item) := by
  constructor
  · intro id
    rw [ChainScan.declare, List.lookup_cons, List.filter_append, List.getLast?_append]
    by_cases own : item.id = id
    · simp [own, Evidence.source]
    · have apart : (id == item.id) = false := by simpa using Ne.symm own
      simp [own, apart, scanned.latest]
  · intro id
    rw [conflict_declare, scanned.conflicts, scanned.latest]
    constructor
    · rintro (⟨first, member, second, also, here, there, apart⟩ | ⟨own, previous, held, apart⟩)
      · exact ⟨first, List.mem_append_left _ member, second, List.mem_append_left _ also, here, there, apart⟩
      · obtain ⟨last, found, rfl⟩ := Option.map_eq_some_iff.mp held
        obtain ⟨listed, same⟩ := List.mem_filter.mp (List.mem_of_getLast? found)
        exact ⟨last, List.mem_append_left _ listed, item, by simp, of_decide_eq_true same, own, apart⟩
    · rintro ⟨first, member, second, also, here, there, apart⟩
      by_cases early : ∃ first ∈ items, ∃ second ∈ items, first.id = id ∧ second.id = id ∧ first.source ≠ second.source
      · exact Or.inl early
      · -- all earlier sources of the id are one, so the new one differs from the last
        have agree (first second : Evidence) (member : first ∈ items) (also : second ∈ items) (here : first.id = id)
            (there : second.id = id) : first.source = second.source := by
          by_contra differs
          exact early ⟨first, member, second, also, here, there, differs⟩
        have differs (old : Evidence) (listed : old ∈ items) (named : old.id = id) (own : item.id = id)
            (apart : old.source ≠ item.source) :
            ∃ previous, ((items.filter (·.id = id)).getLast?).map Evidence.source = some previous ∧
              previous ≠ item.source := by
          have occupied : items.filter (·.id = id) ≠ [] :=
            List.ne_nil_of_mem (List.mem_filter.mpr ⟨listed, decide_eq_true named⟩)
          have found := List.getLast?_eq_some_getLast occupied
          obtain ⟨present, same⟩ := List.mem_filter.mp (List.mem_of_getLast? found)
          refine ⟨_, by rw [found, Option.map_some], ?_⟩
          rw [agree _ old present listed (of_decide_eq_true same) named]
          exact apart
        rw [List.mem_append, List.mem_singleton] at member also
        rcases member with member | rfl
        · rcases also with also | rfl
          · exact absurd (agree first second member also here there) apart
          · exact Or.inr ⟨there, differs first member here there apart⟩
        · rcases also with also | rfl
          · exact Or.inr ⟨here, differs second also there here apart.symm⟩
          · exact absurd rfl apart

theorem scanned_declares (strict : Bool) (more : List Evidence) (scanned : Scanned items scan) :
    Scanned (items ++ more) (more.foldl (ChainScan.declare strict) scan) := by
  induction more generalizing items scan with
  | nil =>
    rw [List.append_nil]
    exact scanned
  | cons item rest ih =>
    have later := ih (scanned.declare strict item)
    rw [List.append_assoc, List.singleton_append] at later
    exact later

theorem unresolved_declares {more : List Evidence} :
    unresolvedReference id ∈ (more.foldl (ChainScan.declare strict) scan).violations ↔
      unresolvedReference id ∈ scan.violations := by
  induction more generalizing scan with
  | nil => rfl
  | cons item rest ih => rw [List.foldl_cons, ih, unresolved_declare]

theorem Scanned.undeclared (scanned : Scanned items scan) :
    scan.declared.lookup id = none ↔ ∀ item ∈ items, item.id ≠ id := by
  rw [scanned.latest, Option.map_eq_none_iff, List.getLast?_eq_none_iff, List.filter_eq_nil_iff]
  simp only [decide_eq_true_eq, ne_eq]

theorem Scanned.stageResult (strict : Bool) (result : StageResult) (scanned : Scanned items scan) : Scanned (items ++ result.evidence) (scan.result strict result) := by
  have declared := scanned_declares strict result.evidence scanned
  refine ⟨declared.latest, fun id => ?_⟩
  rw [ChainScan.result, conflict_refer, List.mem_append]
  refine (or_iff_left ?_).trans (declared.conflicts id)
  intro member
  obtain ⟨artifact, -, same⟩ := List.mem_map.mp member
  exact text_apart (conflictingDuplicate_head id) rfl (by decide) same.symm

theorem Scanned.unresolved (scanned : Scanned items scan) :
    unresolvedReference id ∈ (scan.result strict result).violations ↔ unresolvedReference id ∈ scan.violations ∨
      id ∈ result.references ∧ ∀ item ∈ items ++ result.evidence, item.id ≠ id := by
  have declared := scanned_declares strict result.evidence scanned
  rw [ChainScan.result, unresolved_refer, List.mem_append, unresolved_declares, declared.undeclared, or_assoc]
  refine or_congr_right (or_iff_right ?_)
  intro member
  obtain ⟨artifact, -, same⟩ := List.mem_map.mp member
  exact text_apart (unresolvedReference_head id) rfl (by decide) same.symm

theorem scanned_results (strict : Bool) (results : List StageResult) (scanned : Scanned items scan) :
    Scanned (items ++ results.flatMap StageResult.evidence) (results.foldl (ChainScan.result strict) scan) := by
  induction results generalizing items scan with
  | nil =>
    rw [List.flatMap_nil, List.append_nil]
    exact scanned
  | cons first rest ih =>
    have later := ih (scanned.stageResult strict first)
    rw [List.append_assoc] at later
    exact later

theorem unresolved_results {results : List StageResult} (scanned : Scanned items scan) :
    unresolvedReference id ∈ (results.foldl (ChainScan.result strict) scan).violations ↔
      unresolvedReference id ∈ scan.violations ∨ ∃ before result after, results = before ++ result :: after ∧
        id ∈ result.references ∧ (∀ item ∈ items, item.id ≠ id) ∧ ∀ earlier ∈ before ++ [result], ¬ earlier.Declares id := by
  induction results generalizing items scan with
  | nil => simp
  | cons first rest ih =>
    have here : (∀ item ∈ items ++ first.evidence, item.id ≠ id) ↔ (∀ item ∈ items, item.id ≠ id) ∧ ¬ first.Declares id := by
      rw [List.forall_mem_append]
      refine and_congr_right fun _ => ?_
      simp only [StageResult.Declares, not_exists, not_and, ne_eq]
    rw [List.foldl_cons, ih (scanned.stageResult strict first), scanned.unresolved, here, or_assoc]
    refine or_congr_right ?_
    constructor
    · rintro (⟨refers, free, own⟩ | ⟨before, result, after, rfl, refers, free, undeclared⟩)
      · exact ⟨[], first, rest, rfl, refers, free, by simpa using own⟩
      · obtain ⟨free, own⟩ := free
        exact ⟨first :: before, result, after, rfl, refers, free, List.forall_mem_cons.mpr ⟨own, undeclared⟩⟩
    · rintro ⟨before, result, after, split, refers, free, undeclared⟩
      cases before with
      | nil =>
        obtain ⟨rfl, rfl⟩ := List.cons.inj split
        exact Or.inl ⟨refers, free, undeclared _ (by simp)⟩
      | cons head before =>
        obtain ⟨rfl, rfl⟩ := List.cons.inj split
        obtain ⟨own, others⟩ := List.forall_mem_cons.mp undeclared
        exact Or.inr ⟨before, result, after, rfl, refers, ⟨free, own⟩, others⟩

theorem unresolved_refers {decisions : List Decision} :
    unresolvedReference id ∈ (decisions.foldl (fun scan decision => scan.refer decision.evidenceIds) scan).violations ↔
      unresolvedReference id ∈ scan.violations ∨
        (∃ decision ∈ decisions, id ∈ decision.evidenceIds) ∧ scan.declared.lookup id = none := by
  induction decisions generalizing scan with
  | nil => simp
  | cons first rest ih =>
    have kept : (scan.refer first.evidenceIds).declared = scan.declared := rfl
    rw [List.foldl_cons, ih, unresolved_refer, kept, or_assoc, List.exists_mem_cons_iff, or_and_right]

theorem conflict_refers {decisions : List Decision} :
    conflictingDuplicate id ∈ (decisions.foldl (fun scan decision => scan.refer decision.evidenceIds) scan).violations ↔
      conflictingDuplicate id ∈ scan.violations := by
  induction decisions generalizing scan with
  | nil => rfl
  | cons first rest ih => rw [List.foldl_cons, ih, conflict_refer]

end Scan

namespace RunRecord

variable {record other : RunRecord} {id : String}

theorem scanned_start (record : RunRecord) :
    Scanned [] { violations := completionViolations record.run record.stageResults } := by
  refine ⟨fun id => rfl, fun id => ⟨fun member => ?_, by simp⟩⟩
  have first := conflictingDuplicate_head id
  rcases completionViolations_head member with other | other <;> exact absurd (first.symm.trans other) (by decide)

theorem unresolved_start (record : RunRecord) :
    unresolvedReference id ∉ completionViolations record.run record.stageResults := by
  intro member
  have first := unresolvedReference_head id
  rcases completionViolations_head member with other | other <;> exact absurd (first.symm.trans other) (by decide)

theorem declared_iff : record.Declared id ↔ ∃ item ∈ record.stageResults.flatMap StageResult.evidence, item.id = id := by
  simp only [Declared, StageResult.Declares, List.mem_flatMap]
  constructor
  · rintro ⟨result, member, item, listed, own⟩
    exact ⟨item, ⟨result, member, listed⟩, own⟩
  · rintro ⟨item, ⟨result, member, listed⟩, own⟩
    exact ⟨result, member, item, listed, own⟩

theorem conflict_iff : conflictingDuplicate id ∈ evidenceChainViolations record ↔ record.Conflicting id := by
  unfold evidenceChainViolations
  rw [conflict_refers]
  exact (scanned_results _ _ (scanned_start record)).conflicts id

theorem unresolved_iff : unresolvedReference id ∈ evidenceChainViolations record ↔
    (∃ before result after, record.stageResults = before ++ result :: after ∧ id ∈ result.references ∧
      ∀ earlier ∈ before ++ [result], ¬ earlier.Declares id) ∨
    (∃ decision ∈ record.decisions, id ∈ decision.evidenceIds) ∧ ¬ record.Declared id := by
  have whole := scanned_results (record.run.status = .succeeded) record.stageResults (scanned_start record)
  have undeclared := @Scanned.undeclared _ _ id whole
  rw [List.nil_append] at undeclared
  unfold evidenceChainViolations
  rw [unresolved_refers, unresolved_results (scanned_start record), undeclared, declared_iff]
  simp [unresolved_start record]

theorem unresolved_of_undeclared (referenced : record.Referenced id) (undeclared : ¬ record.Declared id) :
    unresolvedReference id ∈ evidenceChainViolations record := by
  rw [unresolved_iff]
  rcases referenced with ⟨result, member, refers⟩ | decided
  · obtain ⟨before, after, split⟩ := List.append_of_mem member
    refine Or.inl ⟨before, result, after, split, refers, ?_⟩
    intro earlier listed declares
    refine undeclared ⟨earlier, ?_, declares⟩
    rw [split]
    rcases List.mem_append.mp listed with old | own
    · exact List.mem_append_left _ old
    · rw [List.mem_singleton.mp own]
      simp
  · exact Or.inr ⟨decided, undeclared⟩

theorem referenced_of_unresolved (reported : unresolvedReference id ∈ evidenceChainViolations record) :
    record.Referenced id := by
  rcases unresolved_iff.mp reported with ⟨before, result, after, split, refers, -⟩ | ⟨decided, -⟩
  · exact Or.inl ⟨result, by rw [split]; simp, refers⟩
  · exact Or.inr decided

theorem exact_iff : (∀ id, unresolvedReference id ∈ evidenceChainViolations record ↔
    record.Referenced id ∧ ¬ record.Declared id) ↔ record.DeclaredFirst := by
  constructor
  · intro exact before result after split id refers declared
    by_contra none
    push Not at none
    exact ((exact id).mp (unresolved_iff.mpr (Or.inl ⟨before, result, after, split, refers, none⟩))).2 declared
  · intro first id
    refine ⟨fun reported => ⟨referenced_of_unresolved reported, ?_⟩, fun both => unresolved_of_undeclared both.1 both.2⟩
    intro declared
    rcases unresolved_iff.mp reported with ⟨before, result, after, split, refers, none⟩ | ⟨-, undeclared⟩
    · obtain ⟨earlier, listed, declares⟩ := first before result after split id refers declared
      exact none earlier listed declares
    · exact undeclared declared

/-! ## Other orders of the stage results -/

theorem Reordered.declared (reordered : Reordered record other) : other.Declared id ↔ record.Declared id := by
  simp only [Declared, reordered.results.mem_iff]

theorem Reordered.referenced (reordered : Reordered record other) : other.Referenced id ↔ record.Referenced id := by
  simp only [Referenced, reordered.results.mem_iff, reordered.decisions]

theorem Reordered.conflicting (reordered : Reordered record other) : other.Conflicting id ↔ record.Conflicting id := by
  have listed (item : Evidence) : item ∈ other.stageResults.flatMap StageResult.evidence ↔
      item ∈ record.stageResults.flatMap StageResult.evidence := by
    simp only [List.mem_flatMap, reordered.results.mem_iff]
  simp only [Conflicting, listed]

theorem DeclaredOwn.first (own : record.DeclaredOwn) : record.DeclaredFirst := by
  intro before result after split id refers declared
  exact ⟨result, by simp, own result (by rw [split]; simp) id refers declared⟩

theorem DeclaredOwn.reordered (own : record.DeclaredOwn) (reordered : Reordered record other) : other.DeclaredOwn := by
  intro result member id refers declared
  exact own result (reordered.results.mem_iff.mp member) id refers (reordered.declared.mp declared)

/-- The defects are the same in every order exactly where each stage result declares what it references. -/
theorem sameDefects_iff : (∀ other, Reordered record other → record.SameDefects other) ↔ record.DeclaredOwn := by
  constructor
  · intro same result member id refers declared
    by_contra absent
    obtain ⟨source, listed, declares⟩ := declared
    have apart : source ≠ result := by
      rintro rfl
      exact absent declares
    -- with the referring result in front the reference is reported, with the declaring one it is not
    have referring : Reordered record { record with stageResults := result :: record.stageResults.erase result } :=
      ⟨(List.perm_cons_erase member).symm, rfl⟩
    have declaring : Reordered record { record with stageResults := source :: record.stageResults.erase source } :=
      ⟨(List.perm_cons_erase listed).symm, rfl⟩
    have reported := unresolved_iff.mpr (Or.inl ⟨[], result, record.stageResults.erase result, rfl, refers, by simpa using absent⟩ :
      (∃ before head after, { record with stageResults := result :: record.stageResults.erase result }.stageResults =
        before ++ head :: after ∧ id ∈ head.references ∧ ∀ earlier ∈ before ++ [head], ¬ earlier.Declares id) ∨ _)
    rw [(same _ referring id).1, ← (same _ declaring id).1, unresolved_iff] at reported
    rcases reported with ⟨before, head, after, split, -, none⟩ | ⟨-, undeclared⟩
    · have inside : source ∈ before ++ [head] := by
        cases before with
        | nil => simp [(List.cons.inj split).1]
        | cons first rest => simp [(List.cons.inj split).1]
      exact none source inside declares
    · exact undeclared ⟨source, List.mem_cons_self, declares⟩
  · intro own other reordered id
    constructor
    · rw [exact_iff.mpr (own.reordered reordered).first id, exact_iff.mpr own.first id, reordered.referenced,
        reordered.declared]
    · rw [conflict_iff, conflict_iff, reordered.conflicting]

end RunRecord

/-- Conflicting duplicates are reported exactly. Unresolved references are reported exactly where no stage result
    references what only a later one declares, and in every order alike where each declares what it references. -/
theorem evidence_chain_exact_iff (record : RunRecord) :
    (∀ id, conflictingDuplicate id ∈ evidenceChainViolations record ↔ record.Conflicting id) ∧
    ((∀ id, unresolvedReference id ∈ evidenceChainViolations record ↔ record.Referenced id ∧ ¬ record.Declared id) ↔
      record.DeclaredFirst) ∧
    ((∀ other, RunRecord.Reordered record other → record.SameDefects other) ↔ record.DeclaredOwn) :=
  ⟨fun _ => RunRecord.conflict_iff, RunRecord.exact_iff, RunRecord.sameDefects_iff⟩

def forwardRecord : RunRecord :=
  { plainRecord "run-1" 1760000000000000 with
    stageResults := [
      { stage := .specification, runId := "run-1", changeId := "CHG-1", status := .succeeded, nextAction := .executeStage .planning none
        gateResults := [{ gate := .specification, status := .passed, evidenceIds := ["ev-1"] }], producedAt := 0 },
      { stage := .planning, runId := "run-1", changeId := "CHG-1", status := .succeeded, nextAction := .executeStage .construction none
        evidence := [{ id := "ev-1", type := .report, uri := "git:report@a1" }], producedAt := 1 }] }

theorem declared_reference_reported : forwardRecord.Declared "ev-1" ∧
    unresolvedReference "ev-1" ∈ evidenceChainViolations forwardRecord ∧
    evidenceChainViolations { forwardRecord with stageResults := forwardRecord.stageResults.reverse } = [] := by
  refine ⟨⟨_, List.mem_cons_of_mem _ List.mem_cons_self, _, List.mem_cons_self, rfl⟩, ?_, ?_⟩
  · decide +kernel
  · decide +kernel

end DarkFactory
