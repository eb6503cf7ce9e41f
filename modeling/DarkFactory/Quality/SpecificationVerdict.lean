import DarkFactory.Quality.Gates
import DarkFactory.Sdd.Reconciliation
import DarkFactory.Stages.Release

namespace DarkFactory

/-! ## What the specification gate asks for -/

section Statements

variable {α : Type} {codec : SddCodec α} (folded : String → String) (change other : ChangeSet codec.models)
  (contract : Option ImplementationContract)

def ChangeSet.Present (path : String) : ArtifactSlot → Prop
  | .intent => ∃ document ∈ change.documents, document.path = path
  | .spec => change.delta ≠ none
  | .design => ∃ document ∈ change.documents, document.path = path
  | .tasks => change.tasks ≠ none
  | .verification => change.verification ≠ none
  | .evidence => change.evidence ≠ none
  | .reconciliation => change.reconciliation ≠ none

/-- The delta starts from the baseline, names no target twice and replaces none by itself. -/
structure Delta.WellFormed (delta : Delta) (manifest : ManifestFields) : Prop where
  baseline : delta.baselineRevision = manifest.baseline.revision
  distinct : (delta.operations.map DeltaOperation.target).Nodup
  replaced : ∀ operation ∈ delta.operations, operation.supersedesItself = false

def ImplementationContract.ScopeApart (contract : ImplementationContract) : Prop :=
  ∀ item ∈ contract.scope.inScope, ∀ excluded ∈ contract.scope.outOfScope,
    folded (Text.strip item) ≠ folded (Text.strip excluded)

structure SpecificationMet : Prop where
  required : ∀ slot ∈ requiredArtifacts change.fields.workflow.profile (effectiveRisk change contract),
    change.fields.artifacts slot ≠ none
  present : ∀ slot path, change.fields.artifacts slot = some path → change.Present path slot
  delta : ∀ delta, change.delta = some delta → delta.WellFormed change.fields
  reconciliation : isR2OrHigher (effectiveRisk change contract) = true → change.reconciliation ≠ none
  notLowered : riskOrder change.fields.riskClass ≤ riskOrder (effectiveRisk change contract)
  scope : ∀ approved, contract = some approved → approved.ScopeApart folded
  tasks : ∀ target ∈ requirementTargets change, ∃ task ∈ taskDefs change, target ∈ task.satisfies
  verified : ∀ target ∈ requirementTargets change,
    ∃ entry ∈ verificationEntries change, entry.requirement = target ∧ entry.accepts = true
  evidence : ∀ entry ∈ evidenceEntries change, entry.required = true → entry.available = true

def PassesGate : Prop := (evaluateSpecificationGate folded change contract).result = .passed

/-- The last entry of a requirement the delta touches plans an acceptance scenario. -/
def LastAccepts : Prop :=
  ∀ target ∈ requirementTargets change,
    ((verificationEntries change).filter (·.requirement = target)).getLast?.any RequirementVerification.accepts = true

structure ReorderedPlan : Prop where
  manifest : other.fields = change.fields
  delta : other.delta = change.delta
  documents : other.documents = change.documents
  reconciliation : other.reconciliation = change.reconciliation
  present : other.tasks.isSome = change.tasks.isSome ∧ other.verification.isSome = change.verification.isSome ∧
    other.evidence.isSome = change.evidence.isSome
  tasks : (taskDefs change).Perm (taskDefs other)
  verification : (verificationEntries change).Perm (verificationEntries other)
  evidence : (evidenceEntries change).Perm (evidenceEntries other)

/-- Tasks, checks and verification entries are added, none is taken away, and no evidence is added. -/
structure GrownPlan : Prop where
  manifest : other.fields = change.fields
  delta : other.delta = change.delta
  documents : other.documents = change.documents
  reconciliation : other.reconciliation = change.reconciliation
  present : (change.tasks.isSome → other.tasks.isSome) ∧ (change.verification.isSome → other.verification.isSome) ∧
    (change.evidence.isSome → other.evidence.isSome)
  tasks : ∀ task ∈ taskDefs change, task ∈ taskDefs other
  verification : ∀ entry ∈ verificationEntries change, ∃ grown ∈ verificationEntries other,
    grown.requirement = entry.requirement ∧ ∀ check ∈ entry.checks, check ∈ grown.checks
  evidence : ∀ entry ∈ evidenceEntries other, entry ∈ evidenceEntries change

end Statements

/-! ## Findings that block -/

/-- No finding the default policy blocks. -/
def NoneBlocks (findings : List AxisFinding) : Prop :=
  ∀ finding ∈ findings, finding.code ∉ defaultSpecGateBlockingCodes

section Blocking

variable {findings others : List AxisFinding} {finding : AxisFinding} {β : Type} {items : List β}

@[simp] theorem noneBlocks_nil : NoneBlocks [] := by
  intro finding member
  cases member

@[simp] theorem noneBlocks_append : NoneBlocks (findings ++ others) ↔ NoneBlocks findings ∧ NoneBlocks others := by
  simp only [NoneBlocks, List.mem_append, or_imp, forall_and]

@[simp] theorem noneBlocks_singleton : NoneBlocks [finding] ↔ finding.code ∉ defaultSpecGateBlockingCodes := by
  simp only [NoneBlocks, List.mem_singleton, forall_eq]

theorem noneBlocks_flatMap {f : β → List AxisFinding} :
    NoneBlocks (items.flatMap f) ↔ ∀ item ∈ items, NoneBlocks (f item) := by
  simp only [NoneBlocks, List.mem_flatMap, forall_exists_index, and_imp]
  constructor
  · intro clear item member finding found
    exact clear finding item member found
  · intro clear finding item member found
    exact clear item member finding found

/-- A check that reports one blocking finding lets through what it does not apply to. -/
theorem noneBlocks_check {p : Prop} [Decidable p] (blocks : finding.code ∈ defaultSpecGateBlockingCodes) :
    NoneBlocks (if p then [finding] else []) ↔ ¬ p := by
  by_cases holds : p
  · simp [holds, blocks]
  · simp [holds]

theorem noneBlocks_map {f : β → AxisFinding} (blocks : ∀ item, (f item).code ∈ defaultSpecGateBlockingCodes) :
    NoneBlocks (items.map f) ↔ items = [] := by
  cases items with
  | nil => simp
  | cons first rest =>
    constructor
    · intro clear
      exact absurd (blocks first) (clear (f first) (by simp))
    · intro empty
      cases empty

theorem mem_sortedTexts {text : String} {texts : List String} : text ∈ sortedTexts texts ↔ text ∈ texts := by
  rw [sortedTexts, List.mem_insertionSort, List.mem_dedup]

end Blocking

/-! ## One axis after the other -/

section Axes

variable {α : Type} {codec : SddCodec α} {folded : String → String} {change : ChangeSet codec.models}
  {manifest : ManifestFields} {riskClass : RiskClass}

theorem missingSlotFindings_clear : NoneBlocks (missingSlotFindings manifest riskClass) ↔
    ∀ slot ∈ requiredArtifacts manifest.workflow.profile riskClass, manifest.artifacts slot ≠ none := by
  unfold missingSlotFindings
  rw [noneBlocks_map fun _ => by simp [defaultSpecGateBlockingCodes]]
  constructor
  · intro empty slot needed missing
    have listed : slot ∈ (requiredArtifacts manifest.workflow.profile riskClass).filter
        fun slot => (manifest.artifacts slot).isNone := by
      rw [List.mem_filter]
      exact ⟨needed, by rw [missing]; rfl⟩
    rw [← List.mem_insertionSort (fun first second : ArtifactSlot => first.value ≤ second.value), empty] at listed
    cases listed
  · intro declared
    rw [List.eq_nil_iff_forall_not_mem]
    intro slot listed
    rw [List.mem_insertionSort, List.mem_filter, Option.isNone_iff_eq_none] at listed
    exact declared slot listed.1 listed.2

theorem operationFindings_clear {operations : List DeltaOperation} {seen : List String} :
    NoneBlocks (operationFindings seen operations) ↔
      (∀ operation ∈ operations, operation.target ∉ seen) ∧ (operations.map DeltaOperation.target).Nodup ∧
        ∀ operation ∈ operations, operation.supersedesItself = false := by
  induction operations generalizing seen with
  | nil => simp [operationFindings]
  | cons operation rest ih =>
    rw [operationFindings, noneBlocks_append, noneBlocks_append,
      noneBlocks_check (by simp [defaultSpecGateBlockingCodes]),
      noneBlocks_check (by simp [defaultSpecGateBlockingCodes]), ih]
    simp only [List.mem_cons, forall_eq_or_imp, List.map_cons, List.nodup_cons, List.mem_map, not_exists, not_and,
      not_or, Bool.not_eq_true]
    constructor
    · rintro ⟨⟨fresh, other⟩, unseen, distinct, others⟩
      exact ⟨⟨fresh, fun operation member => (unseen operation member).2⟩,
        ⟨fun operation member => (unseen operation member).1, distinct⟩, other, others⟩
    · rintro ⟨⟨fresh, unseen⟩, ⟨apart, distinct⟩, other, others⟩
      exact ⟨⟨fresh, other⟩, fun operation member => ⟨apart operation member, unseen operation member⟩, distinct, others⟩

theorem deltaFindings_clear {delta : Delta} : NoneBlocks (deltaFindings manifest delta) ↔ delta.WellFormed manifest := by
  rw [deltaFindings, noneBlocks_append, noneBlocks_check (by simp [defaultSpecGateBlockingCodes]),
    operationFindings_clear]
  constructor
  · rintro ⟨pinned, -, distinct, replaced⟩
    exact ⟨not_not.mp pinned, distinct, replaced⟩
  · rintro ⟨pinned, distinct, replaced⟩
    exact ⟨not_not.mpr pinned, by simp, distinct, replaced⟩

theorem documentFindings_clear {slot : ArtifactSlot} : NoneBlocks (documentFindings change slot) ↔
    ∀ path, change.fields.artifacts slot = some path → ∃ document ∈ change.documents, document.path = path := by
  unfold documentFindings
  cases declared : change.fields.artifacts slot with
  | none => simp
  | some path =>
    by_cases there : ∃ document ∈ change.documents, document.path = path
    · simp [there]
    · simp [there, defaultSpecGateBlockingCodes]

theorem artifactFindings_clear {slot : ArtifactSlot} {artifact : YamlSlot} :
    NoneBlocks (artifactFindings change slot artifact) ↔
      ∀ path, change.fields.artifacts slot = some path → change.artifacts artifact ≠ none := by
  rw [artifactFindings, noneBlocks_check (by simp [defaultSpecGateBlockingCodes])]
  cases change.fields.artifacts slot with
  | none => simp
  | some path => simp

theorem consistencyFindings_clear : NoneBlocks (consistencyFindings change) ↔
    (∀ delta, change.delta = some delta → delta.WellFormed change.fields) ∧
      ∀ slot path, change.fields.artifacts slot = some path → change.Present path slot := by
  have deltas : NoneBlocks (change.delta.elim [] (deltaFindings change.fields)) ↔
      ∀ delta, change.delta = some delta → delta.WellFormed change.fields := by
    cases change.delta with
    | none => simp
    | some delta => simp [deltaFindings_clear]
  rw [consistencyFindings, noneBlocks_append, noneBlocks_append, deltas, noneBlocks_flatMap, noneBlocks_flatMap]
  simp only [documentSlots, slotToArtifact, List.mem_cons, List.not_mem_nil, or_false, forall_eq_or_imp, forall_eq,
    documentFindings_clear, artifactFindings_clear]
  constructor
  · rintro ⟨⟨wellFormed, intent, design⟩, spec, tasks, verification, evidence, reconciliation⟩
    refine ⟨wellFormed, ?_⟩
    intro slot path declared
    cases slot with
    | intent => exact intent path declared
    | spec => exact spec path declared
    | design => exact design path declared
    | tasks => exact tasks path declared
    | verification => exact verification path declared
    | evidence => exact evidence path declared
    | reconciliation => exact reconciliation path declared
  · rintro ⟨wellFormed, present⟩
    exact ⟨⟨wellFormed, present .intent, present .design⟩, present .spec, present .tasks, present .verification,
      present .evidence, present .reconciliation⟩

theorem mem_highRisk : riskClass ∈ highRisk ↔ isR2OrHigher riskClass = true := by
  cases riskClass <;> decide

theorem reconciliationFindings_clear : NoneBlocks (reconciliationFindings change riskClass) ↔
    (isR2OrHigher riskClass = true → change.reconciliation ≠ none) := by
  rw [reconciliationFindings, noneBlocks_check (by simp [defaultSpecGateBlockingCodes, planFinding]), not_and,
    Option.isNone_iff_eq_none]

theorem policyFindings_eq : policyFindings change = reconciliationFindings change change.fields.riskClass := by
  simp only [policyFindings, reconciliationFindings, mem_highRisk]

theorem riskTransitionFinding_clear {effective : RiskClass} :
    NoneBlocks [riskTransitionFinding riskClass effective] ↔ riskOrder riskClass ≤ riskOrder effective := by
  rw [noneBlocks_singleton, riskTransitionFinding]
  by_cases lowered : riskOrder effective < riskOrder riskClass
  · simp [lowered, defaultSpecGateBlockingCodes]
  · rw [if_neg lowered, ← not_lt]
    simp [lowered, defaultSpecGateBlockingCodes]

theorem scopeContradictionFindings_clear {contract : ImplementationContract} :
    NoneBlocks (scopeContradictionFindings folded contract) ↔ contract.ScopeApart folded := by
  rw [scopeContradictionFindings, noneBlocks_map fun _ => by simp [defaultSpecGateBlockingCodes],
    List.eq_nil_iff_forall_not_mem]
  simp only [mem_sortedTexts, List.mem_filter, List.mem_map, decide_eq_true_eq, not_and, not_exists]
  constructor
  · intro apart item listed excluded excludes same
    exact apart (folded (Text.strip item)) ⟨item, listed, rfl⟩ excluded excludes same.symm
  · rintro apart _ ⟨item, listed, rfl⟩ excluded excludes same
    exact apart item listed excluded excludes same.symm

theorem coverageFindings_clear : NoneBlocks (coverageFindings change) ↔ ∀ target ∈ requirementTargets change,
    (∃ task ∈ taskDefs change, target ∈ task.satisfies) ∧
      ∃ entry ∈ verificationEntries change, entry.requirement = target := by
  rw [coverageFindings, noneBlocks_flatMap]
  refine forall₂_congr fun target _ => ?_
  rw [noneBlocks_append, noneBlocks_check (by simp [defaultSpecGateBlockingCodes]),
    noneBlocks_check (by simp [defaultSpecGateBlockingCodes]), not_not, not_not, List.mem_flatMap, List.mem_map]

theorem entriesByRequirement_append (entries : List RequirementVerification) (entry : RequirementVerification) :
    entriesByRequirement (entries ++ [entry]) =
      Function.update (entriesByRequirement entries) entry.requirement (some entry) := by
  rw [entriesByRequirement, List.foldl_append]
  rfl

theorem entriesByRequirement_last (entries : List RequirementVerification) (target : String) :
    entriesByRequirement entries target = (entries.filter (·.requirement = target)).getLast? := by
  induction entries using List.reverseRecOn with
  | nil => rfl
  | append_singleton front entry ih =>
    rw [entriesByRequirement_append, List.filter_append]
    by_cases here : entry.requirement = target
    · subst here
      simp
    · rw [Function.update_of_ne (Ne.symm here), ih]
      simp [here]

theorem acceptanceScenarioFindings_clear : NoneBlocks (acceptanceScenarioFindings change) ↔ LastAccepts change := by
  rw [acceptanceScenarioFindings, noneBlocks_flatMap]
  refine forall₂_congr fun target _ => ?_
  rw [entriesByRequirement_last]
  split
  · simp_all
  · simp_all [defaultSpecGateBlockingCodes]

theorem evidenceFindings_clear : NoneBlocks (evidenceFindings change) ↔
    ∀ entry ∈ evidenceEntries change, entry.required = true → entry.available = true := by
  have expected (p : Prop) [Decidable p] (message : String) :
      NoneBlocks (if p then [⟨.evidence, "missing_evidence_for_accepted_change", message⟩] else []) := by
    split
    · simp [defaultSpecGateBlockingCodes]
    · exact noneBlocks_nil
  rw [evidenceFindings, noneBlocks_append, noneBlocks_flatMap, and_iff_left (expected _ _)]
  refine forall₂_congr fun entry _ => ?_
  rw [noneBlocks_check (by simp [defaultSpecGateBlockingCodes])]
  simp

end Axes

/-! ## The verdict -/

section Verdict

variable {α : Type} {codec : SddCodec α} {folded : String → String} {change other : ChangeSet codec.models}
  {contract : Option ImplementationContract}

theorem evaluateSpecificationGate_passed {policy : Option SpecGatePolicy} :
    (evaluateSpecificationGate folded change contract policy).result = .passed ↔
      ∀ finding ∈ orderedFindings folded change contract, finding.code ∉ (policy.getD {}).blockingCodes := by
  have weighed : ((orderedFindings folded change contract).map (weigh (policy.getD {}))).any GateFinding.blocking = true ↔
      ¬ ∀ finding ∈ orderedFindings folded change contract, finding.code ∉ (policy.getD {}).blockingCodes := by
    simp only [List.any_map, List.any_eq_true, Function.comp_apply, weigh, decide_eq_true_eq, not_forall, not_not,
      exists_prop]
  simp only [evaluateSpecificationGate, weighed]
  split
  · simp_all
  · simp_all

theorem passesGate_iff_noneBlocks :
    PassesGate folded change contract ↔ NoneBlocks (orderedFindings folded change contract) :=
  evaluateSpecificationGate_passed

/-- Whether or not the contract moves the risk class, the effective one decides the slots, the plan and the order. -/
theorem orderedFindings_clear : NoneBlocks (orderedFindings folded change contract) ↔
    (NoneBlocks (missingSlotFindings change.fields (effectiveRisk change contract)) ∧
      NoneBlocks (acceptanceScenarioFindings change)) ∧
    (NoneBlocks (consistencyFindings change) ∧
      ∀ approved, contract = some approved → approved.ScopeApart folded) ∧
    (NoneBlocks (reconciliationFindings change (effectiveRisk change contract)) ∧
      riskOrder change.fields.riskClass ≤ riskOrder (effectiveRisk change contract)) ∧
    NoneBlocks (coverageFindings change) ∧ NoneBlocks (evidenceFindings change) := by
  have scope : NoneBlocks (contract.elim [] (scopeContradictionFindings folded)) ↔
      ∀ approved, contract = some approved → approved.ScopeApart folded := by
    cases contract with
    | none => simp
    | some approved => simp [scopeContradictionFindings_clear]
  have kept (still : ¬ (contract.isSome ∧ effectiveRisk change contract ≠ change.fields.riskClass)) :
      effectiveRisk change contract = change.fields.riskClass := by
    cases contract with
    | none => rfl
    | some approved => simpa using still
  simp only [orderedFindings, noneBlocks_append, scope]
  by_cases moved : contract.isSome ∧ effectiveRisk change contract ≠ change.fields.riskClass
  · rw [if_pos moved, if_pos moved, noneBlocks_append, riskTransitionFinding_clear]
    simp only [normalize, missingArtifactFindings, and_assoc]
  · rw [if_neg moved, if_neg moved, kept moved]
    simp only [normalize, completenessFindings, policyFindings_eq, le_refl, and_true, and_assoc]

/-- The gate passes what meets all it asks for and plans an acceptance scenario last. -/
theorem passesGate_iff : PassesGate folded change contract ↔
    SpecificationMet folded change contract ∧ LastAccepts change := by
  rw [passesGate_iff_noneBlocks, orderedFindings_clear, missingSlotFindings_clear, acceptanceScenarioFindings_clear,
    consistencyFindings_clear, reconciliationFindings_clear, coverageFindings_clear, evidenceFindings_clear]
  constructor
  · rintro ⟨⟨required, accepts⟩, ⟨⟨delta, present⟩, scope⟩, ⟨reconciliation, notLowered⟩, covered, evidence⟩
    have verified (target : String) (touched : target ∈ requirementTargets change) :
        ∃ entry ∈ verificationEntries change, entry.requirement = target ∧ entry.accepts = true := by
      obtain ⟨entry, last, holds⟩ := (Option.any_eq_true _ _).mp (accepts target touched)
      have listed := List.mem_filter.mp (List.mem_of_getLast? last)
      exact ⟨entry, listed.1, of_decide_eq_true listed.2, holds⟩
    exact ⟨⟨required, present, delta, reconciliation, notLowered, scope,
      fun target touched => (covered target touched).1, verified, evidence⟩, accepts⟩
  · rintro ⟨met, accepts⟩
    refine ⟨⟨met.required, accepts⟩, ⟨⟨met.delta, met.present⟩, met.scope⟩, ⟨met.reconciliation, met.notLowered⟩,
      ?_, met.evidence⟩
    intro target touched
    obtain ⟨entry, listed, named, -⟩ := met.verified target touched
    exact ⟨met.tasks target touched, entry, listed, named⟩

theorem RequirementVerification.accepts_mono {entry grown : RequirementVerification}
    (kept : ∀ check ∈ entry.checks, check ∈ grown.checks) (holds : entry.accepts = true) : grown.accepts = true := by
  obtain ⟨check, planned, scenario⟩ := List.any_eq_true.mp holds
  exact List.any_eq_true.mpr ⟨check, kept check planned, scenario⟩

theorem requirementTargets_congr (same : other.delta = change.delta) :
    requirementTargets other = requirementTargets change := by
  rw [requirementTargets, requirementTargets, same]

theorem effectiveRisk_congr (same : other.fields = change.fields) :
    effectiveRisk other contract = effectiveRisk change contract := by
  rw [effectiveRisk, effectiveRisk, same]

theorem GrownPlan.declared (grown : GrownPlan change other) {slot : ArtifactSlot} {path : String}
    (there : change.Present path slot) : other.Present path slot := by
  have held {β : Type} {first second : Option β} (keeps : first.isSome → second.isSome) (some : first ≠ none) :
      second ≠ none := Option.isSome_iff_ne_none.mp (keeps (Option.isSome_iff_ne_none.mpr some))
  cases slot with
  | intent =>
    show ∃ document ∈ other.documents, document.path = path
    rw [grown.documents]
    exact there
  | spec =>
    show other.delta ≠ none
    rw [grown.delta]
    exact there
  | design =>
    show ∃ document ∈ other.documents, document.path = path
    rw [grown.documents]
    exact there
  | tasks => exact held grown.present.1 there
  | verification => exact held grown.present.2.1 there
  | evidence => exact held grown.present.2.2 there
  | reconciliation =>
    show other.reconciliation ≠ none
    rw [grown.reconciliation]
    exact there

/-- What the gate asks for is kept where tasks, checks and verification entries are added. -/
theorem SpecificationMet.grown (met : SpecificationMet folded change contract) (grown : GrownPlan change other) :
    SpecificationMet folded other contract where
  required := by
    rw [effectiveRisk_congr grown.manifest, grown.manifest]
    exact met.required
  present := by
    rw [grown.manifest]
    exact fun slot path declared => grown.declared (met.present slot path declared)
  delta := by
    rw [grown.delta, grown.manifest]
    exact met.delta
  reconciliation := by
    rw [effectiveRisk_congr grown.manifest, grown.reconciliation]
    exact met.reconciliation
  notLowered := by
    rw [effectiveRisk_congr grown.manifest, grown.manifest]
    exact met.notLowered
  scope := met.scope
  tasks := by
    rw [requirementTargets_congr grown.delta]
    intro target touched
    obtain ⟨task, listed, satisfied⟩ := met.tasks target touched
    exact ⟨task, grown.tasks task listed, satisfied⟩
  verified := by
    rw [requirementTargets_congr grown.delta]
    intro target touched
    obtain ⟨entry, listed, named, holds⟩ := met.verified target touched
    obtain ⟨larger, there, same, kept⟩ := grown.verification entry listed
    exact ⟨larger, there, same.trans named, RequirementVerification.accepts_mono kept holds⟩
  evidence := fun entry listed => met.evidence entry (grown.evidence entry listed)

theorem ReorderedPlan.symm (reordered : ReorderedPlan change other) : ReorderedPlan other change where
  manifest := reordered.manifest.symm
  delta := reordered.delta.symm
  documents := reordered.documents.symm
  reconciliation := reordered.reconciliation.symm
  present := ⟨reordered.present.1.symm, reordered.present.2.1.symm, reordered.present.2.2.symm⟩
  tasks := reordered.tasks.symm
  verification := reordered.verification.symm
  evidence := reordered.evidence.symm

/-- Another order takes nothing away. -/
theorem ReorderedPlan.grown (reordered : ReorderedPlan change other) : GrownPlan change other where
  manifest := reordered.manifest
  delta := reordered.delta
  documents := reordered.documents
  reconciliation := reordered.reconciliation
  present := by simp [reordered.present]
  tasks := fun _ listed => reordered.tasks.subset listed
  verification := fun entry listed => ⟨entry, reordered.verification.subset listed, rfl, fun _ planned => planned⟩
  evidence := fun _ listed => reordered.evidence.symm.subset listed

/-- The gate is what it asks for, and neither another order of the plan nor more of it turns its verdict, exactly where
a change that meets what it asks for plans an acceptance scenario in the last entry of each requirement. -/
theorem specification_gate_iff {α : Type} {codec : SddCodec α} (folded : String → String)
    (change other : ChangeSet codec.models) (contract : Option ImplementationContract) :
    ((PassesGate folded change contract ↔ SpecificationMet folded change contract) ∧
      (PassesGate folded other contract ↔ SpecificationMet folded other contract) ∧
      (ReorderedPlan change other → (PassesGate folded change contract ↔ PassesGate folded other contract)) ∧
      (GrownPlan change other → PassesGate folded change contract → PassesGate folded other contract)) ↔
    (SpecificationMet folded change contract → LastAccepts change) ∧
      (SpecificationMet folded other contract → LastAccepts other) := by
  have exact_iff (change : ChangeSet codec.models) :
      (PassesGate folded change contract ↔ SpecificationMet folded change contract) ↔
        (SpecificationMet folded change contract → LastAccepts change) := by
    rw [passesGate_iff]
    exact and_iff_left_iff_imp
  constructor
  · rintro ⟨first, second, -, -⟩
    exact ⟨(exact_iff change).mp first, (exact_iff other).mp second⟩
  · rintro ⟨first, second⟩
    have characterised := (exact_iff change).mpr first
    have characterised' := (exact_iff other).mpr second
    refine ⟨characterised, characterised', ?_, ?_⟩
    · intro reordered
      rw [characterised, characterised']
      exact ⟨fun met => met.grown reordered.grown, fun met => met.grown reordered.symm.grown⟩
    · intro grown passes
      exact characterised'.mpr ((characterised.mp passes).grown grown)

end Verdict

section Scene

def pilotCodec : SddCodec Empty where
  packages := plainYaml
  manifest := ⟨fun _ => [], fun _ => .error ⟨.yaml, "no manifest"⟩⟩
  artifact := fun _ => ⟨fun _ => [], fun _ => .error ⟨.yaml, "no artifact"⟩⟩

theorem bugfix_identified : isChangeId "chg:pilot:2026:0002" = true := by decide +kernel

theorem bugfix_slugged : isSlug "timeout" = true := by decide +kernel

theorem bugfix_pinned : "b1" ≠ "" := by decide

theorem requirement_named : "req:timeout" ≠ "" := by decide

theorem requirement_placed : "timeout.md" ≠ "" := by decide

def plannedBugfix (entries : List RequirementVerification) : ChangeSet pilotCodec.models where
  manifest :=
    { id := "chg:pilot:2026:0002"
      slug := "timeout"
      rest := { riskClass := .r0, baseline := { revision := "b1", pinned := bugfix_pinned }, workflow := ⟨.bugfixR0⟩ }
      identified := bugfix_identified
      slugged := bugfix_slugged }
  artifacts
    | .delta => some
      { baselineRevision := "b1", pinned := bugfix_pinned
        operations := [.modify
          { target := "req:timeout", artifact := "timeout.md", named := requirement_named, placed := requirement_placed }] }
    | .tasks => some { tasks := [{ id := "TASK-1", satisfies := ["req:timeout"] }] }
    | .verification => some { requirements := entries }
    | .evidence => none
    | .reconciliation => none

def scenarioEntry : RequirementVerification :=
  { requirement := "req:timeout", checks := [{ type := "acceptance-scenario" }], named := requirement_named }

def unitEntry : RequirementVerification :=
  { requirement := "req:timeout", checks := [{ type := "unit-test" }], named := requirement_named }

/-- A unit test planned besides turns the verdict on a change that still meets what the gate asks for. -/
theorem unit_test_entry_fails :
    GrownPlan (plannedBugfix [scenarioEntry]) (plannedBugfix [scenarioEntry, unitEntry]) ∧
      PassesGate casefold (plannedBugfix [scenarioEntry]) none ∧
      SpecificationMet casefold (plannedBugfix [scenarioEntry, unitEntry]) none ∧
      ¬ PassesGate casefold (plannedBugfix [scenarioEntry, unitEntry]) none := by
  have grown : GrownPlan (plannedBugfix [scenarioEntry]) (plannedBugfix [scenarioEntry, unitEntry]) :=
    { manifest := rfl
      delta := rfl
      documents := rfl
      reconciliation := rfl
      present := ⟨id, id, id⟩
      tasks := fun _ listed => listed
      verification := by
        intro entry listed
        exact ⟨entry, List.mem_append_left [unitEntry] listed, rfl, fun _ planned => planned⟩
      evidence := fun _ listed => listed }
  have passes : PassesGate casefold (plannedBugfix [scenarioEntry]) none := by
    unfold PassesGate
    decide +kernel
  have fails : ¬ PassesGate casefold (plannedBugfix [scenarioEntry, unitEntry]) none := by
    unfold PassesGate
    decide +kernel
  exact ⟨grown, passes, (passesGate_iff.mp passes).1.grown grown, fails⟩

end Scene

end DarkFactory
