import DarkFactory.Context.Bundle
import Mathlib.Data.List.Perm.Basic

namespace DarkFactory

structure SpecMaterial where
  location : String
  revision : String
  content : String
  located : location ≠ ""
  pinned : revision ≠ ""

structure DiffMaterial where
  repository : String
  sha : String
  content : String
  located : repository ≠ ""
  pinned : sha ≠ ""

structure EvidenceMaterial where
  evidenceId : String
  location : String
  contentHash : String
  named : evidenceId ≠ ""
  located : location ≠ ""
  hashed : contentHash ≠ ""

def contentHash (content : String) : String := Sha256.hexdigest content

def SpecMaterial.source (spec : SpecMaterial) (now : Timestamp) : ContextSource :=
  { kind := .spec, location := spec.location, revision := some spec.revision, contentHash := contentHash spec.content,
    retrievedAt := now, located := spec.located, hashed := Sha256.hexdigest_ne _ }

def DiffMaterial.source (diff : DiffMaterial) (now : Timestamp) : ContextSource :=
  { kind := .repo, location := diff.repository, revision := some diff.sha, contentHash := contentHash diff.content,
    retrievedAt := now, located := diff.located, hashed := Sha256.hexdigest_ne _ }

def EvidenceMaterial.source (now : Timestamp) (item : EvidenceMaterial) : ContextSource :=
  { kind := .evidence, location := item.location, contentHash := item.contentHash, retrievedAt := now,
    located := item.located, hashed := item.hashed }

def acceptanceSources (spec : SpecMaterial) (diff : DiffMaterial) (evidence : List EvidenceMaterial) (now : Timestamp) :
    List ContextSource :=
  [spec.source now, diff.source now] ++ evidence.map (EvidenceMaterial.source now)

def buildAcceptanceContext (changeId runId : String) (spec : SpecMaterial) (diff : DiffMaterial)
    (evidence : List EvidenceMaterial) (now : Timestamp) : Except BundleError ContextBundle :=
  match firstRepeated [] (evidence.map EvidenceMaterial.evidenceId) with
  | some id => .error (.value ("duplicate evidence id " ++ Text.repr id))
  | none => buildBundle changeId runId (acceptanceSources spec diff evidence now)

def EvidenceMaterial.artifact (item : EvidenceMaterial) : String × String := (item.location, item.contentHash)

section Acceptance

variable {changeId runId otherChange otherRun : String} {spec spec' : SpecMaterial} {diff diff' : DiffMaterial}
  {evidence evidence' : List EvidenceMaterial} {now later : Timestamp} {bundle other : ContextBundle}

def artifactIdentity (artifact : String × String) : List String := [SourceKind.evidence.value, artifact.1, "", artifact.2]

theorem artifactIdentity_injective : Function.Injective artifactIdentity := by
  intro first second same
  simp only [artifactIdentity, List.cons.injEq, true_and, and_true] at same
  exact Prod.ext same.1 same.2

theorem map_acceptanceSources : (acceptanceSources spec diff evidence now).map sourceIdentity =
    [SourceKind.spec.value, spec.location, spec.revision, contentHash spec.content] ::
      [SourceKind.repo.value, diff.repository, diff.sha, contentHash diff.content] ::
        (evidence.map EvidenceMaterial.artifact).map artifactIdentity := by
  rw [acceptanceSources, List.map_append, List.map_map, List.map_map]
  rfl

def ofKind (kind : SourceKind) (identities : List (List String)) : List (List String) :=
  identities.filter fun identity => identity.head? = some kind.value

theorem ofKind_acceptance (kind : SourceKind) : ofKind kind ((acceptanceSources spec diff evidence now).map sourceIdentity) =
    (if kind = .spec then [[SourceKind.spec.value, spec.location, spec.revision, contentHash spec.content]] else []) ++
    (if kind = .repo then [[SourceKind.repo.value, diff.repository, diff.sha, contentHash diff.content]] else []) ++
    (if kind = .evidence then (evidence.map EvidenceMaterial.artifact).map artifactIdentity else []) := by
  have artifacts (p : List String → Bool) (all : ∀ artifact, p (artifactIdentity artifact) = (kind = .evidence : Bool)) :
      ((evidence.map EvidenceMaterial.artifact).map artifactIdentity).filter p =
        if kind = .evidence then (evidence.map EvidenceMaterial.artifact).map artifactIdentity else [] := by
    by_cases here : kind = .evidence
    · rw [if_pos here, List.filter_eq_self]
      intro identity member
      obtain ⟨artifact, -, rfl⟩ := List.mem_map.mp member
      rw [all, decide_eq_true here]
    · rw [if_neg here, List.filter_eq_nil_iff]
      intro identity member
      obtain ⟨artifact, -, rfl⟩ := List.mem_map.mp member
      rw [all, decide_eq_false here]
      exact Bool.false_ne_true
  rw [map_acceptanceSources, ofKind, List.filter_cons, List.filter_cons, artifacts]
  · cases kind <;> rfl
  · intro artifact
    cases kind <;> rfl

/-- The materials are told apart by their kinds. -/
theorem acceptanceSources_perm : ((acceptanceSources spec diff evidence now).map sourceIdentity).Perm
      ((acceptanceSources spec' diff' evidence' later).map sourceIdentity) ↔
    (spec.location = spec'.location ∧ spec.revision = spec'.revision ∧ contentHash spec.content = contentHash spec'.content) ∧
    (diff.repository = diff'.repository ∧ diff.sha = diff'.sha ∧ contentHash diff.content = contentHash diff'.content) ∧
    (evidence.map EvidenceMaterial.artifact).Perm (evidence'.map EvidenceMaterial.artifact) := by
  constructor
  · intro same
    have kinds (kind : SourceKind) : (ofKind kind ((acceptanceSources spec diff evidence now).map sourceIdentity)).Perm
        (ofKind kind ((acceptanceSources spec' diff' evidence' later).map sourceIdentity)) := same.filter _
    have specs := kinds .spec
    have diffs := kinds .repo
    have artifacts := kinds .evidence
    rw [ofKind_acceptance, ofKind_acceptance] at specs diffs artifacts
    simp only [reduceCtorEq, if_true, if_false, List.append_nil, List.nil_append, List.perm_singleton, List.cons.injEq,
      true_and, and_true] at specs diffs artifacts
    exact ⟨specs, diffs, (List.map_perm_map_iff artifactIdentity_injective).mp artifacts⟩
  · rintro ⟨⟨located, pinned, hashed⟩, ⟨located', pinned', hashed'⟩, artifacts⟩
    rw [map_acceptanceSources, map_acceptanceSources, located, pinned, hashed, located', pinned', hashed']
    exact ((artifacts.map artifactIdentity).cons _).cons _

/-- A context is built exactly where no evidence id and no artifact is there twice. -/
theorem buildAcceptanceContext_ok : buildAcceptanceContext changeId runId spec diff evidence now = .ok bundle ↔
    (evidence.map EvidenceMaterial.evidenceId).Nodup ∧ (evidence.map EvidenceMaterial.artifact).Nodup ∧
      (changeId ≠ "" ∧ runId ≠ "") ∧
      bundle = { changeId, runId, sources := canonicalOrder (acceptanceSources spec diff evidence now),
                 bundleHash := computeBundleHash (acceptanceSources spec diff evidence now) } := by
  have distinct : ((acceptanceSources spec diff evidence now).map sourceIdentity).Nodup ↔
      (evidence.map EvidenceMaterial.artifact).Nodup := by
    have apart (kind : SourceKind) (other : kind ≠ .evidence) (rest : List String) :
        kind.value :: rest ∉ (evidence.map EvidenceMaterial.artifact).map artifactIdentity := by
      intro member
      obtain ⟨artifact, -, same⟩ := List.mem_map.mp member
      have kinds : SourceKind.evidence.value = kind.value := (List.cons.inj same).1
      cases kind with
      | evidence => exact other rfl
      | _ => exact absurd kinds (by decide)
    have specs : SourceKind.spec.value ≠ SourceKind.repo.value := by decide
    rw [map_acceptanceSources, List.nodup_cons, List.nodup_cons, List.nodup_map_iff artifactIdentity_injective,
      and_iff_right (apart .repo (by decide) _), List.mem_cons, not_or, List.cons.injEq]
    exact and_iff_right ⟨fun both => specs both.1, apart .spec (by decide) _⟩
  unfold buildAcceptanceContext
  cases repeated : firstRepeated [] (evidence.map EvidenceMaterial.evidenceId) with
  | none =>
    show buildBundle changeId runId (acceptanceSources spec diff evidence now) = .ok bundle ↔ _
    rw [buildBundle_ok, distinct, and_iff_right (firstRepeated_none.mp repeated).1]
    exact and_left_comm
  | some id =>
    refine iff_of_false (fun made => by cases made) fun made => ?_
    have clean : firstRepeated [] (evidence.map EvidenceMaterial.evidenceId) = none :=
      firstRepeated_none.mpr ⟨made.1, fun _ _ => List.not_mem_nil⟩
    rw [clean] at repeated
    cases repeated

structure SameMaterials (spec spec' : SpecMaterial) (diff diff' : DiffMaterial) (evidence evidence' : List EvidenceMaterial) :
    Prop where
  spec : (spec.location, spec.revision, spec.content) = (spec'.location, spec'.revision, spec'.content)
  diff : (diff.repository, diff.sha, diff.content) = (diff'.repository, diff'.sha, diff'.content)
  evidence : (evidence.map EvidenceMaterial.artifact).Perm (evidence'.map EvidenceMaterial.artifact)

/-- The inputs on which two contexts of different materials would have to collide. -/
def MaterialsCollide (spec spec' : SpecMaterial) (diff diff' : DiffMaterial) (sources sources' : List ContextSource) : Prop :=
  Collide (Sha256.encode spec.content) (Sha256.encode spec'.content) ∨
    Collide (Sha256.encode diff.content) (Sha256.encode diff'.content) ∨
      Collide (Sha256.encode (bundlePayload sources)) (Sha256.encode (bundlePayload sources'))

theorem SameMaterials.perm (same : SameMaterials spec spec' diff diff' evidence evidence') :
    ((acceptanceSources spec diff evidence now).map sourceIdentity).Perm
      ((acceptanceSources spec' diff' evidence' later).map sourceIdentity) := by
  have specs := same.spec
  have diffs := same.diff
  simp only [Prod.mk.injEq] at specs diffs
  refine acceptanceSources_perm.mpr ⟨⟨specs.1, specs.2.1, ?_⟩, ⟨diffs.1, diffs.2.1, ?_⟩, same.evidence⟩
  · rw [specs.2.2]
  · rw [diffs.2.2]

theorem sameMaterials_of_perm (same : ((acceptanceSources spec diff evidence now).map sourceIdentity).Perm
      ((acceptanceSources spec' diff' evidence' later).map sourceIdentity)) :
    SameMaterials spec spec' diff diff' evidence evidence' ∨
      Collide (Sha256.encode spec.content) (Sha256.encode spec'.content) ∨
        Collide (Sha256.encode diff.content) (Sha256.encode diff'.content) := by
  obtain ⟨⟨located, pinned, hashed⟩, ⟨located', pinned', hashed'⟩, artifacts⟩ := acceptanceSources_perm.mp same
  rcases hexdigest_iff.mp hashed with specs | collide
  · rcases hexdigest_iff.mp hashed' with diffs | collide
    · left
      constructor
      · rw [located, pinned, specs]
      · rw [located', pinned', diffs]
      · exact artifacts
    · exact Or.inr (Or.inr collide)
  · exact Or.inr (Or.inl collide)

/-- The hash of an acceptance context says what is reviewed: it is that of another review of the same specification, the
    same diff at the same SHA and the same artifacts, and of no other review, short of a collision. -/
theorem buildAcceptanceContext_hash (built : buildAcceptanceContext changeId runId spec diff evidence now = .ok bundle)
    (built' : buildAcceptanceContext otherChange otherRun spec' diff' evidence' later = .ok other) :
    (SameMaterials spec spec' diff diff' evidence evidence' → bundle.bundleHash = other.bundleHash) ∧
    (bundle.bundleHash = other.bundleHash → SameMaterials spec spec' diff diff' evidence evidence' ∨
      MaterialsCollide spec spec' diff diff' (acceptanceSources spec diff evidence now)
        (acceptanceSources spec' diff' evidence' later)) := by
  obtain ⟨-, -, -, rfl⟩ := buildAcceptanceContext_ok.mp built
  obtain ⟨-, -, -, rfl⟩ := buildAcceptanceContext_ok.mp built'
  constructor
  · intro same
    exact computeBundleHash_iff.mpr (Or.inl same.perm)
  · intro hashed
    rcases computeBundleHash_iff.mp hashed with perm | collide
    · rcases sameMaterials_of_perm perm with same | specs | diffs
      · exact Or.inl same
      · exact Or.inr (Or.inl specs)
      · exact Or.inr (Or.inr (Or.inl diffs))
    · exact Or.inr (Or.inr (Or.inr collide))

end Acceptance

def reviewedSpec : SpecMaterial :=
  { location := "openspec/changes/login", revision := "r1", content := "login", located := by decide, pinned := by decide }

def reviewedDiff : DiffMaterial :=
  { repository := "acme/shop", sha := "f00d", content := "diff", located := by decide, pinned := by decide }

def testReport : EvidenceMaterial :=
  { evidenceId := "e-1", location := "ci/report.xml", contentHash := "c0ffee", named := by decide, located := by decide,
    hashed := digest_filled }

def lintReport : EvidenceMaterial :=
  { evidenceId := "e-2", location := "ci/lint.xml", contentHash := "c0ffee", named := by decide, located := by decide,
    hashed := digest_filled }

theorem reviewed_built {evidence : List EvidenceMaterial} {runId : String} {now : Timestamp}
    (ids : (evidence.map EvidenceMaterial.evidenceId).Nodup) (artifacts : (evidence.map EvidenceMaterial.artifact).Nodup)
    (named : runId ≠ "") : ∃ bundle, buildAcceptanceContext "chg-1" runId reviewedSpec reviewedDiff evidence now = .ok bundle :=
  ⟨_, buildAcceptanceContext_ok.mpr ⟨ids, artifacts, ⟨by decide, named⟩, rfl⟩⟩

/-- A review taken up again, with its evidence collected in another order. -/
theorem reviewedAgain_hash : ∃ bundle other,
    buildAcceptanceContext "chg-1" "run-1" reviewedSpec reviewedDiff [testReport, lintReport] 1 = .ok bundle ∧
    buildAcceptanceContext "chg-1" "run-2" reviewedSpec reviewedDiff [lintReport, testReport] 9 = .ok other ∧
    bundle.bundleHash = other.bundleHash := by
  obtain ⟨bundle, first⟩ := @reviewed_built [testReport, lintReport] "run-1" 1 (by decide) (by decide) (by decide)
  obtain ⟨other, second⟩ := @reviewed_built [lintReport, testReport] "run-2" 9 (by decide) (by decide) (by decide)
  have same : SameMaterials reviewedSpec reviewedSpec reviewedDiff reviewedDiff [testReport, lintReport] [lintReport, testReport] :=
    ⟨rfl, rfl, List.Perm.swap _ _ _⟩
  exact ⟨bundle, other, first, second, (buildAcceptanceContext_hash first second).1 same⟩

end DarkFactory
