import DarkFactory.Changes.Text
import DarkFactory.Context.JsonText
import DarkFactory.Lib.Utf8
import Mathlib.Data.List.Lex
import Mathlib.Data.List.Sort
import Mathlib.Data.String.Basic

namespace DarkFactory

/-! ## Digests -/

def hashHex (bytes : List Nat) : String := String.ofList ((Sha256.digest bytes).flatMap Sha256.hexWord)

/-- Two inputs of SHA-256 that differ and have one digest. -/
def Collide (first second : List Nat) : Prop := first ≠ second ∧ hashHex first = hashHex second

section Digests

variable {first second : List Nat} {text other : String}

theorem encode_inj : Sha256.encode text = Sha256.encode other ↔ text = other := by
  refine ⟨fun same => Utf8.encode_injective ?_, congrArg Sha256.encode⟩
  exact List.map_injective_iff.mpr (fun _ _ => UInt8.toNat_inj.mp) same

theorem hashHex_iff : hashHex first = hashHex second ↔ first = second ∨ Collide first second := by
  by_cases equal : first = second
  · exact iff_of_true (congrArg hashHex equal) (Or.inl equal)
  · exact ⟨fun same => Or.inr ⟨equal, same⟩, fun either => either.elim (congrArg hashHex) And.right⟩

theorem hexdigest_iff : Sha256.hexdigest text = Sha256.hexdigest other ↔
    text = other ∨ Collide (Sha256.encode text) (Sha256.encode other) := by
  have here := @hashHex_iff (Sha256.encode text) (Sha256.encode other)
  rw [encode_inj] at here
  exact here

end Digests

/-! ## Sources -/

inductive SourceKind
  | repo | spec | constitution | adr | engineeringPack | evidence
  deriving DecidableEq, Repr

def SourceKind.value : SourceKind → String
  | .repo => "repo"
  | .spec => "spec"
  | .constitution => "constitution"
  | .adr => "adr"
  | .engineeringPack => "engineering_pack"
  | .evidence => "evidence"

structure ContextSource where
  kind : SourceKind
  location : String
  revision : Option String := none
  contentHash : String
  retrievedAt : Timestamp
  located : location ≠ ""
  hashed : contentHash ≠ ""

/-- The tuple that `bundle_hash` covers, as the list that `json.dumps` writes. -/
def sourceIdentity (source : ContextSource) : List String :=
  [source.kind.value, source.location, source.revision.getD "", source.contentHash]

def canonicalOrder (sources : List ContextSource) : List ContextSource :=
  sources.insertionSort fun left right => sourceIdentity left ≤ sourceIdentity right

def bundlePayload (sources : List ContextSource) : String :=
  JsonText.rows ((sources.map sourceIdentity).insertionSort (· ≤ ·))

def computeBundleHash (sources : List ContextSource) : String := Sha256.hexdigest (bundlePayload sources)

def contextSchemaVersion : Nat := 1

structure ContextBundle where
  schemaVersion : Nat := contextSchemaVersion
  changeId : String
  runId : String
  sources : List ContextSource
  bundleHash : String

/-- A `ValueError`: one that the code words itself, or that a model raises for its fields. -/
inductive BundleError
  | value (message : String)
  | invalid (fields : List String)
  deriving DecidableEq, Repr

def reprTuple (items : List String) : String := "(" ++ Text.join ", " (items.map Text.repr) ++ ")"

def firstRepeated {α : Type} [DecidableEq α] (seen : List α) : List α → Option α
  | [] => none
  | item :: rest => if item ∈ seen then some item else firstRepeated (item :: seen) rest

def ContextBundle.validated (changeId runId : String) (sources : List ContextSource) (bundleHash : String) :
    Except BundleError ContextBundle :=
  let empty := [("change_id", changeId), ("run_id", runId), ("bundle_hash", bundleHash)].filter fun field => field.2 = ""
  if empty = [] then .ok { changeId, runId, sources := canonicalOrder sources, bundleHash }
  else .error (.invalid (empty.map Prod.fst))

def buildBundle (changeId runId : String) (sources : List ContextSource) : Except BundleError ContextBundle :=
  match firstRepeated [] (sources.map sourceIdentity) with
  | some identity => .error (.value ("duplicate context source " ++ reprTuple identity))
  | none => ContextBundle.validated changeId runId sources (computeBundleHash sources)

section Bundle

variable {α : Type} {changeId runId otherChange otherRun : String} {sources others : List ContextSource}
  {bundle other : ContextBundle}

theorem firstRepeated_none [DecidableEq α] {seen items : List α} :
    firstRepeated seen items = none ↔ items.Nodup ∧ ∀ item ∈ items, item ∉ seen := by
  induction items generalizing seen with
  | nil => simp [firstRepeated]
  | cons item rest ih =>
    rw [firstRepeated, List.nodup_cons, List.forall_mem_cons]
    by_cases there : item ∈ seen
    · rw [if_pos there]
      exact iff_of_false (fun none_ => by cases none_) fun all => all.2.1 there
    · rw [if_neg there, ih]
      constructor
      · rintro ⟨distinct, fresh⟩
        refine ⟨⟨fun again => fresh item again List.mem_cons_self, distinct⟩, there, fun later member held => ?_⟩
        exact fresh later member (List.mem_cons_of_mem item held)
      · rintro ⟨⟨absent, distinct⟩, -, fresh⟩
        refine ⟨distinct, fun later member held => ?_⟩
        rcases List.mem_cons.mp held with rfl | held
        · exact absent member
        · exact fresh later member held

theorem insertionSort_iff_perm [LinearOrder α] {first second : List α} :
    first.insertionSort (· ≤ ·) = second.insertionSort (· ≤ ·) ↔ first.Perm second := by
  constructor
  · intro same
    have front := List.perm_insertionSort (· ≤ ·) first
    rw [same] at front
    exact front.symm.trans (List.perm_insertionSort (· ≤ ·) second)
  · intro same
    apply List.Perm.eq_of_pairwise' (List.pairwise_insertionSort (· ≤ ·) first) (List.pairwise_insertionSort (· ≤ ·) second)
    exact ((List.perm_insertionSort (· ≤ ·) first).trans same).trans (List.perm_insertionSort (· ≤ ·) second).symm

theorem map_canonicalOrder (sources : List ContextSource) :
    (canonicalOrder sources).map sourceIdentity = (sources.map sourceIdentity).insertionSort (· ≤ ·) :=
  List.map_insertionSort _ _ sourceIdentity sources fun _ _ _ _ => Iff.rfl

theorem bundlePayload_iff : bundlePayload sources = bundlePayload others ↔
    (sources.map sourceIdentity).Perm (others.map sourceIdentity) := by
  rw [bundlePayload, bundlePayload, JsonText.rows_inj]
  exact insertionSort_iff_perm

theorem computeBundleHash_iff : computeBundleHash sources = computeBundleHash others ↔
    (sources.map sourceIdentity).Perm (others.map sourceIdentity) ∨
      Collide (Sha256.encode (bundlePayload sources)) (Sha256.encode (bundlePayload others)) := by
  rw [← bundlePayload_iff]
  exact hexdigest_iff

theorem validated_ok {hash : String} : ContextBundle.validated changeId runId sources hash = .ok bundle ↔
    (changeId ≠ "" ∧ runId ≠ "" ∧ hash ≠ "") ∧
      bundle = { changeId, runId, sources := canonicalOrder sources, bundleHash := hash } := by
  have complete : ([("change_id", changeId), ("run_id", runId), ("bundle_hash", hash)].filter fun field => field.2 = "") = []
      ↔ changeId ≠ "" ∧ runId ≠ "" ∧ hash ≠ "" := by
    simp [List.filter_eq_nil_iff]
  rw [← complete]
  simp only [ContextBundle.validated]
  generalize ([("change_id", changeId), ("run_id", runId), ("bundle_hash", hash)].filter fun field => field.2 = "") = empty
  by_cases all : empty = []
  · rw [if_pos all, Except.ok.injEq, and_iff_right all, eq_comm]
  · rw [if_neg all]
    exact iff_of_false (fun made => by cases made) fun made => all made.1

theorem buildBundle_ok : buildBundle changeId runId sources = .ok bundle ↔
    (changeId ≠ "" ∧ runId ≠ "") ∧ (sources.map sourceIdentity).Nodup ∧
      bundle = { changeId, runId, sources := canonicalOrder sources, bundleHash := computeBundleHash sources } := by
  have hashed : computeBundleHash sources ≠ "" := Sha256.hexdigest_ne _
  unfold buildBundle
  cases repeated : firstRepeated [] (sources.map sourceIdentity) with
  | none =>
    have distinct := (firstRepeated_none.mp repeated).1
    show ContextBundle.validated changeId runId sources (computeBundleHash sources) = .ok bundle ↔ _
    rw [validated_ok, and_iff_left hashed, and_iff_right distinct]
  | some identity =>
    refine iff_of_false (fun made => by cases made) fun made => ?_
    have clean : firstRepeated [] (sources.map sourceIdentity) = none :=
      firstRepeated_none.mpr ⟨made.2.1, fun _ _ => List.not_mem_nil⟩
    rw [clean] at repeated
    cases repeated

/-- Bundles have one hash where they are of the same sources, whatever order these were given in and whenever they were
    retrieved; otherwise the two payloads collide. -/
theorem buildBundle_hash (built : buildBundle changeId runId sources = .ok bundle)
    (built' : buildBundle otherChange otherRun others = .ok other) :
    (bundle.bundleHash = other.bundleHash ↔ bundle.sources.map sourceIdentity = other.sources.map sourceIdentity ∨
      Collide (Sha256.encode (bundlePayload sources)) (Sha256.encode (bundlePayload others))) ∧
    (bundle.sources.map sourceIdentity = other.sources.map sourceIdentity ↔
      (sources.map sourceIdentity).Perm (others.map sourceIdentity)) := by
  obtain ⟨-, -, rfl⟩ := buildBundle_ok.mp built
  obtain ⟨-, -, rfl⟩ := buildBundle_ok.mp built'
  have ordered : (canonicalOrder sources).map sourceIdentity = (canonicalOrder others).map sourceIdentity ↔
      (sources.map sourceIdentity).Perm (others.map sourceIdentity) := by
    rw [map_canonicalOrder, map_canonicalOrder]
    exact insertionSort_iff_perm
  refine ⟨?_, ordered⟩
  show computeBundleHash sources = computeBundleHash others ↔ _
  rw [ordered]
  exact computeBundleHash_iff

end Bundle

theorem digest_filled : "c0ffee" ≠ "" := by decide

def loginSource (retrievedAt : Timestamp) : ContextSource :=
  { kind := .spec, location := "specs/login.md", revision := some "abc", contentHash := "c0ffee", retrievedAt,
    located := by decide, hashed := digest_filled }

def packSource (retrievedAt : Timestamp) : ContextSource :=
  { kind := .engineeringPack, location := "packs/python", contentHash := "deadbeef", retrievedAt,
    located := by decide, hashed := by decide }

theorem loginBundles_hash : ∃ bundle other, buildBundle "chg-1" "run-1" [loginSource 1, packSource 2] = .ok bundle ∧
    buildBundle "chg-1" "run-2" [packSource 8, loginSource 9] = .ok other ∧ bundle.bundleHash = other.bundleHash := by
  have first := buildBundle_ok.mpr ⟨⟨show "chg-1" ≠ "" by decide, show "run-1" ≠ "" by decide⟩,
    show ([loginSource 1, packSource 2].map sourceIdentity).Nodup by decide, rfl⟩
  have second := buildBundle_ok.mpr ⟨⟨show "chg-1" ≠ "" by decide, show "run-2" ≠ "" by decide⟩,
    show ([packSource 8, loginSource 9].map sourceIdentity).Nodup by decide, rfl⟩
  have both := buildBundle_hash first second
  have swapped : ([loginSource 1, packSource 2].map sourceIdentity).Perm ([packSource 8, loginSource 9].map sourceIdentity) :=
    List.Perm.swap _ _ _
  exact ⟨_, _, first, second, both.1.mpr (Or.inl (both.2.mpr swapped))⟩

end DarkFactory
