import DarkFactory.Context.Bundle
import DarkFactory.Sdd.Paths
import DarkFactory.Sdd.Reconciliation

/-! The revision of the accepted product stands for its files. -/

namespace DarkFactory

def Content.bytes : Content → List Nat
  | .text characters => Sha256.encode (String.ofList characters)
  | .binary bytes _ => bytes.data.toList.map UInt8.toNat

def productContent (root : TreePath) (tree : Tree) (names : TreePath) : Option Content := tree.content (productRoot root ++ names)

def SameProduct (root : TreePath) (before after : Tree) : Prop :=
  ∀ names, names ≠ [] → productContent root before names = productContent root after names

def revisionPayload (files : List (String × String)) : String :=
  JsonText.rows ((files.insertionSort fun left right => left.1 ≤ right.1).map fun pair => [pair.1, pair.2])

/-- The inputs on which the revisions of two products would have to collide: the payloads, or the contents at a path. -/
def RevisionsCollide (root : TreePath) (before after : Tree) : Prop :=
  Collide (Sha256.encode (revisionPayload (scanBaseline root before)))
    (Sha256.encode (revisionPayload (scanBaseline root after))) ∨
  ∃ names first second, productContent root before names = some first ∧ productContent root after names = some second ∧
    Collide first.bytes second.bytes

section Contents

variable {content other : Content}

theorem hashBytes_eq (content : Content) : hashBytes content = hashHex content.bytes := by
  cases content <;> rfl

theorem Content.bytes_inj : content.bytes = other.bytes ↔ content = other := by
  have numbers {first second : ByteArray} (same : first.data.toList.map UInt8.toNat = second.data.toList.map UInt8.toNat) :
      first = second := by
    have bytes : first.data.toList = second.data.toList := List.map_injective_iff.mpr (fun _ _ => UInt8.toNat_inj.mp) same
    exact ByteArray.ext (Array.toList_inj.mp bytes)
  have mixed (text : String) {bytes : ByteArray} (undecodable : bytes.validateUTF8 = false) :
      Sha256.encode text ≠ bytes.data.toList.map UInt8.toNat := by
    intro same
    rw [← numbers same] at undecodable
    have valid : text.toUTF8.utf8Decode?.isSome := ByteArray.isSome_utf8Decode?_iff.mpr text.isValidUTF8
    rw [ByteArray.isSome_utf8Decode?_eq_validateUTF8, undecodable] at valid
    exact absurd valid Bool.false_ne_true
  refine ⟨fun same => ?_, congrArg Content.bytes⟩
  cases content with
  | text characters =>
    cases other with
    | text others => rw [String.ofList_injective (encode_inj.mp same)]
    | binary bytes undecodable => exact absurd same (mixed _ undecodable)
  | binary bytes undecodable =>
    cases other with
    | text others => exact absurd same.symm (mixed _ undecodable)
    | binary more undecodable' =>
      obtain rfl := numbers same
      rfl

end Contents

section Scan

variable {root path names : TreePath} {tree before after : Tree} {content : Content}

theorem Tree.mem_files : (path, content) ∈ tree.files ↔ tree.content path = some content := by
  constructor
  · intro member
    rw [Tree.content, tree.unique.find member]
    rfl
  · intro held
    obtain ⟨file, found, rfl⟩ := Option.map_eq_some_iff.mp held
    obtain ⟨member, rfl⟩ := Table.find_some found
    exact member

theorem inProduct_iff : inProduct root path = true ↔ ∃ names, names ≠ [] ∧ path = productRoot root ++ names := by
  rw [inProduct, Bool.and_eq_true, List.isPrefixOf_iff_prefix, decide_eq_true_eq]
  constructor
  · rintro ⟨⟨names, rfl⟩, apart⟩
    exact ⟨names, fun none_ => apart (by rw [none_, List.append_nil]), rfl⟩
  · rintro ⟨names, some_, rfl⟩
    refine ⟨List.prefix_append _ _, fun same => some_ ?_⟩
    exact List.append_right_eq_self.mp same

theorem mem_scanBaseline {pair : String × String} : pair ∈ scanBaseline root tree ↔ ∃ names content, names ≠ [] ∧
    productContent root tree names = some content ∧ pair = (posixPath ("product" :: names), hashHex content.bytes) := by
  have relative (names : TreePath) : (productRoot root ++ names).drop root.length = "product" :: names := by
    rw [productRoot, List.append_assoc, List.drop_left]
    rfl
  rw [scanBaseline, List.mem_map]
  constructor
  · rintro ⟨file, member, rfl⟩
    obtain ⟨path, content⟩ := file
    obtain ⟨listed, inside⟩ := List.mem_filter.mp member
    obtain ⟨names, some_, rfl⟩ := inProduct_iff.mp inside
    refine ⟨names, content, some_, Tree.mem_files.mp listed, ?_⟩
    rw [relative, hashBytes_eq]
  · rintro ⟨names, content, some_, held, rfl⟩
    have inside : inProduct root (productRoot root ++ names) = true := inProduct_iff.mpr ⟨names, some_, rfl⟩
    refine ⟨(productRoot root ++ names, content), List.mem_filter.mpr ⟨Tree.mem_files.mpr held, inside⟩, ?_⟩
    rw [relative, hashBytes_eq]

def Tree.Named (tree : Tree) : Prop := ∀ path, tree.isFile path = true → ∀ part ∈ path, SafePart part

theorem Tree.Named.safe (named : tree.Named) (held : productContent root tree names = some content) :
    ∀ part ∈ "product" :: names, SafePart part := by
  have file : tree.isFile (productRoot root ++ names) = true := by
    rw [Tree.isFile, show tree.content (productRoot root ++ names) = some content from held]
    rfl
  intro part member
  refine named _ file part ?_
  rcases List.mem_cons.mp member with rfl | below
  · exact List.mem_append_left _ (List.mem_append_right _ List.mem_cons_self)
  · exact List.mem_append_right _ below

/-- Paths tell the accepted files apart. -/
theorem Tree.Named.apart (first : before.Named) (second : after.Named) {others : TreePath} {other : Content}
    (held : productContent root before names = some content) (held' : productContent root after others = some other)
    (same : posixPath ("product" :: names) = posixPath ("product" :: others)) : names = others := by
  have paths := posixPath_injective (List.cons_ne_nil _ _) (first.safe held) (List.cons_ne_nil _ _) (second.safe held') same
  exact (List.cons.inj paths).2

theorem scanBaseline_unique (named : tree.Named) : Table.Unique Prod.fst (scanBaseline root tree) := by
  have files : tree.files.Pairwise fun left right => left.1 ≠ right.1 :=
    List.pairwise_map.mp (List.nodup_iff_pairwise_ne.mp tree.unique)
  rw [Table.Unique, List.nodup_iff_pairwise_ne, scanBaseline, List.map_map, List.pairwise_map]
  refine (files.filter _).imp_of_mem fun {left right} here there apart same => apart ?_
  obtain ⟨listed, inside⟩ := List.mem_filter.mp here
  obtain ⟨listed', inside'⟩ := List.mem_filter.mp there
  obtain ⟨names, -, under⟩ := inProduct_iff.mp inside
  obtain ⟨others, -, under'⟩ := inProduct_iff.mp inside'
  have relative (names : TreePath) : (productRoot root ++ names).drop root.length = "product" :: names := by
    rw [productRoot, List.append_assoc, List.drop_left]
    rfl
  have held : productContent root tree names = some left.2 := Tree.mem_files.mp (by rw [← under]; exact listed)
  have held' : productContent root tree others = some right.2 := Tree.mem_files.mp (by rw [← under']; exact listed')
  have shown : posixPath ("product" :: names) = posixPath ("product" :: others) := by
    rw [← relative, ← relative, ← under, ← under']
    exact same
  rw [under, under', named.apart named held held' shown]

end Scan

section Revision

variable {root names : TreePath} {before after : Tree} {files others : List (String × String)}

theorem computeRevision_eq (files : List (String × String)) :
    computeRevision files = Sha256.hexdigest (revisionPayload files) := by
  have row (pair : String × String) : JsonText.array ([pair.1, pair.2].map jsonString) =
      "[" ++ jsonString pair.1 ++ "," ++ jsonString pair.2 ++ "]" := by
    simp only [JsonText.array, Text.join, List.map_cons, List.map_nil, String.intercalate_cons_cons,
      String.intercalate_singleton, String.append_assoc]
  simp only [computeRevision, revisionPayload, JsonText.rows, List.map_map, Function.comp_def, row]
  rfl

/-- Lists of pairs with paths of their own have one payload where they are of the same pairs. -/
theorem revisionPayload_iff (unique : Table.Unique Prod.fst files) :
    revisionPayload files = revisionPayload others ↔ files.Perm others := by
  let byPath : String × String → String × String → Prop := fun left right => left.1 ≤ right.1
  have sorted (items : List (String × String)) : (items.insertionSort fun left right => left.1 ≤ right.1).Perm items :=
    List.perm_insertionSort _ items
  have pairs : Function.Injective fun pair : String × String => [pair.1, pair.2] := by
    intro first second same
    simp only [List.cons.injEq, and_true] at same
    exact Prod.ext same.1 same.2
  rw [revisionPayload, revisionPayload, JsonText.rows_inj, List.map_inj_right (fun _ _ same => pairs same)]
  constructor
  · intro same
    exact (sorted files).symm.trans ((List.Perm.of_eq same).trans (sorted others))
  · intro same
    have ordered (items : List (String × String)) :
        (items.insertionSort fun left right => left.1 ≤ right.1).Pairwise fun left right => left.1 ≤ right.1 :=
      List.pairwise_insertionSort _ items
    refine List.Perm.eq_of_pairwise ?_ (ordered files) (ordered others)
      (((sorted files).trans same).trans (sorted others).symm)
    intro first second here there le ge
    have mine : first ∈ files := (sorted files).mem_iff.mp here
    have theirs : second ∈ files := same.mem_iff.mpr ((sorted others).mem_iff.mp there)
    exact unique.eq mine theirs (le_antisymm le ge)

def SameHashes (root : TreePath) (before after : Tree) : Prop :=
  ∀ names, names ≠ [] → (productContent root before names).map (fun content => hashHex content.bytes) =
    (productContent root after names).map fun content => hashHex content.bytes

theorem scanBaseline_perm (first : before.Named) (second : after.Named) :
    (scanBaseline root before).Perm (scanBaseline root after) ↔ SameHashes root before after := by
  rw [List.perm_ext_iff_of_nodup (List.Nodup.of_map _ (scanBaseline_unique first))
    (List.Nodup.of_map _ (scanBaseline_unique second))]
  have half {left right : Tree} (named : left.Named) (also : right.Named)
      (members : ∀ pair ∈ scanBaseline root left, pair ∈ scanBaseline root right) {names : TreePath} (some_ : names ≠ [])
      {content : Content} (held : productContent root left names = some content) :
      (productContent root right names).map (fun content => hashHex content.bytes) = some (hashHex content.bytes) := by
    have listed := members _ (mem_scanBaseline.mpr ⟨names, content, some_, held, rfl⟩)
    obtain ⟨others, other, -, there, same⟩ := mem_scanBaseline.mp listed
    obtain ⟨paths, hashes⟩ := Prod.mk.inj same
    obtain rfl := named.apart also held there paths
    rw [there, Option.map_some, hashes]
  constructor
  · intro members names some_
    cases held : productContent root before names with
    | some content =>
      rw [half first second (fun pair => (members pair).mp) some_ held]
      rfl
    | none =>
      cases held' : productContent root after names with
      | none => rfl
      | some content =>
        have back := half second first (fun pair => (members pair).mpr) some_ held'
        rw [held] at back
        cases back
  · intro same pair
    rw [mem_scanBaseline, mem_scanBaseline]
    constructor
    · rintro ⟨names, content, some_, held, rfl⟩
      have here := same names some_
      rw [held, Option.map_some] at here
      obtain ⟨other, there, hashes⟩ := Option.map_eq_some_iff.mp here.symm
      exact ⟨names, other, some_, there, by rw [hashes]⟩
    · rintro ⟨names, content, some_, held, rfl⟩
      have here := same names some_
      rw [held, Option.map_some] at here
      obtain ⟨other, there, hashes⟩ := Option.map_eq_some_iff.mp here
      exact ⟨names, other, some_, there, by rw [hashes]⟩

theorem SameProduct.hashes (same : SameProduct root before after) : SameHashes root before after := by
  intro names some_
  rw [same names some_]

theorem SameHashes.product (same : SameHashes root before after) : SameProduct root before after ∨
    ∃ names first second, productContent root before names = some first ∧ productContent root after names = some second ∧
      Collide first.bytes second.bytes := by
  by_cases all : SameProduct root before after
  · exact Or.inl all
  · right
    simp only [SameProduct, not_forall] at all
    obtain ⟨names, some_, differ⟩ := all
    have hashes := same names some_
    cases held : productContent root before names with
    | none =>
      rw [held, Option.map_none] at hashes
      have there := Option.map_eq_none_iff.mp hashes.symm
      exact absurd (held.trans there.symm) differ
    | some first =>
      rw [held, Option.map_some] at hashes
      obtain ⟨second, there, equal⟩ := Option.map_eq_some_iff.mp hashes.symm
      refine ⟨names, first, second, held, there, fun bytes => differ ?_, equal.symm⟩
      rw [held, there, Content.bytes_inj.mp bytes]

/-- The revision is that of the accepted files, and of no others short of a collision. -/
theorem currentRevision_same (first : before.Named) (second : after.Named) :
    (SameProduct root before after → currentRevision root before = currentRevision root after) ∧
    (currentRevision root before = currentRevision root after →
      SameProduct root before after ∨ RevisionsCollide root before after) := by
  have payloads := @revisionPayload_iff _ (scanBaseline root after) (@scanBaseline_unique root before first)
  rw [scanBaseline_perm first second] at payloads
  rw [currentRevision, currentRevision, computeRevision_eq, computeRevision_eq]
  constructor
  · intro same
    rw [payloads.mpr same.hashes]
  · intro same
    rcases hexdigest_iff.mp same with equal | collide
    · exact (payloads.mp equal).product.imp_right Or.inr
    · exact Or.inr (Or.inl collide)

/-- A delta prepared at a revision is applied where the accepted files are those it was prepared for, whatever else has
    happened to the tree; where they are not, it is refused and nothing is written, short of a collision. -/
theorem applyDeltaOperations_prepared {α : Type} (packages : Packages α) (changeDir : List String)
    (operations : List DeltaOperation) (changeId : String) (first : before.Named) (second : after.Named) :
    (SameProduct root before after →
      applyDeltaOperations packages root changeDir operations changeId (currentRevision root before) after =
        applyDeltaOperations packages root changeDir operations changeId (currentRevision root after) after) ∧
    (¬ SameProduct root before after → ¬ RevisionsCollide root before after → ∃ message,
      applyDeltaOperations packages root changeDir operations changeId (currentRevision root before) after =
        .error ⟨.baselineMismatch, message⟩ after) := by
  obtain ⟨stands, told⟩ := @currentRevision_same root before after first second
  constructor
  · intro same
    rw [stands same]
  · intro differ apart
    have moved : currentRevision root after ≠ currentRevision root before := fun same =>
      (told same.symm).elim differ apart
    refine ⟨"baseline revision mismatch: expected " ++ Text.repr (currentRevision root before) ++ ", actual " ++
      Text.repr (currentRevision root after), ?_⟩
    unfold applyDeltaOperations
    rw [Outcome.state_get_bind]
    simp only [ne_eq, moved, not_false_eq_true, if_true]
    rfl

theorem Tree.Named.write {path : TreePath} {content : Content} (named : before.Named) (safe : ∀ part ∈ path, SafePart part) :
    (before.write path content).Named := by
  intro other file
  by_cases here : other = path
  · rw [here]
    exact safe
  · rw [Tree.isFile, Tree.content_write_other here] at file
    exact named other file

theorem legacyTree_named : legacyTree.Named := by
  have nothing : Tree.empty.Named := by
    intro path file
    cases file
  exact nothing.write (by decide)

theorem proposalTree_named : proposalTree.Named := legacyTree_named.write (by decide)

def editedTree : Tree := proposalTree.write legacyPath (.text "Gone.".toList)

/-- The digits of the two payloads differ, and those of the two versions of the document. -/
theorem editedTree_digits :
    (Sha256.digest (Sha256.encode (revisionPayload (scanBaseline pilotRoot legacyTree)))).flatMap Sha256.hexWord ≠
        (Sha256.digest (Sha256.encode (revisionPayload (scanBaseline pilotRoot editedTree)))).flatMap Sha256.hexWord ∧
      (legacyTree.content legacyPath).map (fun content => (Sha256.digest content.bytes).flatMap Sha256.hexWord) ≠
        (editedTree.content legacyPath).map (fun content => (Sha256.digest content.bytes).flatMap Sha256.hexWord) := by
  decide +kernel

theorem legacyTree_lone {names : TreePath} {content : Content}
    (held : productContent pilotRoot legacyTree names = some content) : productRoot pilotRoot ++ names = legacyPath := by
  by_contra other
  rw [productContent, legacyTree, Tree.content_write_other other] at held
  cases held

theorem editedTree_apart : ¬ RevisionsCollide pilotRoot legacyTree editedTree := by
  obtain ⟨payloads, contents⟩ := editedTree_digits
  rintro (⟨-, same⟩ | ⟨names, first, second, before, after, -, same⟩)
  · exact payloads (String.ofList_injective same)
  · have place := legacyTree_lone before
    rw [productContent, place] at before after
    rw [before, after] at contents
    exact contents (congrArg some (String.ofList_injective same))

theorem editedTree_changed : ¬ SameProduct pilotRoot legacyTree editedTree := by
  intro same
  obtain ⟨-, contents⟩ := editedTree_digits
  have here : legacyTree.content legacyPath = editedTree.content legacyPath := same ["legacy.md"] (List.cons_ne_nil _ _)
  rw [here] at contents
  exact contents rfl

/-- A change that is only proposed leaves the accepted product as it is, and an edit of an accepted document does not. -/
theorem proposalTree_prepared :
    applyDeltaOperations plainYaml pilotRoot timeoutChange [timeoutAdded] "chg-2" (currentRevision pilotRoot legacyTree)
        proposalTree =
      applyDeltaOperations plainYaml pilotRoot timeoutChange [timeoutAdded] "chg-2"
        (currentRevision pilotRoot proposalTree) proposalTree ∧
    ∃ message, applyDeltaOperations plainYaml pilotRoot timeoutChange [timeoutAdded] "chg-2"
      (currentRevision pilotRoot legacyTree) editedTree = .error ⟨.baselineMismatch, message⟩ editedTree := by
  have unchanged : SameProduct pilotRoot legacyTree proposalTree := by
    intro names some_
    have apart : productRoot pilotRoot ++ names ≠ timeoutSource := by
      intro same
      have second : "product" = "changes" := (List.cons.inj (List.cons.inj same).2).1
      exact absurd second (by decide)
    rw [productContent, productContent, proposalTree, Tree.content_write_other apart]
  constructor
  · exact (applyDeltaOperations_prepared plainYaml timeoutChange [timeoutAdded] "chg-2" legacyTree_named
      proposalTree_named).1 unchanged
  · have edited : editedTree.Named := proposalTree_named.write (by decide)
    exact (applyDeltaOperations_prepared plainYaml timeoutChange [timeoutAdded] "chg-2" legacyTree_named edited).2
      editedTree_changed editedTree_apart

end Revision

end DarkFactory
