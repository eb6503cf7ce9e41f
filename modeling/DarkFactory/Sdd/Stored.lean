import DarkFactory.Sdd.RoundTrip

namespace DarkFactory

section Stored

variable {α : Type} {models : SddModels α} {root : TreePath} {change other : ChangeSet models} {tree after : Tree}
  {path : TreePath}

structure Stored (root : TreePath) (change : ChangeSet models) (tree : Tree) : Prop where
  under : ∀ path, changeDir root change.manifest <+: path →
    (tree.isFile path = true ↔ ∃ file ∈ change.files, changeDir root change.manifest ++ joinPath [] file.1 = path)
  content : ∀ file ∈ change.files,
    tree.content (changeDir root change.manifest ++ joinPath [] file.1) = some (.text file.2)

def manifestPath (root : TreePath) (change : ChangeSet models) : TreePath :=
  changeDir root change.manifest ++ ["change.yaml"]

theorem manifest_listed : ("change.yaml", models.manifest.dump change.manifest) ∈ change.files := List.mem_cons_self

theorem manifest_names : joinPath [] "change.yaml" = ["change.yaml"] := by decide

theorem Stored.manifest (stored : Stored root change tree) :
    tree.content (manifestPath root change) = some (.text (models.manifest.dump change.manifest)) := by
  have held := stored.content _ manifest_listed
  rw [manifest_names] at held
  exact held

theorem Tree.isFile_content {path : TreePath} {content : Content} (held : tree.content path = some content) :
    tree.isFile path = true := by
  rw [Tree.isFile, held, Option.isSome_some]

theorem Stored.isDir (stored : Stored root change tree) : tree.isDir (changeDir root change.manifest) = true := by
  have file := Tree.isFile_content stored.manifest
  exact Tree.isDir_iff.mpr (Or.inr (Or.inl ⟨_, file, List.prefix_append _ _, by simp [manifestPath]⟩))

theorem Created.stored (created : Created root change tree after) (clear : Clear root change tree)
    (distinct : (change.documents.map Document.path).Nodup) : Stored root change after where
  under := by
    intro path below
    rw [created.isFile]
    refine or_iff_left ?_
    rw [clear.below below]
    decide
  content := created.content distinct

theorem changeDir_eq (above : changeDir root change.manifest <+: path)
    (also : changeDir root other.manifest <+: path) : changeDir root change.manifest = changeDir root other.manifest := by
  have long : (changeDir root change.manifest).length = (changeDir root other.manifest).length := by
    rw [changeDir_length, changeDir_length]
  exact (List.prefix_of_prefix_length_le above also long.le).eq_of_length long

theorem Created.keeps (created : Created root other tree after) (clear : Clear root other tree)
    (stored : Stored root change tree) : Stored root change after := by
  have apart (path : TreePath) (below : changeDir root change.manifest <+: path) :
      ¬ changeDir root other.manifest <+: path := by
    intro also
    have same := changeDir_eq below also
    have fresh := clear.fresh
    rw [← same, stored.isDir] at fresh
    cases fresh
  have outside (path : TreePath) (below : changeDir root change.manifest <+: path) :
      ∀ file ∈ other.files, changeDir root other.manifest ++ joinPath [] file.1 ≠ path := by
    rintro file - rfl
    exact apart _ below (List.prefix_append _ _)
  constructor
  · intro path below
    rw [created.isFile, stored.under path below]
    refine or_iff_right ?_
    rintro ⟨file, member, here⟩
    exact outside path below file member here
  · intro file member
    rw [created.other _ (outside _ (List.prefix_append _ _))]
    exact stored.content file member

/-- Creating a change leaves the directory of another one free. -/
theorem Created.clear_other (created : Created root change tree after) (clear : Clear root other tree)
    (apart : changeDir root change.manifest ≠ changeDir root other.manifest) : Clear root other after := by
  constructor
  · intro way above
    rw [Bool.eq_false_iff, ne_eq, created.isFile, not_or]
    refine ⟨?_, Bool.eq_false_iff.mp (clear.free way above)⟩
    rintro ⟨file, -, rfl⟩
    exact apart (changeDir_eq ((List.prefix_append _ _).trans above) List.prefix_rfl)
  · rw [Bool.eq_false_iff, ne_eq, created.isDir, not_or, not_or]
    refine ⟨Bool.eq_false_iff.mp clear.fresh, ?_, ?_⟩
    · intro above
      exact apart (changeDir_eq List.prefix_rfl above)
    · rintro ⟨file, -, above, -⟩
      exact apart (changeDir_eq (List.prefix_append _ _) above)

/-! ## The manifests of a tree -/

section Manifests

theorem mem_manifestPaths : path ∈ manifestPaths root tree ↔ (tree.isFile path = true ∨ tree.isDir path = true) ∧
    changesRoot root <+: path ∧ path.length = (changesRoot root).length + 3 ∧ path.getLast? = some "change.yaml" := by
  unfold manifestPaths
  rw [List.mem_insertionSort, List.mem_filter]
  simp only [Bool.and_eq_true, decide_eq_true_eq, List.isPrefixOf_iff_prefix, and_assoc]
  constructor
  · rintro ⟨listed, under, long, last⟩
    have occupied : path ≠ [] := List.ne_nil_of_length_pos (by omega)
    exact ⟨(entries_iff occupied).mp listed, under, long, last⟩
  · rintro ⟨present, under, long, last⟩
    have occupied : path ≠ [] := List.ne_nil_of_length_pos (by omega)
    exact ⟨(entries_iff occupied).mpr present, under, long, last⟩

theorem changesRoot_above : changesRoot root <+: changeDir root change.manifest := List.prefix_append _ _

theorem manifestPath_placed : changesRoot root <+: manifestPath root change ∧
    (manifestPath root change).length = (changesRoot root).length + 3 ∧
      (manifestPath root change).getLast? = some "change.yaml" := by
  refine ⟨changesRoot_above.trans (List.prefix_append _ _), ?_, ?_⟩
  · rw [manifestPath, List.length_append, changeDir_length, List.length_singleton]
  · rw [manifestPath, List.getLast?_concat]

theorem Stored.listed (stored : Stored root change tree) : manifestPath root change ∈ manifestPaths root tree :=
  mem_manifestPaths.mpr ⟨Or.inl (Tree.isFile_content stored.manifest), manifestPath_placed⟩

/-- A path of a manifest's depth at or above a file of the change is its manifest. -/
theorem manifestPath_only {names : TreePath} (long : path.length = (changesRoot root).length + 3)
    (last : path.getLast? = some "change.yaml") (above : path <+: changeDir root change.manifest ++ names) :
    path = manifestPath root change := by
  have deep : (changeDir root change.manifest).length ≤ path.length := by
    rw [changeDir_length, long]
    omega
  obtain ⟨rest, rfl⟩ := List.prefix_of_prefix_length_le (List.prefix_append _ names) above deep
  have single : rest.length = 1 := by
    rw [List.length_append, changeDir_length] at long
    omega
  obtain ⟨name, rfl⟩ := List.length_eq_one_iff.mp single
  rw [List.getLast?_concat, Option.some.injEq] at last
  rw [manifestPath, last]

theorem Created.mem_manifestPaths (created : Created root change tree after) : path ∈ manifestPaths root after ↔
    path ∈ manifestPaths root tree ∨ path = manifestPath root change := by
  rw [DarkFactory.mem_manifestPaths, DarkFactory.mem_manifestPaths, created.isFile, created.isDir]
  constructor
  · rintro ⟨present, under, long, last⟩
    rcases present with (⟨file, -, rfl⟩ | held) | dir | above | ⟨file, -, above, -⟩
    · exact Or.inr (manifestPath_only long last List.prefix_rfl)
    · exact Or.inl ⟨Or.inl held, under, long, last⟩
    · exact Or.inl ⟨Or.inr dir, under, long, last⟩
    · have short := above.length_le
      rw [changeDir_length] at short
      omega
    · exact Or.inr (manifestPath_only long last above)
  · rintro (⟨held | dir, placed⟩ | rfl)
    · exact ⟨Or.inl (Or.inr held), placed⟩
    · exact ⟨Or.inr (Or.inl dir), placed⟩
    · exact ⟨Or.inl (Or.inl ⟨_, manifest_listed, by rw [manifest_names, manifestPath]⟩), manifestPath_placed⟩

variable (created : Created root change tree after) (clear : Clear root change tree)
  (distinct : (change.documents.map Document.path).Nodup)
include created clear distinct

theorem Created.holdsId {id : String} (sound : Sound root models tree) (lawful : models.Lawful) :
    HoldsId root models after path id ↔
      HoldsId root models tree path id ∨ path = manifestPath root change ∧ id = change.manifest.id := by
  have stored := created.stored clear distinct
  have old (listed : path ∈ manifestPaths root tree) : after.content path = tree.content path := by
    obtain ⟨manifest, held⟩ := sound.manifests path listed
    refine created.other path ?_
    rintro file - rfl
    have free := clear.below (List.prefix_append (changeDir root change.manifest) (joinPath [] file.1))
    rw [Tree.isFile_content held] at free
    cases free
  unfold HoldsId
  rw [created.mem_manifestPaths]
  constructor
  · rintro ⟨listed | rfl, manifest, held, named⟩
    · rw [old listed] at held
      exact Or.inl ⟨listed, manifest, held, named⟩
    · rw [stored.manifest, Option.some.injEq, Content.text.injEq] at held
      have same : change.manifest = manifest := lawful.injective held
      exact Or.inr ⟨rfl, by rw [← named, same]⟩
  · rintro (⟨listed, manifest, held, named⟩ | ⟨rfl, rfl⟩)
    · rw [← old listed] at held
      exact ⟨Or.inl listed, manifest, held, named⟩
    · exact ⟨Or.inr rfl, change.manifest, stored.manifest, rfl⟩

end Manifests

end Stored

end DarkFactory
