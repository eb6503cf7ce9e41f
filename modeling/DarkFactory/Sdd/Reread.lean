import DarkFactory.Sdd.Stored

namespace DarkFactory

section Steps

variable {α : Type} {models : SddModels α} {root directory : TreePath} {tree : Tree} {read : ChangeSet models} {id : String}

theorem readChange_ok : readChange models root id tree = .ok read ↔ ∃ directory text,
    findChangeDir models root id tree = .ok directory ∧ tree.readText (directory ++ ["change.yaml"]) = .ok text ∧
      models.manifest.load text = .ok read.manifest ∧
      (markdownFiles directory tree).mapM (loadDocument models directory tree) = .ok read.documents ∧
      ∀ slot, readOptional models directory tree slot = .ok (read.artifacts slot) := by
  unfold readChange
  constructor
  · intro done
    obtain ⟨directory, found, done⟩ := Outcome.bind_ok.mp done
    obtain ⟨text, shown, done⟩ := Outcome.bind_ok.mp done
    obtain ⟨manifest, loaded, done⟩ := Outcome.bind_ok.mp done
    obtain ⟨documents, listed, done⟩ := Outcome.bind_ok.mp done
    obtain ⟨delta, first, done⟩ := Outcome.bind_ok.mp done
    obtain ⟨tasks, second, done⟩ := Outcome.bind_ok.mp done
    obtain ⟨verification, third, done⟩ := Outcome.bind_ok.mp done
    obtain ⟨evidence, fourth, done⟩ := Outcome.bind_ok.mp done
    obtain ⟨reconciliation, fifth, done⟩ := Outcome.bind_ok.mp done
    rw [← Outcome.pure_ok.mp done]
    refine ⟨directory, text, found, shown, loaded, listed, fun slot => ?_⟩
    cases slot with
    | delta => exact first
    | tasks => exact second
    | verification => exact third
    | evidence => exact fourth
    | reconciliation => exact fifth
  · rintro ⟨directory, text, found, shown, loaded, listed, slots⟩
    refine Outcome.bind_ok.mpr ⟨directory, found, ?_⟩
    refine Outcome.bind_ok.mpr ⟨text, shown, ?_⟩
    refine Outcome.bind_ok.mpr ⟨_, loaded, ?_⟩
    refine Outcome.bind_ok.mpr ⟨_, listed, ?_⟩
    refine Outcome.bind_ok.mpr ⟨_, slots .delta, ?_⟩
    refine Outcome.bind_ok.mpr ⟨_, slots .tasks, ?_⟩
    refine Outcome.bind_ok.mpr ⟨_, slots .verification, ?_⟩
    refine Outcome.bind_ok.mpr ⟨_, slots .evidence, ?_⟩
    refine Outcome.bind_ok.mpr ⟨_, slots .reconciliation, ?_⟩
    rw [Outcome.pure_ok]
    obtain ⟨manifest, artifacts, documents⟩ := read
    congr 1
    funext slot
    cases slot <;> rfl

theorem searchChange_one (root : TreePath) (lawful : models.Lawful) {paths : List TreePath} {path : TreePath}
    {manifest : ChangeManifest models.Rest}
    (sound : ∀ other ∈ paths, ∃ found, tree.content other = some (.text (models.manifest.dump found)))
    (listed : path ∈ paths) (held : tree.content path = some (.text (models.manifest.dump manifest)))
    (one : ∀ other ∈ paths, ∀ found, tree.content other = some (.text (models.manifest.dump found)) →
      found.id = manifest.id → other = path) :
    searchChange models root manifest.id tree paths = .ok path.dropLast := by
  induction paths with
  | nil => cases listed
  | cons first rest ih =>
    rw [List.forall_mem_cons] at sound one
    obtain ⟨found, shown⟩ := sound.1
    obtain ⟨raw, loads, named⟩ := lawful.identified found
    unfold searchChange
    refine Outcome.bind_ok.mpr ⟨_, Tree.readText_text shown, ?_⟩
    simp only [loads, named, FieldValue.isText, decide_eq_true_eq]
    by_cases same : found.id = manifest.id
    · have here := one.1 found shown same
      rw [if_pos same, here, Outcome.pure_ok]
    · have later : path ≠ first := by
        rintro rfl
        rw [held, Option.some.injEq, Content.text.injEq] at shown
        exact same (by rw [lawful.injective shown])
      rw [if_neg same]
      exact ih sound.2 ((List.mem_cons.mp listed).resolve_left later) one.2

/-! ## The documents of a directory -/

theorem mem_markdownFiles {path : TreePath} : path ∈ markdownFiles directory tree ↔
    tree.isFile path = true ∧ directory <+: path ∧ path ≠ directory ∧ isMarkdown path = true := by
  unfold markdownFiles
  rw [List.mem_insertionSort, List.mem_filter, Tree.isFile_iff]
  simp only [List.mem_map, Bool.and_eq_true, decide_eq_true_eq, List.isPrefixOf_iff_prefix, and_assoc]

theorem markdownFiles_sorted : (markdownFiles directory tree).Pairwise (· < ·) := by
  have ordered : (markdownFiles directory tree).Pairwise (· ≤ ·) := List.pairwise_insertionSort (· ≤ ·) _
  have distinct : (markdownFiles directory tree).Nodup := by
    unfold markdownFiles
    rw [(List.perm_insertionSort _ _).nodup_iff]
    exact tree.unique.filter _
  exact (ordered.and distinct).imp fun both => lt_of_le_of_ne both.1 both.2

theorem loadDocument_ok {path : TreePath} {document : Document α}
    (loaded : loadDocument models directory tree path = .ok document) :
    document.path = posixPath (path.drop directory.length) ∧ ∃ text body, tree.readText path = .ok text ∧
      readDocument models.packages text = .ok (document.frontmatter, body) ∧ document.body = stripText body := by
  unfold loadDocument at loaded
  obtain ⟨text, shown, loaded⟩ := Outcome.bind_ok.mp loaded
  obtain ⟨⟨frontmatter, body⟩, split, loaded⟩ := Outcome.bind_ok.mp loaded
  dsimp only at loaded
  split at loaded
  · rw [← Outcome.pure_ok.mp loaded]
    exact ⟨rfl, text, body, shown, split, rfl⟩
  · cases loaded

theorem loadDocument_eq {path : TreePath} {text body : DocText} {document : Document α}
    (shown : tree.readText path = .ok text)
    (split : readDocument models.packages text = .ok (document.frontmatter, body))
    (named : document.path = posixPath (path.drop directory.length)) (stripped : document.body = stripText body) :
    loadDocument models directory tree path = .ok document := by
  obtain ⟨located, frontmatter, held, occupied⟩ := document
  dsimp only at named stripped split
  subst named stripped
  unfold loadDocument
  refine Outcome.bind_ok.mpr ⟨text, shown, Outcome.bind_ok.mpr ⟨_, split, ?_⟩⟩
  simp only [dif_pos occupied, Outcome.pure_ok]

theorem isMarkdown_append {names : TreePath} (occupied : names ≠ []) :
    isMarkdown (directory ++ names) = isMarkdown names := by
  unfold isMarkdown
  rw [List.getLast?_append_of_ne_nil _ occupied]

/-- What a file of plain names below the directory is called. -/
theorem markdown_named {path : TreePath} (member : path ∈ markdownFiles directory tree)
    (safe : ∀ part ∈ path, SafePart part) :
    MarkdownPath (posixPath (path.drop directory.length)) ∧
      directory ++ joinPath [] (posixPath (path.drop directory.length)) = path := by
  obtain ⟨-, ⟨names, rfl⟩, apart, markdown⟩ := mem_markdownFiles.mp member
  have occupied : names ≠ [] := by
    rintro rfl
    exact apart (List.append_nil _)
  rw [isMarkdown_append occupied] at markdown
  rw [List.drop_left]
  have plain : ∀ part ∈ names, SafePart part := fun part inside => safe part (List.mem_append_right _ inside)
  have back := joinPath_posixPath occupied plain
  exact ⟨⟨by rw [back], by rw [back]; exact plain, by rw [back]; exact markdown⟩, by rw [back]⟩

section Documents

variable {documents : List (Document α)} (safe : ∀ path ∈ markdownFiles directory tree, ∀ part ∈ path, SafePart part)
  (loaded : (markdownFiles directory tree).mapM (loadDocument models directory tree) = .ok documents)
include safe loaded

theorem loaded_documents : ∀ document ∈ documents, MarkdownPath document.path ∧
    directory ++ joinPath [] document.path ∈ markdownFiles directory tree ∧
      loadDocument models directory tree (directory ++ joinPath [] document.path) = .ok document := by
  intro document member
  obtain ⟨path, listed, read⟩ := Outcome.mapM_origin loaded document member
  obtain ⟨markdown, here⟩ := markdown_named listed (safe path listed)
  rw [(loadDocument_ok read).1]
  refine ⟨markdown, ?_, ?_⟩
  · rw [here]
    exact listed
  · rw [here]
    exact read

theorem loaded_sorted : documents.Pairwise fun first second => joinPath [] first.path < joinPath [] second.path := by
  have listed : (markdownFiles directory tree).Pairwise fun path other =>
      (path ∈ markdownFiles directory tree ∧ other ∈ markdownFiles directory tree) ∧ path < other :=
    List.Pairwise.and_mem.mp markdownFiles_sorted |>.imp fun each => ⟨⟨each.1, each.2.1⟩, each.2.2⟩
  refine Outcome.mapM_pairwise loaded listed ?_
  rintro path other first second read read' ⟨⟨member, also⟩, before⟩
  have here := (markdown_named member (safe path member)).2
  have there := (markdown_named also (safe other also)).2
  rw [(loadDocument_ok read).1, (loadDocument_ok read').1]
  by_contra after
  rw [not_lt] at after
  have reversed : other ≤ path := by
    rw [← here, ← there]
    rcases after.lt_or_eq with less | same
    · exact (List.append_left_lt less).le
    · rw [same]
  exact absurd before (not_lt.mpr reversed)

end Documents

end Steps

end DarkFactory
