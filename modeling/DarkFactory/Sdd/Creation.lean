import DarkFactory.Sdd.Reread

namespace DarkFactory

section Kept

variable {α : Type} {packages : Packages α} {document : Document α}

def Document.Reads (packages : Packages α) (document : Document α) : Prop :=
  ∃ body, readDocument packages (newlines false (documentText packages document)) = .ok (document.frontmatter, body) ∧
    stripText body = stripText document.body

theorem splitFrontmatter_plain_text {text : DocText}
    (undelimited : ∀ line, (splitlines text).head? = some line → isDelimiter line = false) :
    splitFrontmatter packages text = .ok (none, text) := by
  unfold splitFrontmatter
  split
  · rfl
  · rename_i first rest lines
    have plain := undelimited first (by rw [lines, List.head?_cons])
    simp [plain]

theorem Document.reads_iff (plain : PlainBreaks document.body) : document.Reads packages ↔ document.Kept packages := by
  obtain ⟨path, frontmatter, body, located⟩ := document
  unfold Reads Kept documentText
  dsimp only at plain ⊢
  cases frontmatter with
  | some frontmatter => exact readsBack_iff plain splitlines_newlines
  | none =>
    have unreturned : newlines false body = body := by
      refine newlines_id fun c member => ?_
      rintro rfl
      exact absurd (plain _ member (by decide)) (by decide)
    rw [unreturned]
    constructor
    · rintro ⟨rest, read, -⟩ line first
      rw [Bool.eq_false_iff]
      intro opens
      obtain ⟨others, lines⟩ := List.head?_eq_some_iff.mp first
      obtain ⟨⟨raw, tail⟩, splits, read⟩ := Outcome.bind_ok.mp read
      obtain ⟨found, rfl⟩ := splitFrontmatter_opens lines opens splits
      obtain ⟨loaded, -, done⟩ := Outcome.bind_ok.mp read
      cases Outcome.pure_ok.mp done
    · intro undelimited
      exact ⟨body, Outcome.bind_ok.mpr ⟨_, splitFrontmatter_plain_text undelimited, rfl⟩, rfl⟩

end Kept

section Reads

variable {α : Type} {models : SddModels α} {root : TreePath} {change other : ChangeSet models} {tree after : Tree}

def FoundOnce (root : TreePath) (change : ChangeSet models) (tree : Tree) : Prop :=
  ∀ path, HoldsId root models tree path change.manifest.id → path = manifestPath root change

variable (lawful : models.Lawful) (sound : Sound root models tree) (stored : Stored root change tree)
  (once : FoundOnce root change tree) (paths : ∀ document ∈ change.documents, MarkdownPath document.path)
  (distinct : (change.documents.map Document.path).Nodup)

include lawful sound stored once in
theorem findChangeDir_stored :
    findChangeDir models root change.manifest.id tree = .ok (changeDir root change.manifest) := by
  have found := searchChange_one root lawful sound.manifests stored.listed stored.manifest fun other listed manifest held same =>
    once other ⟨listed, manifest, held, same⟩
  rw [manifestPath, List.dropLast_concat] at found
  exact found

include stored paths in
theorem Stored.mem_markdownFiles {path : TreePath} : path ∈ markdownFiles (changeDir root change.manifest) tree ↔
    ∃ document ∈ change.documents, changeDir root change.manifest ++ joinPath [] document.path = path := by
  rw [DarkFactory.mem_markdownFiles]
  constructor
  · rintro ⟨file, below, -, markdown⟩
    obtain ⟨entry, listed, rfl⟩ := (stored.under path below).mp file
    rw [isMarkdown_append (files_relative paths listed).occupied] at markdown
    rcases mem_files.mp listed with rfl | ⟨document, inside, rfl⟩ | ⟨slot, artifact, -, rfl⟩
    · have named : isMarkdown (joinPath [] "change.yaml") = true := markdown
      exact absurd named (by decide)
    · exact ⟨document, inside, rfl⟩
    · rw [slot.path_plain.1] at markdown
      cases markdown
  · rintro ⟨document, inside, rfl⟩
    have markdown := paths document inside
    have below := List.prefix_append (changeDir root change.manifest) (joinPath [] document.path)
    refine ⟨(stored.under _ below).mpr ⟨_, mem_files.mpr (Or.inr (Or.inl ⟨document, inside, rfl⟩)), rfl⟩, below, ?_, ?_⟩
    · intro same
      exact markdown.relative.occupied (List.append_right_eq_self.mp same)
    · rw [isMarkdown_append markdown.relative.occupied]
      exact markdown.markdown

include stored in
theorem Stored.document {document : Document α} (inside : document ∈ change.documents) :
    tree.readText (changeDir root change.manifest ++ joinPath [] document.path) =
      .ok (newlines false (documentText models.packages document)) := by
  have listed : (document.path, documentText models.packages document) ∈ change.files :=
    mem_files.mpr (Or.inr (Or.inl ⟨document, inside, rfl⟩))
  have held := stored.content _ listed
  exact Tree.readText_text held

include stored paths in
theorem Stored.loads {document : Document α} (inside : document ∈ change.documents) :
    loadDocument models (changeDir root change.manifest) tree (changeDir root change.manifest ++ joinPath [] document.path) =
      .ok document.trimmed ↔ document.Reads models.packages := by
  constructor
  · intro loaded
    obtain ⟨-, text, body, shown, split, stripped⟩ := loadDocument_ok loaded
    rw [stored.document inside, Except.ok.injEq] at shown
    rw [← shown] at split
    exact ⟨body, split, stripped.symm⟩
  · rintro ⟨body, split, stripped⟩
    refine loadDocument_eq (stored.document inside) split ?_ stripped.symm
    rw [List.drop_left]
    exact (paths document inside).written

include stored paths in
theorem Stored.artifact (slot : YamlSlot) (lawful : models.Lawful) :
    readOptional models (changeDir root change.manifest) tree slot = .ok (change.artifacts slot) := by
  have here : joinPath (changeDir root change.manifest) slot.path =
      changeDir root change.manifest ++ joinPath [] slot.path := slot.path_relative.under _
  unfold readOptional
  rw [here]
  cases held : change.artifacts slot with
  | some artifact =>
    have listed := mem_files.mpr (Or.inr (Or.inr ⟨slot, artifact, held, rfl⟩))
    have content := stored.content _ listed
    have file := Tree.isFile_content content
    simp only [file]
    refine Outcome.bind_ok.mpr ⟨_, Tree.readText_text content, ?_⟩
    exact Outcome.bind_ok.mpr ⟨artifact, lawful.artifact slot artifact, rfl⟩
  | none =>
    have absent : tree.isFile (changeDir root change.manifest ++ joinPath [] slot.path) = false := by
      rw [Bool.eq_false_iff]
      intro file
      obtain ⟨entry, listed, same⟩ := (stored.under _ (List.prefix_append _ _)).mp file
      rw [List.append_cancel_left_eq] at same
      rcases mem_files.mp listed with rfl | ⟨document, inside, rfl⟩ | ⟨other, artifact, present, rfl⟩
      · exact slot.path_plain.2 same.symm
      · have markdown := (paths document inside).markdown
        rw [same, slot.path_plain.1] at markdown
        cases markdown
      · have named : other.path = slot.path := other.path_relative.unique slot.path_relative same
        obtain rfl := YamlSlot.path_injective named
        rw [held] at present
        cases present
    simp only [absent]
    rfl

include sound in
theorem Sound.markdown_safe {directory : TreePath} :
    ∀ path ∈ markdownFiles directory tree, ∀ part ∈ path, SafePart part := by
  intro path member
  exact sound.named path (DarkFactory.mem_markdownFiles.mp member).1

include lawful sound stored once paths distinct in
theorem readsChange_iff : ReadsChange root change tree ↔ ∀ document ∈ change.documents, document.Reads models.packages := by
  have found := findChangeDir_stored lawful sound stored once
  have safe : ∀ path ∈ markdownFiles (changeDir root change.manifest) tree, ∀ part ∈ path, SafePart part :=
    sound.markdown_safe
  have origin (documents : List (Document α))
      (loaded : (markdownFiles (changeDir root change.manifest) tree).mapM
        (loadDocument models (changeDir root change.manifest) tree) = .ok documents) :=
    loaded_documents safe loaded
  constructor
  · rintro ⟨read, done, restores⟩ document inside
    obtain ⟨directory, text, again, -, -, loaded, -⟩ := readChange_ok.mp done
    rw [found, Except.ok.injEq] at again
    rw [← again] at loaded
    have listed : document.trimmed ∈ read.documents :=
      restores.documents.mem_iff.mpr (List.mem_map.mpr ⟨document, inside, rfl⟩)
    exact (stored.loads paths inside).mp (origin _ loaded document.trimmed listed).2.2
  · intro reads
    have each : ∀ path ∈ markdownFiles (changeDir root change.manifest) tree,
        ∃ document, loadDocument models (changeDir root change.manifest) tree path = .ok document := by
      intro path member
      obtain ⟨document, inside, rfl⟩ := (stored.mem_markdownFiles paths).mp member
      exact ⟨_, (stored.loads paths inside).mpr (reads document inside)⟩
    obtain ⟨documents, loaded, -, -⟩ := Outcome.mapM_ok each
    have sorted := loaded_sorted safe loaded
    refine ⟨{ manifest := change.manifest, artifacts := change.artifacts, documents }, ?_, rfl, fun _ => rfl, ?_, ?_⟩
    · have shown := Tree.readText_text stored.manifest
      exact readChange_ok.mpr ⟨_, _, found, shown, lawful.manifest _, loaded, fun slot => stored.artifact paths slot lawful⟩
    · have apart : documents.Nodup := sorted.imp fun before => by
        rintro rfl
        exact lt_irrefl _ before
      have trimmed : (change.documents.map Document.trimmed).Nodup := by
        apply List.Nodup.of_map Document.path
        rw [List.map_map]
        exact distinct
      refine (List.perm_ext_iff_of_nodup apart trimmed).mpr fun document => ?_
      rw [List.mem_map]
      constructor
      · intro member
        obtain ⟨-, listed, read⟩ := origin documents loaded document member
        obtain ⟨source, inside, same⟩ := (stored.mem_markdownFiles paths).mp listed
        rw [← same, (stored.loads paths inside).mpr (reads source inside), Except.ok.injEq] at read
        exact ⟨source, inside, read⟩
      · rintro ⟨source, inside, rfl⟩
        have listed := (stored.mem_markdownFiles paths).mpr ⟨source, inside, rfl⟩
        exact Outcome.mapM_image loaded listed ((stored.loads paths inside).mpr (reads source inside))
    · exact sorted.imp fun before => before.le

end Reads

/-! ## Names in a tree -/

section Names

variable {α : Type} {models : SddModels α} {root : TreePath} {change : ChangeSet models} {tree after : Tree}

theorem placeText_files {names : List String} {text : DocText} (done : placeText names text tree = .ok () after)
    {path : TreePath} (file : after.isFile path = true) : path = Tree.lexical names ∨ tree.isFile path = true := by
  obtain ⟨_, middle, made, written⟩ := Outcome.state_bind_ok.mp done
  have files : KeepsFiles tree middle := makeDirectories_files.ok made
  obtain rfl := writeText_ok written
  by_cases here : path = Tree.lexical names
  · exact Or.inl here
  · rw [Tree.isFile, Tree.content_write_other here, ← Tree.content_of_files files] at file
    exact Or.inr file

theorem placeAll_files {places : List (List String × DocText)} (done : placeAll places tree = .ok () after)
    {path : TreePath} (file : after.isFile path = true) :
    (∃ place ∈ places, path = Tree.lexical place.1) ∨ tree.isFile path = true := by
  induction places generalizing tree with
  | nil =>
    rw [← Outcome.forEach_nil_ok.mp done] at file
    exact Or.inr file
  | cons place rest ih =>
    obtain ⟨middle, first, others⟩ := Outcome.forEach_cons_ok.mp done
    rcases ih others with ⟨later, member, here⟩ | early
    · exact Or.inl ⟨later, List.mem_cons_of_mem _ member, here⟩
    · rcases placeText_files first early with here | old
      · exact Or.inl ⟨place, List.mem_cons_self, here⟩
      · exact Or.inr old

/-- Creating a change brings plain names alone. -/
theorem createChange_named {id : String} (safe : ∀ part ∈ root, SafePart part)
    (named : ∀ path, tree.isFile path = true → ∀ part ∈ path, SafePart part)
    (done : createChange root change tree = .ok id after) :
    ∀ path, after.isFile path = true → ∀ part ∈ path, SafePart part := by
  obtain ⟨-, -, -, middle, made, placed⟩ := createChange_ok.mp done
  have files : KeepsFiles tree middle := makeDirectories_files.ok made
  intro path file
  rcases placeAll_files placed file with ⟨place, member, rfl⟩ | old
  · obtain ⟨entry, -, rfl⟩ := List.mem_map.mp member
    exact lexical_safe (changeDir_safe safe change.manifest)
  · rw [← isFile_of_files files] at old
    exact named path old

theorem Restores.named {read : ChangeSet models} {id : String} (restores : Restores change read)
    (named : ∀ path, tree.isFile path = true → ∀ part ∈ path, SafePart part)
    (done : readChange models root id tree = .ok read) :
    (∀ document ∈ change.documents, MarkdownPath document.path) ∧ (change.documents.map Document.path).Nodup := by
  obtain ⟨directory, _, -, -, -, loaded, -⟩ := readChange_ok.mp done
  have safe : ∀ path ∈ markdownFiles directory tree, ∀ part ∈ path, SafePart part := by
    intro path member
    exact named path (mem_markdownFiles.mp member).1
  have same : read.documents.map Document.path |>.Perm (change.documents.map Document.path) := by
    have trimmed := restores.documents.map Document.path
    rw [List.map_map] at trimmed
    exact trimmed
  constructor
  · intro document inside
    have listed := restores.documents.mem_iff.mpr (List.mem_map.mpr ⟨document, inside, rfl⟩)
    exact (loaded_documents safe loaded _ listed).1
  · rw [← same.nodup_iff, List.Nodup, List.pairwise_map]
    refine (loaded_sorted safe loaded).imp ?_
    intro first second before equal
    rw [equal] at before
    exact lt_irrefl _ before

end Names

section Creation

variable {α : Type} {models : SddModels α} {root : TreePath} {change : ChangeSet models} {tree after : Tree}
  (lawful : models.Lawful) (safe : ∀ part ∈ root, SafePart part) (sound : Sound root models tree)
  (unheld : NoDirectory root models tree change.manifest.id)
  (paths : ∀ document ∈ change.documents, MarkdownPath document.path)
  (distinct : (change.documents.map Document.path).Nodup)
  (done : createChange root change tree = .ok change.manifest.id after)

include lawful safe sound paths distinct done in
theorem createChange_sound : Sound root models after := by
  obtain ⟨clear, created⟩ := create_created paths safe done
  refine ⟨createChange_named safe sound.named done, fun path listed => ?_⟩
  rcases created.mem_manifestPaths.mp listed with old | rfl
  · obtain ⟨manifest, held⟩ := sound.manifests path old
    have kept := (created.holdsId clear distinct sound lawful).mpr (Or.inl ⟨old, manifest, held, rfl⟩)
    obtain ⟨-, same, shown, -⟩ := kept
    exact ⟨same, shown⟩
  · exact ⟨change.manifest, (created.stored clear distinct).manifest⟩

include lawful safe sound unheld paths distinct done in
theorem createChange_once : FoundOnce root change after := by
  obtain ⟨clear, created⟩ := create_created paths safe done
  intro path held
  rcases (created.holdsId clear distinct sound lawful).mp held with old | ⟨here, -⟩
  · exact absurd old (unheld path)
  · exact here

include lawful safe sound unheld paths distinct done in
theorem createChange_reads : ReadsChange root change after ↔ ∀ document ∈ change.documents, document.Reads models.packages := by
  obtain ⟨clear, created⟩ := create_created paths safe done
  exact readsChange_iff lawful (createChange_sound lawful safe sound paths distinct done)
    (created.stored clear distinct) (createChange_once lawful safe sound unheld paths distinct done) paths distinct

include lawful safe sound unheld in
theorem roundTrips_iff (plain : ∀ document ∈ change.documents, PlainBreaks document.body) :
    RoundTrips root change tree ↔ change.Fits root tree := by
  have kept : (∀ document ∈ change.documents, document.Reads models.packages) ↔
      ∀ document ∈ change.documents, document.Kept models.packages :=
    forall₂_congr fun document inside => Document.reads_iff (plain document inside)
  constructor
  · rintro ⟨after, done, reads⟩
    have named := createChange_named safe sound.named done
    obtain ⟨paths, distinct⟩ : (∀ document ∈ change.documents, MarkdownPath document.path) ∧
        (change.documents.map Document.path).Nodup := by
      obtain ⟨read, loaded, restores⟩ := reads
      exact restores.named named loaded
    obtain ⟨clear, apart⟩ := (create_iff paths safe).mp ⟨after, done⟩
    have whole := (createChange_reads lawful safe sound unheld paths distinct done).mp reads
    exact ⟨clear.free, clear.fresh, paths, distinct, apart, kept.mp whole⟩
  · intro fits
    obtain ⟨after, done⟩ := (create_iff fits.paths safe).mpr ⟨⟨fits.free, fits.fresh⟩, fits.apart⟩
    exact ⟨after, done, (createChange_reads lawful safe sound unheld fits.paths fits.distinct done).mpr (kept.mpr fits.kept)⟩

end Creation

/-! ## Calls in turn -/

section Calls

variable {α : Type} {models : SddModels α} {root : TreePath}

structure Creations (models : SddModels α) where
  tree : Tree
  created : List (ChangeSet models) := []

def Creations.create (root : TreePath) (store : Creations models) (change : ChangeSet models) : Creations models :=
  match createChange root change store.tree with
  | .ok _ after => ⟨after, change :: store.created⟩
  | .error _ after => { store with tree := after }

theorem Creations.create_ok {store : Creations models} {change : ChangeSet models} {after : Tree} {id : String}
    (done : createChange root change store.tree = .ok id after) :
    store.create root change = ⟨after, change :: store.created⟩ := by
  unfold Creations.create
  rw [done]

/-- The call is refused because its directory stands, or the change fits and its id has no directory yet. -/
def Creations.Admits (root : TreePath) (store : Creations models) (change : ChangeSet models) : Prop :=
  (store.tree.isFile (changeDir root change.manifest) = true ∨ store.tree.isDir (changeDir root change.manifest) = true) ∨
    NoDirectory root models store.tree change.manifest.id ∧ change.Fits root store.tree

/-- Each id has at most one directory, and what was created is there. -/
structure Intact (root : TreePath) (store : Creations models) : Prop where
  sound : Sound root models store.tree
  one : OneDirectory root models store.tree
  stored : ∀ change ∈ store.created, Stored root change store.tree
  paths : ∀ change ∈ store.created, ∀ document ∈ change.documents, MarkdownPath document.path
  distinct : ∀ change ∈ store.created, (change.documents.map Document.path).Nodup
  reads : ∀ change ∈ store.created, ∀ document ∈ change.documents, document.Reads models.packages

theorem createChange_refused {change : ChangeSet models} {tree : Tree}
    (stands : tree.isFile (changeDir root change.manifest) = true ∨ tree.isDir (changeDir root change.manifest) = true) :
    ∃ failure, createChange root change tree = .error failure tree := by
  have either : (tree.isFile (changeDir root change.manifest) || tree.isDir (changeDir root change.manifest)) = true := by
    rw [Bool.or_eq_true]
    exact stands
  refine ⟨⟨.sdd, "ChangeSet directory already exists: /" ++ posixPath (changeDir root change.manifest)⟩, ?_⟩
  unfold createChange
  rw [Outcome.state_get_bind, if_pos either]
  rfl

variable (lawful : models.Lawful) (safe : ∀ part ∈ root, SafePart part)
include lawful

theorem Intact.readable {store : Creations models} (intact : Intact root store) :
    ∀ change ∈ store.created, ReadsChange root change store.tree := by
  intro change member
  have stored := intact.stored change member
  have once : FoundOnce root change store.tree := by
    intro path held
    exact intact.one _ _ _ held ⟨stored.listed, change.manifest, stored.manifest, rfl⟩
  exact (readsChange_iff lawful intact.sound stored once (intact.paths change member) (intact.distinct change member)).mpr
    (intact.reads change member)

include safe

theorem Intact.create {store : Creations models} {change : ChangeSet models} (intact : Intact root store)
    (plain : ∀ document ∈ change.documents, PlainBreaks document.body) (admits : Creations.Admits root store change) :
    Intact root (store.create root change) := by
  rcases admits with stands | ⟨unheld, fits⟩
  · obtain ⟨failure, refused⟩ := createChange_refused stands
    have same : store.create root change = store := by
      unfold Creations.create
      rw [refused]
    rw [same]
    exact intact
  · obtain ⟨after, done⟩ := (create_iff fits.paths safe).mpr ⟨⟨fits.free, fits.fresh⟩, fits.apart⟩
    obtain ⟨clear, created⟩ := create_created fits.paths safe done
    have holds (path : TreePath) (id : String) : HoldsId root models after path id ↔
        HoldsId root models store.tree path id ∨ path = manifestPath root change ∧ id = change.manifest.id :=
      created.holdsId clear fits.distinct intact.sound lawful
    rw [Creations.create_ok done]
    constructor
    · exact createChange_sound lawful safe intact.sound fits.paths fits.distinct done
    · intro id path other here there
      rcases (holds path id).mp here with old | ⟨rfl, rfl⟩
      · rcases (holds other id).mp there with older | ⟨rfl, rfl⟩
        · exact intact.one id path other old older
        · exact absurd old (unheld path)
      · rcases (holds other _).mp there with older | ⟨rfl, -⟩
        · exact absurd older (unheld other)
        · rfl
    · intro earlier member
      rcases List.mem_cons.mp member with rfl | old
      · exact created.stored clear fits.distinct
      · exact created.keeps clear (intact.stored earlier old)
    · exact List.forall_mem_cons.mpr ⟨fits.paths, intact.paths⟩
    · exact List.forall_mem_cons.mpr ⟨fits.distinct, intact.distinct⟩
    · refine List.forall_mem_cons.mpr ⟨fun document inside => ?_, intact.reads⟩
      exact (Document.reads_iff (plain document inside)).mpr (fits.kept document inside)

theorem intact_after {store : Creations models} {calls : List (ChangeSet models)} (intact : Intact root store)
    (plain : ∀ change ∈ calls, ∀ document ∈ change.documents, PlainBreaks document.body)
    (along : Trace.Along (Creations.create root) (Creations.Admits root) store calls) :
    Intact root (calls.foldl (Creations.create root) store) := by
  induction calls generalizing store with
  | nil => exact intact
  | cons change rest ih =>
    rw [List.forall_mem_cons] at plain
    exact ih (intact.create lawful safe plain.1 along.1) plain.2 along.2

end Calls

end DarkFactory
