import DarkFactory.Sdd.Native

namespace DarkFactory

/-! ## Where a change is written -/

section Places

variable {α : Type} {models : SddModels α} {root : TreePath} {id : String} {ρ : Type}

theorem isChangeId_parts (identified : isChangeId id = true) : ∃ front product year number,
    idParts id = [front, product, year, number] ∧ year.length = 4 ∧ (∀ c ∈ year, decimal c = true) ∧
      ∀ c ∈ number, decimal c = true := by
  unfold isChangeId at identified
  split at identified
  · rename_i front product year number parts
    simp only [Bool.and_eq_true, decide_eq_true_eq, List.all_eq_true] at identified
    exact ⟨front, product, year, number, parts, identified.1.1.1.2, identified.1.1.2, identified.2⟩
  · cases identified

theorem slug_covers {slug : String} (slugged : isSlug slug = true) :
    ∀ c ∈ slug.toList, lowerOrDigit c = true ∨ c = '-' := by
  unfold isSlug at slugged
  intro c inside
  rcases Segments.splitOnP_covers (p := fun c => c = '-') inside with dash | ⟨part, listed, here⟩
  · exact Or.inr (of_decide_eq_true dash)
  · have each := List.all_eq_true.mp slugged part listed
    exact Or.inl (List.all_eq_true.mp (Bool.and_eq_true_iff.mp each).2 c here)

theorem slug_slashFree {slug : String} (slugged : isSlug slug = true) : '/' ∉ slug.toList := by
  intro member
  rcases slug_covers slugged '/' member with letter | dash
  · exact absurd letter (by decide)
  · exact absurd dash (by decide)

theorem changeDir_safe (safe : ∀ part ∈ root, SafePart part) (manifest : ChangeManifest ρ) :
    ∀ part ∈ changeDir root manifest, SafePart part := by
  obtain ⟨front, product, year, number, parts, long, years, numbers⟩ := isChangeId_parts manifest.identified
  intro part member
  simp only [changeDir, changesRoot, List.mem_append, List.mem_cons, List.not_mem_nil, or_false, parts] at member
  rcases member with (above | changes) | inYear | directory
  · exact safe part above
  · exact changes ▸ ⟨by decide, by decide⟩
  · have letters : part.toList = year := by
      rw [inYear]
      simp
    refine ⟨fun slash => ?_, fun listed => ?_⟩
    · rw [letters] at slash
      exact absurd (years _ slash) (by decide)
    · rw [← letters] at long
      simp only [unsafeParts, List.mem_cons, List.not_mem_nil, or_false] at listed
      rcases listed with rfl | rfl | rfl <;> exact absurd long (by decide)
  · have letters : part.toList = "CHG-".toList ++ number ++ '-' :: manifest.slug.toList := by
      rw [directory, changeDirName, parts]
      simp
    refine ⟨fun slash => ?_, fun listed => ?_⟩
    · rw [letters, List.mem_append, List.mem_append, List.mem_cons] at slash
      rcases slash with (head | digits) | dash | inSlug
      · exact absurd head (by decide)
      · exact absurd (numbers _ digits) (by decide)
      · exact absurd dash (by decide)
      · exact slug_slashFree manifest.slugged inSlug
    · simp only [unsafeParts, List.mem_cons, List.not_mem_nil, or_false] at listed
      rcases listed with rfl | rfl | rfl <;> exact absurd letters (by simp)

theorem changeDir_length (root : TreePath) (manifest : ChangeManifest ρ) :
    (changeDir root manifest).length = (changesRoot root).length + 2 := by
  simp [changeDir]

end Places

/-! ## What is written -/

structure RelativePath (path : String) : Prop where
  occupied : joinPath [] path ≠ []
  written : path = posixPath (joinPath [] path)
  named : ∀ part ∈ joinPath [] path, SafePart part

theorem RelativePath.under {path : String} (relative : RelativePath path) (base : TreePath) :
    joinPath base path = base ++ joinPath [] path := by
  have below := @joinPath_under _ base relative.occupied relative.named
  rw [← relative.written] at below
  exact below

theorem RelativePath.unique {path other : String} (relative : RelativePath path) (also : RelativePath other)
    (same : joinPath [] path = joinPath [] other) : path = other := by
  rw [relative.written, same, ← also.written]

theorem MarkdownPath.relative {path : String} (markdown : MarkdownPath path) : RelativePath path where
  occupied := by
    intro empty
    have last := markdown.markdown
    rw [empty] at last
    cases last
  written := markdown.written
  named := markdown.named

theorem manifest_relative : RelativePath "change.yaml" := ⟨by decide, by decide, by decide⟩

theorem YamlSlot.path_relative (slot : YamlSlot) : RelativePath slot.path := by
  cases slot <;> exact ⟨by decide, by decide, by decide⟩

theorem YamlSlot.path_plain (slot : YamlSlot) :
    isMarkdown (joinPath [] slot.path) = false ∧ joinPath [] slot.path ≠ joinPath [] "change.yaml" := by
  cases slot <;> decide

theorem YamlSlot.path_injective {slot other : YamlSlot} (same : slot.path = other.path) : slot = other := by
  revert same
  cases slot <;> cases other <;> decide

theorem apart_append {base path other : TreePath} : Apart (base ++ path) (base ++ other) ↔ Apart path other := by
  unfold Apart
  rw [List.prefix_append_right_inj, List.prefix_append_right_inj, ne_eq, ne_eq, ne_eq, ne_eq, List.append_cancel_left_eq,
    List.append_cancel_left_eq]

section Files

variable {α : Type} {models : SddModels α} {change : ChangeSet models} {file : String × DocText}

theorem mem_files : file ∈ change.files ↔ file = ("change.yaml", models.manifest.dump change.manifest) ∨
    (∃ document ∈ change.documents, (document.path, documentText models.packages document) = file) ∨
      ∃ slot artifact, change.artifacts slot = some artifact ∧ (slot.path, (models.artifact slot).dump artifact) = file := by
  have all (slot : YamlSlot) : slot ∈ yamlSlots := by
    cases slot <;> decide
  unfold ChangeSet.files
  simp only [List.mem_cons, List.mem_append, List.mem_map, List.mem_filterMap, Option.map_eq_some_iff]
  refine or_congr_right (or_congr_right ?_)
  constructor
  · rintro ⟨slot, -, artifact, held, same⟩
    exact ⟨slot, artifact, held, same⟩
  · rintro ⟨slot, artifact, held, same⟩
    exact ⟨slot, all slot, artifact, held, same⟩

variable (paths : ∀ document ∈ change.documents, MarkdownPath document.path)
include paths

theorem files_relative (member : file ∈ change.files) : RelativePath file.1 := by
  rcases mem_files.mp member with rfl | ⟨document, listed, rfl⟩ | ⟨slot, artifact, -, rfl⟩
  · exact manifest_relative
  · exact (paths document listed).relative
  · exact slot.path_relative

theorem files_distinct (distinct : (change.documents.map Document.path).Nodup) :
    (change.files.map fun file => joinPath [] file.1).Nodup := by
  have unmarked (document : Document α) (listed : document ∈ change.documents) (path : String)
      (plain : isMarkdown (joinPath [] path) = false) : joinPath [] path ≠ joinPath [] document.path := by
    intro same
    rw [same, (paths document listed).markdown] at plain
    cases plain
  have documents : (change.documents.map fun document => joinPath [] document.path).Nodup := by
    have names : (change.documents.map fun document => joinPath [] document.path) =
        (change.documents.map Document.path).map (joinPath []) := by
      rw [List.map_map]
      rfl
    rw [names]
    refine List.Nodup.map_on ?_ distinct
    intro path member other also same
    obtain ⟨document, listed, rfl⟩ := List.mem_map.mp member
    obtain ⟨document', listed', rfl⟩ := List.mem_map.mp also
    exact (paths document listed).relative.unique (paths document' listed').relative same
  have slots : (yamlSlots.filterMap fun slot => (change.artifacts slot).map fun artifact =>
      (slot.path, (models.artifact slot).dump artifact)).Pairwise
        fun first second => joinPath [] first.1 ≠ joinPath [] second.1 := by
    rw [List.pairwise_filterMap]
    have apart : yamlSlots.Pairwise fun first second => joinPath [] first.path ≠ joinPath [] second.path := by decide
    refine apart.imp ?_
    rintro first second differs file held file' held'
    obtain ⟨artifact, -, rfl⟩ := Option.map_eq_some_iff.mp held
    obtain ⟨artifact', -, rfl⟩ := Option.map_eq_some_iff.mp held'
    exact differs
  have slot_file (file : String × DocText) (member : file ∈ yamlSlots.filterMap fun slot =>
      (change.artifacts slot).map fun artifact => (slot.path, (models.artifact slot).dump artifact)) :
      ∃ slot : YamlSlot, file.1 = slot.path := by
    obtain ⟨slot, -, found⟩ := List.mem_filterMap.mp member
    obtain ⟨artifact, -, rfl⟩ := Option.map_eq_some_iff.mp found
    exact ⟨slot, rfl⟩
  unfold ChangeSet.files
  rw [List.Nodup, List.pairwise_map, List.pairwise_cons, List.pairwise_append]
  refine ⟨?_, List.pairwise_map.mpr (List.pairwise_map.mp documents), slots, ?_⟩
  · intro file member
    rcases List.mem_append.mp member with listed | listed
    · obtain ⟨document, inside, rfl⟩ := List.mem_map.mp listed
      exact unmarked document inside "change.yaml" (by decide)
    · obtain ⟨slot, same⟩ := slot_file file listed
      rw [same]
      exact Ne.symm slot.path_plain.2
  · intro first member second also
    obtain ⟨document, inside, rfl⟩ := List.mem_map.mp member
    obtain ⟨slot, same⟩ := slot_file second also
    rw [same]
    exact Ne.symm (unmarked document inside slot.path slot.path_plain.1)

end Files

/-! ## The tree a change is created in -/

section Created

variable {α : Type} {models : SddModels α} {root : TreePath} {change : ChangeSet models} {tree after : Tree}

structure Created (root : TreePath) (change : ChangeSet models) (tree after : Tree) : Prop where
  isFile : ∀ path, after.isFile path = true ↔
    (∃ file ∈ change.files, changeDir root change.manifest ++ joinPath [] file.1 = path) ∨ tree.isFile path = true
  isDir : ∀ path, after.isDir path = true ↔ tree.isDir path = true ∨ path <+: changeDir root change.manifest ∨
    ∃ file ∈ change.files, path <+: changeDir root change.manifest ++ joinPath [] file.1 ∧
      path ≠ changeDir root change.manifest ++ joinPath [] file.1
  other : ∀ path, (∀ file ∈ change.files, changeDir root change.manifest ++ joinPath [] file.1 ≠ path) →
    after.content path = tree.content path
  content : (change.documents.map Document.path).Nodup → ∀ file ∈ change.files,
    after.content (changeDir root change.manifest ++ joinPath [] file.1) = some (.text file.2)

structure Clear (root : TreePath) (change : ChangeSet models) (tree : Tree) : Prop where
  free : ∀ way, way <+: changeDir root change.manifest → tree.isFile way = false
  fresh : tree.isDir (changeDir root change.manifest) = false

theorem createChange_ok {id : String} : createChange root change tree = .ok id after ↔
    id = change.manifest.id ∧ tree.isFile (changeDir root change.manifest) = false ∧
      tree.isDir (changeDir root change.manifest) = false ∧ ∃ middle,
        makeDirectories (changeDir root change.manifest) tree = .ok () middle ∧
          placeAll (change.files.map fun file => (joinPath (changeDir root change.manifest) file.1, file.2)) middle =
            .ok () after := by
  unfold createChange
  rw [Outcome.state_get_bind]
  cases tree.isFile (changeDir root change.manifest) with
  | true => exact ⟨fun done => absurd (Outcome.state_bind_ok.mp done) (by rintro ⟨_, _, thrown, -⟩; cases thrown), nofun⟩
  | false =>
    cases tree.isDir (changeDir root change.manifest) with
    | true => exact ⟨fun done => absurd (Outcome.state_bind_ok.mp done) (by rintro ⟨_, _, thrown, -⟩; cases thrown), nofun⟩
    | false =>
      constructor
      · intro done
        obtain ⟨_, middle, made, rest⟩ := Outcome.state_bind_ok.mp done
        obtain ⟨_, last, placed, finish⟩ := Outcome.state_bind_ok.mp rest
        obtain ⟨rfl, rfl⟩ := Outcome.state_pure_ok.mp finish
        exact ⟨rfl, rfl, rfl, middle, made, placed⟩
      · rintro ⟨rfl, -, -, middle, made, placed⟩
        exact Outcome.state_bind_ok.mpr ⟨_, middle, made, Outcome.state_bind_ok.mpr ⟨_, after, placed, rfl⟩⟩

theorem Clear.below (clear : Clear root change tree) {path : TreePath} (under : changeDir root change.manifest <+: path) :
    tree.isFile path = false := by
  by_cases same : changeDir root change.manifest = path
  · exact same ▸ clear.free _ List.prefix_rfl
  · rw [Bool.eq_false_iff]
    intro held
    have dir := Tree.isDir_iff.mpr (Or.inr (Or.inl ⟨path, held, under, same⟩))
    rw [clear.fresh] at dir
    cases dir

theorem directory_plain (safe : ∀ part ∈ root, SafePart part) {ρ : Type} (manifest : ChangeManifest ρ) :
    ∀ name ∈ changeDir root manifest, name ≠ ".." := by
  rintro name inside rfl
  exact (changeDir_safe safe manifest _ inside).named (by decide)

def placesOf (root : TreePath) (change : ChangeSet models) : List (List String × DocText) :=
  change.files.map fun file => (changeDir root change.manifest ++ joinPath [] file.1, file.2)

variable (paths : ∀ document ∈ change.documents, MarkdownPath document.path)
include paths

theorem places_eq : change.files.map (fun file => (joinPath (changeDir root change.manifest) file.1, file.2)) =
    placesOf root change := by
  apply List.map_congr_left
  intro file member
  rw [(files_relative paths member).under]

variable (safe : ∀ part ∈ root, SafePart part)
include safe

theorem places_plain : ∀ place ∈ placesOf root change, place.1 ≠ [] ∧ ∀ name ∈ place.1, name ≠ ".." := by
  intro place member
  obtain ⟨file, listed, rfl⟩ := List.mem_map.mp member
  have relative := files_relative paths listed
  refine ⟨by simp [relative.occupied], ?_⟩
  rintro name inside rfl
  have plain : SafePart ".." := by
    rcases List.mem_append.mp inside with above | below
    · exact changeDir_safe safe change.manifest _ above
    · exact relative.named _ below
  exact plain.named (by decide)

theorem create_clear (clear : Clear root change tree) {middle : Tree}
    (made : makeDirectories (changeDir root change.manifest) tree = .ok () middle) :
    ∀ place ∈ placesOf root change, middle.Open place.1 := by
  have plain := directory_plain safe change.manifest
  have files : KeepsFiles tree middle := makeDirectories_files.ok made
  intro place member
  obtain ⟨file, listed, rfl⟩ := List.mem_map.mp member
  have occupied := (files_relative paths listed).occupied
  have under : changeDir root change.manifest <+: changeDir root change.manifest ++ joinPath [] file.1 :=
    List.prefix_append _ _
  constructor
  · intro way short differs
    rw [← isFile_of_files files]
    rcases List.prefix_or_prefix_of_prefix short under with above | below
    · exact clear.free way above
    · exact clear.below below
  · rw [Bool.eq_false_iff, ne_eq, makeDirectories_isDir plain made, not_or]
    constructor
    · intro dir
      have above := Tree.isDir_above dir under
      rw [clear.fresh] at above
      cases above
    · intro short
      have length := short.length_le
      rw [List.length_append] at length
      have := List.length_pos_of_ne_nil occupied
      omega

/-- A change is created exactly where nothing is in its way and none of its files lies below another. -/
theorem create_iff : (∃ after, createChange root change tree = .ok change.manifest.id after) ↔
    Clear root change tree ∧
      change.files.Pairwise fun first second => Apart (joinPath [] first.1) (joinPath [] second.1) := by
  have plain := directory_plain safe change.manifest
  have places : (placesOf root change).Pairwise (fun first second => Apart first.1 second.1) ↔
      change.files.Pairwise fun first second => Apart (joinPath [] first.1) (joinPath [] second.1) := by
    unfold placesOf
    rw [List.pairwise_map]
    simp only [apart_append]
  constructor
  · rintro ⟨after, done⟩
    obtain ⟨-, -, fresh, middle, made, placed⟩ := createChange_ok.mp done
    rw [places_eq paths] at placed
    have free := (makeDirectories_ok plain).mp ⟨middle, made⟩
    exact ⟨⟨free, fresh⟩, places.mp ((placeAll_ok (places_plain paths safe)).mp ⟨after, placed⟩).2⟩
  · rintro ⟨clear, apart⟩
    obtain ⟨middle, made⟩ := (makeDirectories_ok plain).mpr clear.free
    obtain ⟨after, placed⟩ := (placeAll_ok (places_plain paths safe)).mpr
      ⟨create_clear paths safe clear made, places.mpr apart⟩
    rw [← places_eq paths] at placed
    exact ⟨after, createChange_ok.mpr
      ⟨rfl, clear.free _ List.prefix_rfl, clear.fresh, middle, made, placed⟩⟩

theorem create_created (done : createChange root change tree = .ok change.manifest.id after) :
    Clear root change tree ∧ Created root change tree after := by
  have plain := directory_plain safe change.manifest
  have each := @places_plain _ _ root _ paths safe
  refine ⟨((create_iff paths safe).mp ⟨after, done⟩).1, ?_⟩
  obtain ⟨-, -, fresh, middle, made, placed⟩ := createChange_ok.mp done
  rw [places_eq paths] at placed
  have files : KeepsFiles tree middle := makeDirectories_files.ok made
  have listed (path : TreePath) : (∃ place ∈ placesOf root change, place.1 = path) ↔
      ∃ file ∈ change.files, changeDir root change.manifest ++ joinPath [] file.1 = path := by
    constructor
    · rintro ⟨place, member, same⟩
      obtain ⟨file, inside, rfl⟩ := List.mem_map.mp member
      exact ⟨file, inside, same⟩
    · rintro ⟨file, inside, same⟩
      exact ⟨_, List.mem_map.mpr ⟨file, inside, rfl⟩, same⟩
  constructor
  · intro path
    rw [placeAll_isFile each placed, listed, isFile_of_files files]
  · intro path
    rw [placeAll_isDir each placed, makeDirectories_isDir plain made, or_assoc]
    refine or_congr_right (or_congr_right ?_)
    constructor
    · rintro ⟨place, member, above⟩
      obtain ⟨file, inside, rfl⟩ := List.mem_map.mp member
      exact ⟨file, inside, above⟩
    · rintro ⟨file, inside, above⟩
      exact ⟨_, List.mem_map.mpr ⟨file, inside, rfl⟩, above⟩
  · intro path outside
    have others : ∀ place ∈ placesOf root change, place.1 ≠ path := by
      intro place member
      obtain ⟨file, inside, rfl⟩ := List.mem_map.mp member
      exact outside file inside
    rw [placeAll_other each placed others, Tree.content_of_files files]
  · intro distinct file member
    have apart : ((placesOf root change).map Prod.fst).Nodup := by
      have names := (files_distinct paths distinct).map (List.append_right_injective (changeDir root change.manifest))
      simpa [placesOf, List.map_map, Function.comp_def] using names
    have held := placeAll_content each placed apart (changeDir root change.manifest ++ joinPath [] file.1, file.2)
      (List.mem_map.mpr ⟨file, member, rfl⟩)
    exact held

end Created

end DarkFactory
