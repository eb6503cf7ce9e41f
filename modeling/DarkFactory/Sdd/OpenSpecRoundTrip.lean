import Mathlib.Data.List.ProdSigma
import DarkFactory.Sdd.OpenSpecExport
import DarkFactory.Sdd.Reconciliation
import DarkFactory.Sdd.RoundTrip

namespace DarkFactory

/-! ## The files read back -/

section Files

variable {before after : Tree} {directory path : TreePath} {sections : Sections} {capability : String}

theorem capabilityOf_specFile : capabilityOf (specFile directory capability) = capability := by
  simp [capabilityOf, specFile]

section Read

variable (exported : Exported directory sections before after) (fresh : before.Fresh directory)
include exported fresh

theorem mem_specFiles : path ∈ specFiles directory after ↔ ∃ held ∈ sections, path = specFile directory held.1 := by
  have member : path ∈ specFiles directory after ↔ path ∈ after.entries ∧ directory ++ ["specs"] <+: path ∧
      path.length = directory.length + 3 ∧ path.getLast? = some "spec.md" := by
    unfold specFiles
    rw [List.mem_insertionSort, List.mem_filter]
    simp only [Bool.and_eq_true, decide_eq_true_eq, List.isPrefixOf_iff_prefix, and_assoc]
  rw [member]
  constructor
  · rintro ⟨entry, under, long, -⟩
    have below : directory <+: path := (List.prefix_append _ _).trans under
    have occupied : path ≠ [] := by
      rintro rfl
      simp at long
    rcases (entries_iff occupied).mp entry with file | dir
    · rcases (exported.isFile path).mp file with ⟨held, listed, rfl⟩ | rfl | old
      · exact ⟨held, listed, rfl⟩
      · simp at long
      · rw [fresh.isFile below] at old
        cases old
    · rcases (exported.isDir path).mp dir with old | ⟨held, listed, above, differs⟩
      · rw [fresh.isDir below] at old
        cases old
      · refine absurd (above.eq_of_length ?_) differs
        rw [long]
        simp [specFile]
  · rintro ⟨held, listed, rfl⟩
    have file : after.isFile (specFile directory held.1) = true := (exported.isFile _).mpr (Or.inl ⟨held, listed, rfl⟩)
    refine ⟨(entries_iff (by simp [specFile])).mpr (Or.inl file), ?_, by simp [specFile], by simp [specFile]⟩
    exact ⟨[held.1, "spec.md"], by simp [specFile]⟩

/-- The files are those of the sections, in another order. -/
theorem specFiles_perm (unique : Table.Unique Prod.fst sections) :
    (specFiles directory after).Perm ((sections.map Prod.fst).map (specFile directory)) := by
  have distinct : (specFiles directory after).Nodup := by
    unfold specFiles
    rw [(List.perm_insertionSort _ _).nodup_iff]
    exact (List.nodup_dedup _).filter _
  have places : ((sections.map Prod.fst).map (specFile directory)).Nodup :=
    List.Nodup.map (fun _ _ same => specFile_injective same) unique
  rw [List.perm_ext_iff_of_nodup distinct places]
  intro path
  rw [mem_specFiles exported fresh]
  simp only [List.map_map, List.mem_map, Function.comp_apply, eq_comm]

theorem specFiles_capabilities (unique : Table.Unique Prod.fst sections) : ∃ capabilities : List String,
    specFiles directory after = capabilities.map (specFile directory) ∧ capabilities.Perm (sections.map Prod.fst) := by
  refine ⟨(specFiles directory after).map capabilityOf, ?_, ?_⟩
  · have own : ∀ path ∈ specFiles directory after, specFile directory (capabilityOf path) = id path := by
      intro path member
      obtain ⟨held, -, rfl⟩ := (mem_specFiles exported fresh).mp member
      rw [capabilityOf_specFile, id]
    rw [List.map_map]
    exact (List.map_id _).symm.trans (List.map_congr_left fun path member => (own path member).symm)
  · have perm := (specFiles_perm exported fresh unique).map capabilityOf
    have own : ((sections.map Prod.fst).map (specFile directory)).map capabilityOf = sections.map Prod.fst := by
      rw [List.map_map]
      exact (List.map_congr_left fun _ _ => capabilityOf_specFile).trans (List.map_id' _)
    rwa [own] at perm

end Read

end Files

section Reread

variable {methods : CaseMethods} {α : Type} {view : NativeView} {entries : List (String × SpecEntry)} {before after : Tree}
  {directory : TreePath} {capability : String} {keys : List (String × SpecKind)}

variable (methods) in
def rereadEntries (keys : List (String × SpecKind)) (entries : List (String × SpecEntry)) : List (String × SpecEntry) :=
  (keys.flatMap (Groups.group entryPlace entries)).map (rereadEntry methods)

theorem parseSpecSections_newlines (text : DocText) : parseSpecSections (newlines false text) = parseSpecSections text := by
  rw [parseSpecSections, parseSpecSections, splitlines, splitlines, newlines_newlines]

theorem readEntries_exported (printable : ∀ entry ∈ entries, Printable entry.2.name entry.2.body)
    (separate : ':' ∉ capability.toList)
    (held : after.content (specFile directory capability) =
      some (.text (specText capability (textsOf (exportedBlocks methods entries) capability)))) :
    readEntries after (specFile directory capability) =
      .ok (rereadEntries methods (specKinds.map (Prod.mk capability)) entries) := by
  let items (kind : SpecKind) : List SpecItem :=
    (Groups.group entryPlace entries (capability, kind)).map fun entry => entry.2.printed methods
  have texts : textsOf (exportedBlocks methods entries) capability = fun kind => (items kind).map SpecItem.block :=
    funext fun kind => textsOf_exported
  have each : ∀ kind, ∀ item ∈ items kind, Printable item.1 item.2 := by
    intro kind item member
    obtain ⟨entry, listed, rfl⟩ := List.mem_map.mp member
    exact SpecEntry.printed_printable (printable entry (Groups.mem_group.mp listed).1)
  rw [texts] at held
  unfold readEntries
  rw [Tree.readText_text held]
  show Except.ok _ = _
  rw [parseSpecSections_newlines, parseSpecSections_specText separate each, capabilityOf_specFile, rereadEntries,
    List.flatMap_map, List.map_flatMap, List.map_flatMap]
  congr 1
  apply List.flatMap_congr
  intro kind _
  simp only [items, List.map_map]
  apply List.map_congr_left
  intro entry member
  have own := Groups.group_keys entry member
  have first : entry.1 = capability := congrArg Prod.fst own
  have second : entry.2.kind = kind := congrArg Prod.snd own
  simp only [Function.comp_apply, rereadEntry, SpecEntry.reprinted, first, second]

theorem readEntries_all (exportable : Exportable methods α view entries) (fresh : before.Fresh directory)
    (exported : Exported directory ((exportedBlocks methods entries).foldl addBlock []) before after) :
    ∃ keys read, keys.Nodup ∧ (∀ entry ∈ entries, entryPlace entry ∈ keys) ∧
      (specFiles directory after).mapM (readEntries after) = .ok read ∧ read.flatten = rereadEntries methods keys entries := by
  have holds := sections_hold (exportedBlocks methods entries)
  obtain ⟨capabilities, files, perm⟩ := specFiles_capabilities exported fresh holds.unique
  have known (capability : String) : capability ∈ capabilities ↔ ∃ entry ∈ entries, entry.1 = capability := by
    rw [perm.mem_iff, holds.capabilities, exportedBlocks]
    simp only [List.mem_map, exists_exists_and_eq_and, exportedBlock]
  have each : ∀ capability ∈ capabilities, readEntries after (specFile directory capability) =
      .ok (rereadEntries methods (specKinds.map (Prod.mk capability)) entries) := by
    intro capability member
    obtain ⟨held, listed, rfl⟩ := List.mem_map.mp (perm.mem_iff.mp member)
    obtain ⟨entry, inside, named⟩ := (known held.1).mp member
    have separate : ':' ∉ held.1.toList := named ▸ (exportable.capabilities entry inside).2
    have content := exported.content held listed
    rw [holds.texts held listed] at content
    exact readEntries_exported exportable.printable separate content
  have distinct : capabilities.Nodup := perm.nodup_iff.mpr holds.unique
  refine ⟨capabilities ×ˢ specKinds, _, distinct.product (by decide), fun entry member => ?_,
    by rw [files]; exact mapM_some each, ?_⟩
  · refine List.mem_product.mpr ⟨(known entry.1).mpr ⟨entry, member, rfl⟩, ?_⟩
    cases shape : entry.2.kind <;> simp [specKinds]
  · have keys : capabilities ×ˢ specKinds = capabilities.flatMap fun capability => specKinds.map (Prod.mk capability) := rfl
    rw [← List.flatMap_def, rereadEntries, keys, List.flatMap_assoc, List.map_flatMap]
    rfl

/-! ### What is read back says the same -/

section Same

variable {other : NativeView}

def Document.told (document : Document α) : String × Option String × DocText :=
  (document.path, document.frontmatter.map Frontmatter.title, document.body)

theorem rereadEntries_perm (distinct : keys.Nodup) (covers : ∀ entry ∈ entries, entryPlace entry ∈ keys) :
    (rereadEntries methods keys entries).Perm (entries.map (rereadEntry methods)) :=
  (Groups.groups_perm distinct covers).map _

theorem operation_view (same : view.product = other.product) (entry : SpecEntry) :
    entry.operation methods view capability = entry.operation methods other capability := by
  have target : entry.target methods view capability = entry.target methods other capability := by
    rw [SpecEntry.target, SpecEntry.target, same]
  unfold SpecEntry.operation
  cases entry.kind with
  | added => simp only [target]
  | modified => simp only [target]
  | removed => simp only [target]

theorem operations_perm (same : view.product = other.product) (distinct : keys.Nodup)
    (covers : ∀ entry ∈ entries, entryPlace entry ∈ keys) :
    (entries.map fun entry => entry.2.operation methods view entry.1).Perm
      ((rereadEntries methods keys entries).map fun entry => entry.2.operation methods other entry.1) := by
  have read := (@rereadEntries_perm methods entries keys distinct covers).map
    fun entry : String × SpecEntry => entry.2.operation methods other entry.1
  rw [List.map_map] at read
  have own : entries.map ((fun entry : String × SpecEntry => entry.2.operation methods other entry.1) ∘ rereadEntry methods) =
      entries.map fun entry => entry.2.operation methods view entry.1 := by
    apply List.map_congr_left
    intro entry _
    rw [Function.comp_apply, rereadEntry, SpecEntry.reprinted_operation, operation_view same]
  rw [own] at read
  exact read.symm

theorem told_document (entry : String × SpecEntry) :
    ((rereadEntry methods entry).2.document methods other (rereadEntry methods entry).1 : Option (Document α)).map Document.told =
      (entry.2.document methods view entry.1 : Option (Document α)).map Document.told := by
  obtain ⟨capability, kind, name, body⟩ := entry
  cases kind <;> rfl

theorem documents_perm (distinct : keys.Nodup) (covers : ∀ entry ∈ entries, entryPlace entry ∈ keys) :
    ((entries.filterMap fun entry => (entry.2.document methods view entry.1 : Option (Document α))).map Document.told).Perm
      (((rereadEntries methods keys entries).filterMap fun entry =>
        (entry.2.document methods other entry.1 : Option (Document α))).map Document.told) := by
  have read := (@rereadEntries_perm methods entries keys distinct covers).filterMap
    fun entry : String × SpecEntry => (entry.2.document methods other entry.1 : Option (Document α)).map Document.told
  rw [List.filterMap_map] at read
  have own : entries.filterMap ((fun entry : String × SpecEntry =>
      (entry.2.document methods other entry.1 : Option (Document α)).map Document.told) ∘ rereadEntry methods) =
      entries.filterMap fun entry => (entry.2.document methods view entry.1 : Option (Document α)).map Document.told := by
    apply List.filterMap_congr
    intro entry _
    exact told_document entry
  rw [own] at read
  rw [List.map_filterMap, List.map_filterMap]
  exact read.symm

theorem Exportable.reread (exportable : Exportable methods α view entries) (same : view.product = other.product)
    (distinct : keys.Nodup) (covers : ∀ entry ∈ entries, entryPlace entry ∈ keys) :
    Exportable methods α other (rereadEntries methods keys entries) := by
  have perm := @rereadEntries_perm methods entries keys distinct covers
  have origin : ∀ entry ∈ rereadEntries methods keys entries, ∃ old ∈ entries, rereadEntry methods old = entry := by
    intro entry member
    exact List.mem_map.mp (perm.mem_iff.mp member)
  constructor
  · exact same ▸ exportable.product
  · intro entry member
    obtain ⟨old, listed, rfl⟩ := origin entry member
    exact exportable.capabilities old listed
  · intro entry member
    obtain ⟨old, listed, rfl⟩ := origin entry member
    exact SpecEntry.printed_printable (exportable.printable old listed)
  · have paths (documents : List (Document α)) : documents.map Document.path = (documents.map Document.told).map Prod.fst := by
      rw [List.map_map]
      rfl
    have unique := exportable.documents
    unfold Table.Unique at unique ⊢
    rw [paths] at unique ⊢
    exact (((documents_perm distinct covers).map Prod.fst).nodup_iff).mp unique

theorem textsOf_reread (distinct : keys.Nodup) (covers : ∀ entry ∈ entries, entryPlace entry ∈ keys) (capability : String)
    (kind : SpecKind) : textsOf (exportedBlocks methods (rereadEntries methods keys entries)) capability kind =
      textsOf (exportedBlocks methods entries) capability kind := by
  have own : ∀ k, ∀ entry ∈ Groups.group entryPlace entries k, entryPlace entry = k := fun _ => Groups.group_keys
  have group : Groups.group entryPlace (rereadEntries methods keys entries) (capability, kind) =
      (Groups.group entryPlace entries (capability, kind)).map (rereadEntry methods) := by
    rw [rereadEntries, Groups.group_map]
    congr 1
    refine (Groups.group_flatMap distinct own).trans ?_
    by_cases known : (capability, kind) ∈ keys
    · rw [if_pos known]
    · rw [if_neg known, eq_comm, List.eq_nil_iff_forall_not_mem]
      intro entry member
      obtain ⟨listed, here⟩ := Groups.mem_group.mp member
      exact known (here ▸ covers entry listed)
  rw [textsOf_exported, textsOf_exported, group]
  refine congrArg (List.map SpecItem.block) ?_
  rw [List.map_map]
  exact List.map_congr_left fun _ _ => SpecEntry.reprinted_printed

end Same

end Reread

/-! ## The native core sees the same -/

section Native

variable {core : NativeCore} {factory : FactoryManifest} {before after : Tree} {directory path : TreePath} {sections : Sections}

theorem foldl_max_le {numbers : List Nat} {start bound : Nat} :
    numbers.foldl max start ≤ bound ↔ start ≤ bound ∧ ∀ n ∈ numbers, n ≤ bound := by
  induction numbers generalizing start with
  | nil => simp
  | cons first rest ih => rw [List.foldl_cons, ih, List.forall_mem_cons, Nat.max_le, and_assoc]

/-- The largest number depends on which there are. -/
theorem foldl_max_eq {numbers others : List Nat} (same : ∀ n, n ∈ numbers ↔ n ∈ others) :
    numbers.foldl max 0 = others.foldl max 0 := by
  have below : ∀ n ∈ others, n ≤ numbers.foldl max 0 := fun n member =>
    (foldl_max_le.mp (Nat.le_refl _)).2 n ((same n).mpr member)
  have above : ∀ n ∈ numbers, n ≤ others.foldl max 0 := fun n member =>
    (foldl_max_le.mp (Nat.le_refl _)).2 n ((same n).mp member)
  exact Nat.le_antisymm (foldl_max_le.mpr ⟨Nat.zero_le _, above⟩) (foldl_max_le.mpr ⟨Nat.zero_le _, below⟩)

variable (fresh : before.Fresh directory) (exported : Exported directory sections before after)
  (read : core.readFactoryManifest before = .ok factory) (outside : ¬ core.factoryRoot <+: directory)

include fresh read in
/-- `factory.yaml` is a file, so the fresh directory is not above it. -/
theorem factory_outside : ¬ directory <+: core.factoryRoot ++ ["factory.yaml"] := by
  intro under
  obtain ⟨text, held, -⟩ := Outcome.bind_ok.mp read
  obtain ⟨characters, content, -⟩ := Tree.readText_ok held
  have file : before.isFile (core.factoryRoot ++ ["factory.yaml"]) = true := by
    rw [Tree.isFile, content]
    rfl
  rw [fresh.isFile under] at file
  cases file

include fresh exported read in
theorem readFactoryManifest_exported : core.readFactoryManifest after = .ok factory := by
  have kept := exported.outside _ (factory_outside fresh read)
  obtain ⟨text, held, loaded⟩ := Outcome.bind_ok.mp read
  obtain ⟨characters, content, rfl⟩ := Tree.readText_ok held
  exact Outcome.bind_ok.mpr ⟨_, Tree.readText_text (kept.trans content), loaded⟩

include fresh read outside in
theorem factory_apart {place : TreePath} (under : directory <+: place) (inside : core.factoryRoot <+: path) : ¬ path <+: place := by
  intro above
  rcases List.prefix_or_prefix_of_prefix (inside.trans above) under with short | long
  · exact outside short
  · exact factory_outside fresh read (long.trans (List.prefix_append _ _))

include fresh exported read outside

theorem factory_dirs (inside : core.factoryRoot <+: path) : after.isDir path = before.isDir path := by
  rw [Bool.eq_iff_iff, exported.isDir]
  refine ⟨fun dir => dir.resolve_right ?_, Or.inl⟩
  rintro ⟨held, -, above, -⟩
  exact factory_apart fresh read outside (specFile_under held.1) inside above

theorem factory_files (inside : core.factoryRoot <+: path) : after.isFile path = before.isFile path := by
  rw [Bool.eq_iff_iff, exported.isFile]
  refine ⟨fun file => ?_, fun file => Or.inr (Or.inr file)⟩
  rcases file with ⟨held, -, rfl⟩ | rfl | old
  · exact absurd List.prefix_rfl (factory_apart fresh read outside (specFile_under held.1) inside)
  · exact absurd List.prefix_rfl (factory_apart fresh read outside (List.prefix_append _ _) inside)
  · exact old

/-- An export beside the factory leaves the next number as it was. -/
theorem nextChangeId_exported (product : String) : core.nextChangeId product after = core.nextChangeId product before := by
  have under (year : String) : core.factoryRoot <+: core.factoryRoot ++ ["changes", year] := List.prefix_append _ _
  have names (year name : String) : name ∈ directoryNames (core.factoryRoot ++ ["changes", year]) after ↔
      name ∈ directoryNames (core.factoryRoot ++ ["changes", year]) before := by
    unfold directoryNames
    simp only [List.mem_filterMap, List.mem_filter, Bool.and_eq_true, decide_eq_true_eq, List.isPrefixOf_iff_prefix]
    refine exists_congr fun path => and_congr_left fun _ => and_congr_left fun inside => ?_
    have own : core.factoryRoot <+: path := (under year).trans inside.1
    have occupied : path ≠ [] := by
      rintro rfl
      simp at inside
    rw [entries_iff occupied, entries_iff occupied, factory_files fresh exported read outside own,
      factory_dirs fresh exported read outside own]
  have largest (year : String) : ((directoryNames (core.factoryRoot ++ ["changes", year]) after).filterMap changeNumber).foldl max 0 =
      ((directoryNames (core.factoryRoot ++ ["changes", year]) before).filterMap changeNumber).foldl max 0 :=
    foldl_max_eq fun n => by simp only [List.mem_filterMap, names]
  unfold NativeCore.nextChangeId
  simp only [factory_dirs fresh exported read outside (under (toString core.year))]
  split
  · rw [largest]
  · rfl

end Native

/-! ## The round trip -/

section RoundTrip

variable {methods : CaseMethods} {α : Type} {codec : OpenSpecCodec α} {core : NativeCore} {root directory : TreePath}
  {name : String} {tree before after : Tree} {change : ChangeSet codec.models} {entries : List (String × SpecEntry)}
  {view : NativeView} {manifest : ChangeManifest OpenSpecFields}

structure Imported (methods : CaseMethods) (codec : OpenSpecCodec α) (core : NativeCore) (root : TreePath) (name : String)
    (tree : Tree) (change : ChangeSet codec.models) (view : NativeView) (manifest : ChangeManifest OpenSpecFields)
    (entries : List (String × SpecEntry)) : Prop where
  specs : tree.isDir (openSpecChange root name ++ ["specs"]) = true
  viewed : core.view tree = .ok view
  read : ∃ read, (specFiles (openSpecChange root name) tree).mapM (readEntries tree) = .ok read ∧ read.flatten = entries
  valid : importedManifest methods view name = .ok manifest
  made : change = importedChange methods codec view manifest entries

theorem importChange_ok : OpenSpecAdapter.importChange methods codec core root name tree = .ok change after ↔
    ∃ view manifest entries, Imported methods codec core root name tree change view manifest entries ∧
      writeFile (openSpecChange root name ++ ["change.yaml"]) (codec.manifest.dump manifest) tree = .ok () after := by
  unfold OpenSpecAdapter.importChange
  rw [Outcome.state_get_bind]
  by_cases specs : tree.isDir (openSpecChange root name ++ ["specs"]) = true
  · rw [if_neg (by simp [specs])]
    simp only [Outcome.state_bind_ok, Outcome.lift_ok, Outcome.state_pure_ok]
    constructor
    · rintro ⟨view, _, ⟨viewed, rfl⟩, read, _, ⟨mapped, rfl⟩, manifest, _, ⟨valid, rfl⟩, _, _, written, rfl, rfl⟩
      exact ⟨view, manifest, read.flatten, ⟨specs, viewed, ⟨read, mapped, rfl⟩, valid, rfl⟩, written⟩
    · rintro ⟨view, manifest, entries, ⟨-, viewed, ⟨read, mapped, rfl⟩, valid, rfl⟩, written⟩
      exact ⟨view, tree, ⟨viewed, rfl⟩, read, tree, ⟨mapped, rfl⟩, manifest, tree, ⟨valid, rfl⟩, ⟨⟩, after, written,
        rfl, rfl⟩
  · rw [if_pos (by simpa using specs)]
    constructor
    · intro done
      obtain ⟨_, _, failed, -⟩ := Outcome.state_bind_ok.mp done
      exact (Outcome.state_throw_ok.mp failed).elim
    · rintro ⟨_, _, _, imported, -⟩
      exact absurd imported.specs specs

theorem readFactoryManifest_of_view (viewed : core.view tree = .ok view) : ∃ factory,
    core.readFactoryManifest tree = .ok factory ∧ view.product = factory.product ∧
      view.changeId = core.nextChangeId factory.product tree := by
  obtain ⟨factory, read, made⟩ := Outcome.bind_ok.mp viewed
  obtain rfl := Outcome.pure_ok.mp made
  exact ⟨factory, read, rfl, rfl⟩

theorem view_of_read {factory : FactoryManifest} (read : core.readFactoryManifest tree = .ok factory) : ∃ view,
    core.view tree = .ok view ∧ view.product = factory.product ∧ view.changeId = core.nextChangeId factory.product tree :=
  ⟨_, Outcome.bind_ok.mpr ⟨factory, read, rfl⟩, rfl, rfl⟩

theorem importedManifest_ok : importedManifest methods view name = .ok manifest →
    manifest.slug = String.ofList (kebab methods name.toList) ∧ isChangeId view.changeId = true := by
  unfold importedManifest
  split
  · rename_i valid
    intro made
    obtain rfl := Except.ok.inj made
    exact ⟨rfl, valid.1⟩
  · exact fun made => by cases made

theorem importedManifest_slug (identified : isChangeId view.changeId = true)
    (slugged : isSlug (String.ofList (kebab methods name.toList)) = true) : ∃ manifest,
    importedManifest methods view (String.ofList (kebab methods name.toList)) = .ok manifest ∧
      manifest.slug = String.ofList (kebab methods name.toList) := by
  have same : kebab methods (String.ofList (kebab methods name.toList)).toList = kebab methods name.toList := by
    rw [String.toList_ofList]
    exact kebab_of_slug (kebab_slug methods name.toList)
  have occupied : String.ofList (kebab methods name.toList) ≠ "" := by
    intro empty
    exact (kebab_slug methods name.toList).occupied (by simpa using congrArg String.toList empty)
  unfold importedManifest
  rw [dif_pos ⟨identified, occupied, by rw [same]; exact slugged⟩]
  exact ⟨_, rfl, congrArg String.ofList same⟩

theorem length_splitOnP {β : Type} (p : β → Bool) (text : List β) : (text.splitOnP p).length = text.countP p + 1 := by
  induction text with
  | nil => rfl
  | cons first rest ih =>
    rw [List.splitOnP_cons_eq_if_modifyHead, List.countP_cons]
    by_cases here : p first = true
    · rw [if_pos here, if_pos here, List.length_cons, ih]
    · rw [if_neg here, if_neg here, List.length_modifyHead, ih]

theorem product_plain (product : String) (tree : Tree) (identified : isChangeId (core.nextChangeId product tree) = true) :
    ':' ∉ product.toList := by
  obtain ⟨front, middle, year, number, parts, -⟩ := isChangeId_parts identified
  have colons : (core.nextChangeId product tree).toList.countP (· = ':') = 3 := by
    have long := length_splitOnP (fun c => decide (c = ':')) (core.nextChangeId product tree).toList
    rw [show List.splitOnP _ _ = [front, middle, year, number] from parts] at long
    simpa using long.symm
  unfold NativeCore.nextChangeId at colons
  simp only [String.toList_append, List.countP_append] at colons
  have three : "chg:".toList.countP (· = ':') = 1 ∧ ":".toList.countP (· = ':') = 1 := by decide
  have none_ : product.toList.countP (· = ':') = 0 := by omega
  intro colon
  exact absurd (List.countP_eq_zero.mp none_ ':' colon) (by decide)

theorem Imported.exportable (imported : Imported methods codec core root name tree change view manifest entries)
    (parts : ∀ path ∈ specFiles (openSpecChange root name) tree, SafePart (capabilityOf path) ∧ ':' ∉ (capabilityOf path).toList)
    (unique : Table.Unique Document.path change.documents) : Exportable methods α view entries := by
  obtain ⟨read, mapped, rfl⟩ := imported.read
  have origin : ∀ entry ∈ read.flatten, ∃ path ∈ specFiles (openSpecChange root name) tree, ∃ text,
      entry.1 = capabilityOf path ∧ entry.2 ∈ parseSpecSections text := by
    intro entry member
    obtain ⟨block, listed, inside⟩ := List.mem_flatten.mp member
    obtain ⟨path, there, opened⟩ := Outcome.mapM_origin mapped block listed
    obtain ⟨text, -, made⟩ := Outcome.bind_ok.mp opened
    obtain rfl := Outcome.pure_ok.mp made
    obtain ⟨own, parsed, rfl⟩ := List.mem_map.mp inside
    exact ⟨path, there, text, rfl, parsed⟩
  obtain ⟨factory, -, product, number⟩ := readFactoryManifest_of_view imported.viewed
  constructor
  · rw [product]
    apply product_plain factory.product tree
    rw [← number]
    exact (importedManifest_ok imported.valid).2
  · intro entry member
    obtain ⟨path, there, _, named, -⟩ := origin entry member
    exact named ▸ parts path there
  · intro entry member
    obtain ⟨_, -, text, -, parsed⟩ := origin entry member
    exact parseSpecSections_printable text entry.2 parsed
  · rw [imported.made] at unique
    exact unique

theorem exportChange_ok {place : TreePath} (made : change = importedChange methods codec view manifest entries)
    (exportable : Exportable methods α view entries) :
    OpenSpecAdapter.exportChange methods codec root change before = .ok place after ↔ place = openSpecChange root manifest.slug ∧
      placeSections (openSpecChange root manifest.slug) ((exportedBlocks methods entries).foldl addBlock [])
        (codec.manifest.dump manifest) before = .ok () after := by
  subst made
  have sections := @sectionsOf_imported methods α view entries codec manifest _ exportable rfl
  have chosen : (importedChange methods codec view manifest entries).artifacts .delta = some
      { baselineRevision := view.revision, operations := entries.map fun entry => entry.2.operation methods view entry.1,
        pinned := view.pinned } := rfl
  unfold OpenSpecAdapter.exportChange placeSections
  rw [chosen]
  simp only [Outcome.state_bind_ok, Outcome.lift_ok, exporting_ok, Outcome.state_pure_ok]
  constructor
  · rintro ⟨_, _, ⟨grouped, rfl⟩, _, middle, placed, _, _, written, rfl, rfl⟩
    rw [sections] at grouped
    obtain rfl := Except.ok.inj grouped
    exact ⟨rfl, ⟨⟩, middle, placed, written⟩
  · rintro ⟨rfl, _, middle, placed, written⟩
    exact ⟨_, before, ⟨sections, rfl⟩, ⟨⟩, middle, placed, ⟨⟩, after, written, rfl, rfl⟩

theorem sections_safe (exportable : Exportable methods α view entries) :
    ∀ held ∈ (exportedBlocks methods entries).foldl addBlock [], SafePart held.1 := by
  intro held member
  have known := ((sections_hold (exportedBlocks methods entries)).capabilities held.1).mp (List.mem_map_of_mem member)
  obtain ⟨block, listed, named⟩ := known
  obtain ⟨entry, inside, rfl⟩ := List.mem_map.mp listed
  exact named ▸ (exportable.capabilities entry inside).1

theorem sections_occupied : (exportedBlocks methods entries).foldl addBlock [] ≠ [] ↔ entries ≠ [] := by
  have holds := sections_hold (exportedBlocks methods entries)
  refine not_congr ⟨fun none_ => ?_, fun none_ => by rw [none_]; rfl⟩
  rw [List.eq_nil_iff_forall_not_mem]
  intro entry member
  have known := (holds.capabilities entry.1).mpr ⟨_, List.mem_map_of_mem member, rfl⟩
  rw [none_] at known
  cases known

theorem exportChange_succeeds (made : change = importedChange methods codec view manifest entries)
    (exportable : Exportable methods α view entries) (fresh : before.Fresh (openSpecChange root manifest.slug)) :
    (∃ after, OpenSpecAdapter.exportChange methods codec root change before = .ok (openSpecChange root manifest.slug) after) ↔ entries ≠ [] := by
  rw [← @sections_occupied methods,
    ← @placeSections_ok before _ _ (codec.manifest.dump manifest) (sections_safe exportable) fresh]
  refine exists_congr fun after => ?_
  rw [exportChange_ok made exportable]
  exact and_iff_right rfl

theorem exportChange_exported (made : change = importedChange methods codec view manifest entries)
    (exportable : Exportable methods α view entries) (fresh : before.Fresh (openSpecChange root manifest.slug))
    {place : TreePath} (done : OpenSpecAdapter.exportChange methods codec root change before = .ok place after) :
    Exported (openSpecChange root manifest.slug) ((exportedBlocks methods entries).foldl addBlock []) before after :=
  placeSections_exported (sections_hold _).unique (sections_safe exportable) fresh ((exportChange_ok made exportable).mp done).2

theorem Exported.directories {sections : Sections} (exported : Exported directory sections before after)
    (fresh : before.Fresh directory) (occupied : sections ≠ []) : after.isDir directory = true ∧
      after.isDir (directory ++ ["specs"]) = true ∧ after.isDir (directory ++ ["change.yaml"]) = false := by
  obtain ⟨held, listed⟩ := List.exists_mem_of_ne_nil _ occupied
  have below : directory ++ ["specs"] <+: specFile directory held.1 := ⟨[held.1, "spec.md"], by simp [specFile]⟩
  have dirs : after.isDir (directory ++ ["specs"]) = true := by
    refine (exported.isDir _).mpr (Or.inr ⟨held, listed, below, fun same => ?_⟩)
    have long := congrArg List.length same
    simp [specFile] at long
  refine ⟨Tree.isDir_above dirs (List.prefix_append _ _), dirs, ?_⟩
  rw [Bool.eq_false_iff, ne_eq, exported.isDir]
  rintro (old | ⟨other, -, above, -⟩)
  · rw [fresh.isDir (List.prefix_append _ _)] at old
    cases old
  · exact manifest_apart above

/-- Where the blocks agree, so do the files, wherever they are. -/
theorem Exported.same {blocks others : List SpecBlock} {place : TreePath} {old new : Tree}
    (exported : Exported directory (blocks.foldl addBlock []) before after) (fresh : before.Fresh directory)
    (copied : Exported place (others.foldl addBlock []) old new) (free : old.Fresh place)
    (capabilities : ∀ capability, (∃ block ∈ blocks, block.capability = capability) ↔ ∃ block ∈ others, block.capability = capability)
    (texts : ∀ capability kind, textsOf others capability kind = textsOf blocks capability kind) (rest : TreePath) :
    new.content (place ++ "specs" :: rest) = after.content (directory ++ "specs" :: rest) := by
  have holds := sections_hold blocks
  have copies := sections_hold others
  have none_ {directory : TreePath} {sections : Sections} {before after : Tree} (exported : Exported directory sections before after)
      (fresh : before.Fresh directory) (absent : ∀ held ∈ sections, rest ≠ [held.1, "spec.md"]) :
      after.content (directory ++ "specs" :: rest) = none := by
    have away : after.isFile (directory ++ "specs" :: rest) = false := by
      rw [Bool.eq_false_iff, ne_eq, exported.isFile]
      rintro (⟨held, listed, same⟩ | same | old)
      · have tails := List.append_cancel_left same
        exact absent held listed (List.cons.inj tails).2.symm
      · have tails := List.append_cancel_left same
        exact absurd (List.cons.inj tails).1 (by decide)
      · rw [fresh.isFile (List.prefix_append _ _)] at old
        cases old
    rwa [Tree.isFile, Option.isSome_eq_false_iff, Option.isNone_iff_eq_none] at away
  by_cases here : ∃ held ∈ blocks.foldl addBlock [], rest = [held.1, "spec.md"]
  · obtain ⟨held, listed, rfl⟩ := here
    have known := (copies.capabilities held.1).mpr ((capabilities held.1).mp
      ((holds.capabilities held.1).mp (List.mem_map_of_mem listed)))
    obtain ⟨copy, there, named⟩ := List.mem_map.mp known
    have first := exported.content held listed
    have second := copied.content copy there
    rw [holds.texts held listed] at first
    rw [copies.texts copy there, named, funext fun kind => texts held.1 kind] at second
    exact second.trans first.symm
  · have absent : ∀ held ∈ blocks.foldl addBlock [], rest ≠ [held.1, "spec.md"] := fun held listed same => here ⟨held, listed, same⟩
    have missing : ∀ held ∈ others.foldl addBlock [], rest ≠ [held.1, "spec.md"] := by
      intro held listed same
      have known := (holds.capabilities held.1).mpr ((capabilities held.1).mpr
        ((copies.capabilities held.1).mp (List.mem_map_of_mem listed)))
      obtain ⟨old, there, named⟩ := List.mem_map.mp known
      exact absent old there (by rw [same, named])
    rw [none_ exported fresh absent, none_ copied free missing]

structure SameRequirements (change other : ChangeSet codec.models) : Prop where
  operations : ∃ delta told : Delta, change.artifacts .delta = some delta ∧ other.artifacts .delta = some told ∧
    delta.operations.Perm told.operations
  documents : (change.documents.map Document.told).Perm (other.documents.map Document.told)

/-- A change is exported, read back with the same requirements, and exported again to the same files. -/
def OpenSpecRoundTrips (methods : CaseMethods) (codec : OpenSpecCodec α) (core : NativeCore) (root : TreePath)
    (change : ChangeSet codec.models) (tree : Tree) : Prop :=
  ∃ exported again reread,
    OpenSpecAdapter.exportChange methods codec root change tree = .ok (openSpecChange root change.manifest.slug) exported ∧
    OpenSpecAdapter.importChange methods codec core root change.manifest.slug exported = .ok again reread ∧
    SameRequirements change again ∧ again.manifest.slug = change.manifest.slug ∧
    ∀ other before, before.Fresh (openSpecChange other change.manifest.slug) → ∃ settled,
      OpenSpecAdapter.exportChange methods codec other again before = .ok (openSpecChange other change.manifest.slug) settled ∧
      ∀ rest, settled.content (openSpecChange other change.manifest.slug ++ "specs" :: rest) =
        exported.content (openSpecChange root change.manifest.slug ++ "specs" :: rest)

theorem importChange_roundTrips {target : NativeCore} {place : TreePath} {factory settled : FactoryManifest}
    (imported : OpenSpecAdapter.importChange methods codec core root name tree = .ok change after)
    (parts : ∀ path ∈ specFiles (openSpecChange root name) tree, SafePart (capabilityOf path) ∧ ':' ∉ (capabilityOf path).toList)
    (unique : Table.Unique Document.path change.documents)
    (fresh : before.Fresh (openSpecChange place change.manifest.slug))
    (outside : ¬ target.factoryRoot <+: openSpecChange place change.manifest.slug)
    (read : core.readFactoryManifest tree = .ok factory) (loaded : target.readFactoryManifest before = .ok settled)
    (same : settled.product = factory.product)
    (numbered : isChangeId (target.nextChangeId settled.product before) = true) :
    OpenSpecRoundTrips methods codec target place change before ↔
      ∃ delta : Delta, change.artifacts .delta = some delta ∧ delta.operations ≠ [] := by
  obtain ⟨view, manifest, entries, facts, -⟩ := importChange_ok.mp imported
  have exportable := facts.exportable parts unique
  have slug : change.manifest.slug = manifest.slug := by rw [facts.made]; rfl
  have some_ : (∃ delta : Delta, change.artifacts .delta = some delta ∧ delta.operations ≠ []) ↔ entries ≠ [] := by
    rw [facts.made]
    constructor
    · rintro ⟨delta, made, occupied⟩ none_
      obtain rfl := Option.some.inj made
      exact occupied (by rw [none_]; rfl)
    · intro occupied
      exact ⟨_, rfl, fun none_ => occupied (List.map_eq_nil_iff.mp none_)⟩
  rw [some_]
  rw [slug] at fresh outside
  constructor
  · rintro ⟨exported, _, _, done, -⟩
    rw [slug] at done
    exact (exportChange_succeeds facts.made exportable fresh).mp ⟨exported, done⟩
  · intro occupied
    obtain ⟨exported, done⟩ := (exportChange_succeeds facts.made exportable fresh).mpr occupied
    have files := exportChange_exported facts.made exportable fresh done
    obtain ⟨keys, blocks, distinct, covers, mapped, flat⟩ := readEntries_all exportable fresh files
    obtain ⟨first, opened, product, -⟩ := readFactoryManifest_of_view facts.viewed
    obtain rfl := Except.ok.inj (read.symm.trans opened)
    have seeing := readFactoryManifest_exported fresh files loaded
    obtain ⟨seen, viewed, shown, number⟩ := view_of_read seeing
    have products : view.product = seen.product := by rw [product, shown, same]
    have identified : isChangeId seen.changeId = true := by
      rw [number, nextChangeId_exported fresh files loaded outside]
      exact numbered
    obtain ⟨named, -⟩ := importedManifest_ok facts.valid
    obtain ⟨copy, valid, copied⟩ := importedManifest_slug identified (named ▸ manifest.slugged)
    rw [← named] at valid copied
    obtain ⟨dir, dirs, free⟩ := files.directories fresh (sections_occupied.mpr occupied)
    have rereading : Imported methods codec target place manifest.slug exported
        (importedChange methods codec seen copy (rereadEntries methods keys entries)) seen copy
        (rereadEntries methods keys entries) :=
      ⟨dirs, viewed, ⟨blocks, mapped, flat⟩, valid, rfl⟩
    have written : writeFile (openSpecChange place manifest.slug ++ ["change.yaml"]) (codec.manifest.dump copy) exported =
        .ok () (exported.write (openSpecChange place manifest.slug ++ ["change.yaml"]) (.text (codec.manifest.dump copy))) := by
      refine writeFile_ok.mpr ⟨?_, free, rfl⟩
      rw [List.dropLast_concat]
      exact dir
    have reexportable := exportable.reread products distinct covers
    have perm := @rereadEntries_perm methods entries keys distinct covers
    have reoccupied : rereadEntries methods keys entries ≠ [] := by
      intro none_
      rw [none_] at perm
      exact occupied (List.map_eq_nil_iff.mp perm.symm.eq_nil)
    have told : SameRequirements (importedChange methods codec view manifest entries)
        (importedChange methods codec seen copy (rereadEntries methods keys entries)) :=
      ⟨⟨_, _, rfl, rfl, operations_perm products distinct covers⟩, documents_perm distinct covers⟩
    refine ⟨exported, _, _, by rw [slug]; exact done, importChange_ok.mpr ⟨seen, copy, _, by rw [slug]; exact rereading,
      by rw [slug]; exact written⟩, by rw [facts.made]; exact told, copied.trans slug.symm, ?_⟩
    intro other start clear
    rw [slug, ← copied] at clear
    obtain ⟨final, exported'⟩ := (exportChange_succeeds rfl reexportable clear).mpr reoccupied
    have again := exportChange_exported rfl reexportable clear exported'
    rw [copied] at exported' again clear
    rw [slug]
    refine ⟨final, exported', fun rest => files.same fresh again clear (fun capability => ?_) (textsOf_reread distinct covers) rest⟩
    constructor
    · rintro ⟨block, listed, rfl⟩
      obtain ⟨entry, inside, rfl⟩ := List.mem_map.mp listed
      refine ⟨_, List.mem_map_of_mem (perm.mem_iff.mpr (List.mem_map_of_mem inside)), rfl⟩
    · rintro ⟨block, listed, rfl⟩
      obtain ⟨entry, inside, rfl⟩ := List.mem_map.mp listed
      obtain ⟨old, there, rfl⟩ := List.mem_map.mp (perm.mem_iff.mp inside)
      exact ⟨_, List.mem_map_of_mem there, rfl⟩

end RoundTrip

/-! ### A change of two blocks -/

section Scene

def asciiCase : CaseMethods where
  lower text := text.map Char.toLower
  title := asciiTitle false
  lower_ascii _ _ := rfl
  title_ascii _ _ := rfl

def loadFactory (text : DocText) : Except SddFailure FactoryManifest :=
  match plainYaml.safeLoad text with
  | .ok (.mapping raw) =>
    match raw.get "product" with
    | .text product =>
      if named : product ≠ "" then .ok ⟨product, named⟩ else .error ⟨.validation, "String should have at least 1 character"⟩
    | _ => .error ⟨.validation, "Field required"⟩
  | _ => .error ⟨.validation, "Input should be a valid dictionary"⟩

def besideCore : NativeCore where
  factoryRoot := [".factory"]
  year := 2026
  loadManifest := loadFactory

def dumpImported (manifest : ChangeManifest OpenSpecFields) : DocText :=
  ("schema: dark-factory.dev/change/v1\nid: " ++ manifest.id ++ "\ntitle: " ++ manifest.rest.title ++ "\nslug: " ++
    manifest.slug ++ "\nproduct: " ++ manifest.rest.product ++ "\nkind: " ++ manifest.rest.kind ++
    "\nrisk_class: R1\nstatus: proposed\nbaseline:\n  revision: " ++ manifest.rest.baseline.revision ++
    "\nworkflow:\n  profile: product-feature\nowners: null\ntargets: []\nartifacts:\n  spec: spec/delta.yaml\n").toList

def importedCodec : OpenSpecCodec Empty where
  packages := plainYaml
  manifest := ⟨dumpImported, fun _ => .error ⟨.validation, "Field required"⟩⟩
  artifact _ := ⟨fun _ => [], fun _ => .error ⟨.validation, "Field required"⟩⟩

def factoryFile : TreePath × Content := ([".factory", "factory.yaml"], .text "product: pilot\n".toList)

def factoryTree : Tree := ⟨[factoryFile], [], List.nodup_singleton _⟩

def loginSpec : DocText :=
  ("## ADDED Requirements\n\n### Requirement: Login\n\nUsers log in.\n\n" ++
    "## REMOVED Requirements\n\n### Requirement: Legacy Token\n").toList

def loginPath : TreePath := ["openspec", "changes", "add-login", "specs", "auth", "spec.md"]

def loginTree : Tree where
  files := [factoryFile, (loginPath, .text loginSpec)]
  unique := List.Nodup.of_map List.length (by decide)

def loginEntries : List (String × SpecEntry) :=
  [("auth", ⟨.added, ⟨"Login".toList, by decide⟩, "Users log in.".toList⟩),
    ("auth", ⟨.removed, ⟨"Legacy Token".toList, by decide⟩, []⟩)]

theorem loginTree_files : specFiles (openSpecChange ["openspec"] "add-login") loginTree = [loginPath] := by decide +kernel

theorem loginSpec_parsed : parseSpecSections loginSpec = loginEntries.map Prod.snd := by decide +kernel

theorem loginTree_read : ∃ read, (specFiles (openSpecChange ["openspec"] "add-login") loginTree).mapM (readEntries loginTree) =
    .ok read ∧ read.flatten = loginEntries := by
  have held : loginTree.content loginPath = some (.text loginSpec) := by rfl
  have entries : readEntries loginTree loginPath = .ok loginEntries := by
    unfold readEntries
    rw [Tree.readText_text held]
    show Except.ok _ = _
    rw [parseSpecSections_newlines, loginSpec_parsed]
    rfl
  refine ⟨[loginEntries], ?_, List.flatten_singleton⟩
  rw [loginTree_files, List.mapM_cons, entries]
  rfl

theorem pilotFactory_named : "pilot" ≠ "" := by decide

def pilotFactory : FactoryManifest := ⟨"pilot", pilotFactory_named⟩

theorem factory_loaded {tree : Tree} (held : tree.content [".factory", "factory.yaml"] = some (.text "product: pilot\n".toList)) :
    besideCore.readFactoryManifest tree = .ok pilotFactory := by
  refine Outcome.bind_ok.mpr ⟨_, Tree.readText_text held, ?_⟩
  rfl

theorem factoryTree_fresh : factoryTree.Fresh (openSpecChange ["mirror"] "add-login") := by
  have only : ∀ path, factoryTree.isFile path = true → path = [".factory", "factory.yaml"] := by
    intro path held
    obtain ⟨file, member, rfl⟩ := Tree.isFile_iff.mp held
    rw [List.mem_singleton.mp member]
    rfl
  refine ⟨by decide, ⟨fun way above _ => ?_, by decide⟩, by decide⟩
  rw [Bool.eq_false_iff]
  intro held
  rw [only way held] at above
  exact absurd above (by decide)

/-- A change of two blocks is imported, and mirrored beside another factory. -/
theorem loginChange_roundTrips : ∃ (change : ChangeSet importedCodec.models) (after : Tree),
    OpenSpecAdapter.importChange asciiCase importedCodec besideCore ["openspec"] "add-login" loginTree = .ok change after ∧
      OpenSpecRoundTrips asciiCase importedCodec besideCore ["mirror"] change factoryTree := by
  have held : loginTree.content [".factory", "factory.yaml"] = some (.text "product: pilot\n".toList) := by rfl
  have read := factory_loaded held
  obtain ⟨view, viewed, product, number⟩ := view_of_read read
  have numbered : isChangeId (besideCore.nextChangeId "pilot" loginTree) = true := by decide +kernel
  have slug : String.ofList (kebab asciiCase "add-login".toList) = "add-login" := by decide +kernel
  obtain ⟨manifest, valid, named⟩ := @importedManifest_slug asciiCase "add-login" view (by rw [number]; exact numbered)
    (by rw [slug]; decide +kernel)
  rw [slug] at valid named
  have imported : Imported asciiCase importedCodec besideCore ["openspec"] "add-login" loginTree
      (importedChange asciiCase importedCodec view manifest loginEntries) view manifest loginEntries :=
    ⟨by decide, viewed, loginTree_read, valid, rfl⟩
  have written : writeFile (openSpecChange ["openspec"] "add-login" ++ ["change.yaml"]) (importedCodec.manifest.dump manifest)
      loginTree = .ok () (loginTree.write (openSpecChange ["openspec"] "add-login" ++ ["change.yaml"])
        (.text (importedCodec.manifest.dump manifest))) :=
    writeFile_ok.mpr ⟨by decide, by decide, rfl⟩
  have done := importChange_ok.mpr ⟨view, manifest, loginEntries, imported, written⟩
  refine ⟨_, _, done, ?_⟩
  have parts : ∀ path ∈ specFiles (openSpecChange ["openspec"] "add-login") loginTree,
      SafePart (capabilityOf path) ∧ ':' ∉ (capabilityOf path).toList := by
    rw [loginTree_files]
    decide
  have unique : Table.Unique Document.path (importedChange asciiCase importedCodec view manifest loginEntries).documents :=
    List.nodup_singleton _
  have place : (importedChange asciiCase importedCodec view manifest loginEntries).manifest.slug = "add-login" := named
  exact (importChange_roundTrips done parts unique (by rw [place]; exact factoryTree_fresh) (by rw [place]; decide) read
    (factory_loaded rfl) rfl (by decide +kernel)).mpr ⟨_, rfl, List.cons_ne_nil _ _⟩

end Scene

end DarkFactory
