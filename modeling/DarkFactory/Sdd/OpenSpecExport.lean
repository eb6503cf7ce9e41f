import DarkFactory.Lib.Groups
import DarkFactory.Sdd.OpenSpec

namespace DarkFactory

/-! ## What is printed of a block -/

section Entries

variable {methods : CaseMethods} {view : NativeView} {capability : String} {entry : SpecEntry} {slug name : DocText} {c : Char}

theorem titled_letter (small : lowerOrDigit c.toLower = true ∨ c.toLower = ' ') (ascii : c.toNat < 128) :
    lineBreak c = false ∧ (lowerOrDigit c.toLower = true → Text.isSpace c = false) := by
  have every : ∀ n < 128, lowerOrDigit (Char.ofNat n).toLower = true ∨ (Char.ofNat n).toLower = ' ' →
      lineBreak (Char.ofNat n) = false ∧
        (lowerOrDigit (Char.ofNat n).toLower = true → Text.isSpace (Char.ofNat n) = false) := by decide
  exact @of_ascii c (fun c => lowerOrDigit c.toLower = true ∨ c.toLower = ' ' →
    lineBreak c = false ∧ (lowerOrDigit c.toLower = true → Text.isSpace c = false)) every ascii small

theorem Slug.titled_occupied (slugged : Slug slug) : DarkFactory.titled methods slug ≠ [] := by
  intro empty
  have small := (@Slug.titled methods slug slugged).2
  rw [empty] at small
  exact slugged.occupied (List.map_eq_nil_iff.mp small.symm)

variable (methods) in
def titledName (name : SpecName) : SpecName :=
  ⟨titled methods (kebab methods name.1), (kebab_slug methods name.1).titled_occupied⟩

theorem titledName_ends (name : SpecName) : (titledName methods name).Ends := by
  have slugged := kebab_slug methods name.1
  obtain ⟨ascii, small⟩ := @Slug.titled methods _ slugged
  constructor
  · intro last (here : (titled methods (kebab methods name.1)).getLast? = some last)
    have lowered : ((titled methods (kebab methods name.1)).map Char.toLower).getLast? = some last.toLower := by
      rw [List.getLast?_map, here]
      rfl
    rw [small, List.getLast?_map, Option.map_eq_some_iff] at lowered
    obtain ⟨dashed, ends, same⟩ := lowered
    have apart : dashed ≠ '-' := by
      rintro rfl
      exact slugged.last ends
    have letter := (slugged.letters dashed (List.mem_of_getLast? ends)).resolve_right apart
    rw [spaced, if_neg apart] at same
    rw [same] at letter
    exact (titled_letter (Or.inl letter) (ascii last (List.mem_of_getLast? here))).2 letter
  · intro c member
    have lowered : c.toLower ∈ (kebab methods name.1).map spaced := by
      rw [← small]
      exact List.mem_map_of_mem member
    exact (titled_letter (slugged.spaced _ lowered) (ascii c member)).1

variable (methods) in
def SpecEntry.printed (entry : SpecEntry) : SpecItem :=
  match entry.kind with
  | .added | .modified => (entry.name, entry.body)
  | .removed => (titledName methods entry.name, [])

variable (methods) in
def SpecEntry.reprinted (entry : SpecEntry) : SpecEntry :=
  ⟨entry.kind, (entry.printed methods).1, (entry.printed methods).2⟩

theorem SpecEntry.printed_printable (printable : Printable entry.name entry.body) :
    Printable (entry.printed methods).1 (entry.printed methods).2 := by
  unfold SpecEntry.printed
  cases entry.kind with
  | added => exact printable
  | modified => exact printable
  | removed =>
    exact
      { toEnds := titledName_ends entry.name
        trimmed := rfl
        breaks := fun c absent => absurd absent List.not_mem_nil
        plain := by
          intro line member
          rw [show line = [] from List.mem_singleton.mp member]
          exact plainLine_empty }

theorem SpecEntry.reprinted_slug : kebab methods (entry.reprinted methods).name.1 = kebab methods entry.name.1 := by
  unfold SpecEntry.reprinted SpecEntry.printed
  cases entry.kind with
  | added => rfl
  | modified => rfl
  | removed => exact kebab_titled (kebab_slug methods entry.name.1)

theorem SpecEntry.reprinted_printed : (entry.reprinted methods).printed methods = entry.printed methods := by
  have slug := @SpecEntry.reprinted_slug methods entry
  unfold SpecEntry.reprinted SpecEntry.printed at slug ⊢
  cases shape : entry.kind with
  | added => rfl
  | modified => rfl
  | removed =>
    rw [shape] at slug
    refine Prod.ext (Subtype.ext ?_) rfl
    exact congrArg (titled methods) slug

theorem SpecEntry.reprinted_target :
    (entry.reprinted methods).target methods view capability = entry.target methods view capability := by
  unfold SpecEntry.target requirementId
  rw [SpecEntry.reprinted_slug]

theorem SpecEntry.reprinted_artifact :
    (entry.reprinted methods).artifact methods capability = entry.artifact methods capability := by
  unfold SpecEntry.artifact requirementArtifact
  rw [SpecEntry.reprinted_slug]

theorem SpecEntry.reprinted_operation :
    (entry.reprinted methods).operation methods view capability = entry.operation methods view capability := by
  have target := @SpecEntry.reprinted_target methods view capability entry
  have artifact := @SpecEntry.reprinted_artifact methods capability entry
  have kind : (entry.reprinted methods).kind = entry.kind := rfl
  unfold SpecEntry.operation
  rw [kind]
  cases entry.kind with
  | added => simp only [target, artifact]
  | modified => simp only [target, artifact]
  | removed => simp only [target]

end Entries

/-! ## The blocks of an export -/

section Blocks

variable {block : SpecBlock} {blocks : List SpecBlock} {sections : Sections} {capability : String} {kind : SpecKind}

def SpecBlock.place (block : SpecBlock) : String × SpecKind := (block.capability, block.kind)

def textsOf (blocks : List SpecBlock) (capability : String) (kind : SpecKind) : List DocText :=
  (Groups.group SpecBlock.place blocks (capability, kind)).map SpecBlock.text

theorem textsOf_append_other (away : block.place ≠ (capability, kind)) :
    textsOf (blocks ++ [block]) capability kind = textsOf blocks capability kind := by
  rw [textsOf, Groups.group_append]
  have none_ : Groups.group SpecBlock.place [block] (capability, kind) = [] := by simp [Groups.group, away]
  rw [none_, List.append_nil, textsOf]

theorem textsOf_append_own : textsOf (blocks ++ [block]) block.capability block.kind =
    textsOf blocks block.capability block.kind ++ [block.text] := by
  rw [textsOf, Groups.group_append, List.map_append, textsOf]
  have own : Groups.group SpecBlock.place [block] (block.capability, block.kind) = [block] := by
    simp [Groups.group, SpecBlock.place]
  rw [own]
  rfl

theorem textsOf_absent (absent : ∀ block ∈ blocks, block.capability ≠ capability) : textsOf blocks capability kind = [] := by
  rw [textsOf, List.map_eq_nil_iff, List.eq_nil_iff_forall_not_mem]
  intro block member
  obtain ⟨inside, own⟩ := Groups.mem_group.mp member
  exact absent block inside (congrArg Prod.fst own)

structure HoldBlocks (blocks : List SpecBlock) (sections : Sections) : Prop where
  unique : Table.Unique Prod.fst sections
  texts : ∀ held ∈ sections, held.2 = textsOf blocks held.1
  capabilities : ∀ capability, capability ∈ sections.map Prod.fst ↔ ∃ block ∈ blocks, block.capability = capability

theorem HoldBlocks.add (holds : HoldBlocks blocks sections) (block : SpecBlock) :
    HoldBlocks (blocks ++ [block]) (addBlock sections block) := by
  have member (held : String × (SpecKind → List DocText)) : held ∈ addBlock sections block ↔
      (held ∈ sections ∧ held.1 ≠ block.capability) ∨
        held = (block.capability, textsOf (blocks ++ [block]) block.capability) := by
    have own (texts : SpecKind → List DocText) (same : texts = textsOf blocks block.capability) :
        (fun kind => if kind = block.kind then texts kind ++ [block.text] else texts kind) =
          textsOf (blocks ++ [block]) block.capability := by
      funext kind
      rw [same]
      by_cases here : kind = block.kind
      · rw [if_pos here, here, textsOf_append_own]
      · rw [if_neg here, textsOf_append_other]
        intro placed
        exact here (congrArg Prod.snd placed).symm
    unfold addBlock
    rw [Table.mem_update]
    constructor
    · rintro (⟨inside, away⟩ | ⟨old, inside, here, rfl⟩)
      · rcases Table.mem_insertNew.mp inside with listed | ⟨-, rfl⟩
        · exact Or.inl ⟨listed, away⟩
        · exact absurd rfl away
      · right
        rcases Table.mem_insertNew.mp inside with listed | ⟨absent, rfl⟩
        · exact Prod.ext here (own old.2 ((holds.texts old listed).trans (by rw [here])))
        · refine Prod.ext rfl (own _ (funext fun kind => ?_))
          symm
          apply textsOf_absent
          intro other there same
          obtain ⟨row, listed, named⟩ := List.mem_map.mp ((holds.capabilities block.capability).mpr ⟨other, there, same⟩)
          exact Table.find_none.mp absent row listed named
    · rintro (⟨listed, away⟩ | rfl)
      · exact Or.inl ⟨Table.mem_insertNew.mpr (Or.inl listed), away⟩
      · right
        by_cases known : ∃ block' ∈ blocks, block'.capability = block.capability
        · obtain ⟨row, listed, named⟩ := List.mem_map.mp ((holds.capabilities block.capability).mpr known)
          refine ⟨row, Table.mem_insertNew.mpr (Or.inl listed), named, Prod.ext named.symm ?_⟩
          exact (own row.2 ((holds.texts row listed).trans (by rw [named]))).symm
        · have absent : Table.find Prod.fst block.capability sections = none := by
            rw [Table.find_none]
            intro row listed named
            exact known ((holds.capabilities block.capability).mp (List.mem_map.mpr ⟨row, listed, named⟩))
          refine ⟨(block.capability, fun _ => []), Table.mem_insertNew.mpr (Or.inr ⟨absent, rfl⟩), rfl, Prod.ext rfl ?_⟩
          refine (own _ (funext fun kind => ?_)).symm
          symm
          apply textsOf_absent
          intro other there same
          exact known ⟨other, there, same⟩
  refine ⟨holds.unique.insertNew.update fun row => rfl, ?_, ?_⟩
  · intro held inside
    rcases (member held).mp inside with ⟨listed, away⟩ | rfl
    · rw [holds.texts held listed]
      funext kind
      symm
      apply textsOf_append_other
      intro placed
      exact away (congrArg Prod.fst placed).symm
    · rfl
  · intro capability
    constructor
    · intro inside
      obtain ⟨held, listed, rfl⟩ := List.mem_map.mp inside
      rcases (member held).mp listed with ⟨old, -⟩ | rfl
      · obtain ⟨other, there, same⟩ := (holds.capabilities held.1).mp (List.mem_map_of_mem old)
        exact ⟨other, List.mem_append_left _ there, same⟩
      · exact ⟨block, by simp, rfl⟩
    · rintro ⟨other, there, rfl⟩
      by_cases here : other.capability = block.capability
      · rw [here]
        exact List.mem_map.mpr ⟨_, (member _).mpr (Or.inr rfl), rfl⟩
      · rcases List.mem_append.mp there with old | new
        · obtain ⟨row, listed, named⟩ := List.mem_map.mp ((holds.capabilities other.capability).mpr ⟨other, old, rfl⟩)
          refine List.mem_map.mpr ⟨row, (member row).mpr (Or.inl ⟨listed, ?_⟩), named⟩
          rw [named]
          exact here
        · rw [List.mem_singleton.mp new] at here
          exact absurd rfl here

theorem sections_hold (blocks : List SpecBlock) : HoldBlocks blocks (blocks.foldl addBlock []) := by
  induction blocks using List.reverseRecOn with
  | nil =>
    exact
      { unique := Table.Unique.nil
        texts := fun held absent => absurd absent List.not_mem_nil
        capabilities := fun capability => by simp }
  | append_singleton blocks block ih =>
    rw [List.foldl_append]
    exact ih.add block

end Blocks

/-! ## The blocks an imported change is exported to -/

section Export

variable {methods : CaseMethods} {α : Type} {view other : NativeView} {documents : List (Document α)}

theorem idParts_requirementId {product capability : String} {name : DocText} (plain : ':' ∉ product.toList)
    (separate : ':' ∉ capability.toList) : idParts (requirementId methods product capability name) =
      ["req".toList, product.toList, capability.toList, kebab methods name] := by
  have joined : (requirementId methods product capability name).toList =
      Segments.join ':' ["req".toList, product.toList, capability.toList, kebab methods name] := by
    simp [requirementId, Segments.join, List.intercalate]
  have free : ∀ part ∈ ["req".toList, product.toList, capability.toList, kebab methods name], ':' ∉ part := by
    have slug : ':' ∉ kebab methods name := by
      intro colon
      rcases (kebab_slug methods name).letters _ colon with letter | dash
      · exact absurd letter (by decide)
      · exact absurd dash (by decide)
    intro part member
    simp only [List.mem_cons, List.not_mem_nil, or_false] at member
    rcases member with rfl | rfl | rfl | rfl
    · decide
    · exact plain
    · exact separate
    · exact slug
  have read := Segments.splitOn_join (List.cons_ne_nil _ _) free
  rw [idParts, joined]
  simpa [List.splitOn, beq_eq_decide] using read

theorem documentOf_member {document : Document α} (unique : Table.Unique Document.path documents)
    (member : document ∈ documents) : documentOf documents document.path = some document := by
  have reversed : Table.Unique Document.path documents.reverse := by
    rw [Table.Unique, List.map_reverse]
    exact List.nodup_reverse.mpr unique
  exact reversed.find (List.mem_reverse.mpr member)

theorem writtenBlock_ok {document : Document α} {frontmatter : Frontmatter α} {kind : SpecKind} {target artifact : String}
    {capability : String} (part : targetPart target 2 = .ok capability)
    (found : documentOf documents ("spec/" ++ artifact) = some document) (titled : document.frontmatter = some frontmatter) :
    writtenBlock documents kind target artifact =
      .ok (some ⟨capability, kind, requirementBlock frontmatter.title.toList document.body⟩) := by
  unfold writtenBlock
  rw [part, found]
  simp [Bind.bind, Except.bind, Pure.pure, Except.pure, titled]

structure Exportable (methods : CaseMethods) (α : Type) (view : NativeView) (entries : List (String × SpecEntry)) : Prop where
  product : ':' ∉ view.product.toList
  capabilities : ∀ entry ∈ entries, SafePart entry.1 ∧ ':' ∉ entry.1.toList
  printable : ∀ entry ∈ entries, Printable entry.2.name entry.2.body
  documents : Table.Unique Document.path
    (entries.filterMap fun entry => (entry.2.document methods view entry.1 : Option (Document α)))

variable (methods) in
def exportedBlock (entry : String × SpecEntry) : SpecBlock :=
  ⟨entry.1, entry.2.kind, (entry.2.printed methods).block⟩

section Entries

variable {entries : List (String × SpecEntry)} {entry : String × SpecEntry}

theorem targetPart_capability (plain : ':' ∉ view.product.toList) (separate : ':' ∉ entry.1.toList) :
    targetPart (entry.2.target methods view entry.1) 2 = .ok entry.1 := by
  unfold targetPart SpecEntry.target
  rw [idParts_requirementId plain separate]
  simp

theorem blockOf_operation (exportable : Exportable methods α view entries) (member : entry ∈ entries) :
    blockOf methods (entries.filterMap fun entry => (entry.2.document methods view entry.1 : Option (Document α)))
      (entry.2.operation methods view entry.1) = .ok (some (exportedBlock methods entry)) := by
  have part := @targetPart_capability methods view entry exportable.product (exportable.capabilities entry member).2
  have parts := @idParts_requirementId methods view.product entry.1 entry.2.name.1 exportable.product
    (exportable.capabilities entry member).2
  have written (kind : SpecKind) (own : entry.2.kind ≠ .removed) (printed : entry.2.printed methods = (entry.2.name, entry.2.body)) :
      writtenBlock (entries.filterMap fun entry => (entry.2.document methods view entry.1 : Option (Document α))) kind
          (entry.2.target methods view entry.1) (entry.2.artifact methods entry.1) =
        .ok (some ⟨entry.1, kind, (entry.2.printed methods).block⟩) := by
    obtain ⟨document, held⟩ : ∃ document : Document α, entry.2.document methods view entry.1 = some document := by
      unfold SpecEntry.document
      cases shape : entry.2.kind with
      | added => exact ⟨_, rfl⟩
      | modified => exact ⟨_, rfl⟩
      | removed => exact absurd shape own
    have fields : document.path = "spec/" ++ entry.2.artifact methods entry.1 ∧
        document.frontmatter = some (entry.2.frontmatter methods view entry.1) ∧ document.body = entry.2.body := by
      unfold SpecEntry.document at held
      cases shape : entry.2.kind with
      | added =>
        rw [shape] at held
        obtain rfl := Option.some.inj held
        exact ⟨rfl, rfl, rfl⟩
      | modified =>
        rw [shape] at held
        obtain rfl := Option.some.inj held
        exact ⟨rfl, rfl, rfl⟩
      | removed => exact absurd shape own
    have found := documentOf_member exportable.documents (List.mem_filterMap.mpr ⟨entry, member, held⟩)
    rw [fields.1] at found
    rw [writtenBlock_ok part found fields.2.1, fields.2.2, printed]
    simp [SpecEntry.frontmatter, SpecItem.block]
  cases shape : entry.2.kind with
  | added =>
    have printed : entry.2.printed methods = (entry.2.name, entry.2.body) := by rw [SpecEntry.printed, shape]
    have own : entry.2.kind ≠ .removed := by rw [shape]; decide
    rw [SpecEntry.operation, shape]
    show writtenBlock _ SpecKind.added _ _ = _
    rw [written _ own printed, exportedBlock, shape]
  | modified =>
    have printed : entry.2.printed methods = (entry.2.name, entry.2.body) := by rw [SpecEntry.printed, shape]
    have own : entry.2.kind ≠ .removed := by rw [shape]; decide
    rw [SpecEntry.operation, shape]
    show writtenBlock _ SpecKind.modified _ _ = _
    rw [written _ own printed, exportedBlock, shape]
  | removed =>
    have printed : entry.2.printed methods = (titledName methods entry.2.name, []) := by rw [SpecEntry.printed, shape]
    have name : targetPart (entry.2.target methods view entry.1) 3 = .ok (String.ofList (kebab methods entry.2.name.1)) := by
      unfold targetPart SpecEntry.target
      rw [parts]
      rfl
    rw [SpecEntry.operation, shape]
    simp only [blockOf, part, name, Bind.bind, Except.bind, Pure.pure, Except.pure]
    rw [exportedBlock, shape, printed, SpecItem.block, (titledName_ends entry.2.name).block_empty, titledName,
      String.toList_ofList]

variable (methods) in
def rereadEntry (entry : String × SpecEntry) : String × SpecEntry := (entry.1, entry.2.reprinted methods)

def entryPlace (entry : String × SpecEntry) : String × SpecKind := (entry.1, entry.2.kind)

variable (methods) in
def exportedBlocks (entries : List (String × SpecEntry)) : List SpecBlock := entries.map (exportedBlock methods)

theorem textsOf_exported {capability : String} {kind : SpecKind} : textsOf (exportedBlocks methods entries) capability kind =
    ((Groups.group entryPlace entries (capability, kind)).map fun entry => entry.2.printed methods).map SpecItem.block := by
  rw [textsOf, exportedBlocks, Groups.group_map, List.map_map, List.map_map]
  rfl

theorem mapM_some {ε β γ δ : Type} {f : β → Except ε γ} {g : δ → β} {h : δ → γ} {items : List δ}
    (each : ∀ item ∈ items, f (g item) = .ok (h item)) : (items.map g).mapM f = .ok (items.map h) := by
  induction items with
  | nil => rfl
  | cons first rest ih =>
    rw [List.forall_mem_cons] at each
    rw [List.map_cons, List.mapM_cons, each.1, ih each.2]
    rfl

theorem sectionsOf_imported {codec : OpenSpecCodec α} {manifest : ChangeManifest OpenSpecFields} {delta : Delta}
    (exportable : Exportable methods α view entries)
    (made : (importedChange methods codec view manifest entries).artifacts .delta = some delta) :
    sectionsOf methods codec (importedChange methods codec view manifest entries) delta =
      .ok ((exportedBlocks methods entries).foldl addBlock []) := by
  obtain rfl := Option.some.inj made
  have each : ∀ entry ∈ entries, blockOf methods
      (entries.filterMap fun entry => (entry.2.document methods view entry.1 : Option (Document α)))
      (entry.2.operation methods view entry.1) = .ok (some (exportedBlock methods entry)) :=
    fun entry member => blockOf_operation exportable member
  have blocks := mapM_some each
  have present : (entries.map fun entry => some (exportedBlock methods entry)).filterMap id = exportedBlocks methods entries := by
    rw [List.filterMap_map]
    exact congrFun (@List.filterMap_eq_map _ _ (exportedBlock methods)) entries
  unfold sectionsOf
  refine Outcome.bind_ok.mpr ⟨_, blocks, ?_⟩
  rw [present]
  rfl

end Entries

end Export

/-! ## The files of an export -/

section Files

variable {tree before after : Tree} {directory path way : TreePath} {sections : Sections} {text : DocText} {capability : String}

/-- A place for a directory: nothing is there, and no file is above it. -/
structure Tree.Fresh (tree : Tree) (directory : TreePath) : Prop where
  plain : ∀ name ∈ directory, name ≠ ".."
  free : tree.Open directory
  absent : tree.isFile directory = false

theorem Tree.Fresh.isFile (fresh : tree.Fresh directory) (under : directory <+: path) : tree.isFile path = false := by
  by_cases same : directory = path
  · exact same ▸ fresh.absent
  · rw [Bool.eq_false_iff]
    intro held
    have dir : tree.isDir directory = true := Tree.isDir_iff.mpr (Or.inr (Or.inl ⟨path, held, under, same⟩))
    rw [fresh.free.apart] at dir
    cases dir

theorem Tree.Fresh.isDir (fresh : tree.Fresh directory) (under : directory <+: path) : tree.isDir path = false := by
  rw [Bool.eq_false_iff]
  intro dir
  have above := Tree.isDir_above dir under
  rw [fresh.free.apart] at above
  cases above

theorem Tree.Fresh.opens (fresh : tree.Fresh directory) (under : directory <+: path) : tree.Open path := by
  refine ⟨fun way above _ => ?_, fresh.isDir under⟩
  rcases List.prefix_or_prefix_of_prefix above under with short | long
  · by_cases same : way = directory
    · exact same ▸ fresh.absent
    · exact fresh.free.above way short same
  · exact fresh.isFile long

theorem specPlace_eq (safe : SafePart capability) : specPlace directory capability = directory ++ ["specs", capability, "spec.md"] := by
  have each : ∀ part ∈ [capability], SafePart part := by
    intro part member
    exact (List.mem_singleton.mp member) ▸ safe
  have own : posixPath [capability] = capability := by
    rw [posixPath, Text.join]
    exact String.intercalate_singleton
  have joined := @joinPath_under [capability] (directory ++ ["specs"]) (List.cons_ne_nil _ _) each
  rw [own] at joined
  rw [specPlace, joined]
  simp

theorem writeFile_ok : writeFile path text before = .ok () after ↔
    before.isDir path.dropLast = true ∧ before.isDir path = false ∧ after = before.write path (.text text) := by
  unfold writeFile
  rw [Outcome.state_get_bind]
  by_cases there : before.isDir path.dropLast = true
  · rw [if_neg (by simp [there])]
    show writeText path text before = _ ↔ _
    rw [writeText, Outcome.perform_ok]
    by_cases dir : before.isDir path = true
    · simp [dir]
    · simp [there, dir, eq_comm]
  · rw [if_pos (by simpa using there)]
    refine iff_of_false (fun done => ?_) (fun both => there both.1)
    obtain ⟨_, _, failed, -⟩ := Outcome.state_bind_ok.mp done
    exact Outcome.state_throw_ok.mp failed

theorem exporting_ok {β : Type} {step : EStateM SddFailure Tree β} {value : β} :
    exporting step before = .ok value after ↔ step before = .ok value after := by
  unfold exporting
  cases step before <;> simp

def specFile (directory : TreePath) (capability : String) : TreePath := directory ++ ["specs", capability, "spec.md"]

structure Exported (directory : TreePath) (sections : Sections) (before after : Tree) : Prop where
  content : ∀ held ∈ sections, after.content (specFile directory held.1) = some (.text (specText held.1 held.2))
  isFile : ∀ path, after.isFile path = true ↔ (∃ held ∈ sections, specFile directory held.1 = path) ∨
    path = directory ++ ["change.yaml"] ∨ before.isFile path = true
  isDir : ∀ path, after.isDir path = true ↔ before.isDir path = true ∨
    ∃ held ∈ sections, path <+: specFile directory held.1 ∧ path ≠ specFile directory held.1
  outside : ∀ path, ¬ directory <+: path → after.content path = before.content path

def placeSections (directory : TreePath) (sections : Sections) (manifest : DocText) : EStateM SddFailure Tree Unit := do
  placeAll (sections.map fun held => (specPlace directory held.1, specText held.1 held.2))
  writeFile (directory ++ ["change.yaml"]) manifest

section Sections

variable {manifest : DocText} (unique : Table.Unique Prod.fst sections) (safe : ∀ held ∈ sections, SafePart held.1)
  (fresh : before.Fresh directory)

theorem specFile_under (capability : String) : directory <+: specFile directory capability := List.prefix_append _ _

theorem specFile_injective {other : String} (same : specFile directory capability = specFile directory other) :
    capability = other := by
  have tails := List.append_cancel_left same
  simpa using tails

theorem specFile_apart {other : String} : Apart (specFile directory capability) (specFile directory other) := by
  have same : (specFile directory capability).length = (specFile directory other).length := by simp [specFile]
  exact ⟨fun below => below.2 (below.1.eq_of_length same), fun below => below.2 (below.1.eq_of_length same.symm)⟩

theorem manifest_apart {held : String × (SpecKind → List DocText)} :
    ¬ directory ++ ["change.yaml"] <+: specFile directory held.1 := by
  intro above
  rw [specFile, List.prefix_append_right_inj] at above
  simp at above

include safe

theorem sectionPlaces_eq : (sections.map fun held => (specPlace directory held.1, specText held.1 held.2)) =
    sections.map fun held => (specFile directory held.1, specText held.1 held.2) := by
  apply List.map_congr_left
  intro held member
  rw [specPlace_eq (safe held member), specFile]

include fresh

theorem sectionPlaces_plain : ∀ place ∈ sections.map fun held => (specFile directory held.1, specText held.1 held.2),
    place.1 ≠ [] ∧ ∀ name ∈ place.1, name ≠ ".." := by
  intro place member
  obtain ⟨held, listed, rfl⟩ := List.mem_map.mp member
  refine ⟨by simp [specFile], fun name inside => ?_⟩
  rcases List.mem_append.mp inside with above | own
  · exact fresh.plain name above
  · simp only [List.mem_cons, List.not_mem_nil, or_false] at own
    rcases own with rfl | rfl | rfl
    · decide
    · intro up
      exact (safe held listed).named (by rw [up]; decide)
    · decide

theorem placeSections_ok : (∃ after, placeSections directory sections manifest before = .ok () after) ↔ sections ≠ [] := by
  have plain := sectionPlaces_plain safe fresh
  constructor
  · rintro ⟨after, done⟩ none_
    obtain ⟨_, middle, placed, written⟩ := Outcome.state_bind_ok.mp done
    rw [none_, List.map_nil, placeAll, Outcome.forEach_nil_ok] at placed
    rw [← placed, writeFile_ok, List.dropLast_concat, fresh.isDir List.prefix_rfl] at written
    cases written.1
  · intro occupied
    have opens : ∀ place ∈ sections.map fun held => (specFile directory held.1, specText held.1 held.2), before.Open place.1 := by
      intro place member
      obtain ⟨held, -, rfl⟩ := List.mem_map.mp member
      exact fresh.opens (specFile_under held.1)
    have apart : (sections.map fun held => (specFile directory held.1, specText held.1 held.2)).Pairwise
        fun first second => Apart first.1 second.1 := by
      rw [List.pairwise_map]
      exact List.Pairwise.imp (fun _ => specFile_apart) (List.pairwise_of_forall (fun _ _ => trivial : ∀ _ _, True))
    obtain ⟨middle, placed⟩ := (placeAll_ok plain).mpr ⟨opens, apart⟩
    obtain ⟨held, listed⟩ := List.exists_mem_of_ne_nil _ occupied
    have dir : middle.isDir directory = true := by
      rw [placeAll_isDir plain placed]
      refine Or.inr ⟨_, List.mem_map_of_mem listed, specFile_under held.1, fun same => ?_⟩
      have long := congrArg List.length same
      simp [specFile] at long
    have free : middle.isDir (directory ++ ["change.yaml"]) = false := by
      rw [Bool.eq_false_iff, ne_eq, placeAll_isDir plain placed]
      rintro (old | ⟨place, member, above, -⟩)
      · rw [fresh.isDir (List.prefix_append _ _)] at old
        cases old
      · obtain ⟨held, -, rfl⟩ := List.mem_map.mp member
        exact manifest_apart above
    refine ⟨_, Outcome.state_bind_ok.mpr ⟨(), middle, by rw [sectionPlaces_eq safe]; exact placed, writeFile_ok.mpr ⟨?_, free, rfl⟩⟩⟩
    rw [List.dropLast_concat]
    exact dir

include unique

theorem placeSections_exported (done : placeSections directory sections manifest before = .ok () after) :
    Exported directory sections before after := by
  have plain := sectionPlaces_plain safe fresh
  obtain ⟨_, middle, placed, written⟩ := Outcome.state_bind_ok.mp done
  rw [sectionPlaces_eq safe] at placed
  obtain ⟨dir, -, rfl⟩ := writeFile_ok.mp written
  rw [List.dropLast_concat] at dir
  have distinct : ((sections.map fun held => (specFile directory held.1, specText held.1 held.2)).map Prod.fst).Nodup := by
    rw [List.map_map]
    have places : (sections.map Prod.fst).map (specFile directory) =
        sections.map (Prod.fst ∘ fun held => (specFile directory held.1, specText held.1 held.2)) := by
      rw [List.map_map]
      rfl
    rw [← places]
    exact List.Nodup.map (fun _ _ same => specFile_injective same) unique
  have wrote (path : TreePath) : (middle.write (directory ++ ["change.yaml"]) (.text manifest)).isFile path = true ↔
      path = directory ++ ["change.yaml"] ∨ middle.isFile path = true := by
    unfold Tree.isFile
    by_cases here : path = directory ++ ["change.yaml"]
    · simp [here]
    · simp [here, Tree.content_write_other here]
  have isFile (path : TreePath) : middle.isFile path = true ↔
      (∃ held ∈ sections, specFile directory held.1 = path) ∨ before.isFile path = true := by
    rw [placeAll_isFile plain placed]
    simp only [List.mem_map, exists_exists_and_eq_and]
  refine ⟨fun held listed => ?_, fun path => ?_, fun path => ?_, fun path outside => ?_⟩
  · have own : specFile directory held.1 ≠ directory ++ ["change.yaml"] := by
      intro same
      have long := congrArg List.length same
      simp [specFile] at long
    rw [Tree.content_write_other own]
    exact placeAll_content plain placed distinct _ (List.mem_map_of_mem listed)
  · rw [wrote, isFile, or_left_comm]
  · have dirs := placeAll_isDir plain placed path
    simp only [List.mem_map, exists_exists_and_eq_and] at dirs
    rw [← dirs, Tree.isDir_iff, Tree.isDir_iff]
    constructor
    · rintro (root | ⟨below, held, above, differs⟩ | folder)
      · exact Or.inl root
      · rcases (wrote below).mp held with rfl | old
        · have short : path <+: directory := (List.prefix_concat_iff.mp above).resolve_left differs
          exact Tree.isDir_iff.mp (Tree.isDir_above dir short)
        · exact Or.inr (Or.inl ⟨below, old, above, differs⟩)
      · exact Or.inr (Or.inr folder)
    · rintro (root | ⟨below, held, above, differs⟩ | folder)
      · exact Or.inl root
      · exact Or.inr (Or.inl ⟨below, (wrote below).mpr (Or.inr held), above, differs⟩)
      · exact Or.inr (Or.inr folder)
  · have own : path ≠ directory ++ ["change.yaml"] := by
      rintro rfl
      exact outside (List.prefix_append _ _)
    rw [Tree.content_write_other own]
    apply placeAll_other plain placed
    intro place member
    obtain ⟨held, -, rfl⟩ := List.mem_map.mp member
    rintro rfl
    exact outside (specFile_under held.1)

end Sections

end Files

end DarkFactory
