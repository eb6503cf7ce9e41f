import DarkFactory.Sdd.Creation
import DarkFactory.Sdd.Reconciliation

namespace DarkFactory

section Scene

theorem splitEntry_plain (name value : DocText) (plain : ':' ∉ name) :
    splitEntry (name ++ ':' :: ' ' :: value) = some (name, value) := by
  induction name with
  | nil => rfl
  | cons first rest ih =>
    rw [List.mem_cons, not_or] at plain
    have shape : splitEntry (first :: (rest ++ ':' :: ' ' :: value)) =
        (splitEntry (rest ++ ':' :: ' ' :: value)).map fun entry => (first :: entry.1, entry.2) := by
      rw [splitEntry]
      rintro value' rfl
      exact absurd rfl plain.1
    rw [List.cons_append, shape, ih plain.2, Option.map_some]

def manifestText (manifest : ChangeManifest Unit) : DocText :=
  "id: ".toList ++ manifest.id.toList ++ '\n' :: ("slug: ".toList ++ manifest.slug.toList ++ ['\n'])

def loadManifest (text : DocText) : Except SddFailure (ChangeManifest Unit) :=
  match plainYaml.safeLoad text with
  | .ok (.mapping raw) =>
    match raw.get "id", raw.get "slug" with
    | .text id, .text slug =>
      if named : isChangeId id = true ∧ isSlug slug = true then .ok ⟨id, slug, (), named.1, named.2⟩
      else .error ⟨.validation, "String should match pattern"⟩
    | _, _ => .error ⟨.validation, "Field required"⟩
  | _ => .error ⟨.validation, "Input should be a valid dictionary"⟩

def plainModels : SddModels Empty where
  Rest := Unit
  Artifact _ := Unit
  packages := plainYaml
  manifest := ⟨manifestText, loadManifest⟩
  artifact _ := ⟨fun _ => [], fun _ => .ok ()⟩

theorem isChangeId_letters {id : String} (identified : isChangeId id = true) :
    ∀ c ∈ id.toList, c ≠ '\n' ∧ c ≠ '\r' := by
  unfold isChangeId at identified
  split at identified
  · rename_i front product year number parts
    simp only [Bool.and_eq_true, decide_eq_true_eq, List.all_eq_true, Bool.or_eq_true] at identified
    obtain ⟨⟨⟨⟨⟨⟨rfl, -⟩, products⟩, -⟩, years⟩, -⟩, numbers⟩ := identified
    intro c member
    rcases Segments.splitOnP_covers (p := fun c => c = ':') member with colon | ⟨part, listed, inside⟩
    · rw [of_decide_eq_true colon]
      decide
    · have known : part ∈ ["chg".toList, product, year, number] := by
        rw [← parts]
        exact listed
      have letters : ∀ other : Char, (other = '\n' ∨ other = '\r') → other ∉ part := by
        intro other breaks here
        simp only [List.mem_cons, List.not_mem_nil, or_false] at known
        rcases known with rfl | rfl | rfl | rfl
        · rcases breaks with rfl | rfl <;> exact absurd here (by decide)
        · rcases products other here with letter | dash
          · rcases breaks with rfl | rfl <;> exact absurd letter (by decide)
          · rcases breaks with rfl | rfl <;> exact absurd dash (by decide)
        · rcases breaks with rfl | rfl <;> exact absurd (years _ here) (by decide)
        · rcases breaks with rfl | rfl <;> exact absurd (numbers _ here) (by decide)
      constructor
      · rintro rfl
        exact letters _ (Or.inl rfl) inside
      · rintro rfl
        exact letters _ (Or.inr rfl) inside
  · cases identified

theorem isSlug_letters {slug : String} (slugged : isSlug slug = true) : ∀ c ∈ slug.toList, c ≠ '\n' ∧ c ≠ '\r' := by
  intro c member
  rcases slug_covers slugged c member with letter | dash
  · constructor <;> rintro rfl <;> exact absurd letter (by decide)
  · constructor <;> rintro rfl <;> exact absurd dash (by decide)

theorem manifestText_loads (manifest : ChangeManifest Unit) :
    plainYaml.safeLoad (newlines false (manifestText manifest)) =
      .ok (.mapping { entries := [("id", .text manifest.id), ("slug", .text manifest.slug)] }) := by
  have ids := isChangeId_letters manifest.identified
  have slugs := isSlug_letters manifest.slugged
  have unreturned : newlines false (manifestText manifest) = manifestText manifest := by
    refine newlines_id fun c member => ?_
    rintro rfl
    simp only [manifestText, List.mem_append, List.mem_cons, List.not_mem_nil, or_false] at member
    rcases member with (front | own) | line | (front | own) | line
    · exact absurd front (by decide)
    · exact (ids _ own).2 rfl
    · exact absurd line (by decide)
    · exact absurd front (by decide)
    · exact (slugs _ own).2 rfl
    · exact absurd line (by decide)
  have first : Lines.split (fun c => c = '\n') ("id: ".toList ++ manifest.id.toList ++ ['\n']) =
      ["id: ".toList ++ manifest.id.toList] := by
    refine Lines.split_line (by decide) fun c member => decide_eq_false ?_
    rintro rfl
    rcases List.mem_append.mp member with front | own
    · exact absurd front (by decide)
    · exact (ids _ own).1 rfl
  have second : Lines.split (fun c => c = '\n') ("slug: ".toList ++ manifest.slug.toList ++ ['\n']) =
      ["slug: ".toList ++ manifest.slug.toList] := by
    refine Lines.split_line (by decide) fun c member => decide_eq_false ?_
    rintro rfl
    rcases List.mem_append.mp member with front | own
    · exact absurd front (by decide)
    · exact (slugs _ own).1 rfl
  have lines : Lines.split (fun c => c = '\n') (manifestText manifest) =
      ["id: ".toList ++ manifest.id.toList, "slug: ".toList ++ manifest.slug.toList] := by
    rw [manifestText, Lines.split_append (by decide), first, second]
    rfl
  have ided := splitEntry_plain "id".toList manifest.id.toList (by decide)
  have named := splitEntry_plain "slug".toList manifest.slug.toList (by decide)
  have entries : ["id: ".toList ++ manifest.id.toList, "slug: ".toList ++ manifest.slug.toList].mapM splitEntry =
      some [("id".toList, manifest.id.toList), ("slug".toList, manifest.slug.toList)] := by
    rw [List.mapM_cons, List.mapM_cons, List.mapM_nil]
    exact congrArg₂ (fun x y => x >>= fun a => (y >>= fun b => (pure [] >>= fun c => pure (b :: c))) >>= fun d => pure (a :: d))
      ided named
  unfold plainYaml
  rw [unreturned]
  simp only [lines, entries, List.map_cons, List.map_nil, String.ofList_toList]

theorem loadManifest_text (manifest : ChangeManifest Unit) :
    loadManifest (newlines false (manifestText manifest)) = .ok manifest := by
  unfold loadManifest
  rw [manifestText_loads]
  exact dif_pos ⟨manifest.identified, manifest.slugged⟩

theorem plainModels_lawful : plainModels.Lawful where
  manifest := loadManifest_text
  identified manifest := ⟨_, manifestText_loads manifest, rfl⟩
  artifact _ _ := rfl

def loginManifest : ChangeManifest Unit := { id := "chg:pilot:2026:0001", slug := "login", rest := () }

def loginChange : ChangeSet plainModels where
  manifest := loginManifest
  documents := [{ path := "proposal.md", body := "# Login\n---\nAsk.".toList },
    { path := "spec/legacy.md", frontmatter := some (withStatus legacyDocument "retired"), body := "Old.".toList }]

def ruledChange : ChangeSet plainModels where
  manifest := loginManifest
  documents := [{ path := "proposal.md", body := "---\nAsk.".toList }]

def renamedChange : ChangeSet plainModels where
  manifest := { id := "chg:pilot:2026:0001", slug := "sign-in", rest := () }

theorem pilotRoot_safe : ∀ part ∈ pilotRoot, SafePart part := by decide

theorem empty_sound : Sound pilotRoot plainModels Tree.empty := ⟨nofun, nofun⟩

theorem empty_unheld (id : String) : NoDirectory pilotRoot plainModels Tree.empty id := nofun

theorem empty_clear (change : ChangeSet plainModels) : Clear pilotRoot change Tree.empty where
  free _ _ := rfl
  fresh := by
    rw [Bool.eq_false_iff]
    intro dir
    rcases Tree.isDir_iff.mp dir with empty | ⟨_, file, -⟩ | ⟨_, member, -⟩
    · have length := changeDir_length pilotRoot change.manifest
      rw [empty] at length
      cases length
    · cases file
    · cases member

theorem loginChange_fits : loginChange.Fits pilotRoot Tree.empty where
  free := (empty_clear loginChange).free
  fresh := (empty_clear loginChange).fresh
  paths := by
    intro document inside
    simp only [loginChange, List.mem_cons, List.not_mem_nil, or_false] at inside
    rcases inside with rfl | rfl <;> exact ⟨by decide, by decide, by decide⟩
  distinct := by decide
  apart := by decide +kernel
  kept := by
    intro document inside
    simp only [loginChange, List.mem_cons, List.not_mem_nil, or_false] at inside
    rcases inside with rfl | rfl
    · intro line first
      rw [← Option.some.inj first]
      decide
    · exact legacy_readsBack

theorem loginChange_plain : ∀ document ∈ loginChange.documents, PlainBreaks document.body := by
  intro document inside
  simp only [loginChange, List.mem_cons, List.not_mem_nil, or_false] at inside
  rcases inside with rfl | rfl
  · decide +kernel
  · decide +kernel

theorem ruledChange_paths : ∀ document ∈ ruledChange.documents, MarkdownPath document.path := by
  intro document inside
  rw [List.mem_singleton.mp inside]
  exact ⟨by decide, by decide, by decide⟩

theorem ruledChange_plain : ∀ document ∈ ruledChange.documents, PlainBreaks document.body := by
  intro document inside
  rw [List.mem_singleton.mp inside]
  decide +kernel

end Scene

/-- A change is read as it was created exactly where it fits, and over calls whose changes fit each id has at most one
    directory and every change that was created is read as it was. -/
theorem changes_round_trip {α : Type} {models : SddModels α} {root : TreePath} (lawful : models.Lawful)
    (safe : ∀ part ∈ root, SafePart part) :
    (∀ (tree : Tree) (change : ChangeSet models), Sound root models tree →
      NoDirectory root models tree change.manifest.id → (∀ document ∈ change.documents, PlainBreaks document.body) →
        (RoundTrips root change tree ↔ change.Fits root tree)) ∧
    ∀ (tree : Tree) (calls : List (ChangeSet models)), Sound root models tree → OneDirectory root models tree →
      (∀ change ∈ calls, ∀ document ∈ change.documents, PlainBreaks document.body) →
        Trace.Along (Creations.create root) (Creations.Admits root) { tree } calls →
          OneDirectory root models (calls.foldl (Creations.create root) { tree }).tree ∧
            ∀ change ∈ (calls.foldl (Creations.create root) { tree }).created,
              ReadsChange root change (calls.foldl (Creations.create root) { tree }).tree := by
  refine ⟨fun tree change sound unheld plain => roundTrips_iff lawful safe sound unheld plain, ?_⟩
  intro tree calls sound one plain along
  have start : Intact root ({ tree } : Creations models) :=
    ⟨sound, one, by simp, by simp, by simp, by simp⟩
  have intact := intact_after lawful safe start plain along
  exact ⟨intact.one, intact.readable lawful⟩

theorem login_round_trips : RoundTrips pilotRoot loginChange Tree.empty ∧
    ReadsChange pilotRoot loginChange (Creations.create pilotRoot { tree := Tree.empty } loginChange).tree := by
  have whole := changes_round_trip plainModels_lawful pilotRoot_safe
  have trips := (whole.1 Tree.empty loginChange empty_sound (empty_unheld _) loginChange_plain).mpr loginChange_fits
  have ran := trips
  obtain ⟨after, done, -⟩ := ran
  have made := @Creations.create_ok _ plainModels pilotRoot { tree := Tree.empty } loginChange after _ done
  have one : OneDirectory pilotRoot plainModels Tree.empty := nofun
  have run := whole.2 Tree.empty [loginChange] empty_sound one (List.forall_mem_singleton.mpr loginChange_plain)
    ⟨Or.inr ⟨empty_unheld _, loginChange_fits⟩, trivial⟩
  rw [List.foldl_cons, List.foldl_nil, made] at run
  rw [made]
  exact ⟨trips, run.2 loginChange List.mem_cons_self⟩

/-- A text that opens with a rule is created and cannot be read, and a change gets a second directory under another
    slug. -/
theorem ruled_change_unreadable :
    ((∀ document ∈ ruledChange.documents, MarkdownPath document.path ∧ PlainBreaks document.body) ∧
      ∃ after, createChange pilotRoot ruledChange Tree.empty = .ok ruledChange.manifest.id after ∧
        ¬ ReadsChange pilotRoot ruledChange after) ∧
    ∃ first second, createChange pilotRoot loginChange Tree.empty = .ok loginChange.manifest.id first ∧
      createChange pilotRoot renamedChange first = .ok loginChange.manifest.id second ∧
        ¬ OneDirectory pilotRoot plainModels second := by
  constructor
  · refine ⟨fun document inside => ⟨ruledChange_paths document inside, ruledChange_plain document inside⟩, ?_⟩
    obtain ⟨after, done⟩ := (create_iff ruledChange_paths pilotRoot_safe).mpr ⟨empty_clear ruledChange, by decide +kernel⟩
    refine ⟨after, done, fun reads => ?_⟩
    have whole := (createChange_reads plainModels_lawful pilotRoot_safe empty_sound (empty_unheld _) ruledChange_paths
      (by decide) done).mp reads
    have kept := (Document.reads_iff (ruledChange_plain _ List.mem_cons_self)).mp (whole _ List.mem_cons_self)
    have ruled := kept "---".toList (by decide)
    exact absurd ruled (by decide)
  · obtain ⟨first, done⟩ := (create_iff loginChange_fits.paths pilotRoot_safe).mpr
      ⟨empty_clear loginChange, loginChange_fits.apart⟩
    have plain : ∀ document ∈ renamedChange.documents, MarkdownPath document.path := nofun
    obtain ⟨clear, created⟩ := create_created loginChange_fits.paths pilotRoot_safe done
    have apart : changeDir pilotRoot loginChange.manifest ≠ changeDir pilotRoot renamedChange.manifest := by decide
    have free := created.clear_other (empty_clear renamedChange) apart
    obtain ⟨second, again⟩ := (create_iff plain pilotRoot_safe).mpr ⟨free, by decide +kernel⟩
    refine ⟨first, second, done, again, fun one => ?_⟩
    obtain ⟨-, created'⟩ := create_created plain pilotRoot_safe again
    have new := created'.stored free (by decide)
    have old := created'.keeps free (created.stored clear loginChange_fits.distinct)
    have here : HoldsId pilotRoot plainModels second (manifestPath pilotRoot loginChange) "chg:pilot:2026:0001" :=
      ⟨old.listed, _, old.manifest, rfl⟩
    have there : HoldsId pilotRoot plainModels second (manifestPath pilotRoot renamedChange) "chg:pilot:2026:0001" :=
      ⟨new.listed, _, new.manifest, rfl⟩
    exact absurd (one _ _ _ here there) (by decide)

end DarkFactory
