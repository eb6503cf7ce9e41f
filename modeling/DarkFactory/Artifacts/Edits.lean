import DarkFactory.Artifacts.Properties
import DarkFactory.Lib.Table
import DarkFactory.Sdd.Reconciliation

namespace DarkFactory

/-! ## What an edit of the properties keeps -/

section Statements

variable (package : YamlPackage) (equality : PlainEquality) (protected_ : List String) (content : DocText)
  (updates : PropertyUpdates) (raw : Option YamlMapping) (body result : DocText)

/-- The document reads as the same body under the updated properties, its final newline stands or not as before, no
    protected key has moved, and the edit made again changes nothing. -/
structure PropertiesKept : Prop where
  splits : ∃ found, splitDocument package.safeLoad result = .ok (found, body) ∧
    found.getD [] = withUpdates (raw.getD []) updates.entries
  newline : endsNewline result = endsNewline content
  identifiers : ∀ name ∈ protected_, ∀ value, YamlMapping.lookup (raw.getD []) name = some value →
    (withUpdates (raw.getD []) updates.entries).lookup name = some value
  again : applyProperties package equality result updates protected_ = .ok result

def dumpedBlock (values : YamlMapping) : DocText := stripText (package.safeDump values)

def dumpedLines (values : YamlMapping) : List DocText := splitlines (dumpedBlock package values ++ ['\n'])

/-- No line of the block is a delimiter, and its lines load as the block does. -/
structure BlockReads (values : YamlMapping) : Prop where
  undelimited : ∀ line ∈ dumpedLines package values, isDelimiter line = false
  loads : package.safeLoad (joinLines (dumpedLines package values)) = package.safeLoad (dumpedBlock package values)

/-- A body that stands behind a block as it is: it opens with a blank line and ends without a newline, or is empty in a
    document that ends with one. -/
structure BodyStands : Prop where
  plain : PlainBreaks body
  placed : (body = [] ∧ endsNewline content = true) ∨ (body.head? = some '\n' ∧ endsNewline body = false)

structure EditStands : Prop where
  identifiers : ∀ update ∈ updates.entries, update.1 ∈ protected_ →
    ∀ value, YamlMapping.lookup (raw.getD []) update.1 = some value → update.2 = value ∧ value.isNull = false
  emptied : withUpdates (raw.getD []) updates.entries = [] → raw ≠ none →
    endsNewline body = endsNewline content ∧
      ∀ first, (splitlines body).head? = some first → isDelimiter first = false
  dumped : withUpdates (raw.getD []) updates.entries ≠ [] →
    BlockReads package (withUpdates (raw.getD []) updates.entries) ∧ BodyStands content body

end Statements

section Text

variable {content body text tail : DocText}

theorem endsNewline_iff : endsNewline text = true ↔ text.getLast? = some '\n' := decide_eq_true_iff

theorem endsNewline_append (occupied : tail ≠ []) : endsNewline (text ++ tail) = endsNewline tail := by
  rw [endsNewline, endsNewline, List.getLast?_append_of_ne_nil _ occupied]

/-- The lines of a rendered document joined: what stands behind the second delimiter. -/
theorem splitlines_properties (package : YamlPackage) (values : YamlMapping) (tail : DocText) :
    splitlines ("---\n".toList ++ dumpedBlock package values ++ "\n---\n".toList ++ tail) =
      "---".toList :: (dumpedLines package values ++ "---".toList :: splitlines tail) := by
  have shape : "---\n".toList ++ dumpedBlock package values ++ "\n---\n".toList ++ tail = "---".toList ++ '\n' ::
      (dumpedBlock package values ++ '\n' :: ("---".toList ++ '\n' :: tail)) := by
    have opening : "---\n".toList = "---".toList ++ ['\n'] := by decide
    have closing : "\n---\n".toList = '\n' :: ("---".toList ++ ['\n']) := by decide
    rw [opening, closing]
    simp only [List.append_assoc, List.cons_append, List.nil_append]
  rw [shape, splitlines_delimiter, dumpedBlock, splitlines_strip, splitlines_delimiter, dumpedLines, dumpedBlock]

theorem restoredBody_weight : textWeight (restoredBody content body) = textWeight body := by
  unfold restoredBody
  split
  · rw [textWeight, Lines.weight_append]
    rfl
  · rfl

theorem propertySeparator_weight : textWeight (propertySeparator body) = 0 := by
  unfold propertySeparator
  split
  · rfl
  · rfl

theorem restoredBody_congr {other : DocText} (same : endsNewline other = endsNewline content) :
    restoredBody other body = restoredBody content body := by
  rw [restoredBody, restoredBody, same]

theorem restoredBody_empty : restoredBody content [] = if endsNewline content then ['\n'] else [] := by
  unfold restoredBody
  cases endsNewline content with
  | true => rfl
  | false => rfl

theorem restoredBody_head {first : Char} {rest : DocText} : (restoredBody content (first :: rest)).head? = some first := by
  unfold restoredBody
  split
  · rfl
  · rfl

theorem endsNewline_restored (open_ : endsNewline body = false) :
    endsNewline (restoredBody content body) = endsNewline content := by
  unfold restoredBody
  cases ends : endsNewline content with
  | true =>
    rw [if_pos (by simp [open_]), endsNewline_append (List.cons_ne_nil _ _)]
    rfl
  | false =>
    rw [if_neg (by simp)]
    exact open_

theorem joinLines_restored (plain : PlainBreaks body) (open_ : endsNewline body = false) :
    joinLines (splitlines (restoredBody content body)) = body := by
  unfold restoredBody
  split
  · exact joinLines_splitlines plain
  · rw [joinLines_final plain, if_neg]
    intro last
    rw [endsNewline_iff.mpr last] at open_
    cases open_

theorem joinLines_shorter (ends : endsNewline body = true) : joinLines (splitlines body) ≠ body := by
  intro same
  have plain : PlainBreaks body := same ▸ joinLines_plain body
  have last := endsNewline_iff.mp ends
  rw [joinLines_final plain, if_pos last] at same
  have shorter := congrArg List.length same
  rw [List.length_dropLast] at shorter
  have empty : body = [] := List.length_eq_zero_iff.mp (by omega)
  rw [empty] at last
  cases last

theorem splitlines_ne_nil (occupied : text ≠ []) : splitlines text ≠ [] := by
  apply Lines.split_ne_nil
  obtain ⟨c, rest, rfl⟩ := List.exists_cons_of_ne_nil occupied
  rw [newlines]
  by_cases returned : c = '\r'
  · rw [if_pos returned]
    exact List.cons_ne_nil _ _
  · rw [if_neg returned, if_neg (by simp)]
    exact List.cons_ne_nil _ _

theorem joinLines_opened (occupied : text ≠ []) : (joinLines (splitlines ('\n' :: text))).head? = some '\n' := by
  obtain ⟨line, lines, shape⟩ := List.exists_cons_of_ne_nil (splitlines_ne_nil occupied)
  rw [splitlines_empty, shape, joinLines, Lines.join_cons]
  rfl

/-- Exactly a body that stands is what is read behind the block, with the final newline as it was. -/
theorem bodyStands_iff :
    (joinLines (splitlines (propertySeparator (restoredBody content body) ++ restoredBody content body)) = body ∧
      endsNewline ('\n' :: (propertySeparator (restoredBody content body) ++ restoredBody content body)) =
        endsNewline content) ↔
    BodyStands content body := by
  cases body with
  | nil =>
    rw [restoredBody_empty]
    cases ends : endsNewline content with
    | true =>
      refine iff_of_true ⟨by decide, by decide⟩ ⟨?_, .inl ⟨rfl, ends⟩⟩
      intro c member
      cases member
    | false =>
      refine iff_of_false (fun kept => absurd kept.2 (by decide)) ?_
      rintro ⟨-, ⟨-, newline⟩ | ⟨opened, -⟩⟩
      · rw [ends] at newline
        cases newline
      · cases opened
  | cons first rest =>
    have occupied : restoredBody content (first :: rest) ≠ [] := by
      intro empty
      have head := @restoredBody_head content first rest
      rw [empty] at head
      cases head
    by_cases opened : first = '\n'
    · have unseparated : propertySeparator (restoredBody content (first :: rest)) = [] := by
        rw [propertySeparator, if_pos (.inl (by rw [restoredBody_head, opened]))]
      rw [unseparated, List.nil_append]
      cases ends : endsNewline (first :: rest) with
      | true =>
        have same : restoredBody content (first :: rest) = first :: rest := by
          rw [restoredBody, if_neg (by simp [ends])]
        rw [same]
        refine iff_of_false (fun kept => joinLines_shorter ends kept.1) ?_
        rintro ⟨-, ⟨empty, -⟩ | ⟨-, unended⟩⟩
        · cases empty
        · rw [ends] at unended
          cases unended
      | false =>
        constructor
        · rintro ⟨same, -⟩
          exact ⟨same ▸ joinLines_plain _, .inr ⟨congrArg some opened, ends⟩⟩
        · rintro ⟨plain, -⟩
          refine ⟨joinLines_restored plain ends, ?_⟩
          rw [← List.singleton_append, endsNewline_append occupied, endsNewline_restored ends]
    · have separated : propertySeparator (restoredBody content (first :: rest)) = ['\n'] := by
        rw [propertySeparator, if_neg]
        rintro (newline | empty)
        · rw [restoredBody_head] at newline
          exact opened (Option.some.inj newline)
        · exact occupied empty
      rw [separated, List.singleton_append]
      refine iff_of_false (fun kept => ?_) ?_
      · have head := joinLines_opened occupied
        rw [kept.1] at head
        exact opened (Option.some.inj head)
      · rintro ⟨-, ⟨empty, -⟩ | ⟨newline, -⟩⟩
        · cases empty
        · exact opened (Option.some.inj newline)

end Text

section Edit

variable {package : YamlPackage} {equality : PlainEquality} {protected_ : List String} {content body result : DocText}
  {updates : PropertyUpdates} {raw : Option YamlMapping} {values : YamlMapping}

theorem applyProperties_ok (splits : splitDocument package.safeLoad content = .ok (raw, body)) :
    applyProperties package equality content updates protected_ = .ok result ↔
      (∀ update ∈ updates.entries, update.1 ∈ protected_ →
        equality.eq (YamlMapping.get (raw.getD []) update.1) update.2 = true) ∧
      result = renderProperties package (withUpdates (raw.getD []) updates.entries) (restoredBody content body) := by
  rw [applyProperties, splits]
  constructor
  · intro done
    obtain ⟨values, applied, rendered⟩ := Outcome.bind_ok.mp done
    obtain ⟨equal, rfl⟩ := (applyUpdates_ok updates.distinct).mp applied
    exact ⟨equal, (Except.ok.inj rendered).symm⟩
  · rintro ⟨equal, rfl⟩
    exact Outcome.bind_ok.mpr ⟨_, (applyUpdates_ok updates.distinct).mpr ⟨equal, rfl⟩, rfl⟩

theorem find_update {update : String × Yaml} (member : update ∈ updates.entries) :
    updates.entries.find? (·.1 = update.1) = some update :=
  Table.Unique.find (show Table.Unique Prod.fst updates.entries from updates.distinct) member

theorem lookup_updated {update : String × Yaml} (member : update ∈ updates.entries) :
    (withUpdates (raw.getD []) updates.entries).lookup update.1 = if update.2.isNull then none else some update.2 := by
  rw [lookup_withUpdates updates.distinct, find_update member]

theorem identifiers_iff :
    (∀ name ∈ protected_, ∀ value, YamlMapping.lookup (raw.getD []) name = some value →
      (withUpdates (raw.getD []) updates.entries).lookup name = some value) ↔
    ∀ update ∈ updates.entries, update.1 ∈ protected_ → ∀ value, YamlMapping.lookup (raw.getD []) update.1 = some value →
      update.2 = value ∧ value.isNull = false := by
  constructor
  · intro kept update member guarded value held
    have after := kept update.1 guarded value held
    rw [lookup_updated member] at after
    cases null : update.2.isNull with
    | true => simp [null] at after
    | false =>
      simp only [null, Bool.false_eq_true, if_false, Option.some.injEq] at after
      exact ⟨after, after ▸ null⟩
  · intro same name guarded value held
    rw [lookup_withUpdates updates.distinct]
    cases found : updates.entries.find? (·.1 = name) with
    | none => exact held
    | some update =>
      have own : update.1 = name := by simpa using List.find?_some found
      subst own
      obtain ⟨equal, solid⟩ := same update (List.mem_of_find?_eq_some found) guarded value held
      simp [equal, solid]

/-- An edit that keeps the document is taken again, and changes nothing more. -/
theorem applyProperties_again (done : applyProperties package equality content updates protected_ = .ok result)
    (splits : splitDocument package.safeLoad content = .ok (raw, body))
    (identifiers : ∀ update ∈ updates.entries, update.1 ∈ protected_ →
      ∀ value, YamlMapping.lookup (raw.getD []) update.1 = some value → update.2 = value ∧ value.isNull = false)
    {found : Option YamlMapping} (splits' : splitDocument package.safeLoad result = .ok (found, body))
    (held : found.getD [] = withUpdates (raw.getD []) updates.entries)
    (newline : endsNewline result = endsNewline content) :
    applyProperties package equality result updates protected_ = .ok result := by
  obtain ⟨equal, rendered⟩ := (applyProperties_ok splits).mp done
  rw [applyProperties_ok splits', held, withUpdates_twice updates.distinct, restoredBody_congr newline]
  refine ⟨?_, rendered⟩
  intro update member guarded
  have before := equal update member guarded
  rw [YamlMapping.get_eq] at before ⊢
  rw [lookup_updated member]
  cases null : update.2.isNull with
  | true =>
    rw [if_pos rfl, Option.getD_none, equality.null_eq]
    exact null
  | false =>
    rw [if_neg (by simp), Option.getD_some]
    cases present : YamlMapping.lookup (raw.getD []) update.1 with
    | none =>
      rw [present, Option.getD_none, equality.null_eq, null] at before
      cases before
    | some value =>
      obtain ⟨same, -⟩ := identifiers update member guarded value present
      rw [present, Option.getD_some, ← same] at before
      exact before

theorem loadMapping_mapping {safeLoad : DocText → Except String Yaml} {block : DocText} (occupied : values ≠ []) :
    loadMapping safeLoad block = .ok values ↔ safeLoad block = .ok (.mapping values) := by
  unfold loadMapping
  cases safeLoad block with
  | error message => simp
  | ok value =>
    cases value with
    | null => simpa using Ne.symm occupied
    | mapping entries => simp
    | text characters => simp
    | scalar shown repr truthy decoded => simp
    | list items => simp

theorem rendered_splits (occupied : values ≠ [])
    (inverts : package.safeLoad (dumpedBlock package values) = .ok (.mapping values)) :
    (∃ found, splitDocument package.safeLoad (renderProperties package values (restoredBody content body)) =
        .ok (found, body) ∧ found.getD [] = values) ↔
      BlockReads package values ∧
        joinLines (splitlines (propertySeparator (restoredBody content body) ++ restoredBody content body)) = body := by
  have shape : splitlines (renderProperties package values (restoredBody content body)) = "---".toList ::
      (dumpedLines package values ++ "---".toList ::
        splitlines (propertySeparator (restoredBody content body) ++ restoredBody content body)) := by
    rw [renderProperties, if_neg (by simpa using occupied), List.append_assoc]
    exact splitlines_properties package values _
  constructor
  · rintro ⟨found, splits, held⟩
    cases found with
    | none => exact absurd held.symm occupied
    | some entries =>
      obtain ⟨block, cut, loads⟩ := splitWith_some.mp splits
      have light : textWeight (joinLines (splitlines
          (propertySeparator (restoredBody content body) ++ restoredBody content body))) = textWeight body := by
        rw [joinLines_weight, splitlines_weight, textWeight, Lines.weight_append]
        have separator := @propertySeparator_weight (restoredBody content body)
        have restored := @restoredBody_weight content body
        unfold textWeight at separator restored
        rw [separator, restored, Nat.zero_add]
      have undelimited := (frontmatterBlock_early shape (by decide) (by decide) cut).resolve_right (by omega)
      rw [frontmatterBlock_delimited shape (by decide) undelimited (by decide)] at cut
      simp only [Except.ok.injEq, Option.some.injEq, Prod.mk.injEq] at cut
      have same : entries = values := held
      rw [same, ← cut.1, loadMapping_mapping occupied] at loads
      exact ⟨⟨undelimited, loads.trans inverts.symm⟩, cut.2⟩
  · rintro ⟨reads, behind⟩
    refine ⟨some values, splitWith_some.mpr ⟨joinLines (dumpedLines package values), ?_, ?_⟩, rfl⟩
    · rw [frontmatterBlock_delimited shape (by decide) reads.undelimited (by decide), behind]
    · rw [loadMapping_mapping occupied, reads.loads, inverts]

theorem endsNewline_rendered (occupied : values ≠ []) {text : DocText} :
    endsNewline (renderProperties package values text) = endsNewline ('\n' :: (propertySeparator text ++ text)) := by
  have closing : "\n---\n".toList = "\n---".toList ++ ['\n'] := by decide
  rw [renderProperties, if_neg (by simpa using occupied), closing, ← List.append_assoc, List.append_assoc (_ ++ _),
    List.append_assoc _ ['\n'], List.singleton_append, endsNewline_append (List.cons_ne_nil _ _)]

theorem emptied_splits (splits : splitDocument package.safeLoad content = .ok (raw, body)) :
    ((∃ found, splitDocument package.safeLoad (restoredBody content body) = .ok (found, body) ∧ found.getD [] = []) ∧
        endsNewline (restoredBody content body) = endsNewline content) ↔
      (raw ≠ none → endsNewline body = endsNewline content ∧
        ∀ first, (splitlines body).head? = some first → isDelimiter first = false) := by
  cases raw with
  | none =>
    obtain ⟨unframed, rfl⟩ := splitWith_none.mp splits
    have same : restoredBody body body = body := by simp [restoredBody]
    rw [same]
    exact iff_of_true ⟨⟨none, splits, rfl⟩, rfl⟩ fun framed => absurd rfl framed
  | some entries =>
    have kept (newline : endsNewline body = endsNewline content) : restoredBody content body = body := by
      simp [restoredBody, newline]
    constructor
    · rintro ⟨⟨found, splits', -⟩, newline⟩ -
      cases found with
      | none =>
        obtain ⟨unframed, same⟩ := splitWith_none.mp splits'
        rw [← same] at unframed newline
        exact ⟨newline, frontmatterBlock_none.mp unframed⟩
      | some others =>
        obtain ⟨block, cut, -⟩ := splitWith_some.mp splits'
        have lighter := frontmatterBlock_weight cut
        rw [restoredBody_weight] at lighter
        omega
    · intro stands
      obtain ⟨newline, unframed⟩ := stands (Option.some_ne_none entries)
      rw [kept newline]
      exact ⟨⟨none, splitWith_none.mpr ⟨frontmatterBlock_none.mpr unframed, rfl⟩, rfl⟩, newline⟩

/-- An edit of the properties keeps the document exactly where it stands. -/
theorem properties_kept_iff (splits : splitDocument package.safeLoad content = .ok (raw, body))
    (done : applyProperties package equality content updates protected_ = .ok result)
    (inverts : package.safeLoad (dumpedBlock package (withUpdates (raw.getD []) updates.entries)) =
      .ok (.mapping (withUpdates (raw.getD []) updates.entries))) :
    PropertiesKept package equality protected_ content updates raw body result ↔
      EditStands package protected_ content updates raw body := by
  have rendered := ((applyProperties_ok splits).mp done).2
  have assembled (text : (∃ found, splitDocument package.safeLoad result = .ok (found, body) ∧
      found.getD [] = withUpdates (raw.getD []) updates.entries) ∧ endsNewline result = endsNewline content)
      (identifiers : ∀ update ∈ updates.entries, update.1 ∈ protected_ →
        ∀ value, YamlMapping.lookup (raw.getD []) update.1 = some value → update.2 = value ∧ value.isNull = false) :
      PropertiesKept package equality protected_ content updates raw body result := by
    obtain ⟨⟨found, splits', held⟩, newline⟩ := text
    exact ⟨⟨found, splits', held⟩, newline, identifiers_iff.mpr identifiers,
      applyProperties_again done splits identifiers splits' held newline⟩
  by_cases emptied : withUpdates (raw.getD []) updates.entries = []
  · have bare : result = restoredBody content body := by
      rw [rendered, emptied]
      rfl
    rw [emptied, bare] at assembled
    constructor
    · intro kept
      have text := (emptied_splits splits).mp ⟨by simpa [bare, emptied] using kept.splits, by simpa [bare] using kept.newline⟩
      exact ⟨identifiers_iff.mp kept.identifiers, fun _ => text, fun occupied => absurd emptied occupied⟩
    · intro stands
      rw [bare]
      exact assembled ((emptied_splits splits).mpr (stands.emptied emptied)) stands.identifiers
  · rw [rendered, rendered_splits emptied inverts, endsNewline_rendered emptied] at assembled
    constructor
    · intro kept
      obtain ⟨reads, behind⟩ := (rendered_splits emptied inverts).mp (rendered ▸ kept.splits)
      have newline := kept.newline
      rw [rendered, endsNewline_rendered emptied] at newline
      exact ⟨identifiers_iff.mp kept.identifiers, fun empty => absurd empty emptied,
        fun _ => ⟨reads, bodyStands_iff.mp ⟨behind, newline⟩⟩⟩
    · intro stands
      obtain ⟨reads, placed⟩ := stands.dumped emptied
      obtain ⟨behind, newline⟩ := bodyStands_iff.mpr placed
      rw [rendered]
      exact assembled ⟨⟨reads, behind⟩, newline⟩ stands.identifiers

end Edit

section Scene

def plainPackage : YamlPackage where
  safeLoad block :=
    match (Lines.split (· = '\n') block).mapM splitEntry with
    | none => .ok (.text (String.ofList block))
    | some [] => .ok .null
    | some entries => .ok (.mapping (entries.map fun entry => (.text (String.ofList entry.1), .text (String.ofList entry.2))))
  safeDump values := values.flatMap fun entry => entry.1.str.toList ++ ": ".toList ++ entry.2.str.toList ++ ['\n']

def textEquality : PlainEquality where
  eq
    | .null, value => value.isNull
    | .text characters, .text others => characters = others
    | _, _ => false
  null_eq _ := rfl

def ownedDocument (owner body : String) : DocText := ("---\nid: REQ-1\nowner: " ++ owner ++ "\n---\n" ++ body).toList

def ownedBy (owner : String) : YamlMapping := [(.text "id", .text "REQ-1"), (.text "owner", .text owner)]

def newOwner : PropertyUpdates := ⟨[("owner", .text "bob")], by decide⟩

theorem bob_dumped : plainPackage.safeLoad (dumpedBlock plainPackage (ownedBy "bob")) = .ok (.mapping (ownedBy "bob")) := by
  rfl

/-- A blank line between the block and the body: the edit keeps the document. -/
theorem blank_line_kept :
    EditStands plainPackage protectedProperties (ownedDocument "ann" "\nText\n") newOwner (some (ownedBy "ann"))
      "\nText".toList ∧
    PropertiesKept plainPackage textEquality protectedProperties (ownedDocument "ann" "\nText\n") newOwner
      (some (ownedBy "ann")) "\nText".toList (ownedDocument "bob" "\nText\n") := by
  have stands : EditStands plainPackage protectedProperties (ownedDocument "ann" "\nText\n") newOwner
      (some (ownedBy "ann")) "\nText".toList :=
    { identifiers := by
        intro update member guarded
        obtain rfl := List.mem_singleton.mp member
        exact absurd guarded (by decide)
      emptied := fun empty => nomatch empty
      dumped := fun _ =>
        ⟨⟨by decide +kernel, rfl⟩, ⟨by decide +kernel, .inr ⟨rfl, by decide⟩⟩⟩ }
  exact ⟨stands, (properties_kept_iff rfl rfl bob_dumped).mpr stands⟩

/-- Without one the body is read with a blank line in front of it. -/
theorem blank_line_added :
    splitDocument plainPackage.safeLoad (ownedDocument "ann" "Text\n") = .ok (some (ownedBy "ann"), "Text".toList) ∧
    applyProperties plainPackage textEquality (ownedDocument "ann" "Text\n") newOwner =
      .ok (ownedDocument "bob" "\nText\n") ∧
    plainPackage.safeLoad (dumpedBlock plainPackage (ownedBy "bob")) = .ok (.mapping (ownedBy "bob")) ∧
    ¬ PropertiesKept plainPackage textEquality protectedProperties (ownedDocument "ann" "Text\n") newOwner
      (some (ownedBy "ann")) "Text".toList (ownedDocument "bob" "\nText\n") := by
  refine ⟨rfl, rfl, bob_dumped, ?_⟩
  intro kept
  obtain ⟨found, splits, -⟩ := kept.splits
  have read : splitDocument plainPackage.safeLoad (ownedDocument "bob" "\nText\n") =
      .ok (some (ownedBy "bob"), "\nText".toList) := rfl
  rw [read] at splits
  have same : "\nText".toList = "Text".toList := congrArg Prod.snd (Except.ok.inj splits)
  exact absurd same (by decide)

end Scene

end DarkFactory
