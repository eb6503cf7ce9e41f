import DarkFactory.Documents.Anchors
import DarkFactory.Documents.Blocks

namespace DarkFactory

/-! ## Editing the properties of a document -/

structure YamlPackage where
  safeLoad : DocText → Except String Yaml
  safeDump : YamlMapping → DocText

def Yaml.isNull : Yaml → Bool
  | .null => true
  | _ => false

/-- Python's `==` on plain values; none equals none only. -/
structure PlainEquality where
  eq : Yaml → Yaml → Bool
  null_eq : ∀ value, eq .null value = value.isNull

/-- The new values of the keys; none removes its key. -/
structure PropertyUpdates where
  entries : List (String × Yaml)
  distinct : (entries.map Prod.fst).Nodup

inductive PropertyFailure
  | sdd (failure : SddFailure)
  | protectedProperty (message : String)
  deriving DecidableEq, Repr

/-- `values[key] = value`, and `values.pop(key, None)` where the value is none. -/
def YamlMapping.put (values : YamlMapping) (update : String × Yaml) : YamlMapping :=
  if update.2.isNull then values.filter fun entry => !entry.1.isText update.1
  else if values.any fun entry => entry.1.isText update.1 then
    values.map fun entry => if entry.1.isText update.1 then (entry.1, update.2) else entry
  else values ++ [(.text update.1, update.2)]

def applyUpdate (equality : PlainEquality) (protected_ : List String) (values : YamlMapping)
    (update : String × Yaml) : Except PropertyFailure YamlMapping :=
  if update.1 ∈ protected_ ∧ ¬ equality.eq (values.get update.1) update.2 then
    .error (.protectedProperty
      ("property " ++ Text.repr update.1 ++ " is a system identifier and cannot be changed here"))
  else .ok (values.put update)

def applyUpdates (equality : PlainEquality) (protected_ : List String) (values : YamlMapping)
    (updates : List (String × Yaml)) : Except PropertyFailure YamlMapping :=
  updates.foldlM (applyUpdate equality protected_) values

def endsNewline (text : DocText) : Bool := text.getLast? = some '\n'

def restoredBody (content body : DocText) : DocText :=
  if endsNewline content ∧ ¬ endsNewline body then body ++ ['\n'] else body

def propertySeparator (body : DocText) : DocText := if body.head? = some '\n' ∨ body = [] then [] else ['\n']

def renderProperties (package : YamlPackage) (values : YamlMapping) (body : DocText) : DocText :=
  if values.isEmpty then body
  else "---\n".toList ++ stripText (package.safeDump values) ++ "\n---\n".toList ++ propertySeparator body ++ body

def applyProperties (package : YamlPackage) (equality : PlainEquality) (content : DocText) (updates : PropertyUpdates)
    (protected_ : List String := protectedProperties) : Except PropertyFailure DocText :=
  match splitDocument package.safeLoad content with
  | .error failure => .error (.sdd failure)
  | .ok (raw, body) => do
    let values ← applyUpdates equality protected_ (raw.getD []) updates.entries
    return renderProperties package values (restoredBody content body)

/-! ## What the updates ask for -/

def updateOf (updates : List (String × Yaml)) (key : Yaml) : Option Yaml :=
  (updates.find? fun update => key.isText update.1).map Prod.snd

def revised (updates : List (String × Yaml)) (entry : Yaml × Yaml) : Option (Yaml × Yaml) :=
  match updateOf updates entry.1 with
  | none => some entry
  | some value => if value.isNull then none else some (entry.1, value)

def newEntries (raw : YamlMapping) (updates : List (String × Yaml)) : YamlMapping :=
  updates.filterMap fun update =>
    if update.2.isNull || raw.any fun entry => entry.1.isText update.1 then none else some (.text update.1, update.2)

/-- The mapping with the updates applied: untouched entries in their places, an updated one with its new value, removed
    ones left out, and the new ones behind. -/
def withUpdates (raw : YamlMapping) (updates : List (String × Yaml)) : YamlMapping :=
  raw.filterMap (revised updates) ++ newEntries raw updates

def YamlMapping.lookup (raw : YamlMapping) (name : String) : Option Yaml :=
  (raw.find? fun entry => entry.1.isText name).map Prod.snd

section Mapping

variable {raw values : YamlMapping} {updates rest : List (String × Yaml)} {update : String × Yaml} {key value : Yaml}
  {name other : String}

theorem Yaml.isText_iff : key.isText name = true ↔ key = .text name := by
  cases key <;> simp [Yaml.isText]

theorem YamlMapping.get_eq : raw.get name = (raw.lookup name).getD .null := rfl

theorem Yaml.isText_apart (here : key.isText name = true) (apart : other ≠ name) : key.isText other = false := by
  rw [Yaml.isText_iff] at here
  simp [here, Yaml.isText, Ne.symm apart]

theorem updateOf_cons : updateOf (update :: rest) key =
    if key.isText update.1 then some update.2 else updateOf rest key := by
  unfold updateOf
  by_cases here : key.isText update.1 = true <;> simp [here]

theorem updateOf_absent (absent : ∀ other ∈ rest, other.1 ≠ name) (here : key.isText name = true) :
    updateOf rest key = none := by
  rw [updateOf, Option.map_eq_none_iff, List.find?_eq_none]
  intro other member
  simpa using Yaml.isText_apart here (absent other member)

theorem withUpdates_cons (absent : ∀ other ∈ rest, other.1 ≠ update.1) :
    withUpdates raw (update :: rest) = withUpdates (raw.put update) rest := by
  have same {values : YamlMapping} (kept : ∀ other ∈ rest, (values.any fun entry => entry.1.isText other.1) =
      raw.any fun entry => entry.1.isText other.1) : newEntries values rest = newEntries raw rest := by
    refine List.filterMap_congr fun other member => ?_
    rw [kept other member]
  have apart {entry : Yaml × Yaml} (here : entry.1.isText update.1 = true) : ∀ other ∈ rest,
      entry.1.isText other.1 = false := fun other member => Yaml.isText_apart here (absent other member)
  by_cases removed : update.2.isNull = true
  · have first : newEntries raw (update :: rest) = newEntries raw rest := by simp [newEntries, removed]
    rw [YamlMapping.put, if_pos removed, withUpdates, withUpdates, first, List.filterMap_filter]
    congr 1
    · refine List.filterMap_congr fun entry _ => ?_
      rw [revised, updateOf_cons]
      by_cases here : entry.1.isText update.1 = true
      · simp [here, removed]
      · simp [here, revised]
    · symm
      apply same
      intro other member
      rw [List.any_filter]
      refine List.any_congr rfl fun entry => ?_
      cases here : entry.1.isText update.1 with
      | false => simp
      | true => simp [apart here other member]
  · by_cases present : (raw.any fun entry => entry.1.isText update.1) = true
    · have first : newEntries raw (update :: rest) = newEntries raw rest := by simp [newEntries, present]
      rw [YamlMapping.put, if_neg removed, if_pos present, withUpdates, withUpdates, first, List.filterMap_map]
      congr 1
      · refine List.filterMap_congr fun entry _ => ?_
        rw [revised, updateOf_cons]
        by_cases here : entry.1.isText update.1 = true
        · simp [here, removed, revised, updateOf_absent absent here]
        · simp [here, revised]
      · symm
        apply same
        intro other member
        rw [List.any_map]
        refine List.any_congr rfl fun entry => ?_
        by_cases here : entry.1.isText update.1 = true <;> simp [here]
    · have first : newEntries raw (update :: rest) = (.text update.1, update.2) :: newEntries raw rest := by
        simp [newEntries, removed, present]
      have own : (Yaml.text update.1).isText update.1 = true := Yaml.isText_iff.mpr rfl
      have fresh : revised rest (.text update.1, update.2) = some (.text update.1, update.2) := by
        rw [revised, updateOf_absent absent own]
      rw [YamlMapping.put, if_neg removed, if_neg present, withUpdates, withUpdates, first, List.filterMap_append,
        List.filterMap_cons, fresh, List.filterMap_nil, List.append_assoc, List.singleton_append]
      congr 1
      · refine List.filterMap_congr fun entry member => ?_
        have other : entry.1.isText update.1 = false := by
          by_contra here
          exact present (List.any_eq_true.mpr ⟨entry, member, by simpa using here⟩)
        simp [revised, updateOf_cons, other]
      · congr 1
        symm
        apply same
        intro other member
        have unlike : (Yaml.text update.1).isText other.1 = false := Yaml.isText_apart own (absent other member)
        simp [unlike]

theorem lookup_put : (raw.put update).lookup name =
    if name = update.1 then (if update.2.isNull then none else some update.2) else raw.lookup name := by
  unfold YamlMapping.put YamlMapping.lookup
  by_cases removed : update.2.isNull = true
  · rw [if_pos removed, List.find?_filter]
    by_cases own : name = update.1
    · rw [if_pos own, if_pos removed, Option.map_eq_none_iff, List.find?_eq_none]
      intro entry _
      simp [own]
    · rw [if_neg own]
      congr 2
      funext entry
      cases here : entry.1.isText name with
      | false => simp
      | true => simp [Yaml.isText_apart here (Ne.symm own)]
  · rw [if_neg removed]
    by_cases present : (raw.any fun entry => entry.1.isText update.1) = true
    · rw [if_pos present, List.find?_map]
      have keys : ((fun entry : Yaml × Yaml => entry.1.isText name) ∘
          fun entry : Yaml × Yaml => if entry.1.isText update.1 then (entry.1, update.2) else entry) =
            fun entry => entry.1.isText name := by
        funext entry
        by_cases here : entry.1.isText update.1 = true <;> simp [here]
      rw [keys]
      cases found : raw.find? fun entry => entry.1.isText name with
      | none =>
        have other : name ≠ update.1 := by
          rintro rfl
          obtain ⟨entry, member, here⟩ := List.any_eq_true.mp present
          exact absurd here (List.find?_eq_none.mp found entry member)
        rw [if_neg other]
        rfl
      | some entry =>
        have here := List.find?_some found
        by_cases own : name = update.1
        · subst own
          simp [here, removed]
        · have unlike := Yaml.isText_apart here (Ne.symm own)
          simp [unlike, own]
    · have fresh : (Yaml.text update.1).isText name = decide (name = update.1) := by simp [Yaml.isText, eq_comm]
      rw [if_neg present, List.find?_append]
      by_cases own : name = update.1
      · have absent : (raw.find? fun entry => entry.1.isText name) = none := by
          rw [List.find?_eq_none, own]
          intro entry member here
          exact present (List.any_eq_true.mpr ⟨entry, member, here⟩)
        rw [absent, if_pos own, if_neg removed, Option.none_or, List.find?_singleton, fresh, if_pos (by simpa using own)]
        rfl
      · rw [if_neg own, List.find?_singleton, fresh, if_neg (by simpa using own), Option.or_none]

theorem get_put (other : name ≠ update.1) : (raw.put update).get name = raw.get name := by
  rw [YamlMapping.get_eq, lookup_put, if_neg other, ← YamlMapping.get_eq]

theorem withUpdates_nil : withUpdates raw [] = raw := by
  have kept : revised [] = some := by
    funext entry
    rfl
  rw [withUpdates, kept, List.filterMap_some]
  exact List.append_nil raw

theorem lookup_withUpdates (distinct : (updates.map Prod.fst).Nodup) : (withUpdates raw updates).lookup name =
    match updates.find? (·.1 = name) with
    | none => raw.lookup name
    | some update => if update.2.isNull then none else some update.2 := by
  induction updates generalizing raw with
  | nil => rw [withUpdates_nil]; rfl
  | cons update rest ih =>
    rw [List.map_cons, List.nodup_cons] at distinct
    have absent : ∀ other ∈ rest, other.1 ≠ update.1 := fun other member same =>
      distinct.1 (same ▸ List.mem_map_of_mem member)
    rw [withUpdates_cons absent, ih distinct.2, List.find?_cons]
    by_cases own : update.1 = name
    · have later : rest.find? (·.1 = name) = none := by
        rw [List.find?_eq_none]
        intro other member
        simpa [← own] using absent other member
      simp [own, later, lookup_put]
    · simp [own, lookup_put, Ne.symm own]

theorem applyUpdates_ok {equality : PlainEquality} {protected_ : List String}
    (distinct : (updates.map Prod.fst).Nodup) : applyUpdates equality protected_ raw updates = .ok values ↔
      (∀ update ∈ updates, update.1 ∈ protected_ → equality.eq (raw.get update.1) update.2 = true) ∧
        values = withUpdates raw updates := by
  induction updates generalizing raw with
  | nil =>
    rw [withUpdates_nil, applyUpdates, List.foldlM_nil]
    constructor
    · intro same
      exact ⟨by simp, (Except.ok.inj same).symm⟩
    · rintro ⟨-, rfl⟩
      rfl
  | cons update rest ih =>
    rw [List.map_cons, List.nodup_cons] at distinct
    have absent : ∀ other ∈ rest, other.1 ≠ update.1 := fun other member same =>
      distinct.1 (same ▸ List.mem_map_of_mem member)
    have first : applyUpdates equality protected_ raw (update :: rest) =
        (applyUpdate equality protected_ raw update >>= fun values => applyUpdates equality protected_ values rest) := by
      rw [applyUpdates, List.foldlM_cons]
      rfl
    have others : (∀ other ∈ rest, other.1 ∈ protected_ → equality.eq ((raw.put update).get other.1) other.2 = true) ↔
        ∀ other ∈ rest, other.1 ∈ protected_ → equality.eq (raw.get other.1) other.2 = true := by
      refine forall₂_congr fun other member => ?_
      rw [get_put (absent other member)]
    rw [first, applyUpdate]
    by_cases refused : update.1 ∈ protected_ ∧ ¬ equality.eq (raw.get update.1) update.2 = true
    · rw [if_pos refused]
      constructor
      · exact nofun
      · rintro ⟨equal, -⟩
        exact absurd (equal update (by simp) refused.1) refused.2
    · rw [if_neg refused]
      show applyUpdates equality protected_ (raw.put update) rest = .ok values ↔ _
      rw [ih distinct.2, others, withUpdates_cons absent, List.forall_mem_cons]
      have equal : update.1 ∈ protected_ → equality.eq (raw.get update.1) update.2 = true := by
        simpa using refused
      rw [and_iff_right equal]

theorem updateOf_mem (distinct : (updates.map Prod.fst).Nodup) (member : update ∈ updates)
    (here : key.isText update.1 = true) : updateOf updates key = some update.2 := by
  rw [Yaml.isText_iff] at here
  induction updates with
  | nil => cases member
  | cons first rest ih =>
    rw [List.map_cons, List.nodup_cons] at distinct
    rw [updateOf_cons]
    rcases List.mem_cons.mp member with rfl | later
    · rw [if_pos (Yaml.isText_iff.mpr here)]
    · have apart : first.1 ≠ update.1 := fun same => distinct.1 (same ▸ List.mem_map_of_mem later)
      rw [Yaml.isText_apart (Yaml.isText_iff.mpr here) apart]
      exact ih distinct.2 later

/-- The mapping has the value of every update, and no entry for a removed key. -/
structure HasUpdates (values : YamlMapping) (updates : List (String × Yaml)) : Prop where
  held : ∀ update ∈ updates, ∀ entry ∈ values, entry.1.isText update.1 = true →
    update.2.isNull = false ∧ entry.2 = update.2
  present : ∀ update ∈ updates, update.2.isNull = false → ∃ entry ∈ values, entry.1.isText update.1 = true

theorem withUpdates_has (distinct : (updates.map Prod.fst).Nodup) : HasUpdates (withUpdates raw updates) updates where
  held := by
    intro update member entry listed here
    rcases List.mem_append.mp listed with kept | fresh
    · obtain ⟨old, -, revision⟩ := List.mem_filterMap.mp kept
      have same : entry.1 = old.1 := by
        unfold revised at revision
        split at revision
        · rw [Option.some.inj revision]
        · split at revision
          · cases revision
          · rw [← Option.some.inj revision]
      rw [same] at here
      rw [revised, updateOf_mem distinct member here] at revision
      cases null : update.2.isNull with
      | true => simp [null] at revision
      | false =>
        simp only [null, Bool.false_eq_true, if_false, Option.some.injEq] at revision
        exact ⟨rfl, by rw [← revision]⟩
    · obtain ⟨other, among, shape⟩ := List.mem_filterMap.mp fresh
      split at shape
      · cases shape
      · rename_i unheld
        obtain rfl := Option.some.inj shape
        have first := updateOf_mem distinct member here
        rw [updateOf_mem distinct among (Yaml.isText_iff.mpr rfl), Option.some.injEq] at first
        simp only [Bool.or_eq_true, not_or, Bool.not_eq_true] at unheld
        exact ⟨first ▸ unheld.1, first⟩
  present := by
    intro update member solid
    by_cases there : (raw.any fun entry => entry.1.isText update.1) = true
    · obtain ⟨old, listed, here⟩ := List.any_eq_true.mp there
      refine ⟨(old.1, update.2), List.mem_append_left _ (List.mem_filterMap.mpr ⟨old, listed, ?_⟩), here⟩
      rw [revised, updateOf_mem distinct member here]
      simp [solid]
    · refine ⟨(.text update.1, update.2), List.mem_append_right _ (List.mem_filterMap.mpr ⟨update, member, ?_⟩),
        Yaml.isText_iff.mpr rfl⟩
      simp [solid, there]

theorem HasUpdates.withUpdates_eq (has : HasUpdates values updates) : withUpdates values updates = values := by
  have kept : values.filterMap (revised updates) = values := by
    have each : ∀ entry ∈ values, revised updates entry = some entry := by
      intro entry listed
      unfold revised
      cases found : updateOf updates entry.1 with
      | none => rfl
      | some value =>
        obtain ⟨update, first, rfl⟩ := Option.map_eq_some_iff.mp found
        have here : entry.1.isText update.1 = true := by
          simpa using List.find?_some first
        obtain ⟨solid, same⟩ := has.held update (List.mem_of_find?_eq_some first) entry listed here
        show (if update.2.isNull then none else some (entry.1, update.2)) = some entry
        rw [if_neg (by simpa using solid), ← same]
    rw [List.filterMap_congr each, List.filterMap_some]
  have none_new : newEntries values updates = [] := by
    rw [newEntries, List.filterMap_eq_nil_iff]
    intro update member
    cases null : update.2.isNull with
    | true => simp
    | false => simpa using has.present update member null
  rw [withUpdates, kept, none_new, List.append_nil]

theorem withUpdates_twice (distinct : (updates.map Prod.fst).Nodup) :
    withUpdates (withUpdates raw updates) updates = withUpdates raw updates :=
  (withUpdates_has distinct).withUpdates_eq

/-- The entries no update names keep their values and their order. -/
theorem withUpdates_untouched : (withUpdates raw updates).filter (fun entry => (updateOf updates entry.1).isNone) =
    raw.filter fun entry => (updateOf updates entry.1).isNone := by
  have fresh : (newEntries raw updates).filter (fun entry => (updateOf updates entry.1).isNone) = [] := by
    rw [List.filter_eq_nil_iff]
    intro entry listed
    obtain ⟨update, member, shape⟩ := List.mem_filterMap.mp listed
    split at shape
    · cases shape
    · obtain rfl := Option.some.inj shape
      have named : updates.find? (fun other => (Yaml.text update.1).isText other.1) ≠ none := by
        intro absent
        exact List.find?_eq_none.mp absent update member (Yaml.isText_iff.mpr rfl)
      simpa [updateOf] using named
  rw [withUpdates, List.filter_append, fresh, List.append_nil, List.filter_filterMap, ← List.filterMap_eq_filter]
  refine List.filterMap_congr fun entry _ => ?_
  unfold revised
  cases found : updateOf updates entry.1 with
  | none => simp [found]
  | some value =>
    have dropped : Option.guard (fun entry : Yaml × Yaml => (updateOf updates entry.1).isNone) entry = none := by
      simp [Option.guard, found]
    rw [dropped]
    by_cases null : value.isNull = true
    · simp [null]
    · simp [null, found]

end Mapping

end DarkFactory
