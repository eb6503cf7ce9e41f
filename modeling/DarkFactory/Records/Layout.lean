import DarkFactory.Lib.Digits
import DarkFactory.Records.Index
import DarkFactory.Sdd.Paths

namespace DarkFactory

def runsDirName : String := "runs"

def maxSlugLength : Nat := 120

/-- The characters that stay as they are in a path element: `[A-Za-z0-9._-]`. -/
def slugSafe (c : Char) : Bool :=
  c.isAlphanum || c = '.' || c = '_' || c = '-'

def unusableId : RecordError :=
  ⟨.store, "the change or run id cannot be used as a path element of the runs repository"⟩

def slug (text : String) : Except RecordError String :=
  let candidate := Lines.strip (· = '-') (text.toList.map fun c => if slugSafe c then c else '-')
  if candidate = [] ∨ candidate.all (· = '.') ∨ maxSlugLength < candidate.length then .error unusableId
  else .ok (String.ofList candidate)

def yearPart (t : Timestamp) : String := Text.digits 4 (Calendar.year (Timestamp.days t)).toNat

def monthPart (t : Timestamp) : String := Text.digits 2 (Calendar.month (Timestamp.days t))

def recordPath (createdAt : Timestamp) (change run : String) : TreePath :=
  [runsDirName, yearPart createdAt, monthPart createdAt, change, run]

def runDir (record : RunRecord) : Except RecordError TreePath := do
  let change ← slug record.change.id
  let run ← slug record.run.id
  let parts := recordPath record.createdAt change run
  if parts.any fun part => unsafeParts.contains part then
    throw ⟨.store, "refusing to build an unsafe path in the runs repository"⟩
  return parts

def unsafeRefPath : RecordError := ⟨.store, "refusing to resolve an unsafe run-record path"⟩

def resolveRefPath (relativePath : String) : Except RecordError TreePath :=
  let parts := joinPath [] relativePath
  if parts = [] ∨ Text.startsWith relativePath "/" then .error unsafeRefPath
  else if parts.any fun part => unsafeParts.contains part then .error unsafeRefPath
  else .ok parts

section Slug

variable {text name : String}

theorem slug_ok (made : slug text = .ok name) :
    (∀ c ∈ name.toList, slugSafe c = true) ∧ SafePart name := by
  unfold slug at made
  dsimp only at made
  split at made
  · cases made
  · rename_i usable
    rw [not_or, not_or] at usable
    cases made
    rw [String.toList_ofList]
    have safe : ∀ c ∈ Lines.strip (· = '-') (text.toList.map fun c => if slugSafe c then c else '-'),
        slugSafe c = true := by
      intro c member
      obtain ⟨origin, -, rfl⟩ := List.mem_map.mp (Lines.mem_strip member)
      by_cases kept : slugSafe origin = true
      · rw [if_pos kept]
        exact kept
      · rw [if_neg kept]
        decide
    refine ⟨safe, ?_, ?_⟩
    · intro slash
      rw [String.toList_ofList] at slash
      exact absurd (safe _ slash) (by decide)
    · intro listed
      have letters : Lines.strip (· = '-') (text.toList.map fun c => if slugSafe c then c else '-') ∈
          unsafeParts.map String.toList := by
        obtain ⟨part, member, same⟩ := List.mem_map.mp (List.mem_map_of_mem (f := String.toList) listed)
        rw [String.toList_ofList] at same
        exact same ▸ List.mem_map_of_mem member
      simp only [unsafeParts, List.map_cons, List.map_nil, List.mem_cons, List.not_mem_nil, or_false] at letters
      rcases letters with empty | dot | dots
      · exact usable.1 empty
      · exact usable.2.1 (by rw [dot]; decide)
      · exact usable.2.1 (by rw [dots]; decide)

end Slug

section Paths

variable {path : TreePath} {record : RunRecord}

theorem resolve_posixPath (occupied : path ≠ []) (safe : ∀ part ∈ path, SafePart part) :
    resolveRefPath (posixPath path) = .ok path := by
  have names := joinPath_posixPath occupied safe
  have relative := posixPath_relative safe
  have clear : (path.any fun part => unsafeParts.contains part) = false := by
    rw [List.any_eq_false]
    intro part member listed
    exact (safe part member).named (List.contains_iff_mem.mp listed)
  unfold resolveRefPath
  rw [names, relative]
  dsimp only
  rw [clear]
  simp [occupied]

theorem digits_letters {width n : Nat} (fits : n < 10 ^ width) (pos : 0 < width) :
    (Text.digits width n).toList = Digits.fixed width n := by
  rw [← Digits.pad_toDigits fits pos, Text.digits, String.toList_append, String.toList_ofList,
    Nat.toString_eq_ofList_toDigits, String.toList_ofList, String.length_ofList]

theorem digits_safe {width n : Nat} : SafePart (Text.digits (width + 1) n) := by
  have digit : ∀ c ∈ (Text.digits (width + 1) n).toList, c.isDigit = true := by
    intro c member
    rw [Text.digits, String.toList_append, String.toList_ofList, Nat.toString_eq_ofList_toDigits,
      String.toList_ofList, List.mem_append] at member
    rcases member with zero | shown
    · rw [List.eq_of_mem_replicate zero]
      rfl
    · exact Nat.isDigit_of_mem_toDigits (by decide) (by decide) shown
  refine ⟨fun slash => absurd (digit _ slash) (by decide), fun listed => ?_⟩
  simp only [unsafeParts, List.mem_cons, List.not_mem_nil, or_false] at listed
  rcases listed with empty | dot | dots
  · have none_ : (Text.digits (width + 1) n).toList = [] := by rw [empty]; rfl
    rw [Text.digits, String.toList_append, Nat.toString_eq_ofList_toDigits, String.toList_ofList,
      List.append_eq_nil_iff] at none_
    exact Nat.toDigits_ne_nil ((String.toList_ofList).symm.trans none_.2)
  · rw [dot] at digit
    exact absurd (digit '.' (by decide)) (by decide)
  · rw [dots] at digit
    exact absurd (digit '.' (by decide)) (by decide)

theorem recordPath_safe {createdAt : Timestamp} {change run : String} (change_safe : SafePart change)
    (run_safe : SafePart run) : ∀ part ∈ recordPath createdAt change run, SafePart part := by
  intro part member
  simp only [recordPath, List.mem_cons, List.not_mem_nil, or_false] at member
  rcases member with rfl | rfl | rfl | rfl | rfl
  · exact ⟨by decide, by decide⟩
  · exact digits_safe
  · exact digits_safe
  · exact change_safe
  · exact run_safe

theorem runDir_ok : runDir record = .ok path ↔
    ∃ change run, slug record.change.id = .ok change ∧ slug record.run.id = .ok run ∧
      path = recordPath record.createdAt change run := by
  unfold runDir
  constructor
  · intro made
    obtain ⟨change, changeSlug, made⟩ := Outcome.bind_ok.mp made
    obtain ⟨run, runSlug, made⟩ := Outcome.bind_ok.mp made
    refine ⟨change, run, changeSlug, runSlug, ?_⟩
    dsimp only at made
    split at made
    · cases made
    · exact (Outcome.pure_ok.mp made).symm
  · rintro ⟨change, run, changeSlug, runSlug, rfl⟩
    have safe := @recordPath_safe record.createdAt _ _ (slug_ok changeSlug).2 (slug_ok runSlug).2
    have clear : ((recordPath record.createdAt change run).any fun part => unsafeParts.contains part) = false := by
      rw [List.any_eq_false]
      intro part member listed
      exact (safe part member).named (List.contains_iff_mem.mp listed)
    simp only [changeSlug, runSlug, Bind.bind, Except.bind, clear]
    rfl

theorem runDir_resolves (made : runDir record = .ok path) : resolveRefPath (posixPath path) = .ok path := by
  obtain ⟨change, run, changeSlug, runSlug, rfl⟩ := runDir_ok.mp made
  exact resolve_posixPath (by simp [recordPath]) (recordPath_safe (slug_ok changeSlug).2 (slug_ok runSlug).2)

end Paths

section Order

variable {first second : Timestamp} {change run other : String}

theorem string_lt_of_letters {left right : String} (lt : left.toList < right.toList) : left < right := lt

theorem digits_lt {width a b : Nat} (pos : 0 < width) (lt : a < b) (fits : b < 10 ^ width) :
    Text.digits width a < Text.digits width b := by
  apply string_lt_of_letters
  rw [digits_letters (by omega) pos, digits_letters fits pos]
  exact Digits.fixed_lt lt fits

def monthOf (t : Timestamp) : Int := Calendar.monthIndex (Timestamp.days t)

theorem monthOf_mono (le : first ≤ second) : monthOf first ≤ monthOf second := by
  apply Calendar.monthIndex_mono
  exact Int.ediv_le_ediv (by decide) le

theorem year_bounds (valid : Timestamp.Valid first) :
    1 ≤ Calendar.year (Timestamp.days first) ∧ Calendar.year (Timestamp.days first) ≤ 9999 := by
  have low := Calendar.monthIndex_mono valid.1
  have high := Calendar.monthIndex_mono valid.2
  have start : Calendar.monthIndex (-719162) = 13 := by decide
  have last : Calendar.monthIndex 2932896 = 12 * 9999 + 12 := by decide
  have pos := Calendar.month_pos (Timestamp.days first)
  have le := Calendar.month_le (Timestamp.days first)
  rw [start] at low
  rw [last] at high
  unfold Calendar.monthIndex at low high
  omega

/-- Addresses of one change follow the months, and within a month the names of the runs. -/
theorem recordPath_lt_of_month (valid : Timestamp.Valid second) (startValid : Timestamp.Valid first)
    (lt : monthOf first < monthOf second) : recordPath first change run < recordPath second change other := by
  have bounds := year_bounds valid
  have startBounds := year_bounds startValid
  have small := Calendar.month_le (Timestamp.days second)
  rw [recordPath, recordPath, List.cons_lt_cons_iff]
  refine Or.inr ⟨rfl, ?_⟩
  rw [List.cons_lt_cons_iff]
  rcases Calendar.monthIndex_lt_iff.mp lt with years | ⟨years, months⟩
  · exact Or.inl (digits_lt (by decide) (by omega) (by omega))
  · refine Or.inr ⟨by rw [yearPart, years]; rfl, ?_⟩
    rw [List.cons_lt_cons_iff]
    left
    exact digits_lt (by decide) months (by omega)

theorem recordPath_parts_of_month (same : monthOf first = monthOf second) :
    yearPart first = yearPart second ∧ monthPart first = monthPart second := by
  have pos := Calendar.month_pos (Timestamp.days first)
  have pos' := Calendar.month_pos (Timestamp.days second)
  have le := Calendar.month_le (Timestamp.days first)
  have le' := Calendar.month_le (Timestamp.days second)
  have years : Calendar.year (Timestamp.days first) = Calendar.year (Timestamp.days second) ∧
      Calendar.month (Timestamp.days first) = Calendar.month (Timestamp.days second) := by
    unfold monthOf Calendar.monthIndex at same
    omega
  exact ⟨by rw [yearPart, years.1]; rfl, by rw [monthPart, years.2]; rfl⟩

end Order

end DarkFactory
