import Mathlib.Tactic.Common

/-! Rows kept in insertion order and addressed by a key. -/

namespace Table

variable {κ α : Type} [DecidableEq κ] (key : α → κ)

def find (k : κ) (rows : List α) : Option α := rows.find? fun row => key row = k

/-- `INSERT … ON CONFLICT DO NOTHING`. -/
def insertNew (row : α) (rows : List α) : List α :=
  match find key (key row) rows with
  | some _ => rows
  | none => rows ++ [row]

def update (k : κ) (f : α → α) (rows : List α) : List α :=
  rows.map fun row => if key row = k then f row else row

def delete (k : κ) (rows : List α) : List α := rows.filter fun row => key row ≠ k

section Find

variable {key} {k : κ} {row : α} {rows : List α} {f : α → α}

theorem find_some (found : find key k rows = some row) : row ∈ rows ∧ key row = k :=
  ⟨List.mem_of_find?_eq_some found, by simpa using List.find?_some found⟩

theorem find_none : find key k rows = none ↔ ∀ row ∈ rows, key row ≠ k := by
  simp [find]

theorem find_map (keeps : ∀ row, key (f row) = key row) : find key k (rows.map f) = (find key k rows).map f := by
  unfold find
  rw [List.find?_map]
  congr 2
  funext row
  simp [keeps row]

theorem find_insertNew_self :
    find key (key row) (insertNew key row rows) = some ((find key (key row) rows).getD row) := by
  unfold insertNew
  cases found : find key (key row) rows with
  | some present => simp [found]
  | none =>
    simp only [find] at found ⊢
    simp [List.find?_append, found]

theorem find_insertNew_absent (own : key row = k) (absent : find key k rows = none) :
    find key k (insertNew key row rows) = some row := by
  subst own
  rw [find_insertNew_self, absent, Option.getD_none]

theorem find_insertNew_other (other : k ≠ key row) :
    find key k (insertNew key row rows) = find key k rows := by
  unfold insertNew
  cases find key (key row) rows with
  | some present => rfl
  | none => simp [find, List.find?_append, Ne.symm other]

theorem find_insertNew_some {item : α} (found : find key k (insertNew key row rows) = some item) :
    find key k rows = some item ∨ (k = key row ∧ item = row) := by
  by_cases here : k = key row
  · subst here
    rw [find_insertNew_self, Option.some.injEq] at found
    cases held : find key (key row) rows with
    | none =>
      rw [held] at found
      exact Or.inr ⟨rfl, found.symm⟩
    | some present =>
      rw [held] at found
      exact Or.inl (congrArg some found)
  · rw [find_insertNew_other here] at found
    exact Or.inl found

theorem find_update_self (keeps : ∀ row, key row = k → key (f row) = k) :
    find key k (update key k f rows) = (find key k rows).map f := by
  induction rows with
  | nil => rfl
  | cons head tail ih =>
    simp only [find, update, List.map_cons] at ih ⊢
    by_cases here : key head = k
    · simp [here, keeps head here]
    · simp [here, ih]

theorem find_replace {new : α} (keeps : key new = k) :
    find key k (update key k (fun _ => new) rows) = (find key k rows).map fun _ => new :=
  find_update_self fun _ _ => keeps

theorem find_update_other {other : κ} (keeps : ∀ row, key row = other → key (f row) = other)
    (distinct : k ≠ other) :
    find key k (update key other f rows) = find key k rows := by
  induction rows with
  | nil => rfl
  | cons head tail ih =>
    simp only [find, update, List.map_cons] at ih ⊢
    by_cases here : key head = other
    · simp [here, keeps head here, Ne.symm distinct, ih]
    · by_cases hit : key head = k
      · simp [hit, distinct]
      · simp [here, hit, ih]

theorem find_delete_self : find key k (delete key k rows) = none := by
  simp [find_none, delete]

theorem find_delete_other {other : κ} (apart : other ≠ k) : find key other (delete key k rows) = find key other rows := by
  simp only [find, delete, List.find?_filter]
  congr 1
  funext row
  by_cases here : key row = other <;> simp [here, apart]

theorem delete_insertNew (own : key row = k) (absent : find key k rows = none) :
    delete key k (insertNew key row rows) = rows := by
  subst own
  unfold insertNew
  rw [absent, delete, List.filter_append, List.filter_eq_self.mpr]
  · simp
  · intro other member
    simpa using find_none.mp absent other member

theorem mem_insertNew {item : α} :
    item ∈ insertNew key row rows ↔ item ∈ rows ∨ (find key (key row) rows = none ∧ item = row) := by
  unfold insertNew
  cases found : find key (key row) rows <;> simp

theorem mem_update {item : α} :
    item ∈ update key k f rows ↔
      (item ∈ rows ∧ key item ≠ k) ∨ ∃ old ∈ rows, key old = k ∧ item = f old := by
  simp only [update, List.mem_map]
  constructor
  · rintro ⟨old, member, rfl⟩
    by_cases here : key old = k
    · exact Or.inr ⟨old, member, here, if_pos here⟩
    · rw [if_neg here]
      exact Or.inl ⟨member, here⟩
  · rintro (⟨member, away⟩ | ⟨old, member, here, rfl⟩)
    · exact ⟨item, member, if_neg away⟩
    · exact ⟨old, member, if_pos here⟩

theorem update_update {g : α → α} (keeps : ∀ row, key (g row) = key row) :
    update key k f (update key k g rows) = update key k (fun row => f (g row)) rows := by
  simp only [update, List.map_map]
  apply List.map_congr_left
  intro item _
  by_cases here : key item = k <;> simp [here, keeps]

theorem update_insertNew {present : α} (member : present ∈ rows) (here : key present = k)
    (keeps : ∀ row, key (f row) = key row) :
    update key k f (insertNew key row rows) = insertNew key row (update key k f rows) := by
  by_cases own : key row = k
  · have found (items : List α) (inside : ∃ item ∈ items, key item = k) :
        insertNew key row items = items := by
      unfold insertNew
      cases located : find key (key row) items with
      | some _ => rfl
      | none =>
        obtain ⟨item, there, same⟩ := inside
        exact absurd (same.trans own.symm) (find_none.mp located item there)
    rw [found rows ⟨present, member, here⟩, found (update key k f rows)]
    exact ⟨f present, mem_update.mpr (Or.inr ⟨present, member, here, rfl⟩), (keeps present).trans here⟩
  · unfold insertNew
    rw [find_update_other (fun row here => (keeps row).trans here) own]
    cases find key (key row) rows with
    | some _ => rfl
    | none => simp [update, own]

end Find

def Unique (rows : List α) : Prop := (rows.map key).Nodup

section Unique

variable {key} {row : α} {rows : List α}

omit [DecidableEq κ] in
theorem Unique.nil : Unique key ([] : List α) := List.nodup_nil

theorem Unique.find (unique : Unique key rows) (member : row ∈ rows) : find key (key row) rows = some row := by
  induction rows with
  | nil => simp at member
  | cons head tail ih =>
    simp only [Unique, List.map_cons, List.nodup_cons] at unique
    rcases List.mem_cons.mp member with rfl | later
    · simp [Table.find]
    · have apart : key head ≠ key row := by
        intro same
        exact unique.1 (same ▸ List.mem_map_of_mem later)
      have rest := ih unique.2 later
      simp only [Table.find] at rest ⊢
      simp [apart, rest]

theorem Unique.eq (unique : Unique key rows) {other : α} (member : row ∈ rows) (also : other ∈ rows)
    (same : key row = key other) : row = other := by
  have first := unique.find member
  rw [same, unique.find also] at first
  exact (Option.some.inj first).symm

omit [DecidableEq κ] in
theorem Unique.append (unique : Unique key rows) (absent : ∀ other ∈ rows, key other ≠ key row) :
    Unique key (rows ++ [row]) := by
  rw [Unique, List.map_append, List.map_singleton, List.nodup_append]
  refine ⟨unique, by simp, ?_⟩
  intro k present other same
  obtain ⟨item, member, rfl⟩ := List.mem_map.mp present
  rw [List.mem_singleton] at same
  rw [same]
  exact absent item member

theorem Unique.insertNew (unique : Unique key rows) : Unique key (insertNew key row rows) := by
  unfold Table.insertNew
  cases found : Table.find key (key row) rows with
  | some present => exact unique
  | none => exact unique.append (find_none.mp found)

/-- Rows entered one after another, none over an earlier one with its key: the first of each key stands. -/
theorem find_foldl_insertNew {k : κ} (entries rows : List α) :
    Table.find key k (entries.foldl (fun rows entry => Table.insertNew key entry rows) rows) =
      (Table.find key k rows).or (Table.find key k entries) := by
  induction entries generalizing rows with
  | nil => rw [List.foldl_nil, Table.find, Table.find, List.find?_nil, Option.or_none]
  | cons entry rest ih =>
    rw [List.foldl_cons, ih]
    by_cases here : k = key entry
    · subst here
      rw [find_insertNew_self]
      cases Table.find key (key entry) rows with
      | some present => rfl
      | none => simp [Table.find]
    · have later : Table.find key k (entry :: rest) = Table.find key k rest := by
        simp [Table.find, Ne.symm here]
      rw [find_insertNew_other here, later]

theorem Unique.foldl_insertNew (entries : List α) (unique : Unique key rows) :
    Unique key (entries.foldl (fun rows entry => Table.insertNew key entry rows) rows) := by
  induction entries generalizing rows with
  | nil => exact unique
  | cons entry rest ih => exact ih unique.insertNew

/-- Rows under keys of their own are known up to their order by what is found under each key. -/
theorem Unique.perm_of_find {others : List α} (unique : Unique key rows) (unique' : Unique key others)
    (same : ∀ k, Table.find key k rows = Table.find key k others) : rows.Perm others := by
  have distinct {rows : List α} (unique : Unique key rows) : rows.Nodup :=
    List.Pairwise.of_map key (fun _ _ apart same => apart (congrArg key same)) unique
  apply (List.perm_ext_iff_of_nodup (distinct unique) (distinct unique')).mpr
  intro row
  constructor
  · intro member
    exact (find_some (same _ ▸ unique.find member)).1
  · intro member
    exact (find_some ((same _).symm ▸ unique'.find member)).1

theorem Unique.find_perm {others : List α} {k : κ} (unique : Unique key rows) (same : rows.Perm others) :
    Table.find key k rows = Table.find key k others := by
  have unique' : Unique key others := (same.map key).nodup_iff.mp unique
  cases found : Table.find key k rows with
  | none =>
    rw [eq_comm, find_none]
    intro row member
    exact find_none.mp found row (same.mem_iff.mpr member)
  | some row =>
    obtain ⟨member, rfl⟩ := find_some found
    exact (unique'.find (same.mem_iff.mp member)).symm

theorem Unique.delete {k : κ} (unique : Unique key rows) : Unique key (Table.delete key k rows) :=
  unique.sublist (List.filter_sublist.map key)

theorem map_update {β : Type} {k : κ} {f : α → α} {g : α → β}
    (keeps : ∀ row, key row = k → g (f row) = g row) :
    (update key k f rows).map g = rows.map g := by
  simp only [update, List.map_map]
  refine List.map_congr_left fun row _ => ?_
  rw [Function.comp_apply]
  split
  · rename_i here
    exact keeps row here
  · rfl

theorem Unique.update {k : κ} {f : α → α} (unique : Unique key rows)
    (keeps : ∀ row, key (f row) = key row) : Unique key (update key k f rows) := by
  unfold Unique
  rw [map_update fun row _ => keeps row]
  exact unique

theorem Unique.perm_update {k : κ} {f : α → α} (unique : Unique key rows) (member : row ∈ rows) (here : key row = k) :
    ∃ rest, rows.Perm (row :: rest) ∧ (Table.update key k f rows).Perm (f row :: rest) := by
  obtain ⟨front, back, rfl⟩ := List.mem_iff_append.mp member
  have apart : ∀ other ∈ front ++ back, key other ≠ k := by
    intro other listed same
    have nodup : ((row :: (front ++ back)).map key).Nodup := ((List.perm_middle.map key).nodup_iff).mp unique
    exact (List.nodup_cons.mp nodup).1 (List.mem_map.mpr ⟨other, listed, same.trans here.symm⟩)
  have kept : (front ++ back).map (fun other => if key other = k then f other else other) = front ++ back := by
    calc (front ++ back).map (fun other => if key other = k then f other else other)
        = (front ++ back).map id := List.map_congr_left fun other listed => if_neg (apart other listed)
      _ = front ++ back := List.map_id _
  refine ⟨front ++ back, List.perm_middle, ?_⟩
  have middle : (front ++ row :: back).Perm (row :: (front ++ back)) := List.perm_middle
  have moved := middle.map fun other => if key other = k then f other else other
  rw [List.map_cons, kept, if_pos here] at moved
  exact moved

omit [DecidableEq κ] in
theorem Unique.mem_set {i : Nat} {old new item : α} (unique : Unique key rows) (there : rows[i]? = some old) :
    item ∈ rows.set i new ↔ (item ∈ rows ∧ key item ≠ key old) ∨ item = new := by
  have bound := (List.getElem?_eq_some_iff.mp there).1
  constructor
  · intro member
    obtain ⟨place, found⟩ := List.mem_iff_getElem?.mp member
    by_cases here : i = place
    · subst here
      rw [List.getElem?_set_self bound] at found
      exact Or.inr (Option.some.inj found).symm
    · rw [List.getElem?_set_ne here] at found
      refine Or.inl ⟨List.mem_of_getElem? found, ?_⟩
      intro same
      apply here
      apply (List.getElem?_inj (by simpa using bound) unique).mp
      simp [there, found, same]
  · rintro (⟨member, apart⟩ | rfl)
    · obtain ⟨place, found⟩ := List.mem_iff_getElem?.mp member
      refine List.mem_iff_getElem?.mpr ⟨place, ?_⟩
      rw [List.getElem?_set_ne]
      · exact found
      · rintro rfl
        rw [there, Option.some.injEq] at found
        exact apart (congrArg key found).symm
    · exact List.mem_set bound item

omit [DecidableEq κ] in
theorem Unique.length_le_one (unique : Unique key rows) {k : κ} (same : ∀ row ∈ rows, key row = k) :
    rows.length ≤ 1 := by
  match rows with
  | [] => exact Nat.zero_le 1
  | [row] => exact Nat.le_refl 1
  | first :: second :: rest =>
    have equal : key first = key second := (same first (by simp)).trans (same second (by simp)).symm
    simp [Unique, equal] at unique

theorem Unique.replace {k : κ} {new : α} (unique : Unique key rows) (keeps : key new = k) :
    Unique key (Table.update key k (fun _ => new) rows) := by
  unfold Unique
  rw [map_update fun row here => keeps.trans here.symm]
  exact unique

theorem Unique.foldl_update [DecidableEq α] {f : α → α} (keeps : ∀ row, key (f row) = key row) {chosen : List α}
    (unique : Unique key rows) (listed : ∀ item ∈ chosen, item ∈ rows) (distinct : Unique key chosen) :
    chosen.foldl (fun rows item => Table.update key (key item) (fun _ => f item) rows) rows =
      rows.map fun row => if row ∈ chosen then f row else row := by
  induction chosen generalizing rows with
  | nil => simp
  | cons first rest ih =>
    rw [Unique, List.map_cons, List.nodup_cons] at distinct
    obtain ⟨apart, distinct⟩ := distinct
    rw [List.forall_mem_cons] at listed
    obtain ⟨present, others⟩ := listed
    have away (row : α) (same : key row = key first) : row ∉ rest := by
      intro member
      exact apart (same ▸ List.mem_map_of_mem member)
    have one (row : α) (member : row ∈ rows) :
        (if key row = key first then f first else row) = if row = first then f row else row := by
      by_cases here : row = first
      · rw [here, if_pos rfl, if_pos rfl]
      · rw [if_neg here, if_neg fun same => here (unique.eq member present same)]
    have updated : Table.update key (key first) (fun _ => f first) rows =
        rows.map fun row => if row = first then f row else row := List.map_congr_left one
    have kept : Unique key (Table.update key (key first) (fun _ => f first) rows) := unique.replace (keeps first)
    have still (item : α) (member : item ∈ rest) : item ∈ Table.update key (key first) (fun _ => f first) rows := by
      rw [mem_update]
      exact Or.inl ⟨others item member, fun same => away item same member⟩
    rw [List.foldl_cons, ih kept still distinct, updated, List.map_map]
    refine List.map_congr_left fun row _ => ?_
    rw [Function.comp_apply]
    by_cases here : row = first
    · rw [if_pos here, if_neg (away (f row) ((keeps row).trans (congrArg key here))), here,
        if_pos List.mem_cons_self]
    · rw [if_neg here]
      simp [here]

end Unique

section Owners

variable {key} {ω : Type} {owner : α → ω} {o : ω} {row : α} {rows : List α} {k : κ} {f : α → α}

def OneOwner (key : α → κ) (owner : α → ω) (rows : List α) : Prop :=
  ∀ first ∈ rows, ∀ second ∈ rows, key first = key second → owner first = owner second

def others [DecidableEq ω] (owner : α → ω) (o : ω) (rows : List α) : List α := rows.filter fun row => owner row ≠ o

omit [DecidableEq κ] in
theorem oneOwner_append : OneOwner key owner (rows ++ [row]) ↔
    OneOwner key owner rows ∧ ∀ other ∈ rows, key other = key row → owner other = owner row := by
  constructor
  · intro one
    have held (other : α) (member : other ∈ rows) : other ∈ rows ++ [row] := by simp [member]
    exact ⟨fun first here second there => one first (held first here) second (held second there),
      fun other member => one other (held other member) row (by simp)⟩
  · rintro ⟨one, last⟩ first here second there same
    simp only [List.mem_append, List.mem_singleton] at here there
    rcases here with here | rfl
    · rcases there with there | rfl
      · exact one first here second there same
      · exact last first here same
    · rcases there with there | rfl
      · exact (last second there same.symm).symm
      · rfl

theorem OneOwner.insertNew (one : OneOwner key owner rows) : OneOwner key owner (Table.insertNew key row rows) := by
  unfold Table.insertNew
  cases found : Table.find key (key row) rows with
  | some present => exact one
  | none => exact oneOwner_append.mpr ⟨one, fun other member same => absurd same (find_none.mp found other member)⟩

theorem OneOwner.update (one : OneOwner key owner rows) (keeps : ∀ row, key row = k → key (f row) = k)
    (owned : ∀ row ∈ rows, key row = k → owner (f row) = owner row) :
    OneOwner key owner (Table.update key k f rows) := by
  have origin (item : α) (member : item ∈ Table.update key k f rows) :
      ∃ old ∈ rows, key old = key item ∧ owner old = owner item := by
    rcases mem_update.mp member with ⟨present, -⟩ | ⟨old, present, here, rfl⟩
    · exact ⟨item, present, rfl, rfl⟩
    · exact ⟨old, present, here.trans (keeps old here).symm, (owned old present here).symm⟩
  intro first here second there same
  obtain ⟨before, present, key₁, owner₁⟩ := origin first here
  obtain ⟨beside, present', key₂, owner₂⟩ := origin second there
  have equal : owner before = owner beside := one before present beside present' (by rw [key₁, key₂, same])
  rw [← owner₁, ← owner₂, equal]

variable [DecidableEq ω]

omit [DecidableEq κ] in
theorem others_append (own : owner row = o) : others owner o (rows ++ [row]) = others owner o rows := by
  simp [others, own]

theorem others_insertNew (own : owner row = o) :
    others owner o (Table.insertNew key row rows) = others owner o rows := by
  unfold Table.insertNew
  cases Table.find key (key row) rows with
  | some present => rfl
  | none => exact others_append own

theorem others_update (own : ∀ row ∈ rows, key row = k → owner row = o ∧ owner (f row) = o) :
    others owner o (Table.update key k f rows) = others owner o rows := by
  induction rows with
  | nil => rfl
  | cons head tail ih =>
    rw [List.forall_mem_cons] at own
    have rest := ih own.2
    simp only [others, Table.update, List.map_cons, List.filter_cons] at rest ⊢
    by_cases here : key head = k
    · obtain ⟨before, after⟩ := own.1 here
      simpa [here, before, after] using rest
    · by_cases away : owner head = o
      · simpa [here, away] using rest
      · simpa [here, away] using rest

/-- Rows of one owner, each replaced under its key, leave the rows of everyone else as they are. -/
theorem others_foldl_update {chosen : List α} (keeps : ∀ row, key (f row) = key row)
    (owned : ∀ row, owner (f row) = owner row) (own : ∀ item ∈ chosen, owner item = o)
    (held : ∀ item ∈ chosen, ∀ row ∈ rows, key row = key item → owner row = o) (one : OneOwner key owner rows) :
    others owner o (chosen.foldl (fun rows item => Table.update key (key item) (fun _ => f item) rows) rows) =
        others owner o rows ∧
      OneOwner key owner (chosen.foldl (fun rows item => Table.update key (key item) (fun _ => f item) rows) rows) := by
  induction chosen generalizing rows with
  | nil => exact ⟨rfl, one⟩
  | cons first rest ih =>
    rw [List.forall_mem_cons] at own held
    have new : owner (f first) = o := (owned first).trans own.1
    have next : OneOwner key owner (Table.update key (key first) (fun _ => f first) rows) :=
      one.update (fun _ _ => keeps first) fun row member here => new.trans (held.1 row member here).symm
    have still : ∀ item ∈ rest, ∀ row ∈ Table.update key (key first) (fun _ => f first) rows,
        key row = key item → owner row = o := by
      intro item member row present same
      rcases mem_update.mp present with ⟨present, -⟩ | ⟨old, present, here, rfl⟩
      · exact held.2 item member row present same
      · exact new
    obtain ⟨frame, kept⟩ := ih own.2 still next
    rw [List.foldl_cons]
    exact ⟨frame.trans (others_update fun row member here => ⟨held.1 row member here, new⟩), kept⟩

end Owners

end Table
