import DarkFactory.Sdd.Frontmatter

namespace DarkFactory

def nul : Char := Char.ofNat 0

/-- A renamed or copied file: its original path follows. -/
def moves (status : DocText) : Bool := 'R' ∈ status || 'C' ∈ status

/-- A file of `git status --porcelain=v1 -z`, with the path it was renamed or copied from. -/
structure PorcelainRecord where
  index : Char
  worktree : Char
  path : DocText
  original : Option DocText := none
  free : nul ∉ index :: worktree :: path
  named : path ≠ []
  moved : original.isSome = moves [index, worktree]
  originalFree : ∀ source ∈ original, nul ∉ source

namespace PorcelainRecord

variable (record : PorcelainRecord)

def status : DocText := [record.index, record.worktree]

def fields : List DocText := (record.status ++ ' ' :: record.path) :: record.original.toList

def text : DocText := record.fields.flatMap fun field => field ++ [nul]

end PorcelainRecord

/-- The loop over the fields; `consumed` tells that the next one is the original path of the record before it. -/
def fieldPaths (consumed : Bool) : List DocText → List DocText
  | [] => []
  | record :: rest =>
    if consumed then fieldPaths false rest
    else if record.length ≤ 3 then fieldPaths false rest
    else
      let status := record.take 2
      if 'D' ∈ status then fieldPaths (moves status) rest
      else record.drop 3 :: fieldPaths (moves status) rest

def porcelainPaths (listing : DocText) : List DocText := fieldPaths false (listing.splitOn nul)

section Listing

variable {fields rest : List DocText} {records : List PorcelainRecord}

theorem splitOn_ended (free : ∀ field ∈ fields, nul ∉ field) :
    (fields.flatMap fun field => field ++ [nul]).splitOn nul = fields ++ [[]] := by
  induction fields with
  | nil => rfl
  | cons field rest ih =>
    rw [List.forall_mem_cons] at free
    rw [List.flatMap_cons, List.append_assoc, List.singleton_append,
      List.splitOn_append_cons_self_of_not_mem free.1, ih free.2, List.cons_append]

theorem PorcelainRecord.fields_free (record : PorcelainRecord) : ∀ field ∈ record.fields, nul ∉ field := by
  intro field member
  have free := record.free
  have original := record.originalFree
  rcases List.mem_cons.mp member with rfl | moved
  · simp only [List.mem_cons, not_or] at free
    simp only [PorcelainRecord.status, List.mem_append, List.mem_cons, List.not_mem_nil, or_false, not_or]
    exact ⟨⟨free.1, free.2.1⟩, by decide, free.2.2⟩
  · exact original field (Option.mem_toList.mp moved)

/-- One record is read as itself, whatever fields follow. -/
theorem fieldPaths_record (record : PorcelainRecord) : fieldPaths false (record.fields ++ rest) =
    (if 'D' ∈ record.status then [] else [record.path]) ++ fieldPaths false rest := by
  have long : ¬ (record.status ++ ' ' :: record.path).length ≤ 3 := by
    have occupied := List.length_pos_of_ne_nil record.named
    simp only [PorcelainRecord.status, List.length_append, List.length_cons, List.length_nil]
    omega
  have status : (record.status ++ ' ' :: record.path).take 2 = record.status := rfl
  have path : (record.status ++ ' ' :: record.path).drop 3 = record.path := rfl
  have skipped : fieldPaths (moves record.status) (record.original.toList ++ rest) = fieldPaths false rest := by
    have moved := record.moved
    rw [show moves record.status = record.original.isSome from moved.symm]
    cases record.original with
    | none => rfl
    | some source => rfl
  rw [PorcelainRecord.fields, List.cons_append, fieldPaths, if_neg (by decide), if_neg long]
  dsimp only
  rw [status, path, skipped]
  by_cases deleted : 'D' ∈ record.status
  · rw [if_pos deleted, if_pos deleted, List.nil_append]
  · rw [if_neg deleted, if_neg deleted, List.singleton_append]

theorem fieldPaths_records : fieldPaths false (records.flatMap PorcelainRecord.fields ++ [[]]) =
    (records.filter fun record => 'D' ∉ record.status).map PorcelainRecord.path := by
  induction records with
  | nil => rfl
  | cons record rest ih =>
    rw [List.flatMap_cons, List.append_assoc, fieldPaths_record, ih, List.filter_cons]
    by_cases deleted : 'D' ∈ record.status
    · rw [if_pos deleted, if_neg (by simpa using deleted), List.nil_append]
    · rw [if_neg deleted, if_pos (by simpa using deleted), List.map_cons, List.singleton_append]

end Listing

/-- A listing is read as the paths of its records that are not deleted, in order. -/
theorem porcelain_paths_exact (records : List PorcelainRecord) :
    porcelainPaths (records.flatMap PorcelainRecord.text) =
      (records.filter fun record => 'D' ∉ record.status).map PorcelainRecord.path := by
  have listing : records.flatMap PorcelainRecord.text =
      (records.flatMap PorcelainRecord.fields).flatMap fun field => field ++ [nul] := by
    rw [List.flatMap_assoc]
    rfl
  have free : ∀ field ∈ records.flatMap PorcelainRecord.fields, nul ∉ field := by
    intro field member
    obtain ⟨record, -, inside⟩ := List.mem_flatMap.mp member
    exact record.fields_free field inside
  rw [porcelainPaths, listing, splitOn_ended free, fieldPaths_records]

def listedRecords : List PorcelainRecord :=
  [{ index := 'R', worktree := ' ', path := "src/app.py".toList, original := some "a".toList
     free := by decide, named := by decide, moved := by decide, originalFree := by decide },
    { index := 'R', worktree := 'D', path := "b".toList, original := some "D".toList
      free := by decide, named := by decide, moved := by decide, originalFree := by decide },
    { index := '?', worktree := '?', path := "notes.txt".toList
      free := by decide, named := by decide, moved := by decide, originalFree := by decide },
    { index := ' ', worktree := 'D', path := "gone.txt".toList
      free := by decide, named := by decide, moved := by decide, originalFree := by decide }]

/-- The original path `a` is shorter than a status and is not read as a record. -/
theorem listedRecords_paths :
    porcelainPaths "R  src/app.py\x00a\x00RD b\x00D\x00?? notes.txt\x00 D gone.txt\x00".toList =
      ["src/app.py".toList, "notes.txt".toList] := by
  have listing : listedRecords.flatMap PorcelainRecord.text =
      "R  src/app.py\x00a\x00RD b\x00D\x00?? notes.txt\x00 D gone.txt\x00".toList := by decide
  have kept : (listedRecords.filter fun record => 'D' ∉ record.status).map PorcelainRecord.path =
      ["src/app.py".toList, "notes.txt".toList] := by decide
  rw [← listing, ← kept]
  exact porcelain_paths_exact listedRecords

end DarkFactory
