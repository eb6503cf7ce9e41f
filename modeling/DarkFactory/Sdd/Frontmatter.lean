import DarkFactory.Changes.Text
import DarkFactory.Lib.Lines
import DarkFactory.Lib.Outcome

namespace DarkFactory

inductive SddFailureKind
  | baselineMismatch | missingArtifact | frontmatter | yaml | validation | unicode | os | sdd | changeNotFound
  deriving DecidableEq, Repr

structure SddFailure where
  kind : SddFailureKind
  message : String
  deriving DecidableEq, Repr

abbrev DocText := List Char

inductive FieldValue (α : Type)
  | none
  | text (characters : String)
  | other (value : α)
  deriving DecidableEq, Repr

/-- A mapping with its text keys; `foreignKeys` tells whether it has others. -/
structure RawMapping (α : Type) where
  entries : List (String × FieldValue α) := []
  foreignKeys : Bool := false
  deriving DecidableEq, Repr

inductive Loaded (α : Type)
  | null
  | mapping (raw : RawMapping α)
  | other

/-- The packages a document goes through: `yaml`, and the JSON mode of `pydantic`. -/
structure Packages (α : Type) where
  safeLoad : DocText → Except String (Loaded α)
  safeDump : List (String × FieldValue α) → DocText
  json : α → FieldValue α

def minimalFrontmatterFields : List String := ["schema", "id", "type", "title", "product", "status", "change"]

structure Frontmatter (α : Type) where
  schema : String
  id : String
  type : String
  title : String
  product : String
  status : String
  change : String
  extra : List (String × FieldValue α) := []
  complete : "" ∉ [schema, id, type, title, product, status, change] := by decide
  deriving DecidableEq

section Document

variable {α : Type}

def withStatus (frontmatter : Frontmatter α) (status : String) (nonempty : status ≠ "" := by decide) : Frontmatter α :=
  { frontmatter with
    status
    complete := by
      have complete := frontmatter.complete
      simp only [List.mem_cons, List.not_mem_nil, or_false, not_or] at complete ⊢
      exact ⟨complete.1, complete.2.1, complete.2.2.1, complete.2.2.2.1, complete.2.2.2.2.1, Ne.symm nonempty,
        complete.2.2.2.2.2.2⟩ }

/-- What the frontmatter is dumped as: the minimal fields in order, then the extra ones that are not none. -/
def Frontmatter.payload (packages : Packages α) (frontmatter : Frontmatter α) : List (String × FieldValue α) :=
  [("schema", .text frontmatter.schema), ("id", .text frontmatter.id), ("type", .text frontmatter.type),
    ("title", .text frontmatter.title), ("product", .text frontmatter.product), ("status", .text frontmatter.status),
    ("change", .text frontmatter.change)] ++
  frontmatter.extra.filterMap fun (name, value) =>
    match value with
    | .none => none
    | .text characters => some (name, .text characters)
    | .other value => some (name, packages.json value)

/-- The characters `str.splitlines` breaks at. -/
def lineBreak (c : Char) : Bool :=
  let n := c.toNat
  (10 ≤ n && n ≤ 13) || (28 ≤ n && n ≤ 30) || n == 0x85 || n == 0x2028 || n == 0x2029

/-- The universal newlines of text files: a return, and a return with its newline, are one newline. -/
def newlines (afterReturn : Bool) : DocText → DocText
  | [] => []
  | c :: rest =>
    if c = '\r' then '\n' :: newlines true rest
    else if c = '\n' && afterReturn then newlines false rest
    else c :: newlines false rest

def splitlines (text : DocText) : List DocText := Lines.split lineBreak (newlines false text)

def joinLines (lines : List DocText) : DocText := Lines.join '\n' lines

def stripText (text : DocText) : DocText := Lines.strip Text.isSpace text

def isDelimiter (line : DocText) : Bool := stripText line = "---".toList

def loadRaw (packages : Packages α) (block : DocText) : Except SddFailure (RawMapping α) :=
  match packages.safeLoad block with
  | .error message => .error ⟨.yaml, message⟩
  | .ok .null => .ok {}
  | .ok (.mapping raw) => .ok raw
  | .ok .other => .error ⟨.frontmatter, "frontmatter must be a YAML mapping"⟩

def splitFrontmatter (packages : Packages α) (text : DocText) :
    Except SddFailure (Option (RawMapping α) × DocText) :=
  match splitlines text with
  | [] => .ok (none, text)
  | first :: rest =>
    if !isDelimiter first then .ok (none, text)
    else
      match rest.dropWhile fun line => !isDelimiter line with
      | [] => .error ⟨.frontmatter, "unterminated frontmatter block"⟩
      | _ :: body => do
        let raw ← loadRaw packages (joinLines (rest.takeWhile fun line => !isDelimiter line))
        return (some raw, joinLines body)

def RawMapping.get (data : RawMapping α) (name : String) : FieldValue α :=
  ((data.entries.find? fun entry => entry.1 = name).map Prod.snd).getD .none

/-- The text of a field; a value of another type is invalid. -/
def RawMapping.field (data : RawMapping α) (name : String) : Except SddFailure String :=
  match data.get name with
  | .text characters => .ok characters
  | _ => .error ⟨.validation, name ++ ": Input should be a valid string"⟩

def isMissing : FieldValue α → Bool
  | .none => true
  | .text characters => characters = ""
  | .other _ => false

def validateFrontmatter (data : RawMapping α) : Except SddFailure (Frontmatter α) :=
  let missing := minimalFrontmatterFields.filter fun name => isMissing (data.get name)
  if missing ≠ [] then
    .error ⟨.frontmatter, "frontmatter is missing required fields: " ++ Text.join ", " missing⟩
  else if data.foreignKeys then .error ⟨.validation, "Keys should be strings"⟩
  else do
    let schema ← data.field "schema"
    let id ← data.field "id"
    let type ← data.field "type"
    let title ← data.field "title"
    let product ← data.field "product"
    let status ← data.field "status"
    let change ← data.field "change"
    if complete : "" ∉ [schema, id, type, title, product, status, change] then
      return { schema, id, type, title, product, status, change, complete
               extra := data.entries.filter fun entry => !minimalFrontmatterFields.contains entry.1 }
    else .error ⟨.validation, "String should have at least 1 character"⟩

def parseFrontmatter (packages : Packages α) (text : DocText) : Except SddFailure (Option (Frontmatter α)) := do
  let (raw, _) ← splitFrontmatter packages text
  match raw with
  | none => return none
  | some raw => return some (← validateFrontmatter raw)

def readDocument (packages : Packages α) (text : DocText) : Except SddFailure (Option (Frontmatter α) × DocText) := do
  let (raw, body) ← splitFrontmatter packages text
  match raw with
  | none => return (none, body)
  | some raw => return (some (← validateFrontmatter raw), body)

def renderDocument (packages : Packages α) (frontmatter : Frontmatter α) (body : DocText) : DocText :=
  "---\n".toList ++ stripText (packages.safeDump (frontmatter.payload packages)) ++ "\n---\n\n".toList ++
    stripText body ++ "\n".toList

/-- The lines between the delimiters of a rendered document, as they are read back. -/
def blockLines (packages : Packages α) (frontmatter : Frontmatter α) : List DocText :=
  splitlines (stripText (packages.safeDump (frontmatter.payload packages)) ++ ['\n'])

def rereadFrontmatter (packages : Packages α) (frontmatter : Frontmatter α) : Except SddFailure (Frontmatter α) :=
  loadRaw packages (joinLines ((blockLines packages frontmatter).takeWhile fun line => !isDelimiter line)) >>=
    validateFrontmatter

structure ReadsBack (packages : Packages α) (frontmatter : Frontmatter α) : Prop where
  undelimited : ∀ line ∈ blockLines packages frontmatter, isDelimiter line = false
  loads : (loadRaw packages (joinLines (blockLines packages frontmatter)) >>= validateFrontmatter) = .ok frontmatter

end Document

section Newlines

variable {text front back : DocText} {afterReturn : Bool}

theorem newlines_free : ∀ c ∈ newlines afterReturn text, c ≠ '\r' := by
  induction text generalizing afterReturn with
  | nil =>
    intro c absent
    cases absent
  | cons first rest ih =>
    rw [newlines]
    split
    · rw [List.forall_mem_cons]
      exact ⟨by decide, ih⟩
    · rename_i other
      split
      · exact ih
      · rw [List.forall_mem_cons]
        exact ⟨other, ih⟩

theorem newlines_id (free : ∀ c ∈ text, c ≠ '\r') : newlines false text = text := by
  induction text with
  | nil => rfl
  | cons first rest ih =>
    rw [List.forall_mem_cons] at free
    rw [newlines, if_neg free.1, if_neg (by simp), ih free.2]

theorem newlines_newlines : newlines false (newlines false text) = newlines false text := newlines_id newlines_free

theorem splitlines_newlines : splitlines (newlines false text) = splitlines text := by
  rw [splitlines, newlines_newlines, splitlines]

theorem newlines_append (closed : ∀ last, front.getLast? = some last → last ≠ '\r')
    (fresh : front = [] → afterReturn = false) :
    newlines afterReturn (front ++ back) = newlines afterReturn front ++ newlines false back := by
  induction front generalizing afterReturn with
  | nil => rw [fresh rfl, List.nil_append, newlines, List.nil_append]
  | cons first rest ih =>
    have later (last : Char) (here : rest.getLast? = some last) : last ≠ '\r' := by
      apply closed last
      rw [List.getLast?_cons, here]
      rfl
    rw [List.cons_append, newlines, newlines]
    split
    · rename_i returns
      rw [ih later ?_, List.cons_append]
      rintro rfl
      exact absurd returns (closed first rfl)
    · split
      · exact ih later fun _ => rfl
      · rw [ih later fun _ => rfl, List.cons_append]

theorem stripText_last (last : Char) (here : (stripText text).getLast? = some last) : last ≠ '\r' := by
  rintro rfl
  cases Lines.strip_last here

theorem newlines_strip : newlines false (stripText text ++ back) = newlines false (stripText text) ++ newlines false back :=
  newlines_append stripText_last fun _ => rfl

end Newlines

section Lines

variable {text front back : DocText}

theorem lineBreak_space (c : Char) (breaks : lineBreak c = true) : Text.isSpace c = true := by
  unfold lineBreak at breaks
  unfold Text.isSpace
  simp only [Bool.or_eq_true, Bool.and_eq_true, decide_eq_true_eq, beq_iff_eq] at breaks ⊢
  omega

theorem split_newline : Lines.split lineBreak (front ++ '\n' :: back) =
    Lines.split lineBreak (front ++ ['\n']) ++ Lines.split lineBreak back := Lines.split_append (by decide)

theorem splitlines_strip : splitlines (stripText text ++ '\n' :: back) =
    splitlines (stripText text ++ ['\n']) ++ splitlines back := by
  have read (rest : DocText) : newlines false ('\n' :: rest) = '\n' :: newlines false rest := by
    rw [newlines, if_neg (by decide), if_neg (by decide)]
  simp only [splitlines, newlines_strip, read]
  exact split_newline

theorem splitlines_empty : splitlines ('\n' :: text) = [] :: splitlines text := by
  have read : newlines false ('\n' :: text) = '\n' :: newlines false text := rfl
  rw [splitlines, read, Lines.split, if_pos (by decide), splitlines]

theorem splitlines_delimiter : splitlines ("---".toList ++ '\n' :: text) = "---".toList :: splitlines text := by
  have read : newlines false ("---".toList ++ '\n' :: text) = "---".toList ++ '\n' :: newlines false text := rfl
  have line : Lines.split lineBreak ("---".toList ++ ['\n']) = ["---".toList] := by decide
  rw [splitlines, read, split_newline, line]
  rfl

theorem splitlines_render {α : Type} (packages : Packages α) (frontmatter : Frontmatter α) (body : DocText) :
    splitlines (renderDocument packages frontmatter body) =
      "---".toList :: (blockLines packages frontmatter ++
        "---".toList :: [] :: splitlines (stripText body ++ ['\n'])) := by
  have shape : renderDocument packages frontmatter body = "---".toList ++ '\n' ::
      (stripText (packages.safeDump (frontmatter.payload packages)) ++ '\n' ::
        ("---".toList ++ '\n' :: '\n' :: (stripText body ++ ['\n']))) := by
    have opening : "---\n".toList = "---".toList ++ ['\n'] := by decide
    have closing : "\n---\n\n".toList = '\n' :: ("---".toList ++ ['\n', '\n']) := by decide
    have ending : "\n".toList = ['\n'] := by decide
    unfold renderDocument
    rw [opening, closing, ending]
    simp only [List.append_assoc, List.cons_append, List.nil_append]
  have behind : splitlines ("---".toList ++ '\n' :: '\n' :: (stripText body ++ ['\n'])) =
      "---".toList :: [] :: splitlines (stripText body ++ ['\n']) := by
    rw [splitlines_delimiter, splitlines_empty]
  rw [shape, splitlines_delimiter, splitlines_strip, behind, blockLines]

end Lines

abbrev textWeight (text : DocText) : Nat := Lines.weight Text.isSpace text

/-- The only line breaks of the text are newlines. -/
def PlainBreaks (text : DocText) : Prop := ∀ c ∈ text, lineBreak c = true → c = '\n'

instance (text : DocText) : Decidable (PlainBreaks text) :=
  decidable_of_iff (text.all (fun c => !lineBreak c || c = '\n') = true) (by
    rw [List.all_eq_true]
    refine forall₂_congr fun c _ => ?_
    cases lineBreak c <;> simp)

section Split

variable {α : Type} {packages : Packages α} {frontmatter : Frontmatter α} {text body source : DocText}
  {raw : Option (RawMapping α)}

theorem newlines_weight (afterReturn : Bool) (text : DocText) : textWeight (newlines afterReturn text) = textWeight text := by
  have light (c : Char) (space : Text.isSpace c = true) (rest : DocText) : textWeight (c :: rest) = textWeight rest := by
    simp [textWeight, Lines.weight, space]
  induction text generalizing afterReturn with
  | nil => rfl
  | cons first rest ih =>
    rw [newlines]
    split
    · rename_i returns
      rw [light _ (by decide), ih, returns, light _ (by decide)]
    · split
      · rename_i follows
        obtain ⟨newline, -⟩ := Bool.and_eq_true_iff.mp follows
        rw [ih, of_decide_eq_true newline, light _ (by decide)]
      · have each := ih false
        unfold textWeight Lines.weight at each ⊢
        rw [List.countP_cons, List.countP_cons, each]

theorem splitlines_weight (text : DocText) : ((splitlines text).map textWeight).sum = textWeight text := by
  rw [splitlines]
  exact (Lines.weight_split lineBreak_space).trans (newlines_weight false text)

theorem joinLines_weight (lines : List DocText) : textWeight (joinLines lines) = (lines.map textWeight).sum :=
  Lines.weight_join (by decide) lines

theorem isDelimiter_weight {line : DocText} (delimiter : isDelimiter line = true) : textWeight line = 3 := by
  have stripped : stripText line = "---".toList := of_decide_eq_true delimiter
  rw [textWeight, ← Lines.weight_strip, show Lines.strip Text.isSpace line = "---".toList from stripped]
  decide

theorem splitFrontmatter_some {found : RawMapping α} (done : splitFrontmatter packages text = .ok (some found, body)) :
    ∃ first block last rest, splitlines text = first :: (block ++ last :: rest) ∧ isDelimiter first = true ∧
      (∀ line ∈ block, isDelimiter line = false) ∧ isDelimiter last = true ∧
      loadRaw packages (joinLines block) = .ok found ∧ body = joinLines rest := by
  unfold splitFrontmatter at done
  cases lines : splitlines text with
  | nil => simp [lines] at done
  | cons first rest =>
    simp only [lines] at done
    cases opens : isDelimiter first with
    | false => simp [opens] at done
    | true =>
      simp only [opens, Bool.not_true, Bool.false_eq_true, if_false] at done
      cases remains : rest.dropWhile fun line => !isDelimiter line with
      | nil => simp [remains] at done
      | cons last tail =>
        simp only [remains] at done
        obtain ⟨raw, loaded, same⟩ := Outcome.bind_ok.mp done
        cases same
        have closes := List.head?_dropWhile_not (fun line => !isDelimiter line) rest
        rw [remains] at closes
        refine ⟨first, rest.takeWhile fun line => !isDelimiter line, last, tail, ?_, opens, ?_, by simpa using closes, loaded,
          rfl⟩
        · rw [← remains, List.takeWhile_append_dropWhile]
        · intro line member
          simpa using List.mem_takeWhile_imp member

theorem splitFrontmatter_weight {found : RawMapping α} (done : splitFrontmatter packages text = .ok (some found, body)) :
    textWeight body + 6 ≤ textWeight text := by
  obtain ⟨first, block, last, rest, lines, opens, -, closes, -, rfl⟩ := splitFrontmatter_some done
  have total := splitlines_weight text
  rw [lines, List.map_cons, List.map_append, List.map_cons, List.sum_cons, List.sum_append, List.sum_cons,
    isDelimiter_weight opens, isDelimiter_weight closes] at total
  rw [joinLines_weight]
  omega

theorem splitFrontmatter_plain {found : RawMapping α} (done : splitFrontmatter packages text = .ok (some found, body)) :
    PlainBreaks body := by
  obtain ⟨first, block, last, rest, lines, -, -, -, -, rfl⟩ := splitFrontmatter_some done
  apply Lines.join_breaks
  intro line member
  have listed : line ∈ splitlines text := by
    rw [lines]
    simp [member]
  exact Lines.split_free line listed

theorem splitFrontmatter_delimited {first : DocText} {block rest : List DocText} {last : DocText}
    (lines : splitlines text = first :: (block ++ last :: rest)) (opens : isDelimiter first = true)
    (undelimited : ∀ line ∈ block, isDelimiter line = false) (closes : isDelimiter last = true) :
    splitFrontmatter packages text =
      (loadRaw packages (joinLines block) >>= fun raw => .ok (some raw, joinLines rest)) := by
  have all (line : DocText) (member : line ∈ block) : (!isDelimiter line) = true := by
    rw [undelimited line member]
    rfl
  have taken : (block ++ last :: rest).takeWhile (fun line => !isDelimiter line) = block := by
    rw [List.takeWhile_append_of_pos all, List.takeWhile_cons, if_neg (by simp [closes]), List.append_nil]
  have left : (block ++ last :: rest).dropWhile (fun line => !isDelimiter line) = last :: rest := by
    rw [List.dropWhile_append_of_pos all, List.dropWhile_cons, if_neg (by simp [closes])]
  simp only [splitFrontmatter, lines, opens, Bool.not_true, Bool.false_eq_true, if_false, taken, left]
  rfl

theorem newline_unreturned (plain : PlainBreaks text) : ∀ c ∈ text ++ ['\n'], c ≠ '\r' := by
  intro c member
  rw [List.mem_append, List.mem_singleton] at member
  rcases member with listed | rfl
  · rintro rfl
    cases plain _ listed (by decide)
  · decide

theorem joinLines_splitlines (plain : PlainBreaks text) : joinLines (splitlines (text ++ ['\n'])) = text := by
  rw [splitlines, newlines_id (newline_unreturned plain)]
  exact Lines.join_split (by decide) plain

theorem PlainBreaks.strip (plain : PlainBreaks text) : PlainBreaks (stripText text) :=
  fun c member => plain c (Lines.mem_strip member)

theorem joinLines_strip (plain : PlainBreaks source) :
    joinLines ([] :: splitlines (stripText source ++ ['\n'])) = '\n' :: stripText source := by
  have joined : joinLines (splitlines (stripText source ++ ['\n'])) = stripText source := joinLines_splitlines plain.strip
  have occupied : splitlines (stripText source ++ ['\n']) ≠ [] := by
    rw [splitlines, newlines_id (newline_unreturned plain.strip)]
    exact Lines.split_ne_nil (by simp)
  obtain ⟨line, lines, shape⟩ := List.exists_cons_of_ne_nil occupied
  rw [shape] at joined ⊢
  rw [joinLines, Lines.join_cons, List.nil_append]
  exact congrArg ('\n' :: ·) joined

theorem splitFrontmatter_render (undelimited : ∀ line ∈ blockLines packages frontmatter, isDelimiter line = false)
    (plain : PlainBreaks source) (same : splitlines text = splitlines (renderDocument packages frontmatter source)) :
    splitFrontmatter packages text = (loadRaw packages (joinLines (blockLines packages frontmatter)) >>= fun raw =>
      .ok (some raw, '\n' :: stripText source)) := by
  rw [splitlines_render] at same
  rw [splitFrontmatter_delimited same (by decide) undelimited (by decide), joinLines_strip plain]

theorem splitFrontmatter_opens {first : DocText} {rest : List DocText} (lines : splitlines text = first :: rest)
    (opens : isDelimiter first = true) (done : splitFrontmatter packages text = .ok (raw, body)) :
    ∃ found, raw = some found := by
  unfold splitFrontmatter at done
  simp only [lines, opens, Bool.not_true, Bool.false_eq_true, if_false] at done
  split at done
  · cases done
  · obtain ⟨found, -, same⟩ := Outcome.bind_ok.mp done
    cases same
    exact ⟨found, rfl⟩

/-- However the block of a rendered document is read, the body it was given is behind it, and more where a line of the
    block is a delimiter. -/
theorem splitFrontmatter_render_weight (same : splitlines text = splitlines (renderDocument packages frontmatter source))
    (done : splitFrontmatter packages text = .ok (raw, body)) : textWeight source ≤ textWeight body ∧
      ((∀ line ∈ blockLines packages frontmatter, isDelimiter line = false) ∨ textWeight source + 3 ≤ textWeight body) := by
  rw [splitlines_render] at same
  obtain ⟨found, rfl⟩ := splitFrontmatter_opens same (by decide) done
  obtain ⟨first, block, last, rest, lines, -, undelimited, -, -, rfl⟩ := splitFrontmatter_some done
  rw [same] at lines
  have whole : textWeight (stripText source ++ ['\n']) = textWeight source := by
    rw [textWeight, Lines.weight_append, stripText, Lines.weight_strip]
    rfl
  have behind : (([] :: splitlines (stripText source ++ ['\n'])).map textWeight).sum = textWeight source := by
    rw [List.map_cons, List.sum_cons, splitlines_weight, whole]
    exact Nat.zero_add _
  rw [joinLines_weight]
  rcases List.append_eq_append_iff.mp (List.cons.inj lines).2 with ⟨more, longer, tail⟩ | ⟨more, shorter, tail⟩
  · cases more with
    | nil =>
      rw [List.append_nil] at longer
      rw [List.nil_append] at tail
      rw [← (List.cons.inj tail).2, behind, ← longer]
      exact ⟨Nat.le_refl _, Or.inl undelimited⟩
    | cons head others =>
      have inside : head ∈ block := by
        rw [longer]
        simp
      have delimiter := undelimited head inside
      rw [← (List.cons.inj tail).1] at delimiter
      cases delimiter
  · cases more with
    | nil =>
      rw [List.append_nil] at shorter
      rw [List.nil_append] at tail
      rw [(List.cons.inj tail).2, behind, shorter]
      exact ⟨Nat.le_refl _, Or.inl undelimited⟩
    | cons head others =>
      have heavier : (rest.map textWeight).sum = (others.map textWeight).sum + (3 + textWeight source) := by
        rw [List.cons_append] at tail
        rw [(List.cons.inj tail).2, List.map_append, List.sum_append, List.map_cons, List.sum_cons, behind,
          isDelimiter_weight (by decide)]
      rw [heavier]
      exact ⟨by omega, Or.inr (by omega)⟩

theorem takeWhile_render (block : List DocText) {line : DocText} {rest : List DocText} (closes : isDelimiter line = true) :
    (block ++ line :: rest).takeWhile (fun line => !isDelimiter line) = block.takeWhile fun line => !isDelimiter line := by
  induction block with
  | nil => rw [List.nil_append, List.takeWhile_cons, if_neg (by simp [closes]), List.takeWhile_nil]
  | cons first rest ih =>
    rw [List.cons_append, List.takeWhile_cons, List.takeWhile_cons, ih]

/-- The frontmatter of a rendered document is read from the lines of its block alone. -/
theorem parseFrontmatter_render (same : splitlines text = splitlines (renderDocument packages frontmatter source)) :
    parseFrontmatter packages text = (rereadFrontmatter packages frontmatter).map some := by
  rw [splitlines_render] at same
  have opens : isDelimiter "---".toList = true := by decide
  have remains : (blockLines packages frontmatter ++
      "---".toList :: [] :: splitlines (stripText source ++ ['\n'])).dropWhile (fun line => !isDelimiter line) ≠ [] := by
    intro none
    have each := List.dropWhile_eq_nil_iff.mp none "---".toList (by simp)
    rw [opens] at each
    cases each
  obtain ⟨last, tail, shape⟩ := List.exists_cons_of_ne_nil remains
  unfold parseFrontmatter splitFrontmatter rereadFrontmatter
  simp only [same, opens, Bool.not_true, Bool.false_eq_true, if_false, shape, takeWhile_render _ opens]
  cases loadRaw packages (joinLines ((blockLines packages frontmatter).takeWhile fun line => !isDelimiter line)) with
  | error failure => rfl
  | ok raw =>
    simp only [Bind.bind, Except.bind, Pure.pure, Except.pure]
    cases validateFrontmatter raw <;> rfl

theorem readDocument_some (done : readDocument packages text = .ok (some frontmatter, body)) :
    ∃ raw, splitFrontmatter packages text = .ok (some raw, body) ∧ validateFrontmatter raw = .ok frontmatter := by
  obtain ⟨⟨raw, rest⟩, splits, read⟩ := Outcome.bind_ok.mp done
  cases raw with
  | none =>
    obtain ⟨-, rfl⟩ := Prod.mk.inj (Outcome.pure_ok.mp read)
    cases read
  | some raw =>
    obtain ⟨found, valid, same⟩ := Outcome.bind_ok.mp read
    cases same
    exact ⟨raw, splits, valid⟩

theorem readDocument_eq {found : RawMapping α} (splits : splitFrontmatter packages text = .ok (some found, body))
    (valid : validateFrontmatter found = .ok frontmatter) : readDocument packages text = .ok (some frontmatter, body) :=
  Outcome.bind_ok.mpr ⟨_, splits, Outcome.bind_ok.mpr ⟨frontmatter, valid, rfl⟩⟩

theorem parseFrontmatter_iff : parseFrontmatter packages text = .ok (some frontmatter) ↔
    ∃ body, readDocument packages text = .ok (some frontmatter, body) := by
  constructor
  · intro done
    obtain ⟨⟨raw, body⟩, splits, read⟩ := Outcome.bind_ok.mp done
    cases raw with
    | none => cases read
    | some raw =>
      obtain ⟨found, valid, same⟩ := Outcome.bind_ok.mp read
      cases same
      exact ⟨body, readDocument_eq splits valid⟩
  · rintro ⟨body, done⟩
    obtain ⟨raw, splits, valid⟩ := readDocument_some done
    exact Outcome.bind_ok.mpr ⟨_, splits, Outcome.bind_ok.mpr ⟨frontmatter, valid, rfl⟩⟩

/-- A rendered document is read as it was given exactly when its frontmatter reads back. -/
theorem readsBack_iff (plain : PlainBreaks source)
    (same : splitlines text = splitlines (renderDocument packages frontmatter source)) :
    (∃ body, readDocument packages text = .ok (some frontmatter, body) ∧ stripText body = stripText source) ↔
      ReadsBack packages frontmatter := by
  constructor
  · rintro ⟨body, done, trimmed⟩
    obtain ⟨raw, splits, valid⟩ := readDocument_some done
    have weights : textWeight body = textWeight source := by
      rw [textWeight, ← Lines.weight_strip, show Lines.strip Text.isSpace body = stripText source from trimmed, stripText,
        Lines.weight_strip]
    have undelimited : ∀ line ∈ blockLines packages frontmatter, isDelimiter line = false := by
      refine (splitFrontmatter_render_weight same splits).2.resolve_right ?_
      omega
    refine ⟨undelimited, ?_⟩
    rw [splitFrontmatter_render undelimited plain same] at splits
    obtain ⟨found, loaded, equal⟩ := Outcome.bind_ok.mp splits
    cases equal
    exact Outcome.bind_ok.mpr ⟨raw, loaded, valid⟩
  · rintro ⟨undelimited, loads⟩
    obtain ⟨raw, loaded, valid⟩ := Outcome.bind_ok.mp loads
    refine ⟨'\n' :: stripText source, ?_, ?_⟩
    · apply readDocument_eq ?_ valid
      rw [splitFrontmatter_render undelimited plain same, loaded]
      rfl
    · have space : ∀ c ∈ ['\n'], Text.isSpace c = true := by
        intro c newline
        rw [List.mem_singleton.mp newline]
        decide
      exact (Lines.strip_spaces space).trans Lines.strip_strip

end Split

end DarkFactory
