import DarkFactory.Lib.Regex
import DarkFactory.Sdd.Frontmatter

namespace DarkFactory

/-- A value `yaml.safe_load` returns. A scalar is a number, a truth value, a date, bytes or another opaque value, with
    its printed forms and, for bytes, the text they decode to. -/
inductive Yaml
  | null
  | text (characters : String)
  | scalar (shown repr : String) (truthy : Bool) (decoded : Option String)
  | list (items : List Yaml)
  | mapping (entries : List (Yaml × Yaml))

abbrev YamlMapping := List (Yaml × Yaml)

namespace Yaml

mutual

def repr : Yaml → String
  | .null => "None"
  | .text characters => Text.repr characters
  | .scalar _ repr _ _ => repr
  | .list items => "[" ++ Text.join ", " (reprItems items) ++ "]"
  | .mapping entries => "\x7b" ++ Text.join ", " (reprEntries entries) ++ "\x7d"

def reprItems : List Yaml → List String
  | [] => []
  | item :: rest => item.repr :: reprItems rest

def reprEntries : List (Yaml × Yaml) → List String
  | [] => []
  | (key, value) :: rest => (key.repr ++ ": " ++ value.repr) :: reprEntries rest

end

def str : Yaml → String
  | .text characters => characters
  | .scalar shown _ _ _ => shown
  | value => value.repr

def truthy : Yaml → Bool
  | .null => false
  | .text characters => characters ≠ ""
  | .scalar _ _ truthy _ => truthy
  | .list items => !items.isEmpty
  | .mapping entries => !entries.isEmpty

def isText (name : String) : Yaml → Bool
  | .text characters => characters = name
  | _ => false

end Yaml

def YamlMapping.get (entries : YamlMapping) (name : String) : Yaml :=
  ((entries.find? fun entry => entry.1.isText name).map Prod.snd).getD .null

abbrev NonemptyText := { text : String // text ≠ "" }

def nonempty (field text : String) : Except SddFailure NonemptyText :=
  if named : text ≠ "" then .ok ⟨text, named⟩
  else .error ⟨.validation, field ++ ": String should have at least 1 character"⟩

/-- The stripped text, unless nothing is left of it. -/
def cleanText (text : String) : Option NonemptyText :=
  if named : Text.strip text ≠ "" then some ⟨Text.strip text, named⟩ else none

def Yaml.clean : Yaml → Option NonemptyText
  | .null => none
  | value => cleanText value.str

def keepFirst {α : Type} [DecidableEq α] (items : List α) : List α :=
  items.foldl (fun seen item => if item ∈ seen then seen else seen ++ [item]) []

theorem mem_keepFirst {α : Type} [DecidableEq α] {items : List α} {item : α} : item ∈ keepFirst items ↔ item ∈ items := by
  have grown (seen : List α) : item ∈ items.foldl (fun seen item => if item ∈ seen then seen else seen ++ [item]) seen ↔
      item ∈ seen ∨ item ∈ items := by
    induction items generalizing seen with
    | nil => simp
    | cons head tail ih =>
      rw [List.foldl_cons, ih, List.mem_cons]
      by_cases held : head ∈ seen
      · rw [if_pos held]
        grind
      · rw [if_neg held, List.mem_append, List.mem_singleton, or_assoc]
  exact (grown []).trans (by simp)

def loadMapping (safeLoad : DocText → Except String Yaml) (block : DocText) : Except SddFailure YamlMapping :=
  match safeLoad block with
  | .error message => .error ⟨.yaml, message⟩
  | .ok .null => .ok []
  | .ok (.mapping entries) => .ok entries
  | .ok _ => .error ⟨.frontmatter, "frontmatter must be a YAML mapping"⟩

def frontmatterBlock (text : DocText) : Except SddFailure (Option (DocText × DocText)) :=
  match splitlines text with
  | [] => .ok none
  | first :: rest =>
    if !isDelimiter first then .ok none
    else
      match rest.dropWhile fun line => !isDelimiter line with
      | [] => .error ⟨.frontmatter, "unterminated frontmatter block"⟩
      | _ :: body => .ok (some (joinLines (rest.takeWhile fun line => !isDelimiter line), joinLines body))

/-- `split_frontmatter`, whatever a block is loaded as. -/
def splitWith {ρ : Type} (load : DocText → Except SddFailure ρ) (text : DocText) :
    Except SddFailure (Option ρ × DocText) :=
  match frontmatterBlock text with
  | .error failure => .error failure
  | .ok none => .ok (none, text)
  | .ok (some (block, body)) =>
    match load block with
    | .error failure => .error failure
    | .ok raw => .ok (some raw, body)

def splitDocument (safeLoad : DocText → Except String Yaml) (text : DocText) :
    Except SddFailure (Option YamlMapping × DocText) := splitWith (loadMapping safeLoad) text

/-- The split under `except FrontmatterError`: what is caught is the message, and every other error escapes. -/
def readFrontmatter (safeLoad : DocText → Except String Yaml) (text : DocText) :
    Except SddFailure (Except String (Option YamlMapping × DocText)) :=
  match splitDocument safeLoad text with
  | .ok split => .ok (.ok split)
  | .error failure => if failure.kind = .frontmatter then .ok (.error failure.message) else .error failure

/-- The stored artifacts are split in the same way. -/
theorem splitFrontmatter_eq {α : Type} (packages : Packages α) (text : DocText) :
    splitFrontmatter packages text = splitWith (loadRaw packages) text := by
  unfold splitFrontmatter splitWith frontmatterBlock
  cases splitlines text with
  | nil => rfl
  | cons first rest =>
    dsimp only
    cases isDelimiter first with
    | false => rfl
    | true =>
      cases rest.dropWhile (fun line => !isDelimiter line) with
      | nil => rfl
      | cons stop body =>
        simp only [Bool.not_true, Bool.false_eq_true, ↓reduceIte]
        cases loadRaw packages (joinLines (rest.takeWhile fun line => !isDelimiter line)) <;> rfl

end DarkFactory
