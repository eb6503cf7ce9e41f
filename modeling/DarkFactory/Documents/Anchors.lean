import DarkFactory.Documents.Markdown

namespace DarkFactory

namespace Anchors

open Regex Pattern

variable (unicode : Unicode)

def stableId : Regex Char :=
  .seq (wordBoundary unicode) (.seq
    (oneOf
      [sequence
        [oneOf (["REQ", "AC", "SCN", "SCR", "CAP", "ADR", "TASK", "EVD", "FR", "NFR", "US", "Q"].map literal),
          literal "-", plus digit true,
          .star (.seq (.char fun c => c = '.' || c = '-') (plus alphanumeric true)) true],
        sequence [literal "EL-", plus alphanumeric true, .star (.seq (literal "-") (plus alphanumeric true)) true],
        sequence [literal "S", plus digit true]])
    (wordBoundary unicode))

def anyHeading : Regex Char := heading (.group 1 (.seq (literal "#") (upTo (literal "#") 5))) 2

def explicitAnchor : Regex Char :=
  sequence
    [literal "\x7b#",
      .group 1 (plus (oneOf [alphanumeric, .char fun c => c = '_' || c = '.' || c = ':' || c = '-']) true), literal "\x7d"]

def htmlAnchor : Regex Char :=
  sequence
    [literal "<a", plus space true, oneOf [literal "id", literal "name"], literal "=", .char (· = Text.quotation),
      .group 1 (plus (.char (· ≠ Text.quotation)) true), .char (· = Text.quotation)]

def headingSlug (text : DocText) : DocText :=
  let cleaned := unicode.lower (stripText (explicitAnchor.sub [] text))
  let cleaned := Regex.sub (.char fun c => !(unicode.isWord c || Text.isSpace c || c = '-')) [] cleaned
  Lines.strip (· = '-') (Regex.sub (plus space true) ['-'] cleaned)

def headingAnchors (title : DocText) : List DocText :=
  (explicitAnchor.matches_ title).map (·.get 1) ++ [headingSlug unicode title].filter (· ≠ [])

/-- The block as `_frontmatter_block` reads it once more; without one it is empty. -/
def rawBlock (content : DocText) : DocText :=
  match frontmatterBlock content with
  | .ok (some (block, _)) => block
  | _ => []

def frontmatterAnchors (content : DocText) (raw : YamlMapping) : List DocText :=
  (match raw.get "id" with
    | .text identifier => [stripText identifier.toList].filter (· ≠ [])
    | _ => []) ++
  ((stableId unicode).matches_ (rawBlock content)).map Found.text

def bodyAnchors (body : DocText) : List DocText :=
  let text := fence.sub [] body
  (anyHeading.matches_ text).flatMap (fun found => headingAnchors unicode (found.get 2)) ++
    ((stableId unicode).matches_ text).map Found.text ++
    (explicitAnchor.matches_ text).map (·.get 1) ++ (htmlAnchor.matches_ text).map (·.get 1)

def anchorsIn (content : DocText) (raw : Option YamlMapping) (body : DocText) : List DocText :=
  keepFirst ((match raw with
    | some raw => frontmatterAnchors unicode content raw
    | none => []) ++ bodyAnchors unicode body)

end Anchors

def anchorsOf (safeLoad : DocText → Except String Yaml) (unicode : Unicode) (content : DocText) :
    Except SddFailure (List DocText) :=
  match readFrontmatter safeLoad content with
  | .error failure => .error failure
  | .ok (.error _) => .ok (Anchors.anchorsIn unicode content none content)
  | .ok (.ok (raw, body)) => .ok (Anchors.anchorsIn unicode content raw body)

def protectedProperties : List String := ["schema", "id", "type", "product", "change"]

structure DocumentProperties where
  values : List (String × Yaml)
  protected_ : List String := protectedProperties

/-- The text a key is read as; a number, a date or another value is none. -/
def propertyKey : Yaml → Option String
  | .text characters => some characters
  | .scalar _ _ _ decoded => decoded
  | _ => none

/-- The entries under their keys; a later value replaces an earlier one in its place. -/
def dictOf (entries : List (String × Yaml)) : List (String × Yaml) :=
  entries.foldl (fun dict entry =>
    if dict.any (·.1 = entry.1) then dict.map fun old => if old.1 = entry.1 then entry else old
    else dict ++ [entry]) []

def textKeys (raw : YamlMapping) : Bool := raw.all fun entry => (propertyKey entry.1).isSome

/-- `DocumentProperties(values=dict(raw))`: a key that is no text is refused. -/
def DocumentProperties.ofMapping (raw : YamlMapping) : Except SddFailure DocumentProperties :=
  if textKeys raw then
    .ok { values := dictOf (raw.filterMap fun (key, value) => (propertyKey key).map (·, value)) }
  else .error ⟨.validation, "values: Input should be a valid string"⟩

def documentProperties (safeLoad : DocText → Except String Yaml) (content : DocText) :
    Except SddFailure (Option DocumentProperties × DocText × Option String) :=
  match readFrontmatter safeLoad content with
  | .error failure => .error failure
  | .ok (.error message) => .ok (none, content, some message)
  | .ok (.ok (none, body)) => .ok (none, body, none)
  | .ok (.ok (some raw, body)) =>
    match DocumentProperties.ofMapping raw with
    | .error failure => .error failure
    | .ok properties => .ok (some properties, body, none)

end DarkFactory
