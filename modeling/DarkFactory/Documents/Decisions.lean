import DarkFactory.Documents.Markdown

namespace DarkFactory

structure DecisionAlternative where
  title : NonemptyText
  summary : Option NonemptyText := none
  rejectedBecause : Option NonemptyText := none
  deriving DecidableEq

structure DecisionCard where
  id : NonemptyText
  path : NonemptyText
  title : String
  documentStatus : Option NonemptyText := none
  revision : Option String := none
  proposal : Option NonemptyText := none
  rationale : Option NonemptyText := none
  consequences : Option NonemptyText := none
  alternatives : List DecisionAlternative := []
  impact : List NonemptyText := []
  errors : List String := []
  deriving DecidableEq

/-- The file name of a path without its last suffix. -/
def stem (path : String) : String :=
  let name := ((path.toList.rdropWhile (· = '/')).splitOn '/').getLastD []
  String.ofList (if name.contains '.' then ((name.splitOn '.').dropLast.intersperse ['.']).flatten else name)

namespace Decisions

open Regex Pattern

variable (unicode : Unicode)

def sectionKeys : List (String × String) :=
  [("решение", "proposal"), ("decision", "proposal"), ("обоснование", "rationale"), ("rationale", "rationale"),
    ("альтернативы", "alternatives"), ("alternatives", "alternatives"), ("последствия", "consequences"),
    ("consequences", "consequences"), ("влияние", "impact"), ("impact", "impact")]

def h1 : Regex Char := heading (literal "#") 1
def h2 : Regex Char := heading (literal "##") 1
def h3 : Regex Char := heading (literal "###") 1

def bullet : Regex Char :=
  sequence
    [lineStart, spaces, .char fun c => c = '-' || c = '*' || c = '+', plus space true, .group 1 (plus dot false), spaces,
      lineEnd]

def tableSeparator : Regex Char :=
  let dashes := sequence [optional (literal ":"), literal "-", plus (literal "-") true, optional (literal ":"), spaces]
  sequence
    [optional (literal "|"), spaces, dashes, .star (sequence [literal "|", spaces, dashes]) true,
      optional (literal "|"), textEnd]

def rejectedLabel : Regex Char :=
  sequence
    [lineStart, spaces, optional (literal "**"),
      oneOf (["почему не выбран", "отклонено", "отклонён", "отклонен", "rejected because", "why not"].map
        (literalFold unicode)),
      optional (literal "**"), spaces, .char fun c => c = ':' || c = '—' || c = '-', spaces, .group 1 (plus dot true),
      lineEnd]

def cleanPart (text : DocText) : Option NonemptyText := cleanText (String.ofList text)

/-- The text under each level-2 heading that is known, by its key; the first heading of a key counts. -/
def sections (body : DocText) : List (String × DocText) :=
  (h2.scan body).2.filterMap fun (found, after) =>
    (sectionKeys.find? fun entry => entry.1.toList = unicode.lower (stripText (found.get 1))).map fun entry =>
      (entry.2, stripText after)

def sectionOf (body : DocText) (key : String) : Option DocText :=
  ((sections unicode body).find? fun entry => entry.1 = key).map Prod.snd

def splitRow (line : DocText) : List DocText :=
  let cells := stripText line
  let cells := if cells.head? = some '|' then cells.drop 1 else cells
  let cells := if cells.getLast? = some '|' then cells.dropLast else cells
  (cells.splitOn '|').map stripText

def rowAlternative (row : DocText) : Option DecisionAlternative :=
  let cells := splitRow row
  (cells.head?.bind cleanPart).map fun title =>
    { title
      summary := cleanText (Text.join "; " ((cells.tail.dropLast.filterMap cleanPart).map Subtype.val))
      rejectedBecause := if 2 ≤ cells.length then cells.getLast?.bind cleanPart else none }

def tableAlternatives (text : DocText) : List DecisionAlternative :=
  let rows := (splitlines text).filter fun line => (stripText line).head? = some '|'
  if rows.length < 2 then []
  else ((rows.drop 1).filter fun row => (tableSeparator.matchStart (stripText row)).isNone).filterMap rowAlternative

def subsectionAlternative (found : Found Char) (after : DocText) : Except SddFailure DecisionAlternative :=
  let chunk := stripText after
  let rejected := (rejectedLabel unicode).search chunk
  let summary := if rejected.isSome then (rejectedLabel unicode).sub [] chunk else chunk
  match nonempty "title" (String.ofList (stripText (found.get 1))) with
  | .error failure => .error failure
  | .ok title =>
    .ok { title, summary := cleanPart summary, rejectedBecause := rejected.bind fun label => cleanPart (label.get 1) }

def subsectionAlternatives (text : DocText) : Except SddFailure (List DecisionAlternative) :=
  (h3.scan text).2.mapM fun (found, after) => subsectionAlternative unicode found after

def alternatives (text : Option DocText) : Except SddFailure (List DecisionAlternative) :=
  match text with
  | none | some [] => .ok []
  | some text =>
    if tableAlternatives text = [] then subsectionAlternatives unicode text else .ok (tableAlternatives text)

/-- The impact of the frontmatter, else of the bullets of its section. -/
def impactOf (raw : YamlMapping) (section_ : Option DocText) : List NonemptyText :=
  let listed := match raw.get "impact" with
    | .text characters => (characters.toList.splitOn ',').filterMap cleanPart
    | .list items => items.filterMap Yaml.clean
    | _ => []
  if listed ≠ [] then keepFirst listed
  else keepFirst ((bullet.matches_ (section_.getD [])).filterMap fun found => cleanPart (found.get 1))

def typeErrors (raw : YamlMapping) : List String :=
  match raw.get "type" with
  | .null => []
  | value => if value.isText "adr" then [] else ["type: expected 'adr', found " ++ value.repr]

def cardOf (path : String) (revision : Option String) (errors : List String) (raw : YamlMapping) (body : DocText) :
    Except SddFailure DecisionCard := do
  let part (key : String) : Option NonemptyText := (sectionOf unicode body key).bind cleanPart
  let alternatives ← alternatives unicode (sectionOf unicode body "alternatives")
  let id ← match (raw.get "id").clean with
    | some identifier => .ok identifier
    | none => nonempty "id" (stem path)
  let named ← nonempty "path" path
  return {
    id, path := named
    title := match (raw.get "title").clean with
      | some title => title
      | none => ((h1.search body).map fun found => String.ofList (stripText (found.get 1))).getD (stem path)
    documentStatus := (raw.get "status").clean
    revision
    proposal := part "proposal"
    rationale := part "rationale"
    consequences := part "consequences"
    alternatives
    impact := impactOf raw (sectionOf unicode body "impact")
    errors := errors ++ typeErrors raw }

end Decisions

def parseDecisionCard (safeLoad : DocText → Except String Yaml) (unicode : Unicode) (path : String) (content : DocText)
    (revision : Option String) : Except SddFailure DecisionCard :=
  match readFrontmatter safeLoad content with
  | .error failure => .error failure
  | .ok (.error message) => Decisions.cardOf unicode path revision ["frontmatter: " ++ message] [] content
  | .ok (.ok (raw, body)) => Decisions.cardOf unicode path revision [] (raw.getD []) body

end DarkFactory
