import DarkFactory.Lib.Sha256
import DarkFactory.Lib.Table
import DarkFactory.Sdd.Frontmatter
import Mathlib.Data.List.Dedup
import Mathlib.Data.List.Sort

namespace DarkFactory

/-- The names on the way from the root of the file system. -/
abbrev TreePath := List String

/-- The content of a file: UTF-8 text, or bytes that are none. -/
inductive Content
  | text (characters : DocText)
  | binary (bytes : ByteArray) (undecodable : bytes.validateUTF8 = false)

/-- The files there are, and the directories besides those on the way to a file. -/
structure Tree where
  files : List (TreePath × Content)
  folders : List TreePath := []
  unique : Table.Unique Prod.fst files

namespace Tree

def empty : Tree := ⟨[], [], Table.Unique.nil⟩

variable (tree : Tree)

def content (path : TreePath) : Option Content := (Table.find Prod.fst path tree.files).map Prod.snd

def write (path : TreePath) (content : Content) : Tree where
  files := Table.update Prod.fst path (fun _ => (path, content)) (Table.insertNew Prod.fst (path, content) tree.files)
  folders := tree.folders
  unique := tree.unique.insertNew.replace rfl

def makeFolder (path : TreePath) : Tree := { tree with folders := tree.folders ++ [path] }

def isFile (path : TreePath) : Bool := (tree.content path).isSome

def isDir (path : TreePath) : Bool :=
  path = [] || (tree.files.any fun file => path.isPrefixOf file.1 && path ≠ file.1) ||
    tree.folders.any fun folder => path.isPrefixOf folder

def entries : List TreePath := ((tree.files.map Prod.fst ++ tree.folders).flatMap List.inits).dedup

def readText (path : TreePath) : Except SddFailure DocText :=
  match tree.content path with
  | some (.text characters) => .ok (newlines false characters)
  | some (.binary _ _) => .error ⟨.unicode, "'utf-8' codec can't decode " ++ path.getLastD ""⟩
  | none => .error ⟨.os, if tree.isDir path then "Is a directory" else "No such file or directory"⟩

/-- The file system follows the names; a step up needs the directory it is taken in. -/
def locate : TreePath → List String → Option TreePath
  | path, [] => some path
  | path, name :: rest =>
    if name = ".." then
      if tree.isDir path then locate path.dropLast rest else none
    else locate (path ++ [name]) rest

/-- The path that names lead to where every directory on the way exists. -/
def lexical (names : List String) : TreePath :=
  names.foldl (fun path name => if name = ".." then path.dropLast else path ++ [name]) []

end Tree

def makeDirectory (path : TreePath) : EStateM SddFailure Tree Unit :=
  Outcome.perform fun tree =>
    if tree.isFile path then .error ⟨.os, "File exists"⟩
    else .ok ((), if tree.isDir path then tree else tree.makeFolder path)

/-- `mkdir(parents=True, exist_ok=True)`: the directories on the way are made one after the other. -/
def makeDirectories (names : List String) : EStateM SddFailure Tree Unit :=
  Outcome.forEach (fun way => makeDirectory (Tree.lexical way)) names.inits

def writeText (path : TreePath) (text : DocText) : EStateM SddFailure Tree Unit :=
  Outcome.perform fun tree =>
    if tree.isDir path then .error ⟨.os, "Is a directory"⟩ else .ok ((), tree.write path (.text text))

/-- `base / relative`: an absolute path stands on its own. -/
def joinPath (base : TreePath) (relative : String) : List String :=
  let names := (((relative.toList.splitOnP (· = '/')).map String.ofList).filter fun name => name ≠ "" && name ≠ ".")
  if Text.startsWith relative "/" then names else base ++ names

def posixPath (path : TreePath) : String := Text.join "/" path

def productRoot (root : TreePath) : TreePath := root ++ ["product"]

def inProduct (root path : TreePath) : Bool := (productRoot root).isPrefixOf path && path ≠ productRoot root

def isMarkdown (path : TreePath) : Bool :=
  path.getLast?.any fun name => ".md".toList.reverse.isPrefixOf name.toList.reverse

/-- The escapes of `json.dumps` on ASCII output. -/
def jsonChar (c : Char) : String :=
  let unit (n : Nat) : String := "\\u" ++ Text.hexDigits 4 n
  let n := c.toNat
  if c = Text.quotation ∨ c = Text.backslash then Text.backslash.toString ++ c.toString
  else if c = '\n' then "\\n"
  else if c = '\r' then "\\r"
  else if c = '\t' then "\\t"
  else if n = 8 then "\\b"
  else if n = 12 then "\\f"
  else if 32 ≤ n ∧ n ≤ 126 then c.toString
  else if n < 65536 then unit n
  else unit (55296 + (n - 65536) / 1024) ++ unit (56320 + (n - 65536) % 1024)

def jsonString (text : String) : String :=
  Text.quotation.toString ++ String.join (text.toList.map jsonChar) ++ Text.quotation.toString

def hashBytes : Content → String
  | .text characters => Sha256.hexdigest (String.ofList characters)
  | .binary bytes _ => String.ofList ((Sha256.digest (bytes.data.toList.map UInt8.toNat)).flatMap Sha256.hexWord)

/-- Every file under `product/`, by its path from the factory root, with the hash of its content. -/
def scanBaseline (root : TreePath) (tree : Tree) : List (String × String) :=
  (tree.files.filter fun file => inProduct root file.1).map fun file =>
    (posixPath (file.1.drop root.length), hashBytes file.2)

def computeRevision (files : List (String × String)) : String :=
  let pairs := files.insertionSort fun left right => left.1 ≤ right.1
  let shown := pairs.map fun pair => "[" ++ jsonString pair.1 ++ "," ++ jsonString pair.2 ++ "]"
  Sha256.hexdigest ("[" ++ Text.join "," shown ++ "]")

def currentRevision (root : TreePath) (tree : Tree) : String := computeRevision (scanBaseline root tree)

section Content

variable {tree : Tree} {path other : TreePath} {content : Content} {text : DocText} {names : List String}

@[simp] theorem Tree.content_write_self : (tree.write path content).content path = some content := by
  have placed : Prod.fst (path, content) = path := rfl
  have inserted : Table.find Prod.fst path (Table.insertNew Prod.fst (path, content) tree.files) =
      some ((Table.find Prod.fst path tree.files).getD (path, content)) :=
    @Table.find_insertNew_self _ _ _ Prod.fst (path, content) tree.files
  simp only [Tree.content, Tree.write]
  rw [Table.find_replace placed, inserted]
  rfl

theorem Tree.content_write_other (apart : other ≠ path) : (tree.write path content).content other = tree.content other := by
  have keeps (file : TreePath × Content) (_ : file.1 = path) : Prod.fst (path, content) = path := rfl
  have absent : other ≠ Prod.fst (path, content) := apart
  simp only [Tree.content, Tree.write]
  rw [Table.find_update_other keeps apart, Table.find_insertNew_other absent]

theorem Tree.content_of_files {before after : Tree} (same : before.files = after.files) :
    before.content path = after.content path := by
  unfold Tree.content
  rw [same]

theorem Tree.readText_ok (read : tree.readText path = .ok text) :
    ∃ characters, tree.content path = some (.text characters) ∧ text = newlines false characters := by
  unfold Tree.readText at read
  split at read
  · rename_i characters held
    exact ⟨characters, held, (Except.ok.inj read).symm⟩
  · cases read
  · cases read

theorem Tree.readText_text {characters : DocText} (held : tree.content path = some (.text characters)) :
    tree.readText path = .ok (newlines false characters) := by
  rw [Tree.readText, held]

theorem currentRevision_ne {root : TreePath} : currentRevision root tree ≠ "" := Sha256.hexdigest_ne _

def KeepsFiles (before after : Tree) : Prop := before.files = after.files

theorem Tree.write_files {before after : Tree} (same : KeepsFiles before after) :
    KeepsFiles (before.write path content) (after.write path content) := by
  simp only [KeepsFiles, Tree.write]
  rw [show before.files = after.files from same]

theorem KeepsFiles.revision {root : TreePath} {before after : Tree} (same : KeepsFiles before after) :
    currentRevision root after = currentRevision root before := by
  unfold currentRevision scanBaseline
  rw [show before.files = after.files from same]

theorem makeDirectories_files : Outcome.Within KeepsFiles (makeDirectories names) := by
  have refl (tree : Tree) : KeepsFiles tree tree := rfl
  apply Outcome.within_forEach refl fun first second => Eq.trans first second
  intro way
  apply Outcome.within_perform refl
  intro before done after made
  split at made
  · cases made
  · obtain ⟨-, rfl⟩ := Prod.mk.inj (Except.ok.inj made)
    split <;> rfl

theorem writeText_ok {before after : Tree} (written : writeText path text before = .ok () after) :
    after = before.write path (.text text) := by
  rw [writeText, Outcome.perform_ok] at written
  split at written
  · cases written
  · exact (Prod.mk.inj (Except.ok.inj written)).2.symm

end Content

end DarkFactory
