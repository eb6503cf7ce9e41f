import Mathlib.Data.List.Infix
import DarkFactory.Changes.Text
import DarkFactory.Lib.Trace
import DarkFactory.Scm.Provider

namespace DarkFactory

def perPage : Nat := 100

def defaultPerPage : Nat := 30

def idempotencyMarker (key : String) : String := "<!-- dark-factory:idempotency:" ++ key ++ " -->"

def markedText (text key : String) : String := text ++ "\n\n" ++ idempotencyMarker key

def CarriesMarker (key text : String) : Prop := (idempotencyMarker key).toList <:+: text.toList

instance (key text : String) : Decidable (CarriesMarker key text) :=
  inferInstanceAs (Decidable (_ <:+: _))

structure BranchCommit where
  sha : String
  tree : String
  message : String
  parent : String
  deriving DecidableEq, Repr

structure TreeRequest where
  entries : List (String × String)
  baseTree : Option String
  deriving DecidableEq, Repr

def treeEntries (changes : List (String × List UInt8)) : Except ProviderError (List (String × String)) :=
  (changes.mergeSort fun first second => decide (first.1 ≤ second.1)).mapM fun (path, content) =>
    match String.fromUTF8? ⟨content.toArray⟩ with
    | some text => .ok (path, text)
    | none => .error ⟨.decode, path⟩

/-- What a call of `publish_commit` has to do next, and what it knows. -/
inductive PublishPhase
  | scanning
  | reading
  | planting (parent : String) (tree : TreeRequest)
  | committing (parent tree : String)
  | moving (commit : BranchCommit)
  deriving DecidableEq, Repr

structure PublishCall where
  branch : String
  changes : List (String × List UInt8)
  message : String
  key : String
  phase : PublishPhase := .scanning
  deriving DecidableEq, Repr

inductive CommentPhase | listing | posting
  deriving DecidableEq, Repr

structure CommentCall where
  number : Nat
  body : String
  key : String
  phase : CommentPhase := .listing
  deriving DecidableEq, Repr

inductive HubCall
  | publish (call : PublishCall)
  | comment (call : CommentCall)
  deriving DecidableEq, Repr

inductive EndedCall
  | publish (branch key : String) (outcome : Except ProviderError String)
  | comment (number : Nat) (key : String) (raised : Option ProviderError)

/-- The provider's branches, newest commit first, and the comments of its requests, oldest first. A branch without a
    commit is a missing one. The adapter has at most one call under way. -/
structure Hub where
  branches : String → List BranchCommit
  comments : Nat → Option (List String)
  call : Option HubCall := none
  ended : List EndedCall := []

/-- An answer, how many entries it serves of a listing and how it names what it creates. -/
structure HubReply where
  answer : ProviderAnswer
  served : Nat := 0
  sha : String := ""
  deriving DecidableEq, Repr

inductive HubEvent
  | publish (branch : String) (changes : List (String × List UInt8)) (message key : String)
  | comment (number : Nat) (body key : String)
  | reply (reply : HubReply)
  | restart
  | othersCommit (branch : String) (commit : BranchCommit)
  | othersComment (number : Nat) (body : String)

namespace Hub

variable (slug : String) (hub : Hub)

def setBranch (branch : String) (commits : List BranchCommit) : Hub :=
  { hub with branches := fun name => if name = branch then commits else hub.branches name }

def setComments (number : Nat) (comments : List String) : Hub :=
  { hub with comments := fun other => if other = number then some comments else hub.comments other }

def finishPublish (call : PublishCall) (outcome : Except ProviderError String) : Hub :=
  { hub with call := none, ended := .publish call.branch call.key outcome :: hub.ended }

def finishComment (call : CommentCall) (raised : Option ProviderError) : Hub :=
  { hub with call := none, ended := .comment call.number call.key raised :: hub.ended }

def goOn (call : PublishCall) (phase : PublishPhase) : Hub := { hub with call := some (.publish { call with phase }) }

/-- The commit that the scan of a branch finds: on its first page, where there is one. -/
def scanned (call : PublishCall) (served : Nat) : Option BranchCommit :=
  ((hub.branches call.branch).take (min served perPage)).find? fun commit => CarriesMarker call.key commit.message

/-- `_marker_commit`: a missing branch has an empty history here. -/
def scan (call : PublishCall) (reply : HubReply) : Hub :=
  match reply.answer with
  | .lost _ => hub.finishPublish call (.error transportError)
  | .status code =>
    if code = 404 ∨ hub.branches call.branch = [] then hub.goOn call .reading
    else if code ≠ 200 then
      hub.finishPublish call (.error (unexpectedStatus "GET" s!"/repos/{slug}/commits" code))
    else
      match hub.scanned call reply.served with
      | some commit => hub.finishPublish call (.ok commit.sha)
      | none => hub.goOn call .reading

/-- `_head` -/
def readHead (call : PublishCall) (reply : HubReply) : Hub :=
  let absent : ProviderError := ⟨.key, s!"no revision recorded for {slug}@{call.branch}"⟩
  match reply.answer, hub.branches call.branch with
  | .lost _, _ => hub.finishPublish call (.error transportError)
  | .status _, [] => hub.finishPublish call (.error absent)
  | .status code, head :: _ =>
    if code = 404 ∨ code = 422 then hub.finishPublish call (.error absent)
    else if code ≠ 200 then
      hub.finishPublish call (.error (unexpectedStatus "GET" s!"/repos/{slug}/commits/{call.branch}" code))
    else
      match treeEntries call.changes with
      | .error error => hub.finishPublish call (.error error)
      | .ok entries =>
        hub.goOn call (.planting head.sha { entries, baseTree := some head.tree |>.filter (· ≠ "") })

/-- `_create_tree` -/
def plant (call : PublishCall) (parent : String) (reply : HubReply) : Hub :=
  match reply.answer.raised 201 "POST" s!"/repos/{slug}/git/trees" with
  | some error => hub.finishPublish call (.error error)
  | none => hub.goOn call (.committing parent reply.sha)

/-- The commit object exists from here on, and is on no branch yet. -/
def commit (call : PublishCall) (parent tree : String) (reply : HubReply) : Hub :=
  match reply.answer.raised 201 "POST" s!"/repos/{slug}/git/commits" with
  | some error => hub.finishPublish call (.error error)
  | none => hub.goOn call (.moving ⟨reply.sha, tree, markedText call.message call.key, parent⟩)

/-- The move of a branch is a fast-forward: the commit stands on the head. -/
def fastForward (branch : String) (commit : BranchCommit) : Bool :=
  (hub.branches branch).head?.map BranchCommit.sha == some commit.parent

def lands (call : PublishCall) (commit : BranchCommit) (reply : HubReply) : Bool :=
  hub.fastForward call.branch commit && reply.answer.takesEffect 200

def move (call : PublishCall) (commit : BranchCommit) (reply : HubReply) : Hub :=
  let path := s!"/repos/{slug}/git/refs/heads/{call.branch}"
  let outcome (answer : ProviderAnswer) : Except ProviderError String :=
    match answer.raised 200 "PATCH" path with
    | some error => .error error
    | none => .ok commit.sha
  if hub.lands call commit reply then
    (hub.setBranch call.branch (commit :: hub.branches call.branch)).finishPublish call (outcome reply.answer)
  else if reply.answer.takesEffect 200 then hub.finishPublish call (outcome (.status 422))
  else hub.finishPublish call (outcome reply.answer)

def listed (call : CommentCall) (served : Nat) : List String :=
  ((hub.comments call.number).getD []).take (min served defaultPerPage)

def commentsPath (call : CommentCall) : String := s!"/repos/{slug}/issues/{call.number}/comments"

def list (call : CommentCall) (reply : HubReply) : Hub :=
  let answer : ProviderAnswer :=
    if (hub.comments call.number).isNone ∧ reply.answer.takesEffect 200 then .status 404 else reply.answer
  match answer.raised 200 "GET" (commentsPath slug call) with
  | some error => hub.finishComment call (some error)
  | none =>
    if (hub.listed call reply.served).any fun comment => CarriesMarker call.key comment then hub.finishComment call none
    else { hub with call := some (.comment { call with phase := .posting }) }

def post (call : CommentCall) (reply : HubReply) : Hub :=
  match hub.comments call.number with
  | none =>
    let answer : ProviderAnswer := if reply.answer.takesEffect 201 then .status 404 else reply.answer
    hub.finishComment call (answer.raised 201 "POST" (commentsPath slug call))
  | some comments =>
    let raised := reply.answer.raised 201 "POST" (commentsPath slug call)
    if reply.answer.takesEffect 201 then
      (hub.setComments call.number (comments ++ [markedText call.body call.key])).finishComment call raised
    else hub.finishComment call raised

def answer (call : HubCall) (reply : HubReply) : Hub :=
  match call with
  | .publish call =>
    match call.phase with
    | .scanning => hub.scan slug call reply
    | .reading => hub.readHead slug call reply
    | .planting parent _ => hub.plant slug call parent reply
    | .committing parent tree => hub.commit slug call parent tree reply
    | .moving commit => hub.move slug call commit reply
  | .comment call =>
    match call.phase with
    | .listing => hub.list slug call reply
    | .posting => hub.post slug call reply

/-- Calls follow each other, and others commit and comment in between. A restart forgets the call under way. -/
def next (hub : Hub) : HubEvent → Hub
  | .publish branch changes message key =>
    let call : PublishCall := { branch, changes, message, key }
    if hub.call.isSome then hub
    else if changes = [] then
      hub.finishPublish call (.error ⟨.value, "publish_commit requires a non-empty change set"⟩)
    else { hub with call := some (.publish call) }
  | .comment number body key =>
    if hub.call.isSome then hub else { hub with call := some (.comment { number, body, key }) }
  | .reply reply =>
    match hub.call with
    | none => hub
    | some call => hub.answer slug call reply
  | .restart => { hub with call := none }
  | .othersCommit branch commit => hub.setBranch branch (commit :: hub.branches branch)
  | .othersComment number body =>
    match hub.comments number with
    | none => hub
    | some comments => hub.setComments number (comments ++ [body])

end Hub

end DarkFactory
