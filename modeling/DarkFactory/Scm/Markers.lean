import DarkFactory.Scm.Publication

namespace DarkFactory

def MarkedApart (texts : List String) : Prop :=
  texts.Pairwise fun first second => ∀ key, CarriesMarker key first → ¬ CarriesMarker key second

def Unmarked (key : String) (texts : List String) : Prop := ∀ text ∈ texts, ¬ CarriesMarker key text

theorem markedText_carries {text key : String} : CarriesMarker key (markedText text key) := by
  unfold CarriesMarker markedText
  rw [String.toList_append]
  exact (List.suffix_append _ _).isInfix

theorem markedApart_cons {text : String} {texts : List String} :
    MarkedApart (text :: texts) ↔ (∀ key, CarriesMarker key text → Unmarked key texts) ∧ MarkedApart texts := by
  unfold MarkedApart
  rw [List.pairwise_cons]
  refine and_congr_left' ⟨fun apart key carries other member => apart other member key carries, ?_⟩
  exact fun apart other member key carries => apart key carries other member

theorem markedApart_concat {text : String} {texts : List String} :
    MarkedApart (texts ++ [text]) ↔ (∀ key, CarriesMarker key text → Unmarked key texts) ∧ MarkedApart texts := by
  unfold MarkedApart
  rw [List.pairwise_append, and_comm]
  refine and_congr ⟨fun apart key carries other member here => ?_, fun apart => ?_⟩ Iff.rfl
  · exact apart.2 other member text (List.mem_singleton.mpr rfl) key here carries
  · refine ⟨List.pairwise_singleton _ _, fun other member text' here key carried carries => ?_⟩
    rw [List.mem_singleton.mp here] at carries
    exact apart key carries other member carried

theorem MarkedApart.single {texts : List String} (apart : MarkedApart texts) (key : String) :
    (texts.filter fun text => CarriesMarker key text).length ≤ 1 := by
  have sublist := List.Pairwise.sublist (List.filter_sublist (p := fun text => CarriesMarker key text)) apart
  have marked (text : String) (member : text ∈ texts.filter fun text => CarriesMarker key text) :
      CarriesMarker key text := by
    simpa using (List.mem_filter.mp member).2
  match found : texts.filter fun text => CarriesMarker key text with
  | [] => simp
  | [_] => simp
  | first :: second :: rest =>
    rw [found] at sublist marked
    have differ := (List.pairwise_cons.mp sublist).1 second (by simp) key (marked first (by simp))
    exact absurd (marked second (by simp)) differ

theorem length_wrapped (front key back : String) :
    (front ++ key ++ back).toList.length = front.toList.length + key.toList.length + back.toList.length := by
  simp only [String.toList_append, List.length_append]

theorem idempotencyMarker_length {key : String} : 34 ≤ (idempotencyMarker key).toList.length := by
  have front : "<!-- dark-factory:idempotency:".toList.length = 30 := by decide
  have back : " -->".toList.length = 4 := by decide
  unfold idempotencyMarker
  rewrite [length_wrapped, front, back]
  omega

theorem not_carriesMarker {key text : String} (short : text.toList.length < 34) : ¬ CarriesMarker key text := by
  intro carries
  have long : (idempotencyMarker key).toList.length ≤ text.toList.length := List.IsInfix.length_le carries
  have least := @idempotencyMarker_length key
  omega

namespace Hub

variable (hub : Hub)

def messages (branch : String) : List String := (hub.branches branch).map BranchCommit.message

def bodies (number : Nat) : List String := (hub.comments number).getD []

/-- Each key marks one commit of a branch and one comment of a request at most, and a key's publication returned
    the commit it marks. -/
structure Deduplicated : Prop where
  commits : ∀ branch, MarkedApart (hub.messages branch)
  comments : ∀ number, MarkedApart (hub.bodies number)
  returned : ∀ branch key sha, EndedCall.publish branch key (.ok sha) ∈ hub.ended →
    ∃ commit ∈ hub.branches branch, commit.sha = sha ∧ CarriesMarker key commit.message

/-- A key whose publication on the branch has looked for its marker and not found it. -/
def Publishing (branch key : String) : Prop :=
  ∃ call, hub.call = some (.publish call) ∧ call.branch = branch ∧ call.key = key ∧ call.phase ≠ .scanning

def Commenting (number : Nat) (key : String) : Prop :=
  ∃ call, hub.call = some (.comment call) ∧ call.number = number ∧ call.key = key ∧ call.phase ≠ .listing

/-- A scan that is answered finds the marker of its key where the branch has it. -/
def ScanSees (call : PublishCall) (reply : HubReply) : Prop :=
  (∃ code, reply.answer = .status code ∧ (code = 404 ∨ code = 200)) →
    reply.answer = .status 200 ∧ (hub.scanned call reply.served).isSome ∨ Unmarked call.key (hub.messages call.branch)

def ListSees (call : CommentCall) (reply : HubReply) : Prop :=
  reply.answer = .status 200 → (∃ body ∈ hub.listed call reply.served, CarriesMarker call.key body) ∨
    Unmarked call.key (hub.bodies call.number)

/-- The first pages reach back to the marked entries, and no text brings the marker of another's key. -/
def Clear (hub : Hub) : HubEvent → Prop
  | .reply reply =>
    match hub.call with
    | some (.publish call) =>
      match call.phase with
      | .scanning => hub.ScanSees call reply
      | .moving commit =>
        ∀ key, key ≠ call.key → CarriesMarker key commit.message → Unmarked key (hub.messages call.branch)
      | _ => True
    | some (.comment call) =>
      match call.phase with
      | .listing => hub.ListSees call reply
      | .posting => ∀ key, key ≠ call.key → CarriesMarker key (markedText call.body call.key) →
          Unmarked key (hub.bodies call.number)
    | none => True
  | .othersCommit branch commit =>
    ∀ key, CarriesMarker key commit.message → Unmarked key (hub.messages branch) ∧ ¬ hub.Publishing branch key
  | .othersComment number body =>
    ∀ key, CarriesMarker key body → Unmarked key (hub.bodies number) ∧ ¬ hub.Commenting number key
  | _ => True

structure Looked : Prop where
  publishing : ∀ branch key, hub.Publishing branch key → Unmarked key (hub.messages branch)
  commenting : ∀ number key, hub.Commenting number key → Unmarked key (hub.bodies number)
  moving : ∀ call commit, hub.call = some (.publish call) → call.phase = .moving commit →
    commit.message = markedText call.message call.key

/-! ## What keeps the markers apart -/

section Steps

variable {hub} {slug : String} {call : PublishCall} {commenting : CommentCall} {reply : HubReply}

theorem looked_of_idle (idle : hub.call = none) : hub.Looked := by
  constructor
  · intro branch key ⟨call, here, _⟩
    simp [idle] at here
  · intro number key ⟨call, here, _⟩
    simp [idle] at here
  · intro call commit here
    simp [idle] at here

theorem messages_setBranch {branch name : String} {commits : List BranchCommit} :
    (hub.setBranch branch commits).messages name =
      if name = branch then commits.map BranchCommit.message else hub.messages name := by
  by_cases same : name = branch <;> simp [messages, setBranch, same]

theorem bodies_setComments {number other : Nat} {comments : List String} :
    (hub.setComments number comments).bodies other = if other = number then comments else hub.bodies other := by
  by_cases same : other = number <;> simp [bodies, setComments, same]

theorem deduplicated_finishPublish {outcome : Except ProviderError String} (deduplicated : hub.Deduplicated)
    (there : ∀ sha, outcome = .ok sha → ∃ commit ∈ hub.branches call.branch, commit.sha = sha ∧
      CarriesMarker call.key commit.message) : (hub.finishPublish call outcome).Deduplicated := by
  refine ⟨deduplicated.commits, deduplicated.comments, fun branch key sha member => ?_⟩
  rcases List.mem_cons.mp member with same | member
  · simp only [EndedCall.publish.injEq] at same
    obtain ⟨rfl, rfl, same⟩ := same
    exact there sha same.symm
  · exact deduplicated.returned branch key sha member

theorem deduplicated_finishComment {raised : Option ProviderError} (deduplicated : hub.Deduplicated) :
    (hub.finishComment commenting raised).Deduplicated := by
  refine ⟨deduplicated.commits, deduplicated.comments, fun branch key sha member => ?_⟩
  rcases List.mem_cons.mp member with same | member
  · simp at same
  · exact deduplicated.returned branch key sha member

theorem deduplicated_setBranch {branch : String} {commit : BranchCommit} (deduplicated : hub.Deduplicated)
    (apart : ∀ key, CarriesMarker key commit.message → Unmarked key (hub.messages branch)) :
    (hub.setBranch branch (commit :: hub.branches branch)).Deduplicated := by
  constructor
  · intro name
    rw [messages_setBranch]
    split
    · exact markedApart_cons.mpr ⟨apart, deduplicated.commits branch⟩
    · exact deduplicated.commits name
  · exact deduplicated.comments
  · intro name key sha member
    obtain ⟨found, there, same⟩ := deduplicated.returned name key sha member
    refine ⟨found, ?_, same⟩
    unfold setBranch
    dsimp only
    split
    · rename_i same
      rw [same] at there
      exact List.mem_cons_of_mem _ there
    · exact there

theorem deduplicated_setComments {number : Nat} {comments : List String} {body : String}
    (deduplicated : hub.Deduplicated) (present : hub.comments number = some comments)
    (apart : ∀ key, CarriesMarker key body → Unmarked key (hub.bodies number)) :
    (hub.setComments number (comments ++ [body])).Deduplicated := by
  have bodies : hub.bodies number = comments := by simp [Hub.bodies, present]
  constructor
  · exact deduplicated.commits
  · intro other
    rw [bodies_setComments]
    split
    · rw [← bodies]
      exact markedApart_concat.mpr ⟨apart, deduplicated.comments number⟩
    · exact deduplicated.comments other
  · exact deduplicated.returned

theorem looked_goOn {phase : PublishPhase} (unmarked : Unmarked call.key (hub.messages call.branch))
    (text : ∀ commit, phase = .moving commit → commit.message = markedText call.message call.key) :
    (hub.goOn call phase).Looked := by
  constructor
  · intro branch key ⟨other, here, onBranch, keyed, _⟩
    simp only [goOn, Option.some.injEq, HubCall.publish.injEq] at here
    subst here
    rw [← onBranch, ← keyed]
    exact unmarked
  · intro number key ⟨other, here, _⟩
    simp [goOn] at here
  · intro other commit here moving
    simp only [goOn, Option.some.injEq, HubCall.publish.injEq] at here
    subst here
    exact text commit moving

theorem deduplicated_goOn {phase : PublishPhase} (deduplicated : hub.Deduplicated) :
    (hub.goOn call phase).Deduplicated :=
  ⟨deduplicated.commits, deduplicated.comments, deduplicated.returned⟩

theorem scanned_carries {served : Nat} {commit : BranchCommit} (found : hub.scanned call served = some commit) :
    commit ∈ hub.branches call.branch ∧ CarriesMarker call.key commit.message := by
  have member : commit ∈ hub.branches call.branch := List.mem_of_mem_take (List.mem_of_find?_eq_some found)
  exact ⟨member, by simpa using List.find?_some found⟩

/-- The markers stand apart, and the call under way has looked for its own. -/
structure Sound (hub : Hub) : Prop extends hub.Deduplicated, hub.Looked

theorem sound_failed {error : ProviderError} (sound : hub.Sound) :
    (hub.finishPublish call (.error error)).Sound :=
  { deduplicated_finishPublish sound.toDeduplicated (fun _ same => by cases same), looked_of_idle rfl with }

theorem sound_finishComment {raised : Option ProviderError} (sound : hub.Sound) :
    (hub.finishComment commenting raised).Sound :=
  { deduplicated_finishComment sound.toDeduplicated, looked_of_idle rfl with }

theorem sound_goOn {phase : PublishPhase} (sound : hub.Sound)
    (unmarked : Unmarked call.key (hub.messages call.branch))
    (text : ∀ commit, phase = .moving commit → commit.message = markedText call.message call.key) :
    (hub.goOn call phase).Sound :=
  { deduplicated_goOn sound.toDeduplicated, looked_goOn unmarked text with }

theorem sound_scan (sound : hub.Sound) (sees : hub.ScanSees call reply) : (hub.scan slug call reply).Sound := by
  unfold scan
  split
  · exact sound_failed sound
  · rename_i code answered
    split
    · rename_i missing
      refine sound_goOn sound ?_ nofun
      cases missing with
      | inl missing =>
        rcases sees ⟨code, answered, .inl missing⟩ with ⟨served, _⟩ | unmarked
        · simp [answered, missing] at served
        · exact unmarked
      | inr missing =>
        simp [Unmarked, messages, missing]
    · split
      · exact sound_failed sound
      · rename_i success
        have success : code = 200 := not_ne_iff.mp success
        cases found : hub.scanned call reply.served with
        | some commit =>
          have ⟨member, carries⟩ := scanned_carries found
          refine { deduplicated_finishPublish sound.toDeduplicated ?_, looked_of_idle rfl with }
          intro sha same
          exact ⟨commit, member, Except.ok.inj same, carries⟩
        | none =>
          refine sound_goOn sound ?_ nofun
          rcases sees ⟨code, answered, .inr success⟩ with ⟨_, seen⟩ | unmarked
          · simp [found] at seen
          · exact unmarked

theorem sound_readHead (sound : hub.Sound) (unmarked : Unmarked call.key (hub.messages call.branch)) :
    (hub.readHead slug call reply).Sound := by
  unfold readHead
  dsimp only
  split
  · exact sound_failed sound
  · exact sound_failed sound
  · split
    · exact sound_failed sound
    · split
      · exact sound_failed sound
      · split
        · exact sound_failed sound
        · exact sound_goOn sound unmarked nofun

theorem sound_plant {parent : String} (sound : hub.Sound) (unmarked : Unmarked call.key (hub.messages call.branch)) :
    (hub.plant slug call parent reply).Sound := by
  unfold plant
  split
  · exact sound_failed sound
  · exact sound_goOn sound unmarked nofun

theorem sound_commit {parent tree : String} (sound : hub.Sound)
    (unmarked : Unmarked call.key (hub.messages call.branch)) : (hub.commit slug call parent tree reply).Sound := by
  unfold commit
  split
  · exact sound_failed sound
  · refine sound_goOn sound unmarked fun commit same => ?_
    cases same
    rfl

theorem sound_move {commit : BranchCommit} (sound : hub.Sound)
    (unmarked : Unmarked call.key (hub.messages call.branch))
    (text : commit.message = markedText call.message call.key)
    (clear : ∀ key, key ≠ call.key → CarriesMarker key commit.message → Unmarked key (hub.messages call.branch)) :
    (hub.move slug call commit reply).Sound := by
  unfold move
  dsimp only
  split
  · have apart (key : String) (carries : CarriesMarker key commit.message) :
        Unmarked key (hub.messages call.branch) := by
      by_cases own : key = call.key
      · exact own ▸ unmarked
      · exact clear key own carries
    refine { deduplicated_finishPublish (deduplicated_setBranch sound.toDeduplicated apart) ?_, looked_of_idle rfl with }
    intro sha same
    refine ⟨commit, by simp [setBranch], ?_, text ▸ markedText_carries⟩
    split at same
    · cases same
    · exact Except.ok.inj same
  · have refused {answer : ProviderAnswer} (refused : answer.takesEffect 200 = false) (path : String) :
        ∃ error, answer.raised 200 "PATCH" path = some error :=
      Option.ne_none_iff_exists'.mp (ProviderAnswer.raised_of_refused refused)
    split
    · have unprocessable : (ProviderAnswer.status 422).takesEffect 200 = false := rfl
      obtain ⟨error, raised⟩ := refused unprocessable s!"/repos/{slug}/git/refs/heads/{call.branch}"
      rw [raised]
      exact sound_failed sound
    · rename_i effect
      obtain ⟨error, raised⟩ := refused (by simpa using effect) s!"/repos/{slug}/git/refs/heads/{call.branch}"
      rw [raised]
      exact sound_failed sound

theorem sound_list (sound : hub.Sound) (sees : hub.ListSees commenting reply) :
    (hub.list slug commenting reply).Sound := by
  unfold list
  dsimp only
  split
  · exact sound_finishComment sound
  · rename_i silent
    split
    · exact sound_finishComment sound
    · rename_i unseen
      have served : reply.answer = .status 200 := by
        rw [ProviderAnswer.raised_none] at silent
        split at silent
        · cases silent
        · exact silent
      refine { sound.toDeduplicated with publishing := ?_, commenting := ?_, moving := ?_ }
      · intro branch key ⟨other, here, _⟩
        simp at here
      · intro number key ⟨other, here, same, keyed, _⟩
        simp only [Option.some.injEq, HubCall.comment.injEq] at here
        subst here
        rcases sees served with ⟨body, listed, carries⟩ | unmarked
        · exact absurd (List.any_eq_true.mpr ⟨body, listed, by simpa using carries⟩) unseen
        · rw [← same, ← keyed]
          exact unmarked
      · intro call commit here
        simp at here

theorem sound_post (sound : hub.Sound) (unmarked : Unmarked commenting.key (hub.bodies commenting.number))
    (clear : ∀ key, key ≠ commenting.key → CarriesMarker key (markedText commenting.body commenting.key) →
      Unmarked key (hub.bodies commenting.number)) : (hub.post slug commenting reply).Sound := by
  unfold post
  split
  · exact sound_finishComment sound
  · rename_i comments present
    dsimp only
    split
    · have apart (key : String) (carries : CarriesMarker key (markedText commenting.body commenting.key)) :
          Unmarked key (hub.bodies commenting.number) := by
        by_cases own : key = commenting.key
        · exact own ▸ unmarked
        · exact clear key own carries
      have posted := deduplicated_setComments sound.toDeduplicated present apart
      exact { deduplicated_finishComment posted, looked_of_idle rfl with }
    · exact sound_finishComment sound

theorem sound_answer {started : HubCall} (sound : hub.Sound) (here : hub.call = some started)
    (clear : hub.Clear (.reply reply)) : (hub.answer slug started reply).Sound := by
  simp only [Clear, here] at clear
  cases started with
  | publish call =>
    have looked (past : call.phase ≠ .scanning) : Unmarked call.key (hub.messages call.branch) :=
      sound.publishing call.branch call.key ⟨call, here, rfl, rfl, past⟩
    unfold answer
    dsimp only
    cases phase : call.phase with
    | scanning => exact sound_scan sound (by simpa [phase] using clear)
    | reading => exact sound_readHead sound (looked (by simp [phase]))
    | planting parent tree => exact sound_plant sound (looked (by simp [phase]))
    | committing parent tree => exact sound_commit sound (looked (by simp [phase]))
    | moving commit =>
      have text := sound.moving call commit here phase
      exact sound_move sound (looked (by simp [phase])) text (by simpa [phase] using clear)
  | comment call =>
    unfold answer
    dsimp only
    cases phase : call.phase with
    | listing => exact sound_list sound (by simpa [phase] using clear)
    | posting =>
      have looked : Unmarked call.key (hub.bodies call.number) :=
        sound.commenting call.number call.key ⟨call, here, rfl, rfl, by simp [phase]⟩
      exact sound_post sound looked (by simpa [phase] using clear)

theorem sound_othersCommit {branch : String} {commit : BranchCommit} (sound : hub.Sound)
    (clear : hub.Clear (.othersCommit branch commit)) :
    (hub.setBranch branch (commit :: hub.branches branch)).Sound := by
  refine { deduplicated_setBranch sound.toDeduplicated fun key carries => (clear key carries).1 with
    publishing := ?_, commenting := sound.commenting, moving := sound.moving }
  intro name key publishing
  rw [messages_setBranch]
  split
  · rename_i same
    subst same
    refine List.forall_mem_cons.mpr ⟨fun carries => (clear key carries).2 publishing, ?_⟩
    exact sound.publishing name key publishing
  · exact sound.publishing name key publishing

theorem sound_othersComment {number : Nat} {comments : List String} {body : String} (sound : hub.Sound)
    (present : hub.comments number = some comments) (clear : hub.Clear (.othersComment number body)) :
    (hub.setComments number (comments ++ [body])).Sound := by
  have bodies : hub.bodies number = comments := by simp [Hub.bodies, present]
  refine { deduplicated_setComments sound.toDeduplicated present fun key carries => (clear key carries).1 with
    publishing := sound.publishing, commenting := ?_, moving := sound.moving }
  intro other key commenting
  rw [bodies_setComments]
  split
  · rename_i same
    subst same
    intro text member carries
    rcases List.mem_append.mp member with member | member
    · exact sound.commenting other key commenting text (bodies ▸ member) carries
    · rw [List.mem_singleton.mp member] at carries
      exact (clear key carries).2 commenting
  · exact sound.commenting other key commenting

theorem sound_publishing (sound : hub.Sound) (first : call.phase = .scanning) :
    { hub with call := some (.publish call) }.Sound := by
  refine { sound.toDeduplicated with publishing := ?_, commenting := ?_, moving := ?_ }
  · intro branch key ⟨other, here, _, _, past⟩
    simp only [Option.some.injEq, HubCall.publish.injEq] at here
    exact absurd (here ▸ first) past
  · intro number key ⟨other, here, _⟩
    simp at here
  · intro other commit here moving
    simp only [Option.some.injEq, HubCall.publish.injEq] at here
    rw [← here, first] at moving
    cases moving

theorem sound_commenting (sound : hub.Sound) (first : commenting.phase = .listing) :
    { hub with call := some (.comment commenting) }.Sound := by
  refine { sound.toDeduplicated with publishing := ?_, commenting := ?_, moving := ?_ }
  · intro branch key ⟨other, here, _⟩
    simp at here
  · intro number key ⟨other, here, _, _, past⟩
    simp only [Option.some.injEq, HubCall.comment.injEq] at here
    exact absurd (here ▸ first) past
  · intro other commit here
    simp at here

theorem sound_next {event : HubEvent} (sound : hub.Sound) (clear : hub.Clear event) : (hub.next slug event).Sound := by
  cases event with
  | publish branch changes message key =>
    simp only [next]
    split
    · exact sound
    split
    · exact sound_failed sound
    · exact sound_publishing sound rfl
  | comment number body key =>
    simp only [next]
    split
    · exact sound
    · exact sound_commenting sound rfl
  | reply reply =>
    simp only [next]
    split
    · exact sound
    · rename_i started here
      exact sound_answer sound here clear
  | restart => exact { sound.toDeduplicated, looked_of_idle rfl with }
  | othersCommit branch commit => exact sound_othersCommit sound clear
  | othersComment number body =>
    simp only [next]
    split
    · exact sound
    · rename_i comments present
      exact sound_othersComment sound present clear

end Steps

/-- While the first pages reach back to the marked entries, a key marks one commit of a branch and one comment of a
    request at most, and publishing it again returns its commit. -/
theorem published_once (slug : String) (hub : Hub) (idle : hub.call = none) (events : List HubEvent)
    (start : hub.Deduplicated) (clear : Trace.Along (Hub.next slug) Hub.Clear hub events) :
    ∀ before after, events = before ++ after → (before.foldl (Hub.next slug) hub).Deduplicated := by
  rintro before after rfl
  have sound : hub.Sound := { start, looked_of_idle idle with }
  have reached := Trace.invariant (fun _ _ => sound_next) sound (Trace.along_append.mp clear).1
  exact reached.toDeduplicated

def publishedReplies (tree sha : String) : List HubEvent :=
  [.reply ⟨.status 200, perPage, ""⟩, .reply ⟨.status 200, 0, ""⟩, .reply ⟨.status 201, 0, tree⟩,
   .reply ⟨.status 201, 0, sha⟩, .reply ⟨.status 200, 0, ""⟩]

section Published

variable {hub} {slug : String} {call : PublishCall} {tree sha : String} {head : BranchCommit}
  {older : List BranchCommit} {entries : List (String × String)}

theorem next_publish (idle : hub.call = none) (changed : call.changes ≠ []) :
    hub.next slug (.publish call.branch call.changes call.message call.key) = hub.goOn call .scanning := by
  simp [next, idle, changed, goOn]

theorem next_scan (present : hub.branches call.branch = head :: older) (unseen : hub.scanned call perPage = none) :
    (hub.goOn call .scanning).next slug (.reply ⟨.status 200, perPage, ""⟩) = hub.goOn call .reading := by
  have absent : (hub.goOn call .scanning).scanned { call with phase := .scanning } perPage = none := unseen
  have here : (hub.goOn call .scanning).branches call.branch = head :: older := present
  simp only [next, goOn, answer, scan] at absent here ⊢
  simp [absent, here]

theorem next_readHead (present : hub.branches call.branch = head :: older)
    (decoded : treeEntries call.changes = .ok entries) :
    (hub.goOn call .reading).next slug (.reply ⟨.status 200, 0, ""⟩) =
      hub.goOn call (.planting head.sha { entries, baseTree := some head.tree |>.filter (· ≠ "") }) := by
  simp [next, goOn, answer, readHead, present, decoded]

theorem next_plant {parent : String} {request : TreeRequest} :
    (hub.goOn call (.planting parent request)).next slug (.reply ⟨.status 201, 0, tree⟩) =
      hub.goOn call (.committing parent tree) := rfl

theorem next_commit {parent : String} :
    (hub.goOn call (.committing parent tree)).next slug (.reply ⟨.status 201, 0, sha⟩) =
      hub.goOn call (.moving ⟨sha, tree, markedText call.message call.key, parent⟩) := rfl

theorem next_move {commit : BranchCommit} (onTop : hub.fastForward call.branch commit = true) :
    (hub.goOn call (.moving commit)).next slug (.reply ⟨.status 200, 0, ""⟩) =
      (hub.setBranch call.branch (commit :: hub.branches call.branch)).finishPublish call (.ok commit.sha) := by
  have lands : (hub.goOn call (.moving commit)).lands { call with phase := .moving commit } commit
      ⟨.status 200, 0, ""⟩ = true := by
    simpa [lands, ProviderAnswer.takesEffect, goOn, fastForward] using onTop
  simp only [next, goOn, answer, move] at lands ⊢
  simp [lands, ProviderAnswer.raised, finishPublish, setBranch]

/-- A publication whose marker the first page does not show lands on the head and returns its commit. -/
theorem publication_lands (idle : hub.call = none) (changed : call.changes ≠ [])
    (present : hub.branches call.branch = head :: older) (unseen : hub.scanned call perPage = none)
    (decoded : treeEntries call.changes = .ok entries) :
    (.publish call.branch call.changes call.message call.key :: publishedReplies tree sha).foldl (next slug) hub =
      (hub.setBranch call.branch
        (⟨sha, tree, markedText call.message call.key, head.sha⟩ :: hub.branches call.branch)).finishPublish call
        (.ok sha) := by
  have onTop (commit : BranchCommit) (parent : commit.parent = head.sha) :
      hub.fastForward call.branch commit = true := by
    simp [fastForward, present, parent]
  simp only [publishedReplies, List.foldl_cons, List.foldl_nil]
  rw [next_publish idle changed, next_scan present unseen, next_readHead present decoded, next_plant, next_commit,
    next_move (onTop _ rfl)]

/-- Such a publication is clear where neither its own marker nor another in its text is on the branch. -/
theorem publication_clear (idle : hub.call = none) (changed : call.changes ≠ [])
    (present : hub.branches call.branch = head :: older) (unseen : hub.scanned call perPage = none)
    (decoded : treeEntries call.changes = .ok entries) (unmarked : ∀ key, Unmarked key (hub.messages call.branch)) :
    Trace.Along (next slug) Clear hub
      (.publish call.branch call.changes call.message call.key :: publishedReplies tree sha) := by
  simp only [publishedReplies, Trace.Along]
  rw [next_publish idle changed, next_scan present unseen, next_readHead present decoded, next_plant, next_commit]
  exact ⟨trivial, fun _ => .inr (unmarked call.key), trivial, trivial, trivial, fun key _ _ => unmarked key, trivial⟩

end Published

def small : Hub := { branches := fun _ => [⟨"c0", "t0", "init", ""⟩], comments := fun _ => some [] }

theorem small_deduplicated : small.Deduplicated := by
  constructor
  · intro branch
    exact List.pairwise_singleton _ _
  · intro number
    exact List.Pairwise.nil
  · intro branch key sha member
    simp [small] at member

def publication : HubEvent := .publish "work" [("a.txt", [])] "work" "k"

def restarted : List HubEvent :=
  publication :: publishedReplies "t1" "c1" ++ List.replicate 100 (.othersCommit "work" ⟨"c", "t", "more", ""⟩) ++
    .restart :: publication :: publishedReplies "t2" "c2"

def commented : HubEvent := .comment 1 "done" "k"

def chatted : List HubEvent :=
  List.replicate 30 (.othersComment 1 "+1") ++
    [commented, .reply ⟨.status 200, defaultPerPage, ""⟩, .reply ⟨.status 201, 0, ""⟩] ++
    [commented, .reply ⟨.status 200, defaultPerPage, ""⟩, .reply ⟨.status 201, 0, ""⟩]

/-- Hundred commits by others hide the marker of a commit, and thirty comments that of a comment. -/
theorem republished_twice :
    ¬ (restarted.foldl (next "acme/pay") small).Deduplicated ∧ ¬ (chatted.foldl (next "acme/pay") small).Deduplicated := by
  constructor
  · intro deduplicated
    have one := (deduplicated.commits "work").single "k"
    revert one
    decide +kernel
  · intro deduplicated
    have one := (deduplicated.comments 1).single "k"
    revert one
    decide +kernel

/-- A publication goes through, and its repetition returns the same commit. -/
theorem repeated_publication_deduplicated :
    let events := (publication :: publishedReplies "t1" "c1") ++ [publication, .reply ⟨.status 200, perPage, ""⟩]
    (events.foldl (next "acme/pay") small).Deduplicated := by
  intro events
  let call : PublishCall := { branch := "work", changes := [("a.txt", [])], message := "work", key := "k" }
  have plain (key : String) : Unmarked key (small.messages "work") := by
    intro text member
    simp only [messages, small, List.map_cons, List.map_nil, List.mem_singleton] at member
    rw [member]
    exact not_carriesMarker (by decide)
  have entries : treeEntries call.changes = .ok [("a.txt", "")] := by decide +kernel
  have unseen : small.scanned call perPage = none := by decide +kernel
  have first := @publication_clear small "acme/pay" call "t1" "c1" _ _ _ rfl (by simp [call]) rfl unseen entries plain
  have landed : (publication :: publishedReplies "t1" "c1").foldl (next "acme/pay") small = _ :=
    @publication_lands small "acme/pay" call "t1" "c1" _ _ _ rfl (by simp [call]) rfl unseen entries
  have clear : Trace.Along (next "acme/pay") Clear small events := by
    refine Trace.along_append.mpr ⟨first, ?_⟩
    rw [landed]
    refine ⟨trivial, fun _ => .inl ⟨rfl, ?_⟩, trivial⟩
    decide +kernel
  exact published_once "acme/pay" small rfl events small_deduplicated clear events [] (by simp)

end Hub

end DarkFactory
