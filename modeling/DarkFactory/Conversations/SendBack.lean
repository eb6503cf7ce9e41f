import DarkFactory.Conversations.Operations
import Mathlib.Data.Prod.Lex
import Mathlib.Data.String.Basic

namespace DarkFactory

/-! ## The texts of the loop -/

section Planning

variable {budget : BudgetSnapshot} {earlier : List ReworkOrder} {first second : ReworkOrder}

def saysNoCommit (reason : String) : Bool := "rework did not produce a new commit".toList.isPrefixOf reason.toList

def StopsForNoCommit (planned : Except Failure ReworkDecision) : Prop :=
  ∃ plan, planned = .ok plan ∧ plan.outcome = .blocked ∧
    saysNoCommit plan.reason = true

def orderPass (order : ReworkOrder) (index : Nat) : ReviewPass :=
  { round := index + 1, sha := orderRevision order, blocking := orderSignatures order
    round_pos := by omega, sha_nonempty := orderRevision_nonempty order }

theorem orderPasses_eq (orders : List ReworkOrder) :
    orderPasses orders = .ok (orders.zipIdx.map fun item => orderPass item.1 item.2) := by
  unfold orderPasses
  induction orders.zipIdx with
  | nil => rfl
  | cons item rest ih =>
    obtain ⟨order, index⟩ := item
    have built : ReviewPass.build (index + 1) (orderRevision order) (orderSignatures order) [] =
        .ok (orderPass order index) := by
      simp [ReviewPass.build, orderRevision_nonempty, orderPass]
    rw [List.mapM_cons, ih]
    dsimp only
    rw [built]
    rfl

theorem repeatedPass_same {previous last : ReviewPass} (signatures : List FindingSignature)
    (same : previous.sha = last.sha) :
    ∃ reason, repeatedPass (some previous) last signatures = some reason ∧ saysNoCommit reason = true := by
  refine ⟨_, if_pos same, ?_⟩
  simp only [saysNoCommit, String.append_assoc, String.toList_append]
  rfl

theorem repeatedPass_other {previous last : ReviewPass} {signatures : List FindingSignature} {reason : String}
    (other : previous.sha ≠ last.sha) (stops : repeatedPass (some previous) last signatures = some reason) :
    saysNoCommit reason = false := by
  rw [repeatedPass, if_neg other] at stops
  split at stops
  · obtain rfl := Option.some.inj stops
    simp only [saysNoCommit, String.append_assoc, String.toList_append]
    rfl
  · cases stops

/-- The loop over orders stops for want of a commit exactly when the last two were issued against one text. -/
theorem stopsForNoCommit_iff (granted : budget.usedReworkRounds < budget.maxReworkRounds) :
    StopsForNoCommit (planReworkOrder budget (earlier ++ [first, second])) ↔
      orderRevision first = orderRevision second := by
  have listed : (earlier ++ [first, second]).zipIdx.map (fun item => orderPass item.1 item.2) =
      earlier.zipIdx.map (fun item => orderPass item.1 item.2) ++
        [orderPass first earlier.length, orderPass second (earlier.length + 1)] := by
    simp [List.zipIdx_append]
  have planned : planReworkOrder budget (earlier ++ [first, second]) =
      planRework budget ((earlier ++ [first, second]).zipIdx.map fun item => orderPass item.1 item.2) := by
    unfold planReworkOrder
    rw [if_neg (by simp), orderPasses_eq]
    rfl
  have findings : (sortedSignatures (orderSignatures second)).isEmpty = false := by
    rw [List.isEmpty_eq_false_iff, Ne, sortedSignatures_empty]
    exact orderSignatures_nonempty second
  have allowed : reworkViolation budget (budget.usedReworkRounds + 1) = none :=
    (reworkViolation_none _ _).mpr ⟨granted, granted⟩
  rw [planned, listed]
  unfold planRework
  rw [show (earlier.zipIdx.map (fun item => orderPass item.1 item.2) ++
      [orderPass first earlier.length, orderPass second (earlier.length + 1)]).getLast? =
        some (orderPass second (earlier.length + 1)) by simp]
  rw [show (earlier.zipIdx.map (fun item => orderPass item.1 item.2) ++
      [orderPass first earlier.length, orderPass second (earlier.length + 1)]).dropLast.getLast? =
        some (orderPass first earlier.length) by simp]
  have blocking : (orderPass second (earlier.length + 1)).blocking = orderSignatures second := rfl
  have escalations : escalationStopReason (orderPass second (earlier.length + 1)).escalations = none := rfl
  dsimp only
  rw [blocking, if_neg (by simp [findings]), escalations, allowed]
  dsimp only
  by_cases same : orderRevision first = orderRevision second
  · obtain ⟨reason, repeats, marked⟩ := @repeatedPass_same (orderPass first earlier.length)
      (orderPass second (earlier.length + 1)) (sortedSignatures (orderSignatures second)) same
    rw [repeats]
    exact ⟨fun _ => same, fun _ => ⟨_, rfl, rfl, marked⟩⟩
  · refine ⟨fun stops => absurd stops ?_, fun equal => absurd equal same⟩
    rintro ⟨plan, made, blocked, marked⟩
    cases repeats : repeatedPass (some (orderPass first earlier.length)) (orderPass second (earlier.length + 1))
        (sortedSignatures (orderSignatures second)) with
    | none =>
      rw [repeats] at made
      obtain rfl := Except.ok.inj made
      cases blocked
    | some reason =>
      rw [repeats] at made
      obtain rfl := Except.ok.inj made
      rw [ReworkDecision.blocked, repeatedPass_other same repeats] at marked
      cases marked

end Planning

/-! ## The revisions an order is bound to -/

def seenRevision (comments : List Comment) (artifact : String) : Option String :=
  (comments.find? fun comment => comment.artifact = artifact && comment.revision.isSome).bind Comment.revision

def boundRevision (comments : List Comment) (documents : List String) (head artifact : String) : Option String :=
  (seenRevision comments artifact).or (if artifact ∈ documents then some head else none)

def writtenRevisions (revisions : List (String × String)) : String :=
  Text.join "+" ((revisions.insertionSort fun left right => pairBefore left right = true).map fun entry =>
    s!"{entry.1}@{entry.2}")

section Bindings

variable {around : Surroundings} {view : ArtifactView} {head artifact : String} {comments : List Comment}
  {order : ReworkOrder}

theorem boundRevisions_unique : Table.Unique Prod.fst (boundRevisions around comments) :=
  Table.Unique.nil.foldl_insertNew _

theorem find_seen (comments : List Comment) (artifact : String) :
    Table.find Prod.fst artifact (comments.filterMap fun comment =>
      comment.revision.map fun revision => (comment.artifact, revision)) =
      (seenRevision comments artifact).map fun revision => (artifact, revision) := by
  induction comments with
  | nil => rfl
  | cons comment rest ih =>
    unfold seenRevision at ih ⊢
    unfold Table.find at ih ⊢
    cases seen : comment.revision with
    | none => simp [seen, ih]
    | some revision =>
      by_cases here : comment.artifact = artifact
      · simp [seen, here]
      · simp [seen, here, ih]

theorem find_documents (documents : List String) (head artifact : String) :
    Table.find Prod.fst artifact (documents.map fun path => (path, head)) =
      if artifact ∈ documents then some (artifact, head) else none := by
  induction documents with
  | nil => rfl
  | cons path rest ih =>
    unfold Table.find at ih ⊢
    by_cases here : path = artifact
    · simp [here]
    · simp [here, Ne.symm here, ih]

theorem find_boundRevisions (bound : around.artifacts = some view) (standing : view.head = some head) :
    Table.find Prod.fst artifact (boundRevisions around comments) =
      (boundRevision comments view.paths head artifact).map fun revision => (artifact, revision) := by
  have known : around.head = some head := by rw [Surroundings.head, bound, Option.bind_some, standing]
  unfold boundRevisions boundRevision
  dsimp only
  rw [Table.find_foldl_insertNew, bound, known]
  dsimp only
  rw [show Table.find Prod.fst artifact ([] : List (String × String)) = none from rfl, Option.none_or, Table.find,
    List.find?_append, ← Table.find, ← Table.find, find_seen, find_documents]
  cases seenRevision comments artifact with
  | some revision => rfl
  | none => split <;> rfl

theorem boundRevisions_occupied (bound : around.artifacts = some view) (standing : view.head = some head)
    (occupied : view.paths ≠ []) : (boundRevisions around comments).isEmpty = false := by
  obtain ⟨path, rest, shape⟩ := List.exists_cons_of_ne_nil occupied
  have found := @find_boundRevisions around view head path comments bound standing
  have there : boundRevision comments view.paths head path ≠ none := by
    rw [boundRevision, if_pos (by rw [shape]; exact List.mem_cons_self)]
    cases seenRevision comments path <;> exact Option.some_ne_none _
  obtain ⟨revision, here⟩ := Option.ne_none_iff_exists'.mp there
  rw [here] at found
  rw [List.isEmpty_eq_false_iff]
  exact List.ne_nil_of_mem (Table.find_some found).1

theorem pairBefore_iff {left right : String × String} :
    pairBefore left right = true ↔ toLex left ≤ toLex right := by
  rw [Prod.Lex.le_iff]
  unfold pairBefore
  by_cases same : left.1 = right.1
  · rw [if_neg (not_not.mpr same), Bool.not_eq_true', decide_eq_false_iff_not, not_lt]
    exact ⟨fun below => Or.inr ⟨same, below⟩, fun below => (below.resolve_left (same ▸ lt_irrefl _)).2⟩
  · rw [if_pos same, decide_eq_true_eq]
    exact ⟨Or.inl, fun below => below.resolve_right fun equal => same equal.1⟩

instance : Std.Total fun left right : String × String => pairBefore left right = true where
  total left right := by
    rw [pairBefore_iff, pairBefore_iff]
    exact le_total (toLex left) (toLex right)

instance : IsTrans (String × String) fun left right => pairBefore left right = true where
  trans left middle right := by
    rw [pairBefore_iff, pairBefore_iff, pairBefore_iff]
    exact le_trans 

/-- The text of the bindings does not depend on the order they were entered in. -/
theorem writtenRevisions_perm {revisions others : List (String × String)} (same : revisions.Perm others) :
    writtenRevisions revisions = writtenRevisions others := by
  unfold writtenRevisions
  congr 2
  apply @List.Perm.eq_of_pairwise _ fun left right => pairBefore left right = true
  · intro left right _ _ forth back
    exact toLex.injective (le_antisymm (pairBefore_iff.mp forth) (pairBefore_iff.mp back))
  · exact List.pairwise_insertionSort _ _
  · exact List.pairwise_insertionSort _ _
  · exact (List.perm_insertionSort _ _).trans (same.trans (List.perm_insertionSort _ _).symm)

theorem orderRevision_written (occupied : order.revisions.isEmpty = false) :
    orderRevision order = writtenRevisions order.revisions := by
  unfold orderRevision writtenRevisions
  rw [if_neg (by simp [occupied])]

/-- No plus and no at sign: the characters the text of the bindings is put together with. -/
def PlainWord (text : String) : Prop := '+' ∉ text.toList ∧ '@' ∉ text.toList

def PlainBindings (revisions : List (String × String)) : Prop :=
  ∀ entry ∈ revisions, PlainWord entry.1 ∧ PlainWord entry.2

theorem writtenEntry_injective {left right : String × String} (plain : PlainWord left.1) (plain' : PlainWord right.1)
    (same : s!"{left.1}@{left.2}" = s!"{right.1}@{right.2}") : left = right := by
  have letters := congrArg String.toList same
  simp only [String.toList_append, List.append_assoc] at letters
  obtain ⟨paths, revisions⟩ := (@Delimited.cut_first _ '@' _ _ _ _ plain.2 plain'.2).mp letters
  exact Prod.ext (String.toList_injective paths) (String.toList_injective revisions)

theorem writtenRevisions_injective {revisions others : List (String × String)} (occupied : revisions ≠ [])
    (occupied' : others ≠ []) (plain : PlainBindings revisions) (plain' : PlainBindings others)
    (same : writtenRevisions revisions = writtenRevisions others) : revisions.Perm others := by
  let sorted (revisions : List (String × String)) :=
    revisions.insertionSort fun left right => pairBefore left right = true
  have mem_sorted {revisions : List (String × String)} {entry : String × String} :
      entry ∈ sorted revisions ↔ entry ∈ revisions := List.mem_insertionSort _
  have parts {revisions : List (String × String)} (occupied : revisions ≠ []) (plain : PlainBindings revisions) :
      (writtenRevisions revisions).toList.splitOn '+' =
        (sorted revisions).map fun entry => s!"{entry.1}@{entry.2}".toList := by
    unfold writtenRevisions Text.join
    rw [String.toList_intercalate, List.map_map]
    apply List.splitOn_intercalate
    · intro segment member
      obtain ⟨entry, listed, rfl⟩ := List.mem_map.mp member
      have words := plain entry (mem_sorted.mp listed)
      simp only [Function.comp_apply, String.toList_append, List.mem_append, not_or]
      exact ⟨⟨words.1.1, by decide⟩, words.2.1⟩
    · intro empty
      have none := List.map_eq_nil_iff.mp empty
      exact occupied (List.length_eq_zero_iff.mp (by rw [← List.length_insertionSort (fun left right => pairBefore left right = true), none]; rfl))
  have entries : (sorted revisions).map (fun entry => s!"{entry.1}@{entry.2}".toList) =
      (sorted others).map fun entry => s!"{entry.1}@{entry.2}".toList := by
    rw [← parts occupied plain, same, parts occupied' plain']
  have equal : sorted revisions = sorted others := by
    apply List.ext_getElem (by simpa using congrArg List.length entries)
    intro i bound bound'
    have here := List.getElem_of_eq entries (by simpa using bound)
    rw [List.getElem_map, List.getElem_map] at here
    exact writtenEntry_injective (plain _ (mem_sorted.mp (List.getElem_mem bound))).1
      (plain' _ (mem_sorted.mp (List.getElem_mem bound'))).1 (String.toList_injective here)
  have front : (sorted revisions).Perm revisions := List.perm_insertionSort _ _
  have back : (sorted others).Perm others := List.perm_insertionSort _ _
  exact front.symm.trans (equal ▸ back)

end Bindings

/-! ## Two send-backs -/

/-- A new order issued with a bound repository whose tree, as the head has it, is not empty. -/
structure SendBack (tree : String → List String) where
  around : Surroundings
  request : ReworkRequest
  before : ChangeStore
  view : ArtifactView
  head : String
  comments : List Comment
  order : ReworkOrder
  after : ChangeStore
  bound : around.artifacts = some view
  standing : view.head = some head
  documents : view.paths = tree head
  occupied : tree head ≠ []
  named : request.commentIds.mapM (knownComment before request.changeId) = .ok comments
  issued : issueReworkOrder around request before = .ok ((order, true), after)

section SendBacks

variable {tree : String → List String}

namespace SendBack

def revisionOf (sent : SendBack tree) (artifact : String) : Option String :=
  boundRevision sent.comments (tree sent.head) sent.head artifact

def bindings (sent : SendBack tree) : List (String × String) := boundRevisions sent.around sent.comments

theorem order_bindings (sent : SendBack tree) : sent.order.revisions = sent.bindings := by
  have issued := sent.issued
  unfold issueReworkOrder at issued
  cases found : sent.before.change sent.request.changeId with
  | none => simp [found] at issued
  | some change =>
    simp only [found] at issued
    split at issued
    · cases issued
    · cases known : sent.before.reworkOrder (sent.request.orderId sent.around) with
      | some existing => simp [known] at issued
      | none =>
        cases idle : activeOrder sent.before sent.request.changeId sent.request.phase with
        | some active => simp [known, idle] at issued
        | none =>
          simp only [known, idle] at issued
          obtain ⟨comments, named, issued⟩ := Outcome.bind_ok.mp issued
          obtain ⟨questions, -, issued⟩ := Outcome.bind_ok.mp issued
          obtain ⟨row, built, issued⟩ := Outcome.bind_ok.mp issued
          rw [sent.named, Except.ok.injEq] at named
          obtain ⟨⟨own, -⟩, -⟩ := Prod.mk.inj (Outcome.pure_ok.mp issued) |>.imp Prod.mk.inj id
          rw [← own, bindings, named]
          unfold buildOrder at built
          split at built
          · cases built
          · split at built
            · cases built
              rfl
            · cases built

theorem find_bindings (sent : SendBack tree) (artifact : String) :
    Table.find Prod.fst artifact sent.bindings =
      (sent.revisionOf artifact).map fun revision => (artifact, revision) := by
  rw [bindings, find_boundRevisions sent.bound sent.standing, sent.documents]
  rfl

theorem bindings_occupied (sent : SendBack tree) : sent.bindings.isEmpty = false :=
  boundRevisions_occupied sent.bound sent.standing (by rw [sent.documents]; exact sent.occupied)

end SendBack

variable (first second : SendBack tree)

def BoundApart : Prop := ∃ artifact, first.revisionOf artifact ≠ second.revisionOf artifact

def Blurred : Prop := BoundApart first second ∧ writtenRevisions first.bindings = writtenRevisions second.bindings

theorem written_same_iff :
    writtenRevisions first.bindings = writtenRevisions second.bindings ↔
      ¬ BoundApart first second ∨ Blurred first second := by
  constructor
  · intro same
    by_cases apart : BoundApart first second
    · exact Or.inr ⟨apart, same⟩
    · exact Or.inl apart
  · intro alike
    rcases alike with together | blurred
    · apply writtenRevisions_perm
      apply boundRevisions_unique.perm_of_find boundRevisions_unique
      intro artifact
      have equal : first.revisionOf artifact = second.revisionOf artifact := by
        by_contra differ
        exact together ⟨artifact, differ⟩
      exact (first.find_bindings artifact).trans (equal ▸ (second.find_bindings artifact).symm)
    · exact blurred.2

/-- Bindings whose artifacts and revisions have no plus and no at sign are not blurred. -/
theorem plain_not_blurred (plain : PlainBindings first.bindings) (plain' : PlainBindings second.bindings) :
    ¬ Blurred first second := by
  rintro ⟨⟨artifact, differ⟩, same⟩
  have perm := writtenRevisions_injective (List.isEmpty_eq_false_iff.mp first.bindings_occupied)
    (List.isEmpty_eq_false_iff.mp second.bindings_occupied) plain plain' same
  apply differ
  have found : Table.find Prod.fst artifact first.bindings = Table.find Prod.fst artifact second.bindings :=
    boundRevisions_unique.find_perm perm
  rw [first.find_bindings, second.find_bindings] at found
  exact Option.map_injective (fun _ _ equal => (Prod.mk.inj equal).2) found

/-- The loop over the orders of the phase stops the second for want of a commit exactly when the head did not move. -/
def HeadDecides : Prop :=
  ∀ (budget : BudgetSnapshot) (earlier : List ReworkOrder) (status status' : ReworkOrderStatus),
    budget.usedReworkRounds < budget.maxReworkRounds →
      (StopsForNoCommit (planReworkOrder budget
          (earlier ++ [{ first.order with status }, { second.order with status := status' }])) ↔
        first.head = second.head)

/-- At one head the orders bind every artifact alike, and at two heads some artifact differently; no two bindings are
    blurred into one text unless the head is one. -/
def RevisionsTell : Prop :=
  if first.head = second.head then ¬ BoundApart first second ∨ Blurred first second
  else BoundApart first second ∧ ¬ Blurred first second

theorem orderRevision_sent (sent : SendBack tree) (status : ReworkOrderStatus) :
    orderRevision { sent.order with status } = writtenRevisions sent.bindings := by
  have bindings : ({ sent.order with status } : ReworkOrder).revisions = sent.bindings := sent.order_bindings
  rw [orderRevision_written (by rw [bindings]; exact sent.bindings_occupied), bindings]

/-- The loop tells a new commit from none exactly when the bindings do. -/
theorem send_back_head_iff : HeadDecides first second ↔ RevisionsTell first second := by
  have decides : HeadDecides first second ↔
      (writtenRevisions first.bindings = writtenRevisions second.bindings ↔ first.head = second.head) := by
    constructor
    · intro always
      have here := always { maxReworkRounds := 1 } [] .pending .pending (by decide)
      rwa [stopsForNoCommit_iff (by decide), orderRevision_sent, orderRevision_sent] at here
    · intro text budget earlier status status' granted
      rw [stopsForNoCommit_iff granted, orderRevision_sent, orderRevision_sent, text]
  rw [decides, written_same_iff]
  unfold RevisionsTell
  by_cases same : first.head = second.head
  · rw [if_pos same]
    exact ⟨fun text => text.mpr same, fun alike => ⟨fun _ => same, fun _ => alike⟩⟩
  · rw [if_neg same]
    constructor
    · intro text
      have apart : ¬ (¬ BoundApart first second ∨ Blurred first second) := fun alike => same (text.mp alike)
      rw [not_or, not_not] at apart
      exact apart
    · intro apart
      refine ⟨fun alike => absurd alike ?_, fun equal => absurd equal same⟩
      rw [not_or, not_not]
      exact apart

end SendBacks

def oneDocument (_ : String) : List String := ["spec.md"]

def standingAt (head : String) (hex : String) : Surroundings :=
  { artifacts := some { head := some head, paths := ["spec.md"], revisions := fun _ => some head }
    decisionHex := hex, orderHex := hex }

def commented : ChangeStore :=
  { changes := [{ id := "CHG-1" }]
    comments := [{ id := "cm_1", changeId := "CHG-1", phase := .architecture, artifact := "spec.md"
                   revision := some "c0001" }] }

def finishOrders (store : ChangeStore) : ChangeStore :=
  { store with reworkOrders := store.reworkOrders.map fun row => { row with order.status := .done } }

def instructed : ReworkRequest :=
  { changeId := "CHG-1", phase := .architecture, instruction := some "split it", issuedBy := "operator" }

def remarked : ReworkRequest :=
  { changeId := "CHG-1", phase := .architecture, commentIds := ["cm_1"], issuedBy := "operator" }

/-- The store the first round left: its order is done, the head stands where it stood. -/
def fruitless : ChangeStore :=
  finishOrders (commented.settled (issueReworkOrder (standingAt "c0002" "1") instructed commented))

def firstSendBack : SendBack oneDocument where
  around := standingAt "c0002" "1"
  request := instructed
  before := commented
  view := { head := some "c0002", paths := ["spec.md"], revisions := fun _ => some "c0002" }
  head := "c0002"
  comments := []
  order := { id := "rw_1", changeId := "CHG-1", phase := .architecture, revisions := [("spec.md", "c0002")]
             instruction := some "split it" }
  after := commented.settled (issueReworkOrder (standingAt "c0002" "1") instructed commented)
  bound := rfl
  standing := rfl
  documents := rfl
  occupied := by decide
  named := rfl
  issued := by rfl

def secondSendBack : SendBack oneDocument where
  around := standingAt "c0002" "2"
  request := remarked
  before := fruitless
  view := { head := some "c0002", paths := ["spec.md"], revisions := fun _ => some "c0002" }
  head := "c0002"
  comments := commented.comments
  order := { id := "rw_2", changeId := "CHG-1", phase := .architecture, revisions := [("spec.md", "c0001")]
             commentIds := ["cm_1"] }
  after := fruitless.settled (issueReworkOrder (standingAt "c0002" "2") remarked fruitless)
  bound := rfl
  standing := rfl
  documents := rfl
  occupied := by decide
  named := by rfl
  issued := by rfl

/-- The round of the first send-back moved nothing; the second one, over a comment on an older revision, is given a
    round again. -/
theorem unmoved_head_reworked :
    ¬ ∀ (tree : String → List String) (first second : SendBack tree), HeadDecides first second := by
  intro decides
  have stops := (decides oneDocument firstSendBack secondSendBack { maxReworkRounds := 3 } [] .done .pending
    (by decide)).mpr rfl
  rw [List.nil_append] at stops
  have texts := (@stopsForNoCommit_iff _ [] _ _ (by decide)).mp stops
  revert texts
  decide +kernel

end DarkFactory
