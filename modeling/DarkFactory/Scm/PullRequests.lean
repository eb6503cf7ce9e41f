import DarkFactory.Lib.Trace
import DarkFactory.Scm.Provider

namespace DarkFactory

/-- A pull request as the provider holds it; `merged` is the head that was merged. -/
structure PullRequest where
  head : String
  merged : Option String := none
  deriving DecidableEq, Repr

inductive MergePhase
  | reading
  | ordering (head : String)
  deriving DecidableEq, Repr

structure MergeCall where
  expectedSha : String
  phase : MergePhase := .reading
  deriving DecidableEq, Repr

structure EndedMerge where
  expectedSha : String
  mergedHead : Option String := none
  raised : Option ProviderError := none
  deriving DecidableEq, Repr

structure MergeState where
  pull : PullRequest
  calls : List MergeCall := []
  ended : List EndedMerge := []
  deriving DecidableEq, Repr

inductive MergeEvent
  | call (expectedSha : String)
  | answer (index : Nat) (answer : ProviderAnswer)
  | push (sha : String)
  deriving DecidableEq, Repr

section Merge

variable (request : ChangeRequestRef)

def pullPath : String := s!"/repos/{request.repository.slug}/pulls/{request.number}"

def MergeState.finish (state : MergeState) (index : Nat) (ended : EndedMerge) : MergeState :=
  { state with calls := state.calls.eraseIdx index, ended := ended :: state.ended }

/-- `GET /pulls/{number}` and the checks on its answer. -/
def MergeState.read (state : MergeState) (index : Nat) (call : MergeCall) (answer : ProviderAnswer) : MergeState :=
  let failed (error : ProviderError) : MergeState :=
    state.finish index { expectedSha := call.expectedSha, raised := some error }
  match answer with
  | .lost _ => failed transportError
  | .status code =>
    if code = 404 then
      failed ⟨.key, s!"unknown change request {request.repository.slug}#{request.number}"⟩
    else if code ≠ 200 then failed (unexpectedStatus "GET" (pullPath request) code)
    else if state.pull.head ≠ call.expectedSha then
      failed ⟨.headMismatch, s!"head of {request.repository.slug}#{request.number} is " ++
        s!"{state.pull.head}, expected {call.expectedSha}"⟩
    else if state.pull.merged.isSome then state.finish index { expectedSha := call.expectedSha }
    else { state with calls := state.calls.set index { call with phase := .ordering state.pull.head } }

def mergeRaised (answer : ProviderAnswer) : Option ProviderError :=
  answer.raised 200 "PUT" (pullPath request ++ "/merge")

/-- `PUT /pulls/{number}/merge` names no commit: the provider merges the head it has, or refuses a merged request. -/
def MergeState.order (state : MergeState) (index : Nat) (call : MergeCall) (answer : ProviderAnswer) : MergeState :=
  if state.pull.merged.isSome then
    let refused : ProviderAnswer := if answer.takesEffect 200 then .status 405 else answer
    state.finish index { expectedSha := call.expectedSha, raised := mergeRaised request refused }
  else if answer.takesEffect 200 then
    let merged : MergeState := { state with pull := { state.pull with merged := some state.pull.head } }
    merged.finish index
      { expectedSha := call.expectedSha, mergedHead := some state.pull.head, raised := mergeRaised request answer }
  else state.finish index { expectedSha := call.expectedSha, raised := mergeRaised request answer }

/-- Calls, the provider's answers to them and pushes come in any order; a push moves the head of an open request. -/
def MergeState.next (state : MergeState) : MergeEvent → MergeState
  | .call expectedSha => { state with calls := state.calls ++ [{ expectedSha }] }
  | .answer index answer =>
    match state.calls[index]? with
    | none => state
    | some call =>
      match call.phase with
      | .reading => state.read request index call answer
      | .ordering _ => state.order request index call answer
  | .push sha => if state.pull.merged.isSome then state else { state with pull := { state.pull with head := sha } }

def MergeState.merging (state : MergeState) : MergeEvent → Option MergeCall
  | .answer index answer =>
    state.calls[index]?.filter fun call =>
      call.phase ≠ .reading ∧ answer.takesEffect 200 ∧ state.pull.merged = none
  | _ => none

/-- A merged request keeps the head that was merged, no call returns from an open one, and a call that goes on to its
    order has read the head it expects. -/
structure MergeState.Steady (state : MergeState) : Prop where
  checked : ∀ call ∈ state.calls, ∀ head, call.phase = .ordering head → head = call.expectedSha
  frozen : ∀ head, state.pull.merged = some head → head = state.pull.head
  returned : ∀ ended ∈ state.ended, ended.raised = none → state.pull.merged.isSome

/-- What a call merged is what it expected, and a call that raised nothing leaves its commit merged. -/
def MergeState.Sound (state : MergeState) : Prop :=
  ∀ ended ∈ state.ended, (∀ head, ended.mergedHead = some head → head = ended.expectedSha) ∧
    (ended.raised = none → state.pull.merged = some ended.expectedSha)

/-- An order that merges finds the head that its call read: no push has moved it in between, or another push has moved
    it back. -/
def MergeState.HeadStands (state : MergeState) (event : MergeEvent) : Prop :=
  ∀ call, state.merging event = some call → call.phase = .ordering state.pull.head

/-! ## What an event does -/

section Steps

variable {request : ChangeRequestRef} {state : MergeState} {event : MergeEvent} {call : MergeCall}

/-- A record of a call that merged nothing and returned only where its commit was merged already. -/
def EndedMerge.Idle (ended : EndedMerge) (pull : PullRequest) : Prop :=
  ended.mergedHead = none ∧ (ended.raised = none → pull.merged.isSome ∧ pull.head = ended.expectedSha)

theorem read_spec (request : ChangeRequestRef) (state : MergeState) (call : MergeCall) (index : Nat)
    (answer : ProviderAnswer) :
    (state.read request index call answer).pull = state.pull ∧
      ((state.read request index call answer).ended = state.ended ∨
        ∃ ended : EndedMerge, (state.read request index call answer).ended = ended :: state.ended ∧
          ended.Idle state.pull) := by
  unfold MergeState.read
  cases answer with
  | lost received => exact ⟨rfl, .inr ⟨_, rfl, rfl, by simp⟩⟩
  | status code =>
    dsimp only
    split
    · exact ⟨rfl, .inr ⟨_, rfl, rfl, by simp⟩⟩
    split
    · exact ⟨rfl, .inr ⟨_, rfl, rfl, by simp⟩⟩
    split
    · exact ⟨rfl, .inr ⟨_, rfl, rfl, by simp⟩⟩
    · rename_i same
      split
      · rename_i merged
        exact ⟨rfl, .inr ⟨_, rfl, rfl, fun _ => ⟨merged, not_ne_iff.mp same⟩⟩⟩
      · exact ⟨rfl, .inl rfl⟩

theorem mergeRaised_of_refused (request : ChangeRequestRef) {answer : ProviderAnswer}
    (refused : answer.takesEffect 200 = false) :
    mergeRaised request answer ≠ none :=
  ProviderAnswer.raised_of_refused refused

theorem order_of_merged {index : Nat} {answer : ProviderAnswer} (merged : state.pull.merged.isSome) :
    ∃ ended : EndedMerge, (state.order request index call answer).pull = state.pull ∧
      (state.order request index call answer).ended = ended :: state.ended ∧ ended.Idle state.pull := by
  have silent : (if answer.takesEffect 200 then ProviderAnswer.status 405 else answer).takesEffect 200 = false := by
    cases effect : answer.takesEffect 200 with
    | true => rfl
    | false => exact effect
  have raised := mergeRaised_of_refused request silent
  unfold MergeState.order
  rw [if_pos merged]
  exact ⟨_, rfl, rfl, rfl, fun none => absurd none raised⟩

theorem order_of_refused {index : Nat} {answer : ProviderAnswer} (open_ : ¬ state.pull.merged.isSome)
    (refused : answer.takesEffect 200 = false) :
    ∃ ended : EndedMerge, (state.order request index call answer).pull = state.pull ∧
      (state.order request index call answer).ended = ended :: state.ended ∧ ended.Idle state.pull := by
  have raised := mergeRaised_of_refused request refused
  unfold MergeState.order
  rw [if_neg open_, if_neg (by simp [refused])]
  exact ⟨_, rfl, rfl, rfl, fun none => absurd none raised⟩

theorem order_of_effect (request : ChangeRequestRef) (call : MergeCall) (index : Nat) {answer : ProviderAnswer}
    (open_ : ¬ state.pull.merged.isSome)
    (effect : answer.takesEffect 200 = true) :
    (state.order request index call answer).pull = { state.pull with merged := some state.pull.head } ∧
      ∃ raised, (state.order request index call answer).ended =
        { expectedSha := call.expectedSha, mergedHead := some state.pull.head, raised } :: state.ended := by
  unfold MergeState.order
  rw [if_neg open_, if_pos effect]
  exact ⟨rfl, _, rfl⟩

theorem next_of_merging (request : ChangeRequestRef) (merging : state.merging event = some call) :
    (state.next request event).pull = { state.pull with merged := some state.pull.head } ∧
      state.pull.merged = none ∧ ∃ raised, (state.next request event).ended =
        { expectedSha := call.expectedSha, mergedHead := some state.pull.head, raised } :: state.ended := by
  cases event with
  | call expectedSha => simp [MergeState.merging] at merging
  | push sha => simp [MergeState.merging] at merging
  | answer index answer =>
    have ⟨found, phase, effect, unmerged⟩ :
        state.calls[index]? = some call ∧ call.phase ≠ .reading ∧ answer.takesEffect 200 ∧ state.pull.merged = none := by
      simpa [MergeState.merging, Option.filter_eq_some_iff] using merging
    have ordered := order_of_effect request call index
      (by simp [unmerged] : ¬ state.pull.merged.isSome) effect
    cases ordering : call.phase with
    | reading => exact absurd ordering phase
    | ordering head =>
      simp only [MergeState.next, found, ordering]
      exact ⟨ordered.1, unmerged, ordered.2⟩

theorem MergeState.Steady.merging_head (steady : state.Steady) (merging : state.merging event = some call) :
    call.phase = .ordering call.expectedSha := by
  cases event with
  | call expectedSha => simp [MergeState.merging] at merging
  | push sha => simp [MergeState.merging] at merging
  | answer index answer =>
    have ⟨found, phase, _, _⟩ :
        state.calls[index]? = some call ∧ call.phase ≠ .reading ∧ answer.takesEffect 200 ∧ state.pull.merged = none := by
      simpa [MergeState.merging, Option.filter_eq_some_iff] using merging
    cases ordering : call.phase with
    | reading => exact absurd ordering phase
    | ordering head => rw [steady.checked call (List.mem_of_getElem? found) head ordering]

/-- Any other event leaves what is merged, moves no merged request and ends at most one call, idly. -/
theorem next_of_quiet (request : ChangeRequestRef) (quiet : state.merging event = none) :
    (state.next request event).pull.merged = state.pull.merged ∧
      (state.pull.merged.isSome → (state.next request event).pull = state.pull) ∧
      ((state.next request event).ended = state.ended ∨
        ∃ ended : EndedMerge, (state.next request event).ended = ended :: state.ended ∧
          ended.Idle (state.next request event).pull) := by
  cases event with
  | call expectedSha => exact ⟨rfl, fun _ => rfl, .inl rfl⟩
  | push sha =>
    by_cases merged : state.pull.merged.isSome
    · simp [MergeState.next, merged]
    · simp [MergeState.next, merged]
  | answer index answer =>
    cases found : state.calls[index]? with
    | none =>
      simp only [MergeState.next, found]
      exact ⟨trivial, fun _ => trivial, .inl trivial⟩
    | some call =>
      cases phase : call.phase with
      | reading =>
        have ⟨pull, ended⟩ := read_spec request state call index answer
        simp only [MergeState.next, found, phase, pull]
        exact ⟨trivial, fun _ => trivial, ended⟩
      | ordering head =>
        have idle : ∃ ended : EndedMerge, (state.order request index call answer).pull = state.pull ∧
            (state.order request index call answer).ended = ended :: state.ended ∧ ended.Idle state.pull := by
          by_cases merged : state.pull.merged.isSome
          · exact order_of_merged merged
          · have refused : answer.takesEffect 200 = false := by
              have none : state.pull.merged = none := by simpa using merged
              simpa [MergeState.merging, found, phase, none] using quiet
            exact order_of_refused merged refused
        obtain ⟨ended, pull, ends, still⟩ := idle
        simp only [MergeState.next, found, phase, pull]
        exact ⟨trivial, fun _ => trivial, .inr ⟨ended, ends, still⟩⟩

theorem read_checked (index : Nat) (answer : ProviderAnswer) {other : MergeCall}
    (member : other ∈ (state.read request index call answer).calls) :
    other ∈ state.calls ∨ other.phase = .ordering other.expectedSha := by
  have finished (ended : EndedMerge) (listed : other ∈ (state.finish index ended).calls) : other ∈ state.calls :=
    List.mem_of_mem_eraseIdx listed
  revert member
  unfold MergeState.read
  cases answer with
  | lost received => exact fun member => Or.inl (finished _ member)
  | status code =>
    dsimp only
    split
    · exact fun member => Or.inl (finished _ member)
    split
    · exact fun member => Or.inl (finished _ member)
    split
    · exact fun member => Or.inl (finished _ member)
    · rename_i same
      split
      · exact fun member => Or.inl (finished _ member)
      · intro member
        rcases List.mem_or_eq_of_mem_set member with old | rfl
        · exact Or.inl old
        · exact Or.inr (congrArg MergePhase.ordering (not_ne_iff.mp same))

theorem order_calls (index : Nat) (answer : ProviderAnswer) :
    (state.order request index call answer).calls = state.calls.eraseIdx index := by
  unfold MergeState.order
  split
  · rfl
  · split <;> rfl

/-- A call goes on to its order only where the head is the one it expects. -/
theorem next_checked (checked : ∀ call ∈ state.calls, ∀ head, call.phase = .ordering head → head = call.expectedSha) :
    ∀ call ∈ (state.next request event).calls, ∀ head, call.phase = .ordering head → head = call.expectedSha := by
  intro other member head ordering
  have either : other ∈ state.calls ∨ other.phase = .reading ∨ other.phase = .ordering other.expectedSha := by
    cases event with
    | call expectedSha =>
      rcases List.mem_append.mp member with old | new
      · exact Or.inl old
      · rw [List.mem_singleton.mp new]
        exact Or.inr (Or.inl rfl)
    | push sha =>
      left
      revert member
      unfold MergeState.next
      dsimp only
      split <;> exact id
    | answer index answer =>
      revert member
      unfold MergeState.next
      dsimp only
      cases found : state.calls[index]? with
      | none => exact Or.inl
      | some call =>
        dsimp only
        cases call.phase with
        | reading => exact fun member => (read_checked index answer member).imp_right Or.inr
        | ordering head =>
          dsimp only
          rw [order_calls]
          exact fun member => Or.inl (List.mem_of_mem_eraseIdx member)
  rcases either with old | reading | own
  · exact checked other old head ordering
  · rw [ordering] at reading
    cases reading
  · rw [ordering] at own
    exact MergePhase.ordering.inj own

theorem steady_next (steady : state.Steady) : (state.next request event).Steady := by
  have checked := @next_checked request state event steady.checked
  cases merging : state.merging event with
  | some call =>
    obtain ⟨pull, _, raised, ended⟩ := next_of_merging request merging
    refine ⟨checked, ?_, ?_⟩
    · intro head merged
      rw [pull] at merged ⊢
      exact (Option.some.inj merged).symm
    · simp [pull]
  | none =>
    have ⟨same, stays, ends⟩ := next_of_quiet request merging
    refine ⟨checked, ?_, ?_⟩
    · intro head merged
      rw [same] at merged
      rw [stays (by simp [merged])]
      exact steady.frozen head merged
    · rw [same]
      cases ends with
      | inl ended =>
        rw [ended]
        exact steady.returned
      | inr ends =>
        obtain ⟨ended, ends, idle⟩ := ends
        rw [ends, List.forall_mem_cons, ← same]
        exact ⟨fun silent => (idle.2 silent).1, same ▸ steady.returned⟩

/-- Soundness survives exactly the events at which the head stands. -/
theorem sound_next (steady : state.Steady) :
    (state.next request event).Sound ↔ state.Sound ∧ state.HeadStands event := by
  cases merging : state.merging event with
  | some call =>
    obtain ⟨pull, unmerged, raised, ended⟩ := next_of_merging request merging
    have silent (ended : EndedMerge) (member : ended ∈ state.ended) : ended.raised ≠ none := by
      intro none
      simpa [unmerged] using steady.returned ended member none
    have stands : state.HeadStands event ↔ state.pull.head = call.expectedSha := by
      simp [MergeState.HeadStands, merging, steady.merging_head merging, eq_comm]
    have kept {merged : Option String} : (∀ ended ∈ state.ended,
        (∀ head, ended.mergedHead = some head → head = ended.expectedSha) ∧
          (ended.raised = none → merged = some ended.expectedSha)) ↔
        ∀ ended ∈ state.ended, ∀ head, ended.mergedHead = some head → head = ended.expectedSha := by
      refine forall₂_congr fun ended member => ?_
      exact and_iff_left fun none => absurd none (silent ended member)
    rw [stands]
    unfold MergeState.Sound
    rw [pull, ended, List.forall_mem_cons, kept, kept]
    grind
  | none =>
    have ⟨same, stays, ends⟩ := next_of_quiet request merging
    have stands : state.HeadStands event := by simp [MergeState.HeadStands, merging]
    unfold MergeState.Sound
    rw [and_iff_left stands, same]
    cases ends with
    | inl ended => rw [ended]
    | inr ends =>
      obtain ⟨ended, ends, nothing, idle⟩ := ends
      rw [ends, List.forall_mem_cons]
      refine and_iff_right ⟨by simp [nothing], fun returned => ?_⟩
      have ⟨merged, head⟩ := idle returned
      rw [same] at merged
      obtain ⟨sha, merged⟩ := Option.isSome_iff_exists.mp merged
      rw [stays (by simp [merged])] at head
      rw [merged, steady.frozen sha merged, head]

def MergeState.mergedHeads (state : MergeState) : List String :=
  state.ended.filterMap EndedMerge.mergedHead

theorem next_of_merged (request : ChangeRequestRef) (event : MergeEvent) (merged : state.pull.merged.isSome) :
    (state.next request event).pull = state.pull ∧ (state.next request event).mergedHeads = state.mergedHeads := by
  cases merging : state.merging event with
  | some call => simp [(next_of_merging request merging).2.1] at merged
  | none =>
    have ⟨_, stays, ends⟩ := next_of_quiet request merging
    refine ⟨stays merged, ?_⟩
    unfold MergeState.mergedHeads
    cases ends with
    | inl ended => rw [ended]
    | inr ends =>
      obtain ⟨ended, ends, nothing, _⟩ := ends
      rw [ends, List.filterMap_cons_none nothing]

end Steps

/-- Only the expected commit is merged, exactly in the runs whose merges find the head their calls read; and what is
    merged once stays as it is whatever comes later, replayed calls too. -/
theorem merge_expected_iff (request : ChangeRequestRef) (head : String) (events : List MergeEvent) :
    let opened : MergeState := { pull := { head } }
    ((events.foldl (MergeState.next request) opened).Sound ↔
        Trace.Along (MergeState.next request) MergeState.HeadStands opened events) ∧
      ∀ state : MergeState, state.pull.merged.isSome →
        (events.foldl (MergeState.next request) state).pull = state.pull ∧
          (events.foldl (MergeState.next request) state).mergedHeads = state.mergedHeads := by
  intro opened
  have steady : opened.Steady := ⟨by simp [opened], by simp [opened], by simp [opened]⟩
  have sound : opened.Sound := by simp [opened, MergeState.Sound]
  constructor
  · have runs := @Trace.holds_after_iff MergeState MergeEvent (MergeState.next request) MergeState.HeadStands
      MergeState.Steady MergeState.Sound opened events (fun _ _ _ => steady_next) (fun _ _ _ => sound_next) steady
    rw [runs, and_iff_right sound]
  · intro state merged
    clear steady sound opened
    induction events generalizing state with
    | nil => exact ⟨rfl, rfl⟩
    | cons event rest ih =>
      have ⟨pull, heads⟩ := next_of_merged request event merged
      rw [List.foldl_cons, ← pull, ← heads]
      exact ih _ (by rw [pull]; exact merged)

/-- The head moves after it was read, and the order merges the new one without a word. -/
theorem pushed_head_merged :
    let events : List MergeEvent := [.call "c1", .answer 0 (.status 200), .push "c2", .answer 0 (.status 200)]
    let after := events.foldl (MergeState.next ⟨⟨.github, "acme/pay"⟩, 7, none, .open⟩) { pull := { head := "c1" } }
    after.ended = [{ expectedSha := "c1", mergedHead := some "c2" }] ∧ ¬ after.Sound := by
  intro events after
  have ended : after.ended = [{ expectedSha := "c1", mergedHead := some "c2" }] := by decide
  refine ⟨ended, fun sound => ?_⟩
  have same := (sound _ (by rw [ended]; exact List.mem_singleton.mpr rfl)).1 "c2" rfl
  exact absurd same (by decide)

end Merge

end DarkFactory
