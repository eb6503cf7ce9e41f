import DarkFactory.Events.Dispatch
import DarkFactory.Lib.Trace

namespace DarkFactory

/-- What a pass finds when it reserves: how often the delivery was replayed, and how many calls its stored attempts
    account for. -/
structure Mark where
  replays : Nat
  counted : Nat
  deriving DecidableEq, Repr

/-- The dispatch, and the history of one delivery: its replays, the handler calls reserved after the last of them,
    those before its last outcome, and whether an outcome was written that was reserved before a replay. -/
structure DeliveryHistory where
  dispatch : Dispatch := {}
  replays : Nat := 0
  calls : Nat := 0
  counted : Nat := 0
  overwritten : Bool := false
  marks : List Mark := []
  deriving DecidableEq, Repr

def DeliveryHistory.fresh (index : Nat) (history : DeliveryHistory) : Bool :=
  (history.marks[index]?.map (·.replays)) = some history.replays

namespace Dispatch

variable (key : String × String)

def calls (index call : Nat) (dispatch : Dispatch) : Bool :=
  match dispatch.passes[index]?.bind (·.calls[call]?) with
  | none => false
  | some item => item.key = key

def writes (index answer : Nat) (dispatch : Dispatch) : Bool :=
  match dispatch.outcome index answer with
  | none => false
  | some (written, values) => written = key && (dispatch.outbox.commitOutcome written values).1

def replays (eventId : String) (consumerId : Option String) (dispatch : Dispatch) : Bool :=
  (dispatch.outbox.deliveries.any fun row => row.key = key && replayMatches eventId consumerId row) &&
    !dispatch.outbox.deliveries.any fun row =>
      replayMatches eventId consumerId row && dispatch.locked.contains row.key

end Dispatch

def afterHistory (key : String × String) (history : DeliveryHistory) (action : DispatchAction) : DeliveryHistory :=
  let moved := { history with dispatch := afterAction history.dispatch action }
  match action with
  | .reserve _ _ =>
    { moved with marks := history.marks ++ [{ replays := history.replays, counted := history.counted }] }
  | .invoke index call _ =>
    if history.dispatch.calls key index call && history.fresh index then { moved with calls := history.calls + 1 } else moved
  | .commitOutcome index answer =>
    if history.dispatch.writes key index answer then
      { moved with
        counted := history.calls
        overwritten := history.overwritten || !history.fresh index }
    else moved
  | .replay eventId consumerId =>
    if history.dispatch.replays key eventId consumerId then
      { moved with replays := history.replays + 1, calls := 0, counted := 0 }
    else moved
  | _ => moved

def history (key : String × String) (actions : List DispatchAction) : DeliveryHistory :=
  actions.foldl (afterHistory key) {}

def Outbox.attempts (key : String × String) (outbox : Outbox) : Option Nat := (outbox.delivery key).map (·.attempts)

/-- No outcome of a call reserved before a replay was written, and after a replay the attempts stored are the calls
    that came before the last outcome. -/
def ReplayKept (key : String × String) (history : DeliveryHistory) : Prop :=
  history.overwritten = false ∧ (1 ≤ history.replays → history.dispatch.outbox.attempts key = some history.counted)

/-- An outcome written after a replay was reserved after it, and the handler was called once since the outcome
    that the reservation found. -/
def CalledOnce (key : String × String) (history : DeliveryHistory) : DispatchAction → Prop
  | .commitOutcome index answer =>
    history.dispatch.writes key index answer = true → 1 ≤ history.replays →
      ∃ mark, history.marks[index]? = some mark ∧ mark.replays = history.replays ∧ history.calls = mark.counted + 1
  | _ => True

def Reservation.read (reservation : Reservation) : List ((String × String) × Nat) :=
  (reservation.candidates.map fun row => (row.2.key, row.2.attempts)) ++
    reservation.reserved.map fun item => (item.key, item.attempts)

def Pass.read (pass : Pass) : List ((String × String) × Nat) :=
  (match pass.reservation with
    | none => []
    | some reservation => reservation.read) ++
    ((pass.calls.map fun item => (item.key, item.attempts)) ++
      pass.answers.map fun entry => (entry.1.key, entry.1.attempts))

structure Marked (key : String × String) (history : DeliveryHistory) : Prop where
  consistent : history.dispatch.Consistent
  length : history.marks.length = history.dispatch.passes.length
  bound : ∀ mark ∈ history.marks, mark.replays ≤ history.replays
  read : ∀ (index : Nat) (pass : Pass) (mark : Mark), history.dispatch.passes[index]? = some pass → history.marks[index]? = some mark →
    mark.replays = history.replays → 1 ≤ history.replays →
      ∀ attempts, (key, attempts) ∈ pass.read → attempts = mark.counted

section Attempts

variable {key : String × String} {outbox : Outbox} {dispatch : Dispatch} {index answer : Nat}

theorem delivery_mapped {f : DeliveryRow → DeliveryRow} (keys : ∀ row, (f row).key = row.key) :
    ({ outbox with deliveries := outbox.deliveries.map f } : Outbox).delivery key = (outbox.delivery key).map f :=
  Table.find_map keys

theorem attempts_same {f : DeliveryRow → DeliveryRow} (keys : ∀ row, (f row).key = row.key)
    (same : ∀ row ∈ outbox.deliveries, row.key = key → (f row).attempts = row.attempts) :
    ({ outbox with deliveries := outbox.deliveries.map f } : Outbox).attempts key = outbox.attempts key := by
  rw [Outbox.attempts, delivery_mapped keys, Outbox.attempts]
  cases found : outbox.delivery key with
  | none => rfl
  | some row =>
    obtain ⟨member, own⟩ := Table.find_some found
    rw [Option.map_some, Option.map_some, Option.map_some, same row member own]

theorem attempts_changed {f : DeliveryRow → DeliveryRow} {row : DeliveryRow} {attempts : Nat}
    (unique : Table.Unique DeliveryRow.key outbox.deliveries) (keys : ∀ row, (f row).key = row.key)
    (member : row ∈ outbox.deliveries) (own : row.key = key) (changed : (f row).attempts = attempts) :
    ({ outbox with deliveries := outbox.deliveries.map f } : Outbox).attempts key = some attempts := by
  have found : outbox.delivery key = some row := own ▸ unique.find member
  rw [Outbox.attempts, delivery_mapped keys, found, Option.map_some, Option.map_some, changed]

theorem insert_attempts {before after : Outbox} {event : OutboxRow} {consumers : List String} {attempts : Nat}
    (inserted : before.insert event consumers = .ok after) (held : before.attempts key = some attempts) :
    after.attempts key = some attempts := by
  obtain ⟨-, -, -, rfl⟩ := insert_ok inserted
  obtain ⟨row, found, same⟩ := Option.map_eq_some_iff.mp held
  rw [Outbox.delivery, Table.find] at found
  rw [Outbox.attempts, Outbox.delivery, Table.find, List.find?_append, found, Option.some_or, Option.map_some, same]

theorem outcomeOf_attempts {item : ReservedDelivery} {moment : Timestamp} {result : HandlerResult}
    {values : OutcomeValues} (settled : outcomeOf item moment result = .ok values) :
    values.attempts = item.attempts + 1 := by
  cases result with
  | returned =>
    cases settled
    rfl
  | raised error =>
    unfold outcomeOf fixFailure at settled
    dsimp only at settled
    by_cases dead : isDead (item.attempts + 1) = true
    · rw [if_pos dead] at settled
      cases settled
      rfl
    · rw [if_neg dead] at settled
      cases delayed : backoffDelaySeconds (item.attempts + 1) with
      | error failure =>
        rw [delayed] at settled
        cases settled
      | ok delay =>
        rw [delayed] at settled
        cases settled
        rfl

theorem outcome_found {values : OutcomeValues} (found : dispatch.outcome index answer = some (key, values)) :
    ∃ pass entry, dispatch.passes[index]? = some pass ∧ entry ∈ pass.answers ∧ entry.1.key = key ∧
      values.attempts = entry.1.attempts + 1 := by
  unfold Dispatch.outcome at found
  split at found
  · cases found
  rename_i pass there
  split at found
  · cases found
  rename_i item result held
  split at found
  · cases found
  split at found
  · cases found
  rename_i values settled
  cases found
  exact ⟨pass, (item, result), there, List.mem_of_getElem? held, rfl, outcomeOf_attempts settled⟩

end Attempts

section Steps

variable {key : String × String} {dispatch : Dispatch} {history : DeliveryHistory}

theorem check_read {outbox tables : Outbox} {reservation : Reservation} (sound : reservation.Sound outbox) :
    (reservation.check tables).read ⊆ reservation.read := by
  obtain ⟨now, locked, candidates, reserved, deferred⟩ := reservation
  cases candidates with
  | nil => exact List.Subset.refl _
  | cons row rest =>
    obtain ⟨event, delivery⟩ := row
    obtain ⟨-, same, -⟩ := sound.candidates (event, delivery) List.mem_cons_self
    intro pair member
    unfold Reservation.check at member
    dsimp only at member
    split at member
    · simp only [Reservation.read, List.map_append, List.mem_append, List.map_cons, List.map_nil, List.mem_cons]
        at member ⊢
      rcases member with later | taken | new | nothing
      · exact Or.inl (Or.inr later)
      · exact Or.inr taken
      · refine Or.inl (Or.inl ?_)
        rw [new]
        exact Prod.ext (Prod.ext same rfl) rfl
      · cases nothing
    · simp only [Reservation.read, List.mem_append, List.map_cons, List.mem_cons] at member ⊢
      rcases member with later | taken
      · exact Or.inl (Or.inr later)
      · exact Or.inr taken

theorem PassStep.read {after : Dispatch} {old pass : Pass} (goesOn : PassStep dispatch after old pass)
    (sound : old.Sound dispatch.outbox) : pass.read ⊆ old.read := by
  intro pair member
  unfold Pass.read at member ⊢
  rw [List.mem_append, List.mem_append] at member ⊢
  cases goesOn with
  | kept => exact member
  | checked same =>
    cases open_ : old.reservation with
    | none =>
      rw [open_] at member
      exact member
    | some reservation =>
      rw [open_] at member
      exact member.imp_left fun read => check_read (sound.reservation reservation open_) read
  | leased reservation held =>
    rw [held]
    rcases member with none_ | called | answered
    · cases none_
    · exact Or.inl (List.mem_append_right _ called)
    · exact Or.inr (Or.inr answered)
  | called call item result listed =>
    rcases member with open_ | later | answered
    · exact Or.inl open_
    · obtain ⟨other, there, rfl⟩ := List.mem_map.mp later
      exact Or.inr (Or.inl (List.mem_map_of_mem (List.mem_of_mem_eraseIdx there)))
    · rw [List.map_append, List.mem_append, List.map_cons, List.map_nil, List.mem_singleton] at answered
      rcases answered with before | rfl
      · exact Or.inr (Or.inr before)
      · exact Or.inr (Or.inl (List.mem_map_of_mem (List.mem_of_getElem? listed)))
  | written answer =>
    rcases member with open_ | called | answered
    · exact Or.inl open_
    · exact Or.inr (Or.inl called)
    · obtain ⟨other, there, rfl⟩ := List.mem_map.mp answered
      exact Or.inr (Or.inr (List.mem_map_of_mem (List.mem_of_mem_eraseIdx there)))
  | crashed =>
    rcases member with open_ | called | answered
    · cases open_
    · cases called
    · cases answered

/-- Only an outcome of the delivery and its replay change its attempts. -/
theorem afterAction_attempts {attempts : Nat} (action : DispatchAction)
    (held : dispatch.outbox.attempts key = some attempts)
    (unwritten : ∀ index answer, action = .commitOutcome index answer → dispatch.writes key index answer = false)
    (unreplayed : ∀ eventId consumerId, action = .replay eventId consumerId →
      dispatch.replays key eventId consumerId = false) :
    (afterAction dispatch action).outbox.attempts key = some attempts := by
  cases action with
  | readSequence | giveUp | reserve | check | crash => exact held
  | insert publisher =>
    rw [afterAction, Dispatch.insertNext]
    split
    · exact held
    · split
      · exact held
      · rename_i inserted
        exact insert_attempts inserted held
  | commitReservation at_ =>
    rw [afterAction, Dispatch.commitReservation]
    split
    · exact held
    split
    · refine (attempts_same ?_ ?_).trans held
      · intro row
        split <;> rfl
      · intro row _ _
        split <;> rfl
    · exact held
  | invoke at_ call result =>
    rw [afterAction, Dispatch.invoke]
    split <;> exact held
  | commitOutcome at_ answer =>
    have nothing := unwritten at_ answer rfl
    rw [afterAction, Dispatch.commitOutcome]
    cases found : dispatch.outcome at_ answer with
    | none => exact held
    | some outcome =>
      obtain ⟨written, values⟩ := outcome
      simp only [Dispatch.writes, found, Outbox.commitOutcome, Bool.and_eq_false_iff, decide_eq_false_iff_not,
        List.any_eq_false, Bool.and_eq_true, decide_eq_true_eq] at nothing
      refine (attempts_same ?_ ?_).trans held
      · intro row
        split <;> rfl
      · intro row member own
        rw [if_neg]
        rintro matched
        simp only [Bool.and_eq_true, decide_eq_true_eq] at matched
        rcases nothing with other | unmatched
        · exact other (matched.1.symm.trans own)
        · exact unmatched row member matched
  | replay eventId consumerId =>
    have nothing := unreplayed eventId consumerId rfl
    rw [afterAction, Dispatch.replay]
    by_cases waits : (dispatch.outbox.deliveries.any fun row =>
        replayMatches eventId consumerId row && dispatch.locked.contains row.key) = true
    · rw [if_pos waits]
      exact held
    · rw [if_neg waits]
      rw [Bool.not_eq_true] at waits
      rw [Dispatch.replays, waits, Bool.not_false, Bool.and_true, List.any_eq_false] at nothing
      refine (attempts_same ?_ ?_).trans held
      · intro row
        split <;> rfl
      · intro row member own
        rw [if_neg]
        intro matched
        exact nothing row member (by simp [own, matched])
  | skip eventId consumerId =>
    rw [afterAction, Dispatch.skip]
    split
    · exact held
    · refine (attempts_same ?_ ?_).trans held
      · intro row
        split <;> rfl
      · intro row _ _
        split <;> rfl

theorem writes_attempts {index answer : Nat} (consistent : dispatch.Consistent)
    (writes : dispatch.writes key index answer = true) :
    ∃ pass read, dispatch.passes[index]? = some pass ∧ (key, read) ∈ pass.read ∧
      (dispatch.commitOutcome index answer).outbox.attempts key = some (read + 1) := by
  unfold Dispatch.writes at writes
  split at writes
  · cases writes
  rename_i written values found
  rw [Bool.and_eq_true, decide_eq_true_eq] at writes
  obtain ⟨rfl, effective⟩ := writes
  obtain ⟨pass, entry, there, listed, own, counted⟩ := outcome_found found
  obtain ⟨row, member, matched⟩ := List.any_eq_true.mp effective
  refine ⟨pass, entry.1.attempts, there, ?_, ?_⟩
  · refine List.mem_append_right _ (List.mem_append_right _ (List.mem_map.mpr ⟨entry, listed, ?_⟩))
    rw [own]
  · rw [Dispatch.commitOutcome, found]
    have here := matched
    rw [Bool.and_eq_true, decide_eq_true_eq] at here
    apply attempts_changed consistent.sequenced.deliveries ?_ member here.1
    · rw [if_pos matched]
      exact counted
    · intro row
      split <;> rfl

theorem replays_attempts {eventId : String} {consumerId : Option String} (consistent : dispatch.Consistent)
    (replays : dispatch.replays key eventId consumerId = true) :
    (dispatch.replay eventId consumerId).outbox.attempts key = some 0 := by
  rw [Dispatch.replays, Bool.and_eq_true, Bool.not_eq_true'] at replays
  obtain ⟨matches_, unlocked⟩ := replays
  obtain ⟨row, member, matched⟩ := List.any_eq_true.mp matches_
  rw [Bool.and_eq_true, decide_eq_true_eq] at matched
  rw [Dispatch.replay, if_neg (by rw [unlocked]; exact Bool.false_ne_true)]
  apply attempts_changed consistent.sequenced.deliveries ?_ member matched.1
  · rw [if_pos matched.2]
    rfl
  · intro row
    split <;> rfl

theorem afterHistory_dispatch (action : DispatchAction) :
    (afterHistory key history action).dispatch = afterAction history.dispatch action := by
  cases action with
  | invoke | commitOutcome | replay =>
    rw [afterHistory]
    split <;> rfl
  | _ => rfl

/-- The marks stay, but for the one of a new pass, and replays are only added. -/
theorem afterHistory_marks (action : DispatchAction) :
    (afterHistory key history action).marks = (match action with
      | .reserve _ _ => history.marks ++ [{ replays := history.replays, counted := history.counted }]
      | _ => history.marks) ∧
    ((afterHistory key history action).replays = history.replays ∨
      ∃ eventId consumerId, action = .replay eventId consumerId ∧
        (afterHistory key history action).replays = history.replays + 1) := by
  cases action with
  | invoke | commitOutcome =>
    rw [afterHistory]
    split <;> exact ⟨rfl, Or.inl rfl⟩
  | replay eventId consumerId =>
    rw [afterHistory]
    split
    · exact ⟨rfl, Or.inr ⟨eventId, consumerId, rfl, rfl⟩⟩
    · exact ⟨rfl, Or.inl rfl⟩
  | _ => exact ⟨rfl, Or.inl rfl⟩

theorem passes_length (action : DispatchAction) : (afterAction dispatch action).passes.length = (match action with
    | .reserve _ _ => dispatch.passes.length + 1
    | _ => dispatch.passes.length) := by
  cases action with
  | reserve limit now =>
    rw [afterAction, List.length_append, List.length_singleton]
  | check | crash =>
    rw [afterAction, List.length_modify]
  | readSequence | giveUp => rfl
  | insert publisher =>
    change (dispatch.insertNext publisher).passes.length = dispatch.passes.length
    unfold Dispatch.insertNext
    repeat' split
    all_goals rfl
  | commitReservation index =>
    change (dispatch.commitReservation index).passes.length = dispatch.passes.length
    unfold Dispatch.commitReservation
    repeat' split
    all_goals simp
  | invoke index call result =>
    change (dispatch.invoke index call result).passes.length = dispatch.passes.length
    unfold Dispatch.invoke
    split <;> simp
  | commitOutcome index answer =>
    change (dispatch.commitOutcome index answer).passes.length = dispatch.passes.length
    unfold Dispatch.commitOutcome
    split <;> simp
  | replay eventId consumerId =>
    change (dispatch.replay eventId consumerId).passes.length = dispatch.passes.length
    unfold Dispatch.replay
    split <;> rfl
  | skip eventId consumerId =>
    change (dispatch.skip eventId consumerId).passes.length = dispatch.passes.length
    unfold Dispatch.skip
    split <;> rfl

theorem reserve_read {attempts limit : Nat} {now : Timestamp} (sequenced : Sequenced dispatch.outbox)
    (read : (key, attempts) ∈
      ({ now, reservation := some (dispatch.outbox.reserve limit now dispatch.locked) } : Pass).read) :
    dispatch.outbox.attempts key = some attempts := by
  simp only [Pass.read, Reservation.read, Outbox.reserve, List.map_nil, List.append_nil] at read
  obtain ⟨row, listed, same⟩ := List.mem_map.mp read
  obtain ⟨own, rfl⟩ := Prod.mk.inj same
  obtain ⟨-, member, -, -⟩ := mem_candidates sequenced listed
  rw [Outbox.attempts, Outbox.delivery, ← own, sequenced.deliveries.find member, Option.map_some]

theorem afterHistory_marked (marked : Marked key history) (kept : ReplayKept key history) (action : DispatchAction) :
    Marked key (afterHistory key history action) := by
  obtain ⟨consistent, length, bound, read⟩ := marked
  obtain ⟨marks, replays⟩ := @afterHistory_marks key history action
  have dispatched_ := @afterHistory_dispatch key history action
  have later : history.replays ≤ (afterHistory key history action).replays := by
    rcases replays with same | ⟨-, -, -, more⟩ <;> omega
  have marked (index : Nat) (mark : Mark) (there : (afterHistory key history action).marks[index]? = some mark)
      (within : index < history.marks.length) : history.marks[index]? = some mark := by
    rw [marks] at there
    split at there
    · rwa [List.getElem?_append_left within] at there
    · exact there
  refine ⟨dispatched_ ▸ afterAction_consistent consistent action, ?_, ?_, ?_⟩
  · rw [dispatched_, marks, passes_length]
    split <;> simp [length]
  · intro mark member
    rw [marks] at member
    split at member
    · rcases List.mem_append.mp member with old | new
      · exact (bound mark old).trans later
      · rw [List.mem_singleton.mp new]
        exact later
    · exact (bound mark member).trans later
  · intro index pass mark there found current positive attempts member
    rw [dispatched_] at there
    rcases passes_cases action there with ⟨limit, now, rfl, rfl, rfl⟩ | ⟨old, before, goesOn⟩
    · rw [marks] at found
      rw [← length, List.getElem?_concat_length] at found
      cases found
      have stored := kept.2 (current ▸ positive)
      rw [reserve_read consistent.sequenced member, Option.some.injEq] at stored
      exact stored
    · have within : index < history.marks.length := by
        rw [length]
        exact (List.getElem?_eq_some_iff.mp before).1
      have mine := marked index mark found within
      have same : mark.replays = history.replays := by
        have := bound mark (List.mem_of_getElem? mine)
        omega
      exact read index old mark before mine same (by omega) attempts
        (goesOn.read (consistent.passes old (List.mem_of_getElem? before)) member)

theorem fresh_iff {index : Nat} {mark : Mark} (there : history.marks[index]? = some mark) :
    history.fresh index = true ↔ mark.replays = history.replays := by
  rw [DeliveryHistory.fresh, there]
  simp

/-- An outcome written counts the calls exactly when its pass reserved after the last replay and called once since. -/
theorem written_kept {index answer : Nat} (marked : Marked key history) (kept : ReplayKept key history)
    (writes : history.dispatch.writes key index answer = true) :
    ReplayKept key (afterHistory key history (.commitOutcome index answer)) ↔
      CalledOnce key history (.commitOutcome index answer) := by
  obtain ⟨pass, read, there, seen, stored⟩ := writes_attempts marked.consistent writes
  have within : index < history.marks.length := marked.length ▸ (List.getElem?_eq_some_iff.mp there).1
  obtain ⟨mark, found⟩ : ∃ mark, history.marks[index]? = some mark := ⟨_, List.getElem?_eq_getElem within⟩
  have bound := marked.bound mark (List.mem_of_getElem? found)
  have once : CalledOnce key history (.commitOutcome index answer) ↔
      (1 ≤ history.replays → mark.replays = history.replays ∧ history.calls = mark.counted + 1) := by
    simp [CalledOnce, writes, found]
  have wrote : ReplayKept key (afterHistory key history (.commitOutcome index answer)) ↔
      history.fresh index = true ∧ (1 ≤ history.replays → read + 1 = history.calls) := by
    rw [afterHistory, if_pos writes, ReplayKept, afterAction, stored, kept.1]
    simp
  rw [once, wrote, fresh_iff found]
  by_cases replayed : 1 ≤ history.replays
  · have same (current : mark.replays = history.replays) : read = mark.counted :=
      marked.read index pass mark there found current replayed read seen
    constructor
    · rintro ⟨current, counted⟩ -
      exact ⟨current, by rw [← same current, counted replayed]⟩
    · intro called
      obtain ⟨current, counted⟩ := called replayed
      exact ⟨current, fun _ => by rw [same current, counted]⟩
  · have never : history.replays = 0 := by omega
    constructor
    · exact fun _ positive => absurd positive replayed
    · exact fun _ => ⟨by omega, fun positive => absurd positive replayed⟩

theorem replayed_kept {eventId : String} {consumerId : Option String} (marked : Marked key history)
    (kept : ReplayKept key history) (replays : history.dispatch.replays key eventId consumerId = true) :
    ReplayKept key (afterHistory key history (.replay eventId consumerId)) := by
  rw [afterHistory, if_pos replays]
  exact ⟨kept.1, fun _ => replays_attempts marked.consistent replays⟩

theorem other_kept (kept : ReplayKept key history) (action : DispatchAction)
    (unwritten : ∀ index answer, action = .commitOutcome index answer →
      history.dispatch.writes key index answer = false)
    (unreplayed : ∀ eventId consumerId, action = .replay eventId consumerId →
      history.dispatch.replays key eventId consumerId = false) :
    ReplayKept key (afterHistory key history action) := by
  have stays (positive : 1 ≤ history.replays) :
      (afterAction history.dispatch action).outbox.attempts key = some history.counted :=
    afterAction_attempts action (kept.2 positive) unwritten unreplayed
  cases action with
  | invoke =>
    rw [afterHistory]
    split <;> exact ⟨kept.1, stays⟩
  | commitOutcome index answer =>
    rw [afterHistory, unwritten index answer rfl]
    exact ⟨kept.1, stays⟩
  | replay eventId consumerId =>
    rw [afterHistory, unreplayed eventId consumerId rfl]
    exact ⟨kept.1, stays⟩
  | _ => exact ⟨kept.1, stays⟩

theorem afterHistory_kept (marked : Marked key history) (kept : ReplayKept key history) (action : DispatchAction) :
    ReplayKept key (afterHistory key history action) ↔ CalledOnce key history action := by
  cases action with
  | commitOutcome index answer =>
    by_cases writes : history.dispatch.writes key index answer = true
    · exact written_kept marked kept writes
    · refine ⟨fun _ written => absurd written writes, fun _ => ?_⟩
      apply other_kept kept
      · rintro _ _ ⟨⟩
        exact Bool.not_eq_true _ ▸ writes
      · rintro _ _ ⟨⟩
  | replay eventId consumerId =>
    refine ⟨fun _ => trivial, fun _ => ?_⟩
    by_cases replays : history.dispatch.replays key eventId consumerId = true
    · exact replayed_kept marked kept replays
    · apply other_kept kept
      · rintro _ _ ⟨⟩
      · rintro _ _ ⟨⟩
        exact Bool.not_eq_true _ ▸ replays
  | _ =>
    refine ⟨fun _ => trivial, fun _ => other_kept kept _ ?_ ?_⟩
    · rintro _ _ ⟨⟩
    · rintro _ _ ⟨⟩

theorem marked_empty : Marked key {} := by
  refine ⟨consistent_empty, rfl, fun mark member => absurd member List.not_mem_nil, ?_⟩
  intro index pass mark there
  simp at there

end Steps

/-- A replayed delivery counts exactly the calls reserved after its replay, and no outcome reserved before overwrites
    the reset, exactly when every outcome written after a replay was reserved after it, with one call since. -/
theorem replay_kept_iff (key : String × String) (actions : List DispatchAction) :
    Trace.Along (afterHistory key) (CalledOnce key) {} actions ↔
      ∀ before after, actions = before ++ after → ReplayKept key (history key before) := by
  have keeps (history : DeliveryHistory) (action : DispatchAction) (marked : Marked key history)
      (kept : ReplayKept key history) : Marked key (afterHistory key history action) :=
    afterHistory_marked marked kept action
  have exactly (history : DeliveryHistory) (action : DispatchAction) (marked : Marked key history)
      (kept : ReplayKept key history) :
      ReplayKept key (afterHistory key history action) ↔ CalledOnce key history action :=
    afterHistory_kept marked kept action
  exact Trace.along_iff_under keeps exactly marked_empty ⟨rfl, fun positive => absurd positive (by decide)⟩

def replayedInFlight : List DispatchAction :=
  failingHead ++ [.reserve 10 (days 1), .check 1, .check 1, .commitReservation 1, .replay "event-1" (some "tracker"),
    .invoke 1 0 (.raised { message := "tracker is down", className := "ConnectionError" }), .commitOutcome 1 0]

/-- The outcome in flight overwrites the reset attempts with the count that the pass had read. -/
theorem replay_overwritten : ¬ ∀ key actions, ReplayKept key (history key actions) := by
  intro kept
  have overwritten : (history ("event-1", "tracker") replayedInFlight).overwritten = true := by decide +kernel
  have flag := (kept ("event-1", "tracker") replayedInFlight).1
  rw [overwritten] at flag
  cases flag

end DarkFactory
