import DarkFactory.Lib.Regex

/-! What a regular expression matches, apart from the order in which a matcher tries it. -/

namespace Regex

variable {α : Type}

/-- The expression leads from one position of a text to another. -/
inductive Takes : Regex α → Cursor α → Cursor α → Prop
  | empty (cursor : Cursor α) : Takes .empty cursor cursor
  | char {p : α → Bool} {c : α} {behind ahead : List α} (holds : p c = true) :
      Takes (.char p) ⟨behind, c :: ahead⟩ ⟨c :: behind, ahead⟩
  | look {p : List α → List α → Bool} {cursor : Cursor α} (holds : p cursor.behind cursor.ahead = true) :
      Takes (.look p) cursor cursor
  | seq {first second : Regex α} {start middle stop : Cursor α} (one : Takes first start middle)
      (rest : Takes second middle stop) : Takes (.seq first second) start stop
  | left {first second : Regex α} {start stop : Cursor α} (one : Takes first start stop) :
      Takes (.alt first second) start stop
  | right {first second : Regex α} {start stop : Cursor α} (one : Takes second start stop) :
      Takes (.alt first second) start stop
  | done (body : Regex α) (greedy : Bool) (cursor : Cursor α) : Takes (.star body greedy) cursor cursor
  | more {body : Regex α} {greedy : Bool} {start middle stop : Cursor α} (one : Takes body start middle)
      (rest : Takes (.star body greedy) middle stop) : Takes (.star body greedy) start stop
  | group {body : Regex α} {number : Nat} {start stop : Cursor α} (one : Takes body start stop) :
      Takes (.group number body) start stop

def Occurs (regex : Regex α) (text : List α) : Prop :=
  ∃ before rest stop, text = before ++ rest ∧ Takes regex ⟨before.reverse, rest⟩ stop

def Consuming (regex : Regex α) : Prop := ∀ {start stop}, Takes regex start stop → stop.ahead.length < start.ahead.length

variable {regex first second body : Regex α} {greedy : Bool} {start middle stop : Cursor α} {text : List α}

/-! ## The matcher finds what there is -/

theorem iterate_takes {step : Cursor α → List (Outcome α)} {one : Outcome α}
    (steps : ∀ cursor, ∀ one ∈ step cursor, Takes body cursor one.cursor) {fuel : Nat}
    (member : one ∈ iterate step greedy fuel start) : Takes (.star body greedy) start one.cursor := by
  induction fuel generalizing start one with
  | zero =>
    rw [iterate, List.mem_singleton] at member
    subst member
    exact .done body greedy start
  | succ fuel ih =>
    have later : one = stay start ∨ one ∈ (step start).flatMap fun first =>
        (iterate step greedy fuel first.cursor).map first.next := by
      cases greedy <;> simpa [iterate, or_comm] using member
    rcases later with rfl | later
    · exact .done body greedy start
    · obtain ⟨first, stepped, rest, more, rfl⟩ : ∃ first ∈ step start, ∃ rest,
          rest ∈ iterate step greedy fuel first.cursor ∧ first.next rest = one := by simpa using later
      have rest : Takes (.star body greedy) first.cursor rest.cursor := ih more
      exact .more (steps start first stepped) rest

theorem run_takes {one : Outcome α} (member : one ∈ regex.run start) : Takes regex start one.cursor := by
  induction regex generalizing start one with
  | empty =>
    rw [run, List.mem_singleton] at member
    subst member
    exact .empty start
  | char p =>
    obtain ⟨behind, ahead⟩ := start
    cases ahead with
    | nil => cases member
    | cons c ahead =>
      simp only [run] at member
      split at member
      · rename_i holds
        rw [List.mem_singleton] at member
        subst member
        exact .char holds
      · cases member
  | look p =>
    rw [run] at member
    split at member
    · rename_i holds
      rw [List.mem_singleton] at member
      subst member
      exact .look holds
    · cases member
  | seq before after before_ih after_ih =>
    obtain ⟨one, ran, rest, also, rfl⟩ : ∃ one ∈ before.run start, ∃ rest,
        rest ∈ after.run one.cursor ∧ one.next rest = _ := by simpa [run] using member
    have last : Takes after one.cursor rest.cursor := after_ih also
    exact .seq (before_ih ran) last
  | alt left right left_ih right_ih =>
    rcases List.mem_append.mp member with member | member
    · exact .left (left_ih member)
    · exact .right (right_ih member)
  | star body greedy ih => exact iterate_takes (fun cursor one member => ih member) member
  | group number body ih =>
    obtain ⟨inner, ran, rfl⟩ := List.mem_map.mp member
    have inside : Takes body start inner.cursor := ih ran
    exact .group inside

theorem Took.moves {taken : List α} (took : Took start taken stop) : stop = start ∨ stop.ahead.length < start.ahead.length := by
  cases taken with
  | nil =>
    left
    obtain ⟨behind, ahead⟩ := start
    obtain ⟨further, rest⟩ := stop
    obtain ⟨same, back⟩ := took
    exact (congrArg₂ Cursor.mk back same.symm)
  | cons c rest =>
    right
    rw [took.1, List.length_append, List.length_cons]
    omega

section Complete

variable (finds : ∀ {start stop}, Takes body start stop → ∃ one ∈ body.run start, one.cursor = stop)
include finds

/-- A repetition that takes nothing is passed over, so there is fuel for the others. -/
theorem takes_iterate (takes : Takes (.star body greedy) start stop) {fuel : Nat} (enough : start.ahead.length ≤ fuel) :
    ∃ one ∈ iterate body.run greedy fuel start, one.cursor = stop := by
  generalize shape : Regex.star body greedy = whole at takes
  induction takes generalizing fuel with
  | done other _ cursor => exact ⟨stay cursor, iterate_stay _ _ _, rfl⟩
  | @more other _ start middle stop one rest _ ih =>
    cases shape
    obtain ⟨first, ran, rfl⟩ := finds one
    obtain ⟨taken, took⟩ := run_took body ran
    rcases took.moves with same | shorter
    · rw [same] at ih
      exact ih enough rfl
    · cases fuel with
      | zero => omega
      | succ fuel =>
        obtain ⟨last, found, rfl⟩ := @ih fuel (by omega) rfl
        refine ⟨first.next last, ?_, rfl⟩
        have deeper : first.next last ∈ (body.run start).flatMap fun one =>
            (iterate body.run greedy fuel one.cursor).map one.next :=
          List.mem_flatMap.mpr ⟨first, ran, List.mem_map_of_mem found⟩
        rw [iterate]
        cases greedy with
        | true => exact List.mem_append_left _ deeper
        | false => exact List.mem_cons_of_mem _ deeper
  | _ => cases shape

end Complete

theorem takes_run (takes : Takes regex start stop) : ∃ one ∈ regex.run start, one.cursor = stop := by
  induction regex generalizing start stop with
  | empty =>
    cases takes
    exact ⟨stay start, List.mem_singleton_self _, rfl⟩
  | char p =>
    cases takes with
    | char holds => exact ⟨_, by rw [run_char holds]; exact List.mem_singleton_self _, rfl⟩
  | look p =>
    cases takes with
    | look holds => exact ⟨stay start, by rw [run, if_pos holds]; exact List.mem_singleton_self _, rfl⟩
  | seq before after before_ih after_ih =>
    cases takes with
    | seq one rest =>
      obtain ⟨first, ran, rfl⟩ := before_ih one
      obtain ⟨last, also, rfl⟩ := after_ih rest
      exact ⟨first.next last, List.mem_flatMap.mpr ⟨first, ran, List.mem_map_of_mem also⟩, rfl⟩
  | alt left right left_ih right_ih =>
    cases takes with
    | left one =>
      obtain ⟨outcome, ran, same⟩ := left_ih one
      exact ⟨outcome, List.mem_append_left _ ran, same⟩
    | right one =>
      obtain ⟨outcome, ran, same⟩ := right_ih one
      exact ⟨outcome, List.mem_append_right _ ran, same⟩
  | star body greedy ih => exact takes_iterate ih takes (Nat.le_refl _)
  | group number body ih =>
    cases takes with
    | group one =>
      obtain ⟨outcome, ran, rfl⟩ := ih one
      exact ⟨_, List.mem_map_of_mem ran, rfl⟩

/-- The outcomes of the matcher are the matches, whatever order it tries them in. -/
theorem takes_iff : Takes regex start stop ↔ ∃ one ∈ regex.run start, one.cursor = stop := by
  constructor
  · exact takes_run
  · rintro ⟨one, ran, rfl⟩
    exact run_takes ran

/-! ## What consumes something -/

theorem Takes.moves (takes : Takes regex start stop) : stop = start ∨ stop.ahead.length < start.ahead.length := by
  obtain ⟨one, ran, rfl⟩ := takes_run takes
  obtain ⟨taken, took⟩ := run_took regex ran
  exact took.moves

theorem Takes.length_le (takes : Takes regex start stop) : stop.ahead.length ≤ start.ahead.length := by
  rcases takes.moves with rfl | shorter
  · exact Nat.le_refl _
  · exact Nat.le_of_lt shorter

theorem Consuming.char {p : α → Bool} : Consuming (.char p) := by
  intro start stop takes
  cases takes with
  | char holds => exact Nat.lt_succ_self _

theorem Consuming.front (consumes : Consuming first) : Consuming (.seq first second) := by
  intro start stop takes
  cases takes with
  | seq one rest => exact Nat.lt_of_le_of_lt rest.length_le (consumes one)

theorem Consuming.back (consumes : Consuming second) : Consuming (.seq first second) := by
  intro start stop takes
  cases takes with
  | seq one rest => exact Nat.lt_of_lt_of_le (consumes rest) one.length_le

/-! ## A search finds what occurs -/

theorem first_isSome (consumes : Consuming regex) : (regex.first start).isSome = true ↔ ∃ stop, Takes regex start stop := by
  unfold Regex.first
  constructor
  · intro found
    obtain ⟨one, here⟩ := Option.isSome_iff_exists.mp found
    exact ⟨one.cursor, takes_iff.mpr ⟨one, List.mem_of_head? (Option.filter_eq_some_iff.mp here).1, rfl⟩⟩
  · rintro ⟨stop, takes⟩
    obtain ⟨one, ran, -⟩ := takes_iff.mp takes
    obtain ⟨head, rest, shape⟩ := List.exists_cons_of_ne_nil (List.ne_nil_of_mem ran)
    have shorter := consumes (run_takes (show head ∈ regex.run start from by rw [shape]; exact List.mem_cons_self))
    rw [shape, List.head?_cons, Option.filter_some, if_pos (by simpa using shorter)]
    rfl

theorem pieces_nil (consumes : Consuming regex) {fuel : Nat} (enough : start.ahead.length ≤ fuel) :
    (regex.pieces fuel start).2 = [] ↔ ∀ before rest, start.ahead = before ++ rest →
      ∀ stop, ¬ Takes regex ⟨before.reverse ++ start.behind, rest⟩ stop := by
  induction fuel generalizing start with
  | zero =>
    refine iff_of_true rfl fun before rest same stop takes => ?_
    have shorter := consumes takes
    rw [same, List.length_append] at enough
    dsimp only at shorter
    omega
  | succ fuel ih =>
    rw [pieces]
    cases here : regex.first start with
    | some one =>
      refine iff_of_false (List.cons_ne_nil _ _) fun never => ?_
      obtain ⟨stop, takes⟩ := (first_isSome consumes).mp (by rw [here]; rfl)
      exact never [] start.ahead rfl stop takes
    | none =>
      have away : ∀ stop, ¬ Takes regex start stop := by
        intro stop takes
        have found := (first_isSome consumes).mpr ⟨stop, takes⟩
        rw [here] at found
        cases found
      obtain ⟨behind, ahead⟩ := start
      cases ahead with
      | nil =>
        refine iff_of_true rfl fun before rest same stop => ?_
        obtain ⟨rfl, rfl⟩ := List.append_eq_nil_iff.mp same.symm
        exact away stop
      | cons c rest =>
        have later := @ih ⟨c :: behind, rest⟩ (by simpa using enough)
        rw [later]
        constructor
        · intro never before tail same stop
          cases before with
          | nil =>
            rw [List.nil_append] at same
            rw [← same]
            exact away stop
          | cons d before =>
            obtain ⟨rfl, others⟩ := List.cons.inj same
            rw [List.reverse_cons, List.append_assoc]
            exact never before tail others stop
        · intro never before tail same stop
          have further := never (c :: before) tail (congrArg (c :: ·) same) stop
          rwa [List.reverse_cons, List.append_assoc] at further

/-- `re.search` finds something exactly when the expression matches somewhere. -/
theorem search_isSome (consumes : Consuming regex) : (regex.search text).isSome = true ↔ Occurs regex text := by
  have none_ := @pieces_nil α regex ⟨[], text⟩ consumes text.length (Nat.le_refl _)
  have shape : (regex.search text).isSome = true ↔ (regex.pieces text.length ⟨[], text⟩).2 ≠ [] := by
    rw [search, List.isSome_head?, matches_, scan]
    simp
  rw [shape, ne_eq, none_]
  unfold Occurs
  simp only [List.append_nil]
  constructor
  · intro found
    by_contra absent
    exact found fun before rest same stop takes => absent ⟨before, rest, stop, same, takes⟩
  · rintro ⟨before, rest, stop, same, takes⟩ never
    exact never before rest same stop takes

end Regex
