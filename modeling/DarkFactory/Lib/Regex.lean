import Mathlib.Data.List.DropRight
import Mathlib.Tactic.Common

/-! Backtracking regular expressions over any alphabet: a match from a position is the list of its outcomes in the
order in which a backtracking matcher tries them. -/

inductive Regex (α : Type)
  | empty
  | char (p : α → Bool)
  | look (p : List α → List α → Bool)
  | seq (first second : Regex α)
  | alt (first second : Regex α)
  | star (body : Regex α) (greedy : Bool)
  | group (number : Nat) (body : Regex α)

namespace Regex

variable {α : Type}

structure Cursor (α : Type) where
  behind : List α
  ahead : List α

structure Outcome (α : Type) where
  cursor : Cursor α
  groups : List (Nat × List α) := []

def stay (cursor : Cursor α) : Outcome α := { cursor }

def Outcome.next (one rest : Outcome α) : Outcome α := { cursor := rest.cursor, groups := one.groups ++ rest.groups }

/-- Up to `fuel` repetitions; the greedy order tries more of them first. -/
def iterate (step : Cursor α → List (Outcome α)) (greedy : Bool) : Nat → Cursor α → List (Outcome α)
  | 0, cursor => [stay cursor]
  | fuel + 1, cursor =>
    let more := (step cursor).flatMap fun one => (iterate step greedy fuel one.cursor).map one.next
    if greedy then more ++ [stay cursor] else stay cursor :: more

def between (start stop : Cursor α) : List α := (stop.behind.take (stop.behind.length - start.behind.length)).reverse

/-- A repetition is repeated as often as there are characters ahead, so each one is to consume some. -/
def run : Regex α → Cursor α → List (Outcome α)
  | .empty, cursor => [stay cursor]
  | .char p, cursor =>
    match cursor.ahead with
    | [] => []
    | c :: ahead => if p c then [stay ⟨c :: cursor.behind, ahead⟩] else []
  | .look p, cursor => if p cursor.behind cursor.ahead then [stay cursor] else []
  | .seq first second, cursor => (first.run cursor).flatMap fun one => (second.run one.cursor).map one.next
  | .alt first second, cursor => first.run cursor ++ second.run cursor
  | .star body greedy, cursor => iterate body.run greedy cursor.ahead.length cursor
  | .group number body, cursor =>
    (body.run cursor).map fun one => { one with groups := (number, between cursor one.cursor) :: one.groups }

structure Found (α : Type) where
  text : List α
  groups : List (Nat × List α)

def Found.get (found : Found α) (number : Nat) : List α :=
  ((found.groups.find? fun entry => entry.1 = number).map Prod.snd).getD []

/-- The match that is tried first at a position and consumes something. -/
def first (regex : Regex α) (cursor : Cursor α) : Option (Outcome α) :=
  (regex.run cursor).head?.filter fun one => one.cursor.ahead.length < cursor.ahead.length

/-- The text in front of the leftmost match, and each match in turn with the text up to the next one. -/
def pieces (regex : Regex α) : Nat → Cursor α → List α × List (Found α × List α)
  | 0, cursor => (cursor.ahead, [])
  | fuel + 1, cursor =>
    match regex.first cursor with
    | some one =>
      let (gap, more) := regex.pieces fuel one.cursor
      ([], (⟨between cursor one.cursor, one.groups⟩, gap) :: more)
    | none =>
      match cursor.ahead with
      | [] => ([], [])
      | c :: ahead =>
        let (gap, more) := regex.pieces fuel ⟨c :: cursor.behind, ahead⟩
        (c :: gap, more)

def scan (regex : Regex α) (text : List α) : List α × List (Found α × List α) :=
  regex.pieces text.length ⟨[], text⟩

/-- `re.finditer` -/
def matches_ (regex : Regex α) (text : List α) : List (Found α) := (regex.scan text).2.map Prod.fst

/-- `re.search` -/
def search (regex : Regex α) (text : List α) : Option (Found α) := (regex.matches_ text).head?

/-- `re.match` -/
def matchStart (regex : Regex α) (text : List α) : Option (Found α) :=
  (regex.run ⟨[], text⟩).head?.map fun one => ⟨between ⟨[], text⟩ one.cursor, one.groups⟩

/-- `re.sub` -/
def sub (regex : Regex α) (replacement text : List α) : List α :=
  (regex.scan text).1 ++ (regex.scan text).2.flatMap fun piece => replacement ++ piece.2

/-- `re.split` -/
def split (regex : Regex α) (text : List α) : List (List α) :=
  (regex.scan text).1 :: (regex.scan text).2.map Prod.snd

def sequence (parts : List (Regex α)) : Regex α := parts.foldr seq empty

def oneOf (parts : List (Regex α)) : Regex α :=
  match parts.reverse with
  | [] => empty
  | last :: before => before.foldl (fun rest part => alt part rest) last

def plus (body : Regex α) (greedy : Bool) : Regex α := seq body (star body greedy)

def optional (body : Regex α) : Regex α := alt body empty

def upTo (body : Regex α) : Nat → Regex α
  | 0 => empty
  | n + 1 => optional (seq body (body.upTo n))

section Runs

variable {p : α → Bool} {greedy : Bool} {behind ahead word : List α} {c : α} {number : Nat}

theorem iterate_stay (step : Cursor α → List (Outcome α)) (fuel : Nat) (cursor : Cursor α) :
    stay cursor ∈ iterate step greedy fuel cursor := by
  cases fuel with
  | zero => exact List.mem_singleton_self _
  | succ fuel => cases greedy <;> simp [iterate]

theorem run_char (holds : p c = true) : run (.char p) ⟨behind, c :: ahead⟩ = [stay ⟨c :: behind, ahead⟩] :=
  if_pos holds

theorem next_stay (cursor : Cursor α) (one : Outcome α) : (stay cursor).next one = one := rfl

theorem map_next_stay (cursor : Cursor α) (outcomes : List (Outcome α)) :
    outcomes.map (stay cursor).next = outcomes := by
  have same : (stay cursor : Outcome α).next = id := funext fun one => next_stay cursor one
  rw [same, List.map_id]

theorem iterate_char_mem (holds : ∀ d ∈ word, p d = true) {fuel : Nat} (enough : word.length ≤ fuel) :
    stay ⟨word.reverse ++ behind, ahead⟩ ∈ iterate (run (.char p)) greedy fuel ⟨behind, word ++ ahead⟩ := by
  induction word generalizing behind fuel with
  | nil => exact iterate_stay _ _ _
  | cons d word ih =>
    cases fuel with
    | zero => simp at enough
    | succ fuel =>
      rw [List.forall_mem_cons] at holds
      have deeper := @ih (d :: behind) holds.2 fuel (by simpa using enough)
      have more : (run (.char p) ⟨behind, d :: word ++ ahead⟩).flatMap (fun one =>
          (iterate (run (.char p)) greedy fuel one.cursor).map one.next) =
            iterate (run (.char p)) greedy fuel ⟨d :: behind, word ++ ahead⟩ := by
        rw [List.cons_append, run_char holds.1, List.flatMap_singleton, map_next_stay]
        rfl
      rw [iterate, more, List.reverse_cons, List.append_assoc]
      cases greedy with
      | true => exact List.mem_append_left _ deeper
      | false => exact List.mem_cons_of_mem _ deeper

/-- A greedy repetition of a character takes all there are first. -/
theorem iterate_char_head (holds : ∀ d ∈ word, p d = true) (ends : ∀ d ∈ ahead.head?, p d = false) {fuel : Nat}
    (enough : word.length ≤ fuel) :
    (iterate (run (.char p)) true fuel ⟨behind, word ++ ahead⟩).head? =
      some (stay ⟨word.reverse ++ behind, ahead⟩) := by
  induction word generalizing behind fuel with
  | nil =>
    cases fuel with
    | zero => rfl
    | succ fuel =>
      have none_ : run (.char p) ⟨behind, ahead⟩ = [] := by
        cases ahead with
        | nil => rfl
        | cons d ahead => exact if_neg (by simpa using ends d rfl)
      rw [iterate, List.nil_append, none_]
      rfl
  | cons d word ih =>
    cases fuel with
    | zero => simp at enough
    | succ fuel =>
      rw [List.forall_mem_cons] at holds
      have deeper := @ih (d :: behind) holds.2 fuel (by simpa using enough)
      have more : (run (.char p) ⟨behind, d :: word ++ ahead⟩).flatMap (fun one =>
          (iterate (run (.char p)) true fuel one.cursor).map one.next) =
            iterate (run (.char p)) true fuel ⟨d :: behind, word ++ ahead⟩ := by
        rw [List.cons_append, run_char holds.1, List.flatMap_singleton, map_next_stay]
        rfl
      rw [iterate, more, List.reverse_cons, List.append_assoc]
      exact List.head?_append_of_ne_nil _ (by
        intro none_
        rw [none_] at deeper
        cases deeper) |>.trans deeper

/-- The text a cursor leaves behind on its way to another. -/
def Took (start : Cursor α) (taken : List α) (stop : Cursor α) : Prop :=
  start.ahead = taken ++ stop.ahead ∧ stop.behind = taken.reverse ++ start.behind

theorem Took.refl (cursor : Cursor α) : Took cursor [] cursor := ⟨rfl, rfl⟩

theorem Took.trans {start middle stop : Cursor α} {taken more : List α} (one : Took start taken middle)
    (rest : Took middle more stop) : Took start (taken ++ more) stop := by
  constructor
  · rw [one.1, rest.1, List.append_assoc]
  · rw [rest.2, one.2, List.reverse_append, List.append_assoc]

theorem Took.between {start stop : Cursor α} {taken : List α} (took : Took start taken stop) :
    between start stop = taken := by
  have front : taken.length = taken.reverse.length := List.length_reverse.symm
  rw [Regex.between, took.2, List.length_append, Nat.add_sub_cancel, List.take_left, List.reverse_reverse]

theorem iterate_took {step : Cursor α → List (Outcome α)} {one : Outcome α}
    (steps : ∀ cursor, ∀ one ∈ step cursor, ∃ taken, Took cursor taken one.cursor) {fuel : Nat} {cursor : Cursor α}
    (member : one ∈ iterate step greedy fuel cursor) : ∃ taken, Took cursor taken one.cursor := by
  induction fuel generalizing cursor one with
  | zero =>
    rw [iterate, List.mem_singleton] at member
    subst member
    exact ⟨[], Took.refl cursor⟩
  | succ fuel ih =>
    have later : one = stay cursor ∨ one ∈ (step cursor).flatMap fun first =>
        (iterate step greedy fuel first.cursor).map first.next := by
      cases greedy <;> simpa [iterate, or_comm] using member
    rcases later with rfl | later
    · exact ⟨[], Took.refl cursor⟩
    · obtain ⟨first, stepped, rest, more, rfl⟩ : ∃ first ∈ step cursor, ∃ rest,
          rest ∈ iterate step greedy fuel first.cursor ∧ first.next rest = one := by simpa using later
      obtain ⟨taken, one⟩ := steps cursor first stepped
      obtain ⟨others, rest⟩ := ih more
      exact ⟨taken ++ others, one.trans rest⟩

theorem run_took (regex : Regex α) {cursor : Cursor α} {one : Outcome α} (member : one ∈ regex.run cursor) :
    ∃ taken, Took cursor taken one.cursor := by
  induction regex generalizing cursor one with
  | empty =>
    rw [run, List.mem_singleton] at member
    subst member
    exact ⟨[], Took.refl cursor⟩
  | char p =>
    obtain ⟨behind, ahead⟩ := cursor
    cases ahead with
    | nil => cases member
    | cons c ahead =>
      simp only [run] at member
      split at member
      · rw [List.mem_singleton] at member
        subst member
        exact ⟨[c], rfl, rfl⟩
      · cases member
  | look p =>
    rw [run] at member
    split at member
    · rw [List.mem_singleton] at member
      subst member
      exact ⟨[], Took.refl cursor⟩
    · cases member
  | seq before after before_ih after_ih =>
    obtain ⟨first, ran, rest, also, rfl⟩ : ∃ first ∈ before.run cursor, ∃ rest,
        rest ∈ after.run first.cursor ∧ first.next rest = one := by simpa [run] using member
    obtain ⟨taken, one⟩ := before_ih ran
    obtain ⟨others, rest⟩ := after_ih also
    exact ⟨taken ++ others, one.trans rest⟩
  | alt left right left_ih right_ih =>
    rcases List.mem_append.mp member with member | member
    · exact left_ih member
    · exact right_ih member
  | star body greedy ih => exact iterate_took (fun cursor one member => ih member) member
  | group number body ih =>
    obtain ⟨inner, ran, rfl⟩ := List.mem_map.mp member
    have took := ih ran
    exact took

theorem pieces_origin {regex : Regex α} {piece : Found α × List α} {fuel : Nat} {cursor : Cursor α}
    (member : piece ∈ (regex.pieces fuel cursor).2) : ∃ place one, place.ahead <:+ cursor.ahead ∧
      regex.first place = some one ∧ piece.1 = ⟨between place one.cursor, one.groups⟩ := by
  induction fuel generalizing cursor with
  | zero => cases member
  | succ fuel ih =>
    rw [pieces] at member
    cases here : regex.first cursor with
    | some one =>
      simp only [here, List.mem_cons] at member
      rcases member with rfl | later
      · exact ⟨cursor, one, List.suffix_refl _, here, rfl⟩
      · obtain ⟨place, other, inside, found, same⟩ := ih later
        obtain ⟨taken, took⟩ := run_took regex (List.mem_of_head? (Option.filter_eq_some_iff.mp here).1)
        exact ⟨place, other, inside.trans ⟨taken, took.1.symm⟩, found, same⟩
    | none =>
      cases ahead : cursor.ahead with
      | nil =>
        simp only [here, ahead] at member
        cases member
      | cons c rest =>
        simp only [here, ahead] at member
        obtain ⟨place, other, inside, found, same⟩ := ih member
        exact ⟨place, other, inside.trans (List.suffix_cons c rest), found, same⟩

/-- The outcome that is tried first comes of the first part that has one. -/
theorem flatMap_head {β γ : Type} {items : List β} {f : β → List γ} {result : γ}
    (first : (items.flatMap f).head? = some result) : ∃ item ∈ items, (f item).head? = some result := by
  induction items with
  | nil => cases first
  | cons item rest ih =>
    rw [List.flatMap_cons] at first
    cases here : f item with
    | nil =>
      rw [here, List.nil_append] at first
      obtain ⟨other, member, found⟩ := ih first
      exact ⟨other, List.mem_cons_of_mem _ member, found⟩
    | cons head tail =>
      rw [here] at first
      exact ⟨item, List.mem_cons_self, by rw [here]; exact first⟩

end Runs

end Regex
