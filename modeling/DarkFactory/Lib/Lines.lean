import Mathlib.Algebra.Ring.Nat
import Mathlib.Data.List.DropRight
import Mathlib.Tactic.Common

/-! Texts over any alphabet as lines: taking them apart, joining them, and trimming white space. -/

namespace Lines

variable {α : Type} (isBreak isSpace : α → Bool) (newline : α)

def extend (c : α) : List (List α) → List (List α)
  | [] => [[c]]
  | line :: lines => (c :: line) :: lines

/-- The lines of a text without their breaks. The last line need not be terminated. -/
def split : List α → List (List α)
  | [] => []
  | c :: rest => if isBreak c then [] :: split rest else extend c (split rest)

def join (lines : List (List α)) : List α := List.intercalate [newline] lines

def strip (text : List α) : List α := ((text.dropWhile isSpace).reverse.dropWhile isSpace).reverse

/-- How many characters of a text are no white space. -/
def weight (text : List α) : Nat := text.countP fun c => !isSpace c

section Split

variable {isBreak newline} {text front back : List α} {c : α}

@[simp] theorem join_nil : join newline [] = [] := rfl

@[simp] theorem join_singleton {line : List α} : join newline [line] = line := by
  simp [join, List.intercalate]

@[simp] theorem join_cons {line next : List α} {rest : List (List α)} :
    join newline (line :: next :: rest) = line ++ newline :: join newline (next :: rest) := by
  simp [join, List.intercalate]

theorem extend_append {lines more : List (List α)} (occupied : lines ≠ []) :
    extend c (lines ++ more) = extend c lines ++ more := by
  cases lines with
  | nil => exact absurd rfl occupied
  | cons line lines => rfl

theorem split_ne_nil (occupied : text ≠ []) : split isBreak text ≠ [] := by
  cases text with
  | nil => exact absurd rfl occupied
  | cons c rest =>
    rw [split]
    split
    · exact List.cons_ne_nil _ _
    · unfold extend
      split <;> exact List.cons_ne_nil _ _

theorem split_append (breaks : isBreak c = true) :
    split isBreak (front ++ c :: back) = split isBreak (front ++ [c]) ++ split isBreak back := by
  induction front with
  | nil => simp [split, breaks]
  | cons first rest ih =>
    simp only [List.cons_append, split]
    rw [ih]
    by_cases ends : isBreak first = true
    · rw [if_pos ends, if_pos ends, List.cons_append]
    · rw [if_neg ends, if_neg ends]
      exact extend_append (split_ne_nil (by simp))

theorem split_line {line : List α} (breaks : isBreak c = true) (free : ∀ d ∈ line, isBreak d = false) :
    split isBreak (line ++ [c]) = [line] := by
  induction line with
  | nil => simp [split, breaks]
  | cons first rest ih =>
    rw [List.forall_mem_cons] at free
    rw [List.cons_append, split, if_neg (by simp [free.1]), ih free.2, extend]

theorem split_free : ∀ line ∈ split isBreak text, ∀ c ∈ line, isBreak c = false := by
  induction text with
  | nil =>
    intro line member
    cases member
  | cons first rest ih =>
    rw [split]
    by_cases ends : isBreak first = true
    · rw [if_pos ends, List.forall_mem_cons]
      exact ⟨fun c absent => absurd absent List.not_mem_nil, ih⟩
    · rw [if_neg ends]
      cases lines : split isBreak rest with
      | nil => simpa [extend] using ends
      | cons line others =>
        rw [lines, List.forall_mem_cons] at ih
        rw [extend, List.forall_mem_cons, List.forall_mem_cons]
        exact ⟨⟨by simpa using ends, ih.1⟩, ih.2⟩

theorem join_breaks {lines : List (List α)} (free : ∀ line ∈ lines, ∀ c ∈ line, isBreak c = false) :
    ∀ c ∈ join newline lines, isBreak c = true → c = newline := by
  intro c member breaks
  induction lines with
  | nil => cases member
  | cons line rest ih =>
    rw [List.forall_mem_cons] at free
    have own (inside : c ∈ line) : c = newline := by
      rw [free.1 c inside] at breaks
      cases breaks
    cases rest with
    | nil =>
      rw [join_singleton] at member
      exact own member
    | cons next others =>
      rw [join_cons, List.mem_append, List.mem_cons] at member
      rcases member with inside | same | later
      · exact own inside
      · exact same
      · exact ih free.2 later

/-- A text whose only breaks are line ends is joined again from its lines. -/
theorem join_split (breaks : isBreak newline = true) (only : ∀ c ∈ text, isBreak c = true → c = newline) :
    join newline (split isBreak (text ++ [newline])) = text := by
  induction text with
  | nil => simp [split, breaks]
  | cons first rest ih =>
    rw [List.forall_mem_cons] at only
    have joined := ih only.2
    have occupied : split isBreak (rest ++ [newline]) ≠ [] := split_ne_nil (by simp)
    rw [List.cons_append, split]
    obtain ⟨line, lines, shape⟩ := List.exists_cons_of_ne_nil occupied
    rw [shape] at joined ⊢
    by_cases ends : isBreak first = true
    · rw [if_pos ends, join_cons, joined, only.1 ends]
      rfl
    · rw [if_neg ends, extend]
      cases lines with
      | nil =>
        rw [join_singleton] at joined ⊢
        rw [joined]
      | cons next others =>
        rw [join_cons] at joined ⊢
        rw [← joined]
        rfl

theorem split_unended {last : α} (breaks : isBreak c = true) (ends : text.getLast? = some last)
    (solid : isBreak last = false) : split isBreak (text ++ [c]) = split isBreak text := by
  induction text with
  | nil => cases ends
  | cons first rest ih =>
    rw [List.cons_append, split, split]
    cases rest with
    | nil =>
      have same : first = last := Option.some.inj ends
      simp [split, breaks, same, solid, extend]
    | cons next others =>
      rw [ih (by rwa [List.getLast?_cons_cons] at ends)]

end Split

section Weight

variable {isBreak isSpace newline} {text front back : List α}

@[simp] theorem weight_append : weight isSpace (front ++ back) = weight isSpace front + weight isSpace back :=
  List.countP_append

theorem weight_spaces (spaces : ∀ c ∈ text, isSpace c = true) : weight isSpace text = 0 := by
  rw [weight, List.countP_eq_zero]
  intro c member
  simp [spaces c member]

theorem weight_dropWhile : weight isSpace (text.dropWhile isSpace) = weight isSpace text := by
  induction text with
  | nil => rfl
  | cons first rest ih =>
    rw [List.dropWhile_cons]
    split
    · rename_i space
      rw [ih]
      simp [weight, space]
    · rfl

/-- Trimming takes off white space only. -/
@[simp] theorem weight_strip : weight isSpace (strip isSpace text) = weight isSpace text := by
  have back (text : List α) : weight isSpace text.reverse = weight isSpace text := List.countP_reverse
  rw [strip, back, weight_dropWhile, back, weight_dropWhile]

/-- Where breaks are white space, the lines weigh what the text does. -/
theorem weight_split (spaces : ∀ c, isBreak c = true → isSpace c = true) :
    ((split isBreak text).map (weight isSpace)).sum = weight isSpace text := by
  induction text with
  | nil => rfl
  | cons first rest ih =>
    rw [split]
    by_cases ends : isBreak first = true
    · rw [if_pos ends, List.map_cons, List.sum_cons, ih]
      simp [weight, spaces first ends]
    · rw [if_neg ends]
      cases shape : split isBreak rest with
      | nil =>
        rw [shape] at ih
        have light : weight isSpace rest = 0 := by simpa using ih.symm
        simp only [extend, List.map_cons, List.map_nil, List.sum_cons, List.sum_nil, Nat.add_zero]
        rw [show first :: rest = [first] ++ rest from rfl, weight_append, light, Nat.add_zero]
      | cons line lines =>
        rw [shape, List.map_cons, List.sum_cons] at ih
        rw [extend, List.map_cons, List.sum_cons, show first :: line = [first] ++ line from rfl,
          show first :: rest = [first] ++ rest from rfl, weight_append, weight_append, ← ih]
        omega

theorem weight_join (space : isSpace newline = true) (lines : List (List α)) :
    weight isSpace (join newline lines) = (lines.map (weight isSpace)).sum := by
  induction lines with
  | nil => rfl
  | cons line rest ih =>
    cases rest with
    | nil => simp
    | cons next others =>
      have light : weight isSpace [newline] = 0 := weight_spaces (by simpa using space)
      rw [join_cons, List.map_cons, List.sum_cons, ← ih, weight_append,
        show newline :: join newline (next :: others) = [newline] ++ join newline (next :: others) from rfl,
        weight_append, light, Nat.zero_add]

end Weight

section Strip

variable {isSpace} {text front : List α}

theorem strip_spaces (spaces : ∀ c ∈ front, isSpace c = true) : strip isSpace (front ++ text) = strip isSpace text := by
  have dropped : (front ++ text).dropWhile isSpace = text.dropWhile isSpace := by
    induction front with
    | nil => rfl
    | cons first rest ih =>
      rw [List.forall_mem_cons] at spaces
      rw [List.cons_append, List.dropWhile_cons, if_pos spaces.1]
      exact ih spaces.2
  rw [strip, dropped, strip]

theorem strip_strip : strip isSpace (strip isSpace text) = strip isSpace text := by
  have shape (text : List α) : strip isSpace text = (text.dropWhile isSpace).rdropWhile isSpace := rfl
  have front : (strip isSpace text).dropWhile isSpace = strip isSpace text := by
    cases trimmed : strip isSpace text with
    | nil => rfl
    | cons first rest =>
      obtain ⟨tail, dropped⟩ : (strip isSpace text) <+: text.dropWhile isSpace := List.rdropWhile_prefix _ _
      have solid := List.head?_dropWhile_not isSpace text
      rw [← dropped, trimmed] at solid
      rw [List.dropWhile_cons, if_neg (by simpa using solid)]
  rw [shape (strip isSpace text), front, shape, List.rdropWhile_idempotent]

theorem strip_sublist : (strip isSpace text).Sublist text := by
  have inner := (List.dropWhile_sublist (l := (text.dropWhile isSpace).reverse) isSpace).reverse
  rw [List.reverse_reverse] at inner
  exact inner.trans (List.dropWhile_sublist _)

/-- Trimming leaves a text whose first and last characters are no white space. -/
theorem strip_of_solid (first : ∀ c, text.head? = some c → isSpace c = false)
    (last : ∀ c, text.getLast? = some c → isSpace c = false) : strip isSpace text = text := by
  have keeps {text : List α} (solid : ∀ c, text.head? = some c → isSpace c = false) : text.dropWhile isSpace = text := by
    cases text with
    | nil => rfl
    | cons c rest => rw [List.dropWhile_cons, if_neg (by simp [solid c rfl])]
  have behind : text.reverse.dropWhile isSpace = text.reverse := by
    apply keeps
    intro c here
    rw [List.head?_reverse] at here
    exact last c here
  rw [strip, keeps first, behind, List.reverse_reverse]

theorem strip_first {first : α} (here : (strip isSpace text).head? = some first) : isSpace first = false := by
  have twice : strip isSpace (strip isSpace text) = strip isSpace text := strip_strip
  cases shape : strip isSpace text with
  | nil => rw [shape] at here; cases here
  | cons c rest =>
    rw [shape] at here twice
    obtain rfl := Option.some.inj here
    by_contra space
    have shorter : (strip isSpace (c :: rest)).length ≤ rest.length := by
      rw [show c :: rest = [c] ++ rest from rfl, strip_spaces (by simpa using space)]
      exact strip_sublist.length_le
    rw [twice, List.length_cons] at shorter
    omega

theorem strip_last {last : α} (here : (strip isSpace text).getLast? = some last) : isSpace last = false := by
  have solid := List.head?_dropWhile_not isSpace (text.dropWhile isSpace).reverse
  rw [strip, List.getLast?_reverse] at here
  rw [here] at solid
  exact solid

theorem mem_strip {c : α} (member : c ∈ strip isSpace text) : c ∈ text := by
  rw [strip, List.mem_reverse] at member
  have inside := (List.dropWhile_sublist _).mem member
  exact (List.dropWhile_sublist _).mem (List.mem_reverse.mp inside)

end Strip

end Lines
