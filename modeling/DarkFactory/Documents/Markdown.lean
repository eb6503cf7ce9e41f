import DarkFactory.Documents.Yaml

namespace DarkFactory

/-- What `re` and the case methods of `str` read off the Unicode tables. -/
structure Unicode where
  isWord : Char → Bool
  lower : DocText → DocText
  upper : DocText → DocText
  sameLetter : Char → Char → Bool

namespace Pattern

open Regex

def literal (text : String) : Regex Char := sequence (text.toList.map fun c => .char (· = c))

def literalFold (unicode : Unicode) (text : String) : Regex Char :=
  sequence (text.toList.map fun c => .char fun d => d = c || unicode.sameLetter c d)

def space : Regex Char := .char Text.isSpace

def spaces : Regex Char := .star space true

/-- `.` without `DOTALL`. -/
def dot : Regex Char := .char (· ≠ '\n')

/-- `^` under `MULTILINE`. -/
def lineStart : Regex Char := .look fun behind _ => behind.head?.all (· = '\n')

/-- `$` under `MULTILINE`. -/
def lineEnd : Regex Char := .look fun _ ahead => ahead.head?.all (· = '\n')

/-- `$` -/
def textEnd : Regex Char := .look fun _ ahead => ahead = [] || ahead = ['\n']

def wordBoundary (unicode : Unicode) : Regex Char :=
  .look fun behind ahead => behind.head?.any unicode.isWord != ahead.head?.any unicode.isWord

def digit : Regex Char := .char fun c => '0' ≤ c && c ≤ '9'

def alphanumeric : Regex Char :=
  .char fun c => ('a' ≤ c && c ≤ 'z') || ('A' ≤ c && c ≤ 'Z') || ('0' ≤ c && c ≤ '9')

def titled (number : Nat) : Regex Char :=
  .seq (.group number (plus dot false)) (.seq spaces (.seq (.star (.char (· = '#')) true) (.seq spaces lineEnd)))

def heading (marks : Regex Char) (number : Nat) : Regex Char :=
  .seq lineStart (.seq marks (.seq (plus space true) (titled number)))

/-- A code block between two fences, across lines. -/
def fence : Regex Char :=
  .seq (literal "```") (.seq (.star (.char fun _ => true) false) (literal "```"))

section Heading

variable {marks : Regex Char} {number : Nat} {behind ahead word : List Char} {c : Char}

theorem titled_there (ink : Text.isSpace c = false) : run (titled number) ⟨behind, c :: ahead⟩ ≠ [] := by
  have visible : (decide (c ≠ '\n')) = true := by
    rw [decide_eq_true_iff]
    rintro rfl
    exact absurd ink (by decide)
  let line := ahead.takeWhile (fun d => decide (d ≠ '\n'))
  let rest := ahead.dropWhile (fun d => decide (d ≠ '\n'))
  have whole : line ++ rest = ahead := List.takeWhile_append_dropWhile
  have ends : rest.head?.all (· = '\n') = true := by
    cases there : rest with
    | nil => rfl
    | cons d more =>
      have stops := List.head?_dropWhile_not (fun d => decide (d ≠ '\n')) ahead
      rw [show ahead.dropWhile (fun d => decide (d ≠ '\n')) = d :: more from there] at stops
      simpa using stops
  let stop : Cursor Char := ⟨line.reverse ++ (c :: behind), rest⟩
  have title : stay stop ∈ run (plus dot false) ⟨behind, c :: ahead⟩ := by
    have first : run dot ⟨behind, c :: ahead⟩ = [stay ⟨c :: behind, ahead⟩] := run_char visible
    have more : stay stop ∈ run (.star dot false) ⟨c :: behind, ahead⟩ := by
      have fits : line.length ≤ ahead.length := by
        rw [← whole, List.length_append]
        exact Nat.le_add_right _ _
      have taken := @iterate_char_mem Char (fun d => decide (d ≠ '\n')) false (c :: behind) rest line
        (fun d member => List.mem_takeWhile_imp (p := fun d => decide (d ≠ '\n')) member) ahead.length fits
      rw [whole] at taken
      exact taken
    rw [plus, run, first, List.flatMap_singleton, map_next_stay]
    exact more
  have tail : stay stop ∈ run (.seq spaces (.seq (.star (.char (· = '#')) true) (.seq spaces lineEnd))) stop := by
    have blank (body : Regex Char) : stay stop ∈ run (.star body true) stop := iterate_stay _ _ _
    have shut : run lineEnd stop = [stay stop] := if_pos ends
    have step {body rest : Regex Char} (inside : stay stop ∈ run body stop) (then_ : stay stop ∈ run rest stop) :
        stay stop ∈ run (.seq body rest) stop :=
      List.mem_flatMap.mpr ⟨stay stop, inside, List.mem_map.mpr ⟨stay stop, then_, rfl⟩⟩
    exact step (blank _) (step (blank _) (step (blank _) (shut ▸ List.mem_singleton_self _)))
  intro none_
  have found : _ ∈ run (titled number) ⟨behind, c :: ahead⟩ :=
    List.mem_flatMap.mpr ⟨_, List.mem_map.mpr ⟨stay stop, title, rfl⟩, List.mem_map.mpr ⟨stay stop, tail, rfl⟩⟩
  rw [none_] at found
  cases found

theorem titled_groups {one : Outcome Char} (member : one ∈ run (titled number) ⟨behind, c :: ahead⟩) :
    ∃ rest, one.groups.head? = some (number, c :: rest) := by
  obtain ⟨title, inside, tail, _, rfl⟩ : ∃ title ∈ run (.group number (plus dot false)) ⟨behind, c :: ahead⟩,
      ∃ tail, tail ∈ run (.seq spaces (.seq (.star (.char (· = '#')) true) (.seq spaces lineEnd))) title.cursor ∧
        title.next tail = one := by simpa [titled, run] using member
  obtain ⟨plain, ran, rfl⟩ := List.mem_map.mp inside
  obtain ⟨first, one, more, star, rfl⟩ : ∃ first ∈ run dot ⟨behind, c :: ahead⟩, ∃ more,
      more ∈ run (.star dot false) first.cursor ∧ first.next more = plain := by simpa [plus, run] using ran
  have start : first = stay ⟨c :: behind, ahead⟩ := by
    unfold dot run at one
    dsimp only at one
    split at one
    · exact List.mem_singleton.mp one
    · cases one
  subst start
  obtain ⟨taken, took⟩ := run_took _ star
  have first : Took ⟨behind, c :: ahead⟩ [c] ⟨c :: behind, ahead⟩ := ⟨rfl, rfl⟩
  have whole : Took ⟨behind, c :: ahead⟩ (c :: taken) more.cursor := first.trans took
  exact ⟨taken, congrArg (fun text => some (number, text)) whole.between⟩

/-- White space is passed over as a whole in front of what is tried next, where that has an outcome. -/
theorem spaces_head {regex : Regex Char} {s : Char} {blank : List Char} (white : ∀ d ∈ s :: blank, Text.isSpace d = true)
    (ink : Text.isSpace c = false)
    (there : run regex ⟨blank.reverse ++ (s :: behind), c :: ahead⟩ ≠ []) :
    (run (.seq (plus space true) regex) ⟨behind, s :: blank ++ c :: ahead⟩).head? =
      (run regex ⟨blank.reverse ++ (s :: behind), c :: ahead⟩).head? := by
  rw [List.forall_mem_cons] at white
  have ends : ∀ d ∈ (c :: ahead).head?, Text.isSpace d = false := by
    rintro d ⟨⟩
    exact ink
  have fits : blank.length ≤ (blank ++ c :: ahead).length := by
    rw [List.length_append]
    exact Nat.le_add_right _ _
  have most := @iterate_char_head _ _ (s :: behind) (c :: ahead) blank white.2 ends _ fits
  have passed : (run (plus space true) ⟨behind, s :: blank ++ c :: ahead⟩).head? =
      some (stay ⟨blank.reverse ++ (s :: behind), c :: ahead⟩) := by
    have one : run space ⟨behind, s :: blank ++ c :: ahead⟩ = [stay ⟨s :: behind, blank ++ c :: ahead⟩] :=
      run_char white.1
    rw [plus, run, one, List.flatMap_singleton, map_next_stay]
    exact most
  obtain ⟨others, outcomes⟩ := List.head?_eq_some_iff.mp passed
  rw [run, outcomes, List.flatMap_cons, map_next_stay]
  exact List.head?_append_of_ne_nil _ there

theorem heading_title {start : Cursor Char} {one : Outcome Char} (found : first (heading marks number) start = some one)
    (silent : ∀ cursor, ∀ outcome ∈ run marks cursor, outcome.groups = [])
    (ends : start.ahead = word ++ [c]) (ink : Text.isSpace c = false) :
    ∃ d rest, Text.isSpace d = false ∧ one.groups.head? = some (number, d :: rest) := by
  have head := (Option.filter_eq_some_iff.mp found).1
  obtain ⟨begins, line, more⟩ := flatMap_head head
  have here : begins = stay start := by
    unfold lineStart run at line
    split at line
    · exact List.mem_singleton.mp line
    · cases line
  subst here
  rw [map_next_stay] at more
  obtain ⟨marked, ran, rest⟩ := flatMap_head more
  rw [List.head?_map, Option.map_eq_some_iff] at rest
  obtain ⟨outcome, rest, rfl⟩ := rest
  obtain ⟨taken, took⟩ := run_took _ ran
  have groups : (marked.next outcome).groups = outcome.groups := by
    rw [Outcome.next, silent _ _ ran]
    rfl
  rw [groups]
  obtain ⟨⟨back, front⟩, own⟩ := marked
  dsimp only at rest took
  have suffix : taken ++ front = word ++ [c] := took.1.symm.trans ends
  cases front with
  | nil =>
    have none_ : run (.seq (plus space true) (titled number)) ⟨back, []⟩ = [] := rfl
    rw [none_] at rest
    cases rest
  | cons s after =>
    have last : c ∈ s :: after := by
      have tail := congrArg List.getLast? suffix
      rw [List.getLast?_append_of_ne_nil _ (List.cons_ne_nil s after), List.getLast?_append_of_ne_nil _ (by simp),
        List.getLast?_singleton] at tail
      exact List.mem_of_getLast? tail
    by_cases white : Text.isSpace s = true
    · have whole : after.takeWhile Text.isSpace ++ after.dropWhile Text.isSpace = after :=
        List.takeWhile_append_dropWhile
      cases beyond : after.dropWhile Text.isSpace with
      | nil =>
        rw [beyond, List.append_nil] at whole
        rcases List.mem_cons.mp last with rfl | later
        · rw [ink] at white
          cases white
        · rw [← whole] at later
          rw [List.mem_takeWhile_imp later] at ink
          cases ink
      | cons d more =>
        have stops := List.head?_dropWhile_not Text.isSpace after
        rw [beyond] at stops
        have visible : Text.isSpace d = false := by simpa using stops
        have there := @titled_there number ((after.takeWhile Text.isSpace).reverse ++ (s :: back)) more d visible
        rw [beyond] at whole
        have passed := spaces_head (List.forall_mem_cons.mpr ⟨white, fun e => List.mem_takeWhile_imp⟩) visible there
        rw [List.cons_append, whole, rest] at passed
        obtain ⟨tail, title⟩ := titled_groups (List.mem_of_head? passed.symm)
        exact ⟨d, tail, visible, title⟩
    · have none_ : run (.seq (plus space true) (titled number)) ⟨back, s :: after⟩ = [] := by
        have no : run space ⟨back, s :: after⟩ = [] := if_neg white
        rw [run, plus, run, no]
        rfl
      rw [none_] at rest
      cases rest

end Heading

end Pattern

end DarkFactory
