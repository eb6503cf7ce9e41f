import Mathlib.Algebra.Ring.Nat
import Mathlib.Tactic.Common

/-! Paths over any alphabet, read lexically: the segments between the slashes, without those that name nothing. -/

namespace Segments

variable {α : Type} (slash : α) (blank : List α → Bool)

def named [DecidableEq α] (path : List α) : List (List α) := (path.splitOn slash).filter fun segment => !blank segment

def join (segments : List (List α)) : List α := List.intercalate [slash] segments

section Split

theorem splitOnP_free {p : α → Bool} {text part : List α} (member : part ∈ text.splitOnP p) :
    ∀ c ∈ part, p c = false := by
  induction text generalizing part with
  | nil =>
    rw [List.splitOnP_nil, List.mem_singleton] at member
    rw [member]
    nofun
  | cons first rest ih =>
    rw [List.splitOnP_cons_eq_if_modifyHead] at member
    by_cases cuts : p first = true
    · rw [if_pos cuts] at member
      rcases List.mem_cons.mp member with rfl | later
      · nofun
      · exact ih later
    · rw [if_neg cuts] at member
      obtain ⟨head, others, shape⟩ := List.exists_cons_of_ne_nil (List.splitOnP_ne_nil p rest)
      rw [shape, List.modifyHead_cons] at member
      rcases List.mem_cons.mp member with rfl | later
      · rw [List.forall_mem_cons]
        exact ⟨by simpa using cuts, ih (by rw [shape]; simp)⟩
      · exact ih (by rw [shape]; exact List.mem_cons_of_mem _ later)

theorem mem_of_splitOnP {p : α → Bool} {text part : List α} {c : α} (member : part ∈ text.splitOnP p) (inside : c ∈ part) :
    c ∈ text := by
  induction text generalizing part with
  | nil =>
    rw [List.splitOnP_nil, List.mem_singleton] at member
    rw [member] at inside
    cases inside
  | cons first rest ih =>
    obtain ⟨head, others, shape⟩ := List.exists_cons_of_ne_nil (List.splitOnP_ne_nil p rest)
    rw [List.splitOnP_cons_eq_if_modifyHead, shape, List.modifyHead_cons] at member
    rw [shape] at ih
    split at member
    · rcases List.mem_cons.mp member with rfl | later
      · cases inside
      · exact List.mem_cons_of_mem _ (ih later inside)
    · rcases List.mem_cons.mp member with rfl | later
      · rcases List.mem_cons.mp inside with rfl | behind
        · exact List.mem_cons_self
        · exact List.mem_cons_of_mem _ (ih List.mem_cons_self behind)
      · exact List.mem_cons_of_mem _ (ih (List.mem_cons_of_mem _ later) inside)

theorem splitOnP_covers {p : α → Bool} {text : List α} {c : α} (member : c ∈ text) :
    p c = true ∨ ∃ part ∈ text.splitOnP p, c ∈ part := by
  induction text with
  | nil => cases member
  | cons first rest ih =>
    obtain ⟨head, others, shape⟩ := List.exists_cons_of_ne_nil (List.splitOnP_ne_nil p rest)
    rw [List.splitOnP_cons_eq_if_modifyHead]
    by_cases cuts : p first = true
    · rw [if_pos cuts]
      rcases List.mem_cons.mp member with rfl | later
      · exact Or.inl cuts
      · exact (ih later).imp_right fun ⟨part, listed, inside⟩ => ⟨part, List.mem_cons_of_mem _ listed, inside⟩
    · rw [if_neg cuts, shape, List.modifyHead_cons]
      rcases List.mem_cons.mp member with rfl | later
      · exact Or.inr ⟨_, List.mem_cons_self, List.mem_cons_self⟩
      · refine (ih later).imp_right fun ⟨part, listed, inside⟩ => ?_
        rw [shape] at listed
        rcases List.mem_cons.mp listed with rfl | after
        · exact ⟨_, List.mem_cons_self, List.mem_cons_of_mem _ inside⟩
        · exact ⟨part, List.mem_cons_of_mem _ after, inside⟩

end Split

section Join

variable {slash blank} {path : List α} {segments : List (List α)}

theorem length_join : (join slash segments).length = (segments.map List.length).sum + (segments.length - 1) := by
  induction segments with
  | nil => rfl
  | cons first rest ih =>
    cases rest with
    | nil => simp [join, List.intercalate]
    | cons next others =>
      have step : join slash (first :: next :: others) = first ++ slash :: join slash (next :: others) := by
        simp [join, List.intercalate]
      rw [step, List.length_append, List.length_cons, ih]
      simp only [List.map_cons, List.sum_cons, List.length_cons]
      omega

theorem mem_join {c : α} (member : c ∈ join slash segments) : c = slash ∨ ∃ segment ∈ segments, c ∈ segment := by
  induction segments with
  | nil => cases member
  | cons first rest ih =>
    have step : c ∈ first ∨ c = slash ∨ c ∈ join slash rest := by
      cases rest with
      | nil => exact Or.inl (by simpa [join, List.intercalate] using member)
      | cons next others => simpa [join, List.intercalate] using member
    rcases step with inside | same | later
    · exact Or.inr ⟨first, by simp, inside⟩
    · exact Or.inl same
    · exact (ih later).imp_right fun ⟨segment, listed, inside⟩ => ⟨segment, List.mem_cons_of_mem _ listed, inside⟩

theorem head?_join {first : List α} {rest : List (List α)} (filled : first ≠ []) :
    (join slash (first :: rest)).head? = first.head? := by
  obtain ⟨c, letters, rfl⟩ := List.exists_cons_of_ne_nil filled
  cases rest <;> simp [join, List.intercalate]

theorem getLast?_join {last : List α} (filled : last ≠ []) :
    (join slash (segments ++ [last])).getLast? = last.getLast? := by
  induction segments with
  | nil => simp [join, List.intercalate]
  | cons first rest ih =>
    obtain ⟨next, others, shape⟩ := List.exists_cons_of_ne_nil (List.append_ne_nil_of_right_ne_nil rest (List.cons_ne_nil last []))
    rw [shape] at ih
    have step : join slash (first :: rest ++ [last]) = first ++ slash :: join slash (next :: others) := by
      rw [List.cons_append, shape]
      simp [join, List.intercalate]
    rw [step, List.getLast?_append, List.getLast?_cons, ih]
    cases letters : last.getLast? with
    | none => exact absurd (List.getLast?_eq_none_iff.mp letters) filled
    | some c => rfl

theorem length_join_filter (keeps : List α → Bool) :
    (join slash (segments.filter keeps)).length ≤ (join slash segments).length := by
  have lighter : ((segments.filter keeps).map List.length).sum ≤ (segments.map List.length).sum := by
    induction segments with
    | nil => exact Nat.le_refl _
    | cons first rest ih =>
      by_cases kept : keeps first = true
      · rw [List.filter_cons_of_pos kept]
        simpa using ih
      · rw [List.filter_cons_of_neg kept, List.map_cons, List.sum_cons]
        omega
  have fewer := List.length_filter_le keeps segments
  rw [length_join, length_join]
  omega

variable [DecidableEq α]

theorem slashFree_of_named {segment : List α} (member : segment ∈ named slash blank path) : slash ∉ segment := by
  intro inside
  have apart := splitOnP_free (List.mem_filter.mp member).1 slash inside
  simp at apart

theorem mem_of_named {segment : List α} {c : α} (member : segment ∈ named slash blank path) (inside : c ∈ segment) :
    c ∈ path :=
  mem_of_splitOnP (List.mem_filter.mp member).1 inside

theorem blank_of_named {segment : List α} (member : segment ∈ named slash blank path) : blank segment = false := by
  have kept := (List.mem_filter.mp member).2
  simpa using kept

theorem splitOn_join (occupied : segments ≠ []) (slashFree : ∀ segment ∈ segments, slash ∉ segment) :
    (join slash segments).splitOn slash = segments :=
  List.splitOn_intercalate slash slashFree occupied

theorem named_join (occupied : segments ≠ []) (slashFree : ∀ segment ∈ segments, slash ∉ segment)
    (names : ∀ segment ∈ segments, blank segment = false) : named slash blank (join slash segments) = segments := by
  rw [named, splitOn_join occupied slashFree, List.filter_eq_self]
  intro segment member
  simp [names segment member]

/-- Reading a path lexically never makes it longer. -/
theorem length_join_named : (join slash (named slash blank path)).length ≤ path.length := by
  have whole : join slash (path.splitOn slash) = path := List.intercalate_splitOn slash
  calc
    (join slash (named slash blank path)).length ≤ (join slash (path.splitOn slash)).length := length_join_filter _
    _ = path.length := congrArg List.length whole

end Join

end Segments
