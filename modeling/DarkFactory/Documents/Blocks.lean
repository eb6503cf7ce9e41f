import DarkFactory.Documents.Yaml

namespace DarkFactory

section Block

variable {text block body : DocText} {first line : DocText} {lines rest : List DocText}

theorem frontmatterBlock_none : frontmatterBlock text = .ok none ↔
    ∀ first, (splitlines text).head? = some first → isDelimiter first = false := by
  unfold frontmatterBlock
  cases splitlines text with
  | nil => simp
  | cons first rest =>
    cases opens : isDelimiter first with
    | false => simp [opens]
    | true =>
      cases remains : rest.dropWhile fun line => !isDelimiter line with
      | nil => simp [opens, remains]
      | cons last body => simp [opens, remains]

theorem frontmatterBlock_delimited (shape : splitlines text = first :: (lines ++ line :: rest))
    (opens : isDelimiter first = true) (undelimited : ∀ line ∈ lines, isDelimiter line = false)
    (closes : isDelimiter line = true) : frontmatterBlock text = .ok (some (joinLines lines, joinLines rest)) := by
  have inside (held : DocText) (member : held ∈ lines) : (!isDelimiter held) = true := by
    rw [undelimited held member]
    rfl
  have taken : (lines ++ line :: rest).takeWhile (fun line => !isDelimiter line) = lines := by
    rw [List.takeWhile_append_of_pos inside, List.takeWhile_cons, if_neg (by simp [closes]), List.append_nil]
  have left : (lines ++ line :: rest).dropWhile (fun line => !isDelimiter line) = line :: rest := by
    rw [List.dropWhile_append_of_pos inside, List.dropWhile_cons, if_neg (by simp [closes])]
  simp only [frontmatterBlock, shape, opens, Bool.not_true, Bool.false_eq_true, if_false, taken, left]

theorem frontmatterBlock_some (found : frontmatterBlock text = .ok (some (block, body))) :
    ∃ first lines last rest, splitlines text = first :: (lines ++ last :: rest) ∧ isDelimiter first = true ∧
      (∀ line ∈ lines, isDelimiter line = false) ∧ isDelimiter last = true ∧
      block = joinLines lines ∧ body = joinLines rest := by
  unfold frontmatterBlock at found
  cases shape : splitlines text with
  | nil => simp [shape] at found
  | cons first rest =>
    simp only [shape] at found
    cases opens : isDelimiter first with
    | false => simp [opens] at found
    | true =>
      simp only [opens, Bool.not_true, Bool.false_eq_true, if_false] at found
      have closes := List.head?_dropWhile_not (fun line => !isDelimiter line) rest
      cases remains : rest.dropWhile fun line => !isDelimiter line with
      | nil => simp [remains] at found
      | cons last tail =>
        simp only [remains, Except.ok.injEq, Option.some.injEq, Prod.mk.injEq] at found
        rw [remains] at closes
        refine ⟨first, rest.takeWhile fun line => !isDelimiter line, last, tail, ?_, opens, ?_, by simpa using closes,
          found.1.symm, found.2.symm⟩
        · rw [← remains, List.takeWhile_append_dropWhile]
        · intro line member
          simpa using List.mem_takeWhile_imp member

theorem frontmatterBlock_weight (found : frontmatterBlock text = .ok (some (block, body))) :
    textWeight body + 6 ≤ textWeight text := by
  obtain ⟨first, lines, last, rest, shape, opens, -, closes, -, rfl⟩ := frontmatterBlock_some found
  have total := splitlines_weight text
  rw [shape, List.map_cons, List.map_append, List.map_cons, List.sum_cons, List.sum_append, List.sum_cons,
    isDelimiter_weight opens, isDelimiter_weight closes] at total
  rw [joinLines_weight]
  omega

theorem joinLines_plain (text : DocText) : PlainBreaks (joinLines (splitlines text)) :=
  Lines.join_breaks Lines.split_free

/-- A delimiter among the lines in front of one moves the rest of them, and that one, into the body. -/
theorem frontmatterBlock_early (shape : splitlines text = first :: (lines ++ line :: rest))
    (opens : isDelimiter first = true) (closes : isDelimiter line = true)
    (found : frontmatterBlock text = .ok (some (block, body))) :
    (∀ line ∈ lines, isDelimiter line = false) ∨ textWeight (joinLines rest) + 3 ≤ textWeight body := by
  by_cases undelimited : ∀ line ∈ lines, isDelimiter line = false
  · exact .inl undelimited
  · right
    cases earlier : lines.find? isDelimiter with
    | none =>
      refine absurd (fun line member => ?_) undelimited
      simpa using List.find?_eq_none.mp earlier line member
    | some early =>
      obtain ⟨delimits, front, back, rfl, before⟩ := List.find?_eq_some_iff_append.mp earlier
      have cut : splitlines text = first :: (front ++ early :: (back ++ line :: rest)) := by
        rw [shape, List.append_assoc, List.cons_append]
      rw [frontmatterBlock_delimited cut opens (by simpa using before) delimits] at found
      simp only [Except.ok.injEq, Option.some.injEq, Prod.mk.injEq] at found
      rw [← found.2, joinLines_weight, joinLines_weight, List.map_append, List.map_cons, List.sum_append, List.sum_cons,
        isDelimiter_weight closes]
      omega

theorem joinLines_final (plain : PlainBreaks text) :
    joinLines (splitlines text) = if text.getLast? = some '\n' then text.dropLast else text := by
  cases ends : text.getLast? with
  | none =>
    rw [List.getLast?_eq_none_iff.mp ends]
    rfl
  | some last =>
    obtain ⟨front, rfl⟩ := List.getLast?_eq_some_iff.mp ends
    by_cases newline : last = '\n'
    · subst newline
      rw [if_pos rfl, List.dropLast_concat]
      exact joinLines_splitlines fun c member => plain c (List.mem_append_left _ member)
    · rw [if_neg (by simpa using newline)]
      have solid : lineBreak last = false := by
        by_contra breaks
        exact newline (plain last (by simp) (by simpa using breaks))
      have free : ∀ c ∈ front ++ [last], c ≠ '\r' := by
        rintro c member rfl
        exact absurd (plain _ member (by decide)) (by decide)
      have joined := joinLines_splitlines plain
      have closed : splitlines (front ++ [last] ++ ['\n']) = splitlines (front ++ [last]) := by
        rw [splitlines, splitlines, newlines_id (newline_unreturned plain), newlines_id free]
        exact Lines.split_unended (by decide) ends solid
      rwa [closed] at joined

end Block

section Split

variable {ρ : Type} {load : DocText → Except SddFailure ρ} {text body : DocText} {raw : Option ρ}

theorem splitWith_none : splitWith load text = .ok (none, body) ↔ frontmatterBlock text = .ok none ∧ body = text := by
  unfold splitWith
  cases frontmatterBlock text with
  | error failure => simp
  | ok found =>
    cases found with
    | none =>
      simp only [Except.ok.injEq, Prod.mk.injEq, true_and]
      exact eq_comm
    | some parts => cases loaded : load parts.1 <;> simp [loaded]

theorem splitWith_some {found : ρ} : splitWith load text = .ok (some found, body) ↔
    ∃ block, frontmatterBlock text = .ok (some (block, body)) ∧ load block = .ok found := by
  unfold splitWith
  cases frontmatterBlock text with
  | error failure => simp
  | ok found =>
    cases found with
    | none => simp
    | some parts =>
      obtain ⟨block, rest⟩ := parts
      have only (block' : DocText) : (Except.ok (some (block, rest)) : Except SddFailure _) = .ok (some (block', body)) ↔
          block = block' ∧ rest = body := by
        simp
      simp only [only]
      cases loaded : load block with
      | error failure =>
        simp only [reduceCtorEq, false_iff, not_exists, not_and]
        rintro _ ⟨rfl, rfl⟩
        rw [loaded]
        exact nofun
      | ok held =>
        simp only [Except.ok.injEq, Prod.mk.injEq, Option.some.injEq]
        constructor
        · rintro ⟨rfl, rfl⟩
          exact ⟨block, ⟨rfl, rfl⟩, loaded⟩
        · rintro ⟨_, ⟨rfl, rfl⟩, loaded'⟩
          rw [loaded] at loaded'
          exact ⟨Except.ok.inj loaded', rfl⟩

end Split

end DarkFactory
