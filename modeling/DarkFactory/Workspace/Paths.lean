import DarkFactory.Lib.Segments
import DarkFactory.Sdd.Frontmatter

namespace DarkFactory

structure UnsafeWorkspacePath where
  message : String
  deriving DecidableEq, Repr

/-- `path.strip().replace("\\", "/")` -/
def normalizedPath (path : String) : DocText :=
  (stripText path.toList).map fun c => if c = Text.backslash then '/' else c

def staysHere (segment : DocText) : Bool := segment = [] || segment = ['.']

def pathSegments (text : DocText) : List DocText := Segments.named '/' staysHere text

def upwards : DocText := "..".toList

/-- The rule of the role tools: the path in its normal form. -/
def resolvePath (path : String) : Except UnsafeWorkspacePath String :=
  let normalized := normalizedPath path
  if normalized = [] then .error ⟨"path must be a non-empty workspace-relative path"⟩
  else if normalized.head? = some '/' || normalized.head? = some '~' then
    .error ⟨"path " ++ Text.repr path ++ " must be relative to the workspace"⟩
  else
    let segments := pathSegments normalized
    if upwards ∈ segments then .error ⟨"path " ++ Text.repr path ++ " must not escape the workspace"⟩
    else if segments = [] then
      .error ⟨"path " ++ Text.repr path ++ " names the workspace root; name a file inside the workspace"⟩
    else .ok (String.ofList (Segments.join '/' segments))

structure PurePosixPath where
  root : DocText
  tail : List DocText
  deriving DecidableEq, Repr

/-- Two slashes in front are a root of their own, one or more than two are `/`. -/
def posixRoot (text : DocText) : DocText :=
  match text.takeWhile (· = '/') with
  | [] => []
  | ['/', '/'] => ['/', '/']
  | _ => ['/']

def PurePosixPath.parse (text : DocText) : PurePosixPath :=
  { root := posixRoot text, tail := Segments.named '/' staysHere (text.dropWhile (· = '/')) }

def PurePosixPath.isAbsolute (path : PurePosixPath) : Bool := !path.root.isEmpty

def PurePosixPath.parts (path : PurePosixPath) : List DocText :=
  if path.root.isEmpty then path.tail else path.root :: path.tail

/-- The rule of the workspaces: the segments of the path. -/
def safeParts (path : String) : Except UnsafeWorkspacePath (List DocText) :=
  let normalized := normalizedPath path
  if normalized = [] then .error ⟨"the path must be a non-empty workspace-relative path"⟩
  else
    let relative := PurePosixPath.parse normalized
    if relative.isAbsolute || normalized.head? = some '/' then
      .error ⟨"path " ++ Text.repr path ++ " must be relative to the workspace"⟩
    else
      let parts := relative.parts.filter (· ≠ ['.'])
      if parts = [] || upwards ∈ parts then .error ⟨"path " ++ Text.repr path ++ " must stay inside the workspace"⟩
      else .ok parts

/-- Both rules read the resolved path alike: the workspace accepts it, names its segments, each of which is a name, and
    the tools resolve it to itself. -/
structure RulesAgree (resolved : String) : Prop where
  sameSegments : safeParts resolved = .ok (resolved.toList.splitOn '/')
  names : ∀ segment ∈ resolved.toList.splitOn '/', segment ≠ [] ∧ segment ≠ ['.'] ∧ segment ≠ upwards
  resolves : resolvePath resolved = .ok resolved

/-- The first name of the path begins with no white space and no tilde, and the last one ends with no white space. -/
structure PlainEnds (path : String) : Prop where
  first : ∀ c ∈ (pathSegments (normalizedPath path)).head?.bind List.head?, Text.isSpace c = false ∧ c ≠ '~'
  last : ∀ c ∈ (pathSegments (normalizedPath path)).getLast?.bind List.getLast?, Text.isSpace c = false

section Rules

variable {path resolved : String} {text : DocText}

theorem pathSegments_names {segment : DocText} (member : segment ∈ pathSegments text) :
    '/' ∉ segment ∧ segment ≠ [] ∧ segment ≠ ['.'] := by
  have slashFree := Segments.slashFree_of_named member
  have names := Segments.blank_of_named member
  simp only [staysHere, Bool.or_eq_false_iff, decide_eq_false_iff_not] at names
  exact ⟨slashFree, names⟩

theorem parts_relative (relative : text.head? ≠ some '/') :
    (PurePosixPath.parse text).isAbsolute = false ∧ (PurePosixPath.parse text).parts = pathSegments text := by
  cases text with
  | nil => exact ⟨rfl, rfl⟩
  | cons c rest =>
    have apart : c ≠ '/' := by simpa using relative
    simp [PurePosixPath.parse, PurePosixPath.isAbsolute, PurePosixPath.parts, posixRoot, apart, pathSegments]

theorem parts_filter : (pathSegments text).filter (· ≠ ['.']) = pathSegments text := by
  rw [List.filter_eq_self]
  intro segment member
  simpa using (pathSegments_names member).2.2

/-- The rules differ in the tilde only, and in what they return. -/
theorem safeParts_ok {parts : List DocText} : safeParts path = .ok parts ↔
    (normalizedPath path).head? ≠ some '/' ∧ upwards ∉ parts ∧ parts ≠ [] ∧ pathSegments (normalizedPath path) = parts := by
  unfold safeParts
  dsimp only
  by_cases empty : normalizedPath path = []
  · rw [if_pos empty]
    have none : pathSegments (normalizedPath path) = [] := by rw [empty]; rfl
    simp only [none, reduceCtorEq, false_iff, not_and]
    intro _ _ occupied same
    exact occupied same.symm
  · rw [if_neg empty]
    by_cases rooted : (normalizedPath path).head? = some '/'
    · simp [rooted]
    · obtain ⟨absolute, parts_eq⟩ := parts_relative rooted
      rw [absolute, parts_eq, parts_filter]
      simp only [rooted, decide_false, Bool.or_self, Bool.false_eq_true, if_false, ne_eq, not_false_eq_true, true_and]
      by_cases bad : pathSegments (normalizedPath path) = [] ∨ upwards ∈ pathSegments (normalizedPath path)
      · simp only [Bool.or_eq_true, decide_eq_true_eq]
        rw [if_pos bad]
        simp only [reduceCtorEq, false_iff, not_and]
        rintro inside occupied rfl
        exact bad.elim occupied inside
      · simp only [Bool.or_eq_true, decide_eq_true_eq]
        rw [if_neg bad]
        simp only [not_or] at bad
        simp only [Except.ok.injEq]
        constructor
        · rintro rfl
          exact ⟨bad.2, bad.1, rfl⟩
        · exact fun done => done.2.2

theorem resolvePath_ok : resolvePath path = .ok resolved ↔
    (normalizedPath path).head? ≠ some '~' ∧ ∃ parts, safeParts path = .ok parts ∧
      resolved = String.ofList (Segments.join '/' parts) := by
  simp only [safeParts_ok]
  unfold resolvePath
  dsimp only
  by_cases empty : normalizedPath path = []
  · have none : pathSegments (normalizedPath path) = [] := by rw [empty]; rfl
    rw [if_pos empty, none]
    simp
  · rw [if_neg empty]
    by_cases rooted : (normalizedPath path).head? = some '/'
    · simp [rooted]
    · by_cases home : (normalizedPath path).head? = some '~'
      · simp [home]
      · simp only [rooted, home, decide_false, Bool.or_self, Bool.false_eq_true, if_false, ne_eq, not_false_eq_true,
          true_and]
        by_cases up : upwards ∈ pathSegments (normalizedPath path)
        · rw [if_pos up]
          simp only [reduceCtorEq, false_iff, not_exists, not_and]
          rintro parts ⟨inside, _, rfl⟩
          exact absurd up inside
        · rw [if_neg up]
          by_cases none : pathSegments (normalizedPath path) = []
          · rw [if_pos none]
            simp [none]
          · rw [if_neg none]
            simp [up, none, eq_comm]

theorem normalizedPath_eq {text : DocText} (written : path.toList = text) (plain : ∀ c ∈ text, c ≠ Text.backslash)
    (first : ∀ c, text.head? = some c → Text.isSpace c = false)
    (last : ∀ c, text.getLast? = some c → Text.isSpace c = false) : normalizedPath path = text := by
  have stripped : stripText path.toList = text := by rw [written]; exact Lines.strip_of_solid first last
  rw [normalizedPath, stripped]
  refine (List.map_congr_left ?_).trans (List.map_id _)
  intro c member
  exact if_neg (plain c member)

theorem normalizedPath_plain : ∀ c ∈ normalizedPath path, c ≠ Text.backslash := by
  intro c member
  obtain ⟨letter, -, rfl⟩ := List.mem_map.mp member
  split
  · decide
  · assumption

end Rules

section Resolved

variable {path resolved : String} {parts : List DocText}

theorem resolves_untrimmed (resolves : resolvePath resolved = .ok resolved) :
    stripText resolved.toList = resolved.toList := by
  obtain ⟨-, parts, safe, same⟩ := resolvePath_ok.mp resolves
  obtain ⟨-, -, -, rfl⟩ := safeParts_ok.mp safe
  have letters := congrArg String.toList same
  rw [String.toList_ofList] at letters
  refine Lines.strip_sublist.eq_of_length_le ?_
  calc
    resolved.toList.length = (Segments.join '/' (pathSegments (normalizedPath resolved))).length := congrArg List.length letters
    _ ≤ (normalizedPath resolved).length := Segments.length_join_named
    _ = (stripText resolved.toList).length := List.length_map _

/-- The path that segments with names are joined to, trimmed or not at its ends. -/
theorem rulesAgree_join (occupied : parts ≠ []) (inside : upwards ∉ parts)
    (names : ∀ segment ∈ parts, '/' ∉ segment ∧ segment ≠ [] ∧ segment ≠ ['.'])
    (plain : ∀ c ∈ Segments.join '/' parts, c ≠ Text.backslash) :
    RulesAgree (String.ofList (Segments.join '/' parts)) ↔
      (∀ c, (Segments.join '/' parts).head? = some c → Text.isSpace c = false ∧ c ≠ '~') ∧
        ∀ c, (Segments.join '/' parts).getLast? = some c → Text.isSpace c = false := by
  have letters : (String.ofList (Segments.join '/' parts)).toList = Segments.join '/' parts := String.toList_ofList
  have split : (Segments.join '/' parts).splitOn '/' = parts :=
    Segments.splitOn_join occupied fun segment member => (names segment member).1
  constructor
  · intro agree
    have untrimmed := resolves_untrimmed agree.resolves
    rw [letters] at untrimmed
    have normal : normalizedPath (String.ofList (Segments.join '/' parts)) = Segments.join '/' parts := by
      apply normalizedPath_eq letters plain
      · intro c here
        rw [← untrimmed] at here
        exact Lines.strip_first here
      · intro c here
        rw [← untrimmed] at here
        exact Lines.strip_last here
    have home := (resolvePath_ok.mp agree.resolves).1
    rw [normal] at home
    refine ⟨fun c here => ⟨?_, ?_⟩, fun c here => ?_⟩
    · rw [← untrimmed] at here
      exact Lines.strip_first here
    · rintro rfl
      exact home here
    · rw [← untrimmed] at here
      exact Lines.strip_last here
  · intro ⟨first, last⟩
    have normal : normalizedPath (String.ofList (Segments.join '/' parts)) = Segments.join '/' parts :=
      normalizedPath_eq letters plain (fun c here => (first c here).1) last
    have segments : pathSegments (Segments.join '/' parts) = parts := by
      refine Segments.named_join occupied (fun segment member => (names segment member).1) fun segment member => ?_
      simp [staysHere, (names segment member).2]
    have relative : (Segments.join '/' parts).head? ≠ some '/' := by
      obtain ⟨segment, rest, rfl⟩ := List.exists_cons_of_ne_nil occupied
      have here := names segment (by simp)
      rw [Segments.head?_join here.2.1]
      intro slash
      exact here.1 (List.mem_of_head? slash)
    have safe : safeParts (String.ofList (Segments.join '/' parts)) = .ok parts := by
      rw [safeParts_ok, normal]
      exact ⟨relative, inside, occupied, segments⟩
    constructor
    · rw [letters, split]
      exact safe
    · rw [letters, split]
      intro segment member
      refine ⟨(names segment member).2.1, (names segment member).2.2, ?_⟩
      rintro rfl
      exact inside member
    · rw [resolvePath_ok, normal]
      exact ⟨fun home => (first _ home).2 rfl, parts, safe, rfl⟩

theorem plainEnds_iff (segments : pathSegments (normalizedPath path) = parts) (occupied : parts ≠ [])
    (filled : ∀ segment ∈ parts, segment ≠ []) : PlainEnds path ↔
      (∀ c, (Segments.join '/' parts).head? = some c → Text.isSpace c = false ∧ c ≠ '~') ∧
        ∀ c, (Segments.join '/' parts).getLast? = some c → Text.isSpace c = false := by
  have first : (Segments.join '/' parts).head? = parts.head?.bind List.head? := by
    obtain ⟨segment, rest, rfl⟩ := List.exists_cons_of_ne_nil occupied
    exact Segments.head?_join (filled segment (by simp))
  have last : (Segments.join '/' parts).getLast? = parts.getLast?.bind List.getLast? := by
    obtain ⟨front, segment, rfl⟩ := List.eq_nil_or_concat'  parts |>.resolve_left occupied
    rw [Segments.getLast?_join (filled segment (by simp)), List.getLast?_concat]
    rfl
  rw [first, last, ← segments]
  exact ⟨fun plain => ⟨plain.first, plain.last⟩, fun ends => ⟨ends.1, ends.2⟩⟩

end Resolved

/-- The tools and the workspaces read a resolved path alike exactly where its ends are plain, and what the workspaces
    refuse the tools refuse. -/
theorem path_rules_agree_iff (path : String) :
    (∀ resolved, resolvePath path = .ok resolved → (RulesAgree resolved ↔ PlainEnds path)) ∧
      ∀ failure, safeParts path = .error failure → ∃ refusal, resolvePath path = .error refusal := by
  constructor
  · intro resolved done
    obtain ⟨-, parts, safe, rfl⟩ := resolvePath_ok.mp done
    obtain ⟨-, inside, occupied, segments⟩ := safeParts_ok.mp safe
    have names : ∀ segment ∈ parts, '/' ∉ segment ∧ segment ≠ [] ∧ segment ≠ ['.'] := by
      rw [← segments]
      exact fun segment member => pathSegments_names member
    have plain : ∀ c ∈ Segments.join '/' parts, c ≠ Text.backslash := by
      intro c member
      rcases Segments.mem_join member with rfl | ⟨segment, listed, inside⟩
      · decide
      · rw [← segments] at listed
        exact normalizedPath_plain c (Segments.mem_of_named listed inside)
    rw [rulesAgree_join occupied inside names plain, plainEnds_iff segments occupied fun segment member =>
      (names segment member).2.1]
  · intro failure refused
    cases done : resolvePath path with
    | error refusal => exact ⟨refusal, rfl⟩
    | ok resolved =>
      obtain ⟨-, parts, safe, -⟩ := resolvePath_ok.mp done
      rw [refused] at safe
      cases safe

theorem nested_path_agrees : RulesAgree "docs/plan.md" := by
  have resolved : resolvePath " ./docs\\.//plan.md" = .ok "docs/plan.md" := by decide +kernel
  have first : (pathSegments (normalizedPath " ./docs\\.//plan.md")).head?.bind List.head? = some 'd' := by decide +kernel
  have last : (pathSegments (normalizedPath " ./docs\\.//plan.md")).getLast?.bind List.getLast? = some 'd' := by decide +kernel
  refine ((path_rules_agree_iff _).1 _ resolved).mpr ⟨?_, ?_⟩
  · rw [first]
    rintro c ⟨⟩
    decide
  · rw [last]
    rintro c ⟨⟩
    decide

/-- A name that begins with a space keeps it for the tools and loses it in the workspace. -/
theorem spaced_name_drifts : ¬ ∀ path resolved, resolvePath path = .ok resolved → RulesAgree resolved := by
  intro agree
  have resolved : resolvePath "./ a" = .ok " a" := by decide +kernel
  have drifted : resolvePath " a" ≠ .ok " a" := by decide +kernel
  exact drifted (agree _ _ resolved).resolves

end DarkFactory
