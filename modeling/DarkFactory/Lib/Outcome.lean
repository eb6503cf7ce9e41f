import Mathlib.Tactic.Common

namespace Outcome

variable {ε σ α β : Type}

theorem bind_ok {x : Except ε α} {f : α → Except ε β} {b : β} :
    (x >>= f) = .ok b ↔ ∃ a, x = .ok a ∧ f a = .ok b := by
  cases x <;> simp [Bind.bind, Except.bind]

theorem bind_error {x : Except ε α} {f : α → Except ε β} {e : ε} :
    (x >>= f) = .error e ↔ x = .error e ∨ ∃ a, x = .ok a ∧ f a = .error e := by
  cases x <;> simp [Bind.bind, Except.bind]

theorem pure_ok {a b : α} : (pure a : Except ε α) = .ok b ↔ a = b := by
  simp [Pure.pure, Except.pure]

theorem mapM_ok {f : α → Except ε β} {items : List α} (each : ∀ item ∈ items, ∃ b, f item = .ok b) :
    ∃ values, items.mapM f = .ok values ∧ values.length = items.length ∧
      ∀ value ∈ values, ∃ item ∈ items, f item = .ok value := by
  induction items with
  | nil => exact ⟨[], rfl, rfl, by simp⟩
  | cons head tail ih =>
    obtain ⟨first, made⟩ := each head (by simp)
    obtain ⟨rest, mapped, length, origin⟩ := ih fun item member => each item (by simp [member])
    refine ⟨first :: rest, ?_, by simp [length], ?_⟩
    · simp [List.mapM_cons, made, mapped, Bind.bind, Except.bind, Pure.pure, Except.pure]
    · intro value member
      rcases List.mem_cons.mp member with rfl | later
      · exact ⟨head, by simp, made⟩
      · obtain ⟨item, present, same⟩ := origin value later
        exact ⟨item, by simp [present], same⟩

theorem mapM_each {f : α → Except ε β} {items : List α} {values : List β} (mapped : items.mapM f = .ok values) :
    ∀ item ∈ items, ∃ b, f item = .ok b := by
  induction items generalizing values with
  | nil => simp
  | cons head tail ih =>
    rw [List.mapM_cons, bind_ok] at mapped
    obtain ⟨first, made, rest⟩ := mapped
    obtain ⟨others, made', -⟩ := bind_ok.mp rest
    intro item member
    rcases List.mem_cons.mp member with rfl | later
    · exact ⟨first, made⟩
    · exact ih made' item later

theorem mapM_origin {f : α → Except ε β} {items : List α} {values : List β} (mapped : items.mapM f = .ok values) :
    ∀ value ∈ values, ∃ item ∈ items, f item = .ok value := by
  have each := mapM_each mapped
  obtain ⟨values', again, -, origin⟩ := mapM_ok each
  rw [mapped, Except.ok.injEq] at again
  rw [again]
  exact origin

theorem mapM_cons_ok {f : α → Except ε β} {head : α} {tail : List α} {values : List β}
    (mapped : (head :: tail).mapM f = .ok values) :
    ∃ first rest, f head = .ok first ∧ tail.mapM f = .ok rest ∧ values = first :: rest := by
  rw [List.mapM_cons] at mapped
  obtain ⟨first, made, mapped⟩ := bind_ok.mp mapped
  obtain ⟨rest, others, mapped⟩ := bind_ok.mp mapped
  exact ⟨first, rest, made, others, (pure_ok.mp mapped).symm⟩

theorem mapM_image {f : α → Except ε β} {items : List α} {values : List β} (mapped : items.mapM f = .ok values)
    {item : α} {value : β} (member : item ∈ items) (made : f item = .ok value) : value ∈ values := by
  induction items generalizing values with
  | nil => cases member
  | cons head tail ih =>
    obtain ⟨first, rest, here, others, rfl⟩ := mapM_cons_ok mapped
    rcases List.mem_cons.mp member with rfl | later
    · rw [here, Except.ok.injEq] at made
      simp [made]
    · exact List.mem_cons_of_mem _ (ih others later)

theorem mapM_pairwise {f : α → Except ε β} {r : α → α → Prop} {s : β → β → Prop} {items : List α} {values : List β}
    (mapped : items.mapM f = .ok values) (sorted : items.Pairwise r)
    (carries : ∀ a b x y, f a = .ok x → f b = .ok y → r a b → s x y) : values.Pairwise s := by
  induction items generalizing values with
  | nil =>
    rw [List.mapM_nil, pure_ok] at mapped
    rw [← mapped]
    exact List.Pairwise.nil
  | cons head tail ih =>
    obtain ⟨first, rest, here, others, rfl⟩ := mapM_cons_ok mapped
    rw [List.pairwise_cons] at sorted
    refine List.pairwise_cons.mpr ⟨fun value member => ?_, ih others sorted.2⟩
    obtain ⟨item, present, made⟩ := mapM_origin others value member
    exact carries head item first value here made (sorted.1 item present)

/-- Where it depends on the item alone whether a step succeeds, a fold succeeds when all its items do. -/
theorem foldlM_ok_iff {step : σ → α → Except ε σ} {fits : α → Prop} {items : List α} {s : σ}
    (each : ∀ s item, (∃ t, step s item = .ok t) ↔ fits item) :
    (∃ t, items.foldlM step s = .ok t) ↔ ∀ item ∈ items, fits item := by
  induction items generalizing s with
  | nil => exact iff_of_true ⟨s, rfl⟩ (by simp)
  | cons head tail ih =>
    simp only [List.foldlM_cons, bind_ok, List.forall_mem_cons, ← each s head]
    constructor
    · rintro ⟨t, next, here, rest⟩
      exact ⟨⟨next, here⟩, ih.mp ⟨t, rest⟩⟩
    · rintro ⟨⟨next, here⟩, others⟩
      obtain ⟨t, rest⟩ := (ih (s := next)).mpr others
      exact ⟨t, next, here, rest⟩

theorem map_ok {x : Except ε α} {f : α → β} {b : β} : (f <$> x) = .ok b ↔ ∃ a, x = .ok a ∧ f a = b := by
  cases x <;> simp [Functor.map, Except.map]

/-- The success of a computation over a mutable object fixes what its first half returned and
    left behind. -/
theorem state_bind_ok {x : EStateM ε σ α} {f : α → EStateM ε σ β} {s t : σ} {b : β} :
    (x >>= f) s = .ok b t ↔ ∃ a u, x s = .ok a u ∧ f a u = .ok b t := by
  change EStateM.bind x f s = .ok b t ↔ _
  unfold EStateM.bind
  cases x s <;> simp

theorem state_pure_ok {a b : α} {s t : σ} :
    (pure a : EStateM ε σ α) s = .ok b t ↔ a = b ∧ s = t := by
  simp [Pure.pure, EStateM.pure]

theorem state_throw_ok {e : ε} {b : α} {s t : σ} :
    (throw e : EStateM ε σ α) s = .ok b t ↔ False := by
  show EStateM.Result.error e s = .ok b t ↔ False
  simp

theorem state_modify_ok {f : σ → σ} {s t : σ} {b : PUnit} :
    (modify f : EStateM ε σ PUnit) s = .ok b t ↔ t = f s := by
  show EStateM.Result.ok PUnit.unit (f s) = .ok b t ↔ t = f s
  simp [eq_comm]

def perform (f : σ → Except ε (α × σ)) : EStateM ε σ α := fun s =>
  match f s with
  | .ok (a, t) => .ok a t
  | .error e => .error e s

theorem perform_ok {f : σ → Except ε (α × σ)} {s t : σ} {a : α} :
    perform f s = .ok a t ↔ f s = .ok (a, t) := by
  unfold perform
  cases f s <;> simp [Prod.ext_iff]

def lift (x : Except ε α) : EStateM ε σ α := fun s =>
  match x with
  | .ok a => .ok a s
  | .error e => .error e s

theorem lift_ok {x : Except ε α} {s t : σ} {a : α} : lift x s = .ok a t ↔ x = .ok a ∧ s = t := by
  unfold lift
  cases x <;> simp

theorem state_bind_eq {x : EStateM ε σ α} {f : α → EStateM ε σ β} {s t : σ} {a : α}
    (first : x s = .ok a t) : (x >>= f) s = f a t := by
  change EStateM.bind x f s = _
  simp [EStateM.bind, first]

theorem state_bind_error {x : EStateM ε σ α} {f : α → EStateM ε σ β} {s t : σ} {e : ε}
    (first : x s = .error e t) : (x >>= f) s = .error e t := by
  change EStateM.bind x f s = _
  simp [EStateM.bind, first]

theorem state_get_bind {f : σ → EStateM ε σ β} {s : σ} : (get >>= f) s = f s s := rfl

theorem state_modify_bind {g : σ → σ} {f : PUnit → EStateM ε σ β} {s : σ} :
    (modify g >>= f) s = f ⟨⟩ (g s) := rfl

/-- `try … except`: an expected failure is returned and what was written before it stays. -/
def caught (expected : ε → Bool) (x : EStateM ε σ α) : EStateM ε σ (Except ε α) := fun s =>
  match x s with
  | .ok a t => .ok (.ok a) t
  | .error e t => if expected e then .ok (.error e) t else .error e t

theorem caught_ok {expected : ε → Bool} {x : EStateM ε σ α} {s t : σ} {a : α} :
    caught expected x s = .ok (.ok a) t ↔ x s = .ok a t := by
  unfold caught
  cases x s with
  | ok value after => simp
  | error failure after => by_cases known : expected failure = true <;> simp [known]

theorem caught_expected {expected : ε → Bool} {x : EStateM ε σ α} {s t : σ} {e : ε} (failed : x s = .error e t)
    (known : expected e = true) : caught expected x s = .ok (.error e) t := by
  unfold caught
  rw [failed]
  simp [known]

theorem caught_error {expected : ε → Bool} {f : σ → Except ε (α × σ)} {s t : σ} {e : ε}
    (failed : caught expected (perform f) s = .ok (.error e) t) : t = s := by
  unfold caught perform at failed
  cases computed : f s with
  | ok made => simp [computed] at failed
  | error failure =>
    simp only [computed] at failed
    split at failed
    · cases failed
      rfl
    · cases failed

def succeeds (x : EStateM ε σ α) (s : σ) : Bool :=
  match x s with
  | .ok _ _ => true
  | .error _ _ => false

theorem succeeds_iff {x : EStateM ε σ α} {s : σ} : succeeds x s = true ↔ ∃ a t, x s = .ok a t := by
  unfold succeeds
  cases x s <;> simp

/-- A loop over the items, that ends with the first failure. -/
def forEach (f : β → EStateM ε σ Unit) : List β → EStateM ε σ Unit
  | [] => pure ()
  | item :: rest => f item >>= fun _ => forEach f rest

/-- Whether it returns or raises, the computation moves the object along the relation. -/
def Within (along : σ → σ → Prop) (x : EStateM ε σ α) : Prop := ∀ s,
  match x s with
  | .ok _ t => along s t
  | .error _ t => along s t

section Within

variable {along : σ → σ → Prop}

theorem within_pure (refl : ∀ s, along s s) (a : α) : Within along (pure a : EStateM ε σ α) := fun s => refl s

theorem within_throw (refl : ∀ s, along s s) (e : ε) : Within along (throw e : EStateM ε σ α) := fun s => refl s

theorem within_get (refl : ∀ s, along s s) : Within along (get : EStateM ε σ σ) := fun s => refl s

theorem within_modify {f : σ → σ} (steps : ∀ s, along s (f s)) : Within along (modify f : EStateM ε σ PUnit) :=
  fun s => steps s

theorem within_lift (refl : ∀ s, along s s) (x : Except ε α) : Within along (lift x) := by
  intro s
  cases x <;> exact refl s

theorem within_perform {f : σ → Except ε (α × σ)} (refl : ∀ s, along s s)
    (steps : ∀ s a t, f s = .ok (a, t) → along s t) : Within along (perform f) := by
  intro s
  unfold perform
  cases computed : f s with
  | ok made => exact steps s made.1 made.2 computed
  | error failure => exact refl s

theorem within_bind {x : EStateM ε σ α} {f : α → EStateM ε σ β} (trans : ∀ {s t u}, along s t → along t u → along s u)
    (first : Within along x) (second : ∀ a, Within along (f a)) : Within along (x >>= f) := by
  intro s
  have start := first s
  cases ran : x s with
  | error failure t =>
    rw [state_bind_error ran]
    rw [ran] at start
    exact start
  | ok a t =>
    rw [state_bind_eq ran]
    rw [ran] at start
    have rest := second a t
    cases ended : f a t with
    | ok b u =>
      rw [ended] at rest
      exact trans start rest
    | error failure u =>
      rw [ended] at rest
      exact trans start rest

theorem within_forEach {f : β → EStateM ε σ Unit} (refl : ∀ s, along s s)
    (trans : ∀ {s t u}, along s t → along t u → along s u) (each : ∀ item, Within along (f item)) (items : List β) :
    Within along (forEach f items) := by
  induction items with
  | nil => exact within_pure refl ()
  | cons head tail ih => exact within_bind trans (each head) fun _ => ih

theorem Within.ok {x : EStateM ε σ α} {s t : σ} {a : α} (within : Within along x) (ran : x s = .ok a t) : along s t := by
  have moved := within s
  rw [ran] at moved
  exact moved

theorem Within.error {x : EStateM ε σ α} {s t : σ} {e : ε} (within : Within along x) (ran : x s = .error e t) :
    along s t := by
  have moved := within s
  rw [ran] at moved
  exact moved

end Within

/-- Where it raises, the computation has moved the object along the relation. -/
def FailsWithin (along : σ → σ → Prop) (x : EStateM ε σ α) : Prop := ∀ s e t, x s = .error e t → along s t

section FailsWithin

variable {along : σ → σ → Prop}

theorem Within.fails {x : EStateM ε σ α} (within : Within along x) : FailsWithin along x := fun _ _ _ ran => within.error ran

theorem fails_perform {f : σ → Except ε (α × σ)} (refl : ∀ s, along s s) : FailsWithin along (perform f) := by
  intro s e t ran
  unfold perform at ran
  cases computed : f s with
  | ok made => simp [computed] at ran
  | error failure =>
    simp only [computed] at ran
    cases ran
    exact refl s

theorem fails_bind {x : EStateM ε σ α} {f : α → EStateM ε σ β} (trans : ∀ {s t u}, along s t → along t u → along s u)
    (first : Within along x) (second : ∀ a, FailsWithin along (f a)) : FailsWithin along (x >>= f) := by
  intro s e t ran
  cases started : x s with
  | error failure u =>
    rw [state_bind_error started] at ran
    cases ran
    exact first.error started
  | ok a u =>
    rw [state_bind_eq started] at ran
    exact trans (first.ok started) (second a u e t ran)

end FailsWithin

section ForEach

variable {f : β → EStateM ε σ Unit} {s t : σ} {e : ε} {head : β} {items front back : List β}

theorem state_bind_failed {x : EStateM ε σ α} {g : α → EStateM ε σ β} :
    (x >>= g) s = .error e t ↔ x s = .error e t ∨ ∃ a u, x s = .ok a u ∧ g a u = .error e t := by
  change EStateM.bind x g s = .error e t ↔ _
  unfold EStateM.bind
  cases x s <;> simp

theorem forEach_nil_ok : forEach f [] s = .ok () t ↔ s = t :=
  state_pure_ok.trans (and_iff_right rfl)

theorem forEach_cons_ok :
    forEach f (head :: items) s = .ok () t ↔ ∃ u, f head s = .ok () u ∧ forEach f items u = .ok () t :=
  state_bind_ok.trans ⟨fun ⟨_, u, first, rest⟩ => ⟨u, first, rest⟩, fun ⟨u, first, rest⟩ => ⟨(), u, first, rest⟩⟩

theorem forEach_append_ok :
    forEach f (front ++ back) s = .ok () t ↔ ∃ u, forEach f front s = .ok () u ∧ forEach f back u = .ok () t := by
  induction front generalizing s with
  | nil => simp only [List.nil_append, forEach_nil_ok, exists_eq_left']
  | cons head rest ih =>
    simp only [List.cons_append, forEach_cons_ok, ih]
    constructor
    · rintro ⟨middle, first, u, others, last⟩
      exact ⟨u, ⟨middle, first, others⟩, last⟩
    · rintro ⟨u, ⟨middle, first, others⟩, last⟩
      exact ⟨middle, first, u, others, last⟩

/-- A run that fails does so at one item, after those before it went through. -/
theorem forEach_error (failed : forEach f items s = .error e t) :
    ∃ earlier item later u, items = earlier ++ item :: later ∧ forEach f earlier s = .ok () u ∧ f item u = .error e t := by
  induction items generalizing s with
  | nil => cases failed
  | cons head rest ih =>
    rcases state_bind_failed.mp failed with first | ⟨_, u, first, others⟩
    · exact ⟨[], head, rest, s, rfl, rfl, first⟩
    · obtain ⟨earlier, item, later, middle, rfl, passed, here⟩ := ih others
      exact ⟨head :: earlier, item, later, middle, rfl, forEach_cons_ok.mpr ⟨u, first, passed⟩, here⟩

end ForEach

end Outcome
