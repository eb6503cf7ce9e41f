import Mathlib.Tactic.Common

/-! Runs of a deterministic machine whose inputs meet a condition in the state they arrive in. -/

namespace Trace

variable {σ ι : Type} (next : σ → ι → σ) (condition : σ → ι → Prop)

def Along : σ → List ι → Prop
  | _, [] => True
  | s, input :: rest => condition s input ∧ Along (next s input) rest

instance [each : ∀ s input, Decidable (condition s input)] : ∀ s inputs, Decidable (Along next condition s inputs)
  | _, [] => .isTrue trivial
  | s, input :: rest =>
    match each s input, instDecidableAlong (next s input) rest with
    | .isTrue met, .isTrue later => .isTrue ⟨met, later⟩
    | .isFalse broken, _ => .isFalse fun along => broken along.1
    | _, .isFalse broken => .isFalse fun along => broken along.2

variable {next condition}

theorem along_append {s : σ} {first second : List ι} :
    Along next condition s (first ++ second) ↔
      Along next condition s first ∧ Along next condition (first.foldl next s) second := by
  induction first generalizing s with
  | nil => simp [Along]
  | cons input rest ih => simp [Along, ih, and_assoc]

/-- What holds at the start and survives every admitted step holds after the run. -/
theorem invariant {holds : σ → Prop} {s : σ} {inputs : List ι}
    (step : ∀ s input, holds s → condition s input → holds (next s input))
    (start : holds s) (along : Along next condition s inputs) : holds (inputs.foldl next s) := by
  induction inputs generalizing s with
  | nil => exact start
  | cons input rest ih => exact ih (step s input start along.1) along.2

/-- The run up to an input, and the condition the input met there. -/
theorem along_at {s : σ} {before after : List ι} {input : ι}
    (along : Along next condition s (before ++ input :: after)) :
    Along next condition s before ∧ condition (before.foldl next s) input := by
  obtain ⟨first, second⟩ := along_append.mp along
  exact ⟨first, second.1⟩

theorem along_iff_at {s : σ} {inputs : List ι} : Along next condition s inputs ↔
    ∀ before input after, inputs = before ++ input :: after → condition (before.foldl next s) input := by
  constructor
  · rintro along before input after rfl
    exact (along_at along).2
  · intro each
    induction inputs generalizing s with
    | nil => trivial
    | cons input rest ih =>
      refine ⟨each [] input rest rfl, ih ?_⟩
      intro before later after split
      exact each (input :: before) later after (by simp [split])

theorem Along.mono {weaker : σ → ι → Prop} {s : σ} {inputs : List ι}
    (implies : ∀ s input, condition s input → weaker s input) (along : Along next condition s inputs) :
    Along next weaker s inputs := by
  induction inputs generalizing s with
  | nil => trivial
  | cons input rest ih => exact ⟨implies s input along.1, ih along.2⟩

/-- Two conditions that agree wherever an invariant holds, which each admitted step keeps, admit the same runs. -/
theorem along_congr_under {kept : σ → Prop} {other : σ → ι → Prop} {s : σ} {inputs : List ι}
    (keeps : ∀ s input, kept s → condition s input → kept (next s input))
    (same : ∀ s input, kept s → (condition s input ↔ other s input)) (start : kept s) :
    Along next condition s inputs ↔ Along next other s inputs := by
  induction inputs generalizing s with
  | nil => exact Iff.rfl
  | cons input rest ih =>
    unfold Along
    rw [← same s input start]
    exact and_congr_right fun met => ih (keeps s input start met)

theorem along_of_forall {s : σ} {inputs : List ι} (always : ∀ input ∈ inputs, ∀ s, condition s input) :
    Along next condition s inputs := by
  induction inputs generalizing s with
  | nil => trivial
  | cons input rest ih =>
    rw [List.forall_mem_cons] at always
    exact ⟨always.1 s, ih always.2⟩

/-- Where the condition is exactly what lets a step keep the property, a run meets it throughout exactly when the
    property holds in every state reached. An invariant may help, which a step keeps as long as the property holds. -/
theorem along_iff_under {kept holds : σ → Prop} {s : σ} {inputs : List ι}
    (keeps : ∀ s input, kept s → holds s → kept (next s input))
    (step : ∀ s input, kept s → holds s → (holds (next s input) ↔ condition s input))
    (startKept : kept s) (start : holds s) :
    Along next condition s inputs ↔ ∀ before after, inputs = before ++ after → holds (before.foldl next s) := by
  constructor
  · rintro along before after rfl
    have both (s : σ) (input : ι) (holding : kept s ∧ holds s) (met : condition s input) :
        kept (next s input) ∧ holds (next s input) :=
      ⟨keeps s input holding.1 holding.2, (step s input holding.1 holding.2).mpr met⟩
    exact (invariant both ⟨startKept, start⟩ (along_append.mp along).1).2
  · intro reached
    induction inputs generalizing s with
    | nil => trivial
    | cons input rest ih =>
      have held : holds (next s input) := reached [input] rest rfl
      refine ⟨(step s input startKept start).mp held, ih (keeps s input startKept start) held ?_⟩
      intro before after split
      exact reached (input :: before) after (by simp [split])

/-- A property that no step restores holds after a run exactly when it held at first and every step met the condition
    under which the step keeps it. -/
theorem holds_after_iff {kept holds : σ → Prop} {s : σ} {inputs : List ι}
    (keeps : ∀ s, ∀ input ∈ inputs, kept s → kept (next s input))
    (step : ∀ s, ∀ input ∈ inputs, kept s → (holds (next s input) ↔ holds s ∧ condition s input)) (start : kept s) :
    holds (inputs.foldl next s) ↔ holds s ∧ Along next condition s inputs := by
  induction inputs generalizing s with
  | nil => simp [Along]
  | cons input rest ih =>
    have later := ih (fun s other member => keeps s other (List.mem_cons_of_mem _ member))
      (fun s other member => step s other (List.mem_cons_of_mem _ member)) (keeps s input (by simp) start)
    rw [List.foldl_cons, later, step s input (by simp) start, Along, and_assoc]

theorem along_iff {holds : σ → Prop} {s : σ} {inputs : List ι}
    (step : ∀ s input, holds s → (holds (next s input) ↔ condition s input)) (start : holds s) :
    Along next condition s inputs ↔ ∀ before after, inputs = before ++ after → holds (before.foldl next s) :=
  @along_iff_under σ ι next condition (fun _ => True) holds s inputs (fun _ _ _ _ => trivial)
    (fun s input _ => step s input) trivial start

end Trace
