import DarkFactory.Changes.Records
import DarkFactory.Changes.Text
import DarkFactory.Lib.Outcome
import DarkFactory.Lib.Table

namespace DarkFactory

inductive EffectStatus | planned | inProgress | unknown | succeeded
  deriving DecidableEq, Repr

structure EffectLedgerEntry where
  effectKey : String
  status : EffectStatus := .planned
  externalRef : Option String := none
  deriving DecidableEq, Repr

/-- An effect the external system executed, under the marker it can be searched by. -/
structure ExternalEffect where
  key : String
  reference : String
  deriving DecidableEq, Repr

/-- The ledger as the transaction sees it, the external system, and how many more actions the process lives for. -/
structure EffectWorld where
  ledger : List EffectLedgerEntry := []
  external : List ExternalEffect := []
  left : Option Nat := none
  deriving DecidableEq, Repr

inductive Interruption
  | crashed
  | raised (failure : Failure)
  deriving DecidableEq, Repr

abbrev EffectWork := EStateM Interruption EffectWorld

/-- One statement or call; the process may die before any of them. -/
def act {α : Type} (f : EffectWorld → α × EffectWorld) : EffectWork α := Outcome.perform fun world =>
  match world.left with
  | none => .ok (f world)
  | some 0 => .error .crashed
  | some (left + 1) => .ok (f { world with left := some left })

namespace EffectLedger

def entry (effectKey : String) (ledger : List EffectLedgerEntry) : Option EffectLedgerEntry :=
  Table.find EffectLedgerEntry.effectKey effectKey ledger

def plan (effectKey : String) : EffectWork EffectLedgerEntry := do
  act fun world =>
    ((), { world with ledger := Table.insertNew EffectLedgerEntry.effectKey { effectKey } world.ledger })
  let planned ← act fun world => (entry effectKey world.ledger, world)
  match planned with
  | none => throw (.raised ⟨.stateConflict, s!"effect {Text.repr effectKey} was not planned"⟩)
  | some entry => pure entry

def write (effectKey : String) (f : EffectLedgerEntry → EffectLedgerEntry) : EffectWork Unit :=
  act fun world => ((), { world with ledger := Table.update EffectLedgerEntry.effectKey effectKey f world.ledger })

def markInProgress (effectKey : String) : EffectWork Unit :=
  write effectKey fun entry => { entry with status := .inProgress }

def succeed (effectKey externalRef : String) : EffectWork Unit :=
  write effectKey fun entry => { entry with status := .succeeded, externalRef := some externalRef }

end EffectLedger

def callExternal (effectKey : String) (call : List ExternalEffect → String) : EffectWork String :=
  act fun world => (call world.external,
    { world with external := world.external ++ [{ key := effectKey, reference := call world.external }] })

def ensureEffect (effectKey : String) (lookupExternal : String → List ExternalEffect → Option String)
    (call : List ExternalEffect → String) : EffectWork String := do
  let entry ← EffectLedger.plan effectKey
  match if entry.status = .succeeded then entry.externalRef else none with
  | some externalRef => pure externalRef
  | none =>
    let existing ← act fun world => (lookupExternal effectKey world.external, world)
    match existing with
    | some existing =>
      EffectLedger.succeed effectKey existing
      pure existing
    | none =>
      EffectLedger.markInProgress effectKey
      let externalRef ← callExternal effectKey call
      EffectLedger.succeed effectKey externalRef
      pure externalRef

/-- One call in a transaction of its own, with the actions its process lives for, the commit among them. -/
structure EffectCall where
  effectKey : String
  lookupExternal : String → List ExternalEffect → Option String
  call : List ExternalEffect → String
  left : Option Nat := none

/-- A crash rolls the ledger back, and nothing of the external system. -/
def EffectCall.perform (call : EffectCall) (world : EffectWorld) : Option String × EffectWorld :=
  match ensureEffect call.effectKey call.lookupExternal call.call { world with left := call.left } with
  | .ok externalRef after =>
    (some externalRef, if after.left = some 0 then { after with ledger := world.ledger } else after)
  | .error _ after => (none, { after with ledger := world.ledger })

def afterEffects (world : EffectWorld) (calls : List EffectCall) : EffectWorld :=
  calls.foldl (fun world call => (call.perform world).2) world

/-- The references that the calls on the key returned, also those whose process died before the commit. -/
def returnedRefs (effectKey : String) : EffectWorld → List EffectCall → List String
  | _, [] => []
  | world, call :: rest =>
    (if call.effectKey = effectKey then (call.perform world).1.toList else []) ++
      returnedRefs effectKey (call.perform world).2 rest

def EffectWorld.executed (world : EffectWorld) (effectKey : String) : List ExternalEffect :=
  world.external.filter (·.key = effectKey)

/-- The search returns an effect executed under the key, and finds one whenever there is one. -/
structure FindsExecuted (lookupExternal : String → List ExternalEffect → Option String) : Prop where
  finds : ∀ effectKey effects effect, effect ∈ effects → effect.key = effectKey →
    lookupExternal effectKey effects ≠ none
  executed : ∀ effectKey effects reference, lookupExternal effectKey effects = some reference →
    { key := effectKey, reference } ∈ effects

def Ledgered (effectKey : String) (ledger : List EffectLedgerEntry) (reference : String) : Prop :=
  ∃ entry, EffectLedger.entry effectKey ledger = some entry ∧ entry.status = .succeeded ∧
    entry.externalRef = some reference

section Actions

variable {effectKey : String} {world : EffectWorld} {post : Option String → EffectWorld → Prop}

/-- What holds of the reference returned, if any, and of the world it ends in, returned or interrupted. -/
def Ends (post : Option String → EffectWorld → Prop) (work : EffectWork String) (world : EffectWorld) : Prop :=
  match work world with
  | .ok externalRef after => post (some externalRef) after
  | .error _ after => post none after

/-- After an action the work goes on from what it did, unless the process died before it. -/
theorem ends_act {α : Type} {f : EffectWorld → α × EffectWorld} {rest : α → EffectWork String}
    (died : post none world)
    (lives : ∀ left, Ends post (rest (f { world with left }).1) (f { world with left }).2) :
    Ends post (act f >>= rest) world := by
  obtain ⟨ledger, external, left⟩ := world
  unfold Ends
  match left with
  | none =>
    have ran : act f { ledger, external, left := none } = .ok (f { ledger, external, left := none }).1
      (f { ledger, external, left := none }).2 := rfl
    rw [Outcome.state_bind_eq ran]
    exact lives none
  | some 0 =>
    have crashed : act f { ledger, external, left := some 0 } =
      .error .crashed { ledger, external, left := some 0 } := rfl
    rw [Outcome.state_bind_error crashed]
    exact died
  | some (left + 1) =>
    have ran : act f { ledger, external, left := some (left + 1) } = .ok (f { ledger, external, left := some left }).1
      (f { ledger, external, left := some left }).2 := rfl
    rw [Outcome.state_bind_eq ran]
    exact lives (some left)

end Actions

section Ledger

variable {effectKey other reference : String} {ledger : List EffectLedgerEntry}
  {f : EffectLedgerEntry → EffectLedgerEntry}

theorem planned_ledgered (held : Ledgered effectKey
    (Table.insertNew EffectLedgerEntry.effectKey { effectKey } ledger) reference) :
    Ledgered effectKey ledger reference := by
  obtain ⟨entry, found, succeeded, external⟩ := held
  rcases Table.find_insertNew_some found with present | ⟨-, rfl⟩
  · exact ⟨entry, present, succeeded, external⟩
  · cases succeeded

theorem planned_other (apart : other ≠ effectKey) :
    EffectLedger.entry other (Table.insertNew EffectLedgerEntry.effectKey { effectKey } ledger) =
      EffectLedger.entry other ledger := Table.find_insertNew_other apart

theorem written_other (keeps : ∀ entry, (f entry).effectKey = entry.effectKey) (apart : other ≠ effectKey) :
    EffectLedger.entry other (Table.update EffectLedgerEntry.effectKey effectKey f ledger) =
      EffectLedger.entry other ledger :=
  Table.find_update_other (fun entry here => (keeps entry).trans here) apart

theorem written_ledgered (keeps : ∀ entry, (f entry).effectKey = entry.effectKey)
    (held : Ledgered effectKey (Table.update EffectLedgerEntry.effectKey effectKey f ledger) reference) :
    ∃ entry, (f entry).status = .succeeded ∧ (f entry).externalRef = some reference := by
  obtain ⟨entry, found, succeeded, external⟩ := held
  rw [EffectLedger.entry, Table.find_update_self fun entry here => (keeps entry).trans here] at found
  obtain ⟨old, -, rfl⟩ := Option.map_eq_some_iff.mp found
  exact ⟨old, succeeded, external⟩

end Ledger

/-- What a call does, whenever its process dies: at most one execution, which the search had not found, and no
    reference but one that was recorded, found or executed. -/
structure Happens (call : EffectCall) (before : EffectWorld) (returned : Option String) (after : EffectWorld) :
    Prop where
  others : ∀ other, other ≠ call.effectKey →
    EffectLedger.entry other after.ledger = EffectLedger.entry other before.ledger
  external : after.external = before.external ∨
    ∃ reference, after.external = before.external ++ [{ key := call.effectKey, reference }] ∧
      call.lookupExternal call.effectKey before.external = none
  known : ∀ reference, returned = some reference ∨ Ledgered call.effectKey after.ledger reference →
    Ledgered call.effectKey before.ledger reference ∨
      call.lookupExternal call.effectKey before.external = some reference ∨
      { key := call.effectKey, reference } ∈ after.external

section Steps

variable {call : EffectCall} {before world : EffectWorld} {reference : String}

theorem Happens.written {f : EffectLedgerEntry → EffectLedgerEntry} {left : Option Nat}
    (happens : Happens call before none world) (keeps : ∀ entry, (f entry).effectKey = entry.effectKey)
    (answers : ∀ entry reference, (f entry).status = .succeeded → (f entry).externalRef = some reference →
      call.lookupExternal call.effectKey before.external = some reference ∨
        { key := call.effectKey, reference } ∈ world.external) :
    Happens call before none { world with
      ledger := Table.update EffectLedgerEntry.effectKey call.effectKey f world.ledger, left } := by
  refine ⟨?_, happens.external, ?_⟩
  · intro other apart
    rw [← happens.others other apart]
    exact written_other keeps apart
  · intro reference known
    simp only [reduceCtorEq, false_or] at known
    obtain ⟨entry, succeeded, external⟩ := written_ledgered keeps known
    exact Or.inr (answers entry reference succeeded external)

theorem Happens.returns {returned : Option String} (happens : Happens call before none world)
    (known : ∀ reference, returned = some reference → Ledgered call.effectKey before.ledger reference ∨
      call.lookupExternal call.effectKey before.external = some reference ∨
      { key := call.effectKey, reference } ∈ world.external) : Happens call before returned world := by
  refine ⟨happens.others, happens.external, ?_⟩
  rintro reference (own | ledgered)
  · exact known reference own
  · exact happens.known reference (Or.inr ledgered)

theorem succeed_ends (happens : Happens call before none world)
    (known : call.lookupExternal call.effectKey before.external = some reference ∨
      { key := call.effectKey, reference } ∈ world.external) :
    Ends (Happens call before) (do EffectLedger.succeed call.effectKey reference; pure reference) world := by
  apply ends_act happens
  intro left
  have written : Happens call before none { world with
      ledger := Table.update EffectLedgerEntry.effectKey call.effectKey
        (fun entry => { entry with status := .succeeded, externalRef := some reference }) world.ledger, left } := by
    refine happens.written (fun _ => rfl) ?_
    intro entry other _ external
    rw [← Option.some.inj external]
    exact known
  refine written.returns ?_
  intro other same
  rw [← Option.some.inj same]
  exact Or.inr known

theorem callExternal_ends (happens : Happens call before none world) (same : world.external = before.external)
    (absent : call.lookupExternal call.effectKey before.external = none)
    (unanswered : ∀ reference, ¬ Ledgered call.effectKey world.ledger reference) :
    Ends (Happens call before) (do
      let externalRef ← callExternal call.effectKey call.call
      EffectLedger.succeed call.effectKey externalRef
      pure externalRef) world := by
  apply ends_act happens
  intro left
  refine succeed_ends ⟨happens.others, ?_, ?_⟩ (Or.inr (by simp))
  · exact Or.inr ⟨call.call world.external, by rw [same], absent⟩
  · intro reference known
    simp only [reduceCtorEq, false_or] at known
    exact absurd known (unanswered reference)

end Steps

theorem ensureEffect_happens (call : EffectCall) (world : EffectWorld) :
    Ends (Happens call world) (ensureEffect call.effectKey call.lookupExternal call.call) world := by
  have untouched : Happens call world none world :=
    ⟨fun _ _ => rfl, Or.inl rfl, fun reference known => Or.inl (by simpa using known)⟩
  obtain ⟨planned, plannedEq⟩ : ∃ planned, planned =
    Table.insertNew EffectLedgerEntry.effectKey { effectKey := call.effectKey } world.ledger := ⟨_, rfl⟩
  have answered (reference : String) (held : Ledgered call.effectKey planned reference) :
      Ledgered call.effectKey world.ledger reference := by
    rw [plannedEq] at held
    exact planned_ledgered held
  have inserted (left : Option Nat) : Happens call world none { world with ledger := planned, left } := by
    refine ⟨fun other apart => ?_, Or.inl rfl, fun reference known => Or.inl ?_⟩
    · rw [plannedEq]
      exact planned_other apart
    · exact answered reference (by simpa using known)
  rw [ensureEffect, EffectLedger.plan, bind_assoc]
  apply ends_act untouched
  intro left
  simp only [← plannedEq]
  rw [bind_assoc]
  apply ends_act (inserted left)
  intro left
  dsimp only
  cases found : EffectLedger.entry call.effectKey planned with
  | none => exact inserted left
  | some entry =>
    dsimp only
    rw [pure_bind]
    cases recorded : if entry.status = .succeeded then entry.externalRef else none with
    | some externalRef =>
      refine (inserted left).returns ?_
      intro reference same
      rw [← Option.some.inj same]
      by_cases succeeded : entry.status = .succeeded
      · rw [if_pos succeeded] at recorded
        exact Or.inl (answered externalRef ⟨entry, found, succeeded, recorded⟩)
      · rw [if_neg succeeded] at recorded
        cases recorded
    | none =>
      apply ends_act (inserted left)
      intro left
      dsimp only
      cases searched : call.lookupExternal call.effectKey world.external with
      | some existing => exact succeed_ends (inserted left) (Or.inl searched)
      | none =>
        apply ends_act (inserted left)
        intro left
        refine callExternal_ends ?_ rfl searched ?_
        · exact (inserted left).written (fun _ => rfl) nofun
        · intro reference held
          obtain ⟨_, succeeded, -⟩ := @written_ledgered call.effectKey reference planned
            (fun entry => { entry with status := .inProgress }) (fun _ => rfl) held
          cases succeeded

theorem perform_happens (call : EffectCall) (world : EffectWorld) :
    Happens call world (call.perform world).1 (call.perform world).2 := by
  have ends := ensureEffect_happens call { world with left := call.left }
  unfold Ends at ends
  unfold EffectCall.perform
  have rolledBack {returned : Option String} {after : EffectWorld}
      (happens : Happens call { world with left := call.left } returned after) :
      Happens call world returned { after with ledger := world.ledger } := by
    refine ⟨fun _ _ => rfl, happens.external, ?_⟩
    rintro reference (own | ledgered)
    · exact happens.known reference (Or.inl own)
    · exact Or.inl ledgered
  cases ran : ensureEffect call.effectKey call.lookupExternal call.call { world with left := call.left } with
  | error interruption after =>
    rw [ran] at ends
    exact rolledBack ends
  | ok externalRef after =>
    rw [ran] at ends
    dsimp only at ends ⊢
    split
    · exact rolledBack ends
    · exact ⟨ends.others, ends.external, ends.known⟩

/-- At most one execution under the key, and a ledger that answers with none but it. -/
structure HappenedOnce (effectKey : String) (world : EffectWorld) : Prop where
  once : (world.executed effectKey).length ≤ 1
  ledgered : ∀ reference, Ledgered effectKey world.ledger reference →
    { key := effectKey, reference } ∈ world.external

section Once

variable {effectKey : String} {world : EffectWorld} {call : EffectCall} {calls : List EffectCall}

theorem mem_executed {reference : String} (member : { key := effectKey, reference } ∈ world.external) :
    { key := effectKey, reference } ∈ world.executed effectKey := List.mem_filter.mpr ⟨member, by simp⟩

theorem perform_external (call : EffectCall) (world : EffectWorld) {effect : ExternalEffect}
    (member : effect ∈ world.external) : effect ∈ (call.perform world).2.external := by
  rcases (perform_happens call world).external with same | ⟨reference, grown, -⟩
  · rw [same]
    exact member
  · rw [grown]
    exact List.mem_append_left _ member

theorem perform_once (finds : call.effectKey = effectKey → FindsExecuted call.lookupExternal)
    (happened : HappenedOnce effectKey world) :
    HappenedOnce effectKey (call.perform world).2 ∧
      (call.effectKey = effectKey → ∀ reference, (call.perform world).1 = some reference →
        { key := effectKey, reference } ∈ (call.perform world).2.external) := by
  have happens := perform_happens call world
  have kept {effect : ExternalEffect} := @perform_external call world effect
  generalize call.perform world = performed at happens kept ⊢
  by_cases own : call.effectKey = effectKey
  · subst own
    have found := finds rfl
    have known (reference : String)
        (source : performed.1 = some reference ∨ Ledgered call.effectKey performed.2.ledger reference) :
        { key := call.effectKey, reference } ∈ performed.2.external := by
      rcases happens.known reference source with ledgered | searched | executed
      · exact kept (happened.ledgered reference ledgered)
      · exact kept (found.executed _ _ _ searched)
      · exact executed
    refine ⟨⟨?_, fun reference ledgered => known reference (Or.inr ledgered)⟩,
      fun _ reference returned => known reference (Or.inl returned)⟩
    rcases happens.external with same | ⟨reference, grown, absent⟩
    · rw [EffectWorld.executed, same]
      exact happened.once
    · -- The search came back empty, so that nothing had been executed before.
      have none : world.external.filter (·.key = call.effectKey) = [] := by
        rw [List.filter_eq_nil_iff]
        intro effect member same
        exact found.finds _ _ effect member (of_decide_eq_true same) absent
      rw [EffectWorld.executed, grown, List.filter_append, none]
      simp
  · refine ⟨⟨?_, ?_⟩, fun same => absurd same own⟩
    · rcases happens.external with same | ⟨reference, grown, -⟩
      · rw [EffectWorld.executed, same]
        exact happened.once
      · rw [EffectWorld.executed, grown, List.filter_append]
        simpa [EffectWorld.executed, own] using happened.once
    · rintro reference ⟨entry, held, recorded⟩
      rw [happens.others effectKey (Ne.symm own)] at held
      exact kept (happened.ledgered reference ⟨entry, held, recorded⟩)

theorem effects_once (finds : ∀ call ∈ calls, call.effectKey = effectKey → FindsExecuted call.lookupExternal)
    (happened : HappenedOnce effectKey world) :
    HappenedOnce effectKey (afterEffects world calls) ∧
      (∀ effect ∈ world.external, effect ∈ (afterEffects world calls).external) ∧
      ∀ reference ∈ returnedRefs effectKey world calls,
        { key := effectKey, reference } ∈ (afterEffects world calls).external := by
  induction calls generalizing world with
  | nil => exact ⟨happened, fun _ member => member, nofun⟩
  | cons call rest ih =>
    rw [List.forall_mem_cons] at finds
    obtain ⟨next, returned⟩ := perform_once finds.1 happened
    obtain ⟨final, kept, later⟩ := ih finds.2 next
    refine ⟨final, fun effect member => kept effect (perform_external call world member), ?_⟩
    intro reference listed
    rcases List.mem_append.mp listed with first | rest
    · by_cases own : call.effectKey = effectKey
      · rw [if_pos own, Option.mem_toList] at first
        exact kept _ (returned own reference first)
      · rw [if_neg own] at first
        cases first
    · exact later reference rest

/-- External effects happen at most once per key: whenever the processes die, the external call is executed at most
    once under the key, and all calls that return give the same reference. -/
theorem effect_happens_once {effectKey : String} {world : EffectWorld} {calls : List EffectCall}
    (unexecuted : world.executed effectKey = []) (unrecorded : ∀ reference, ¬ Ledgered effectKey world.ledger reference)
    (finds : ∀ call ∈ calls, call.effectKey = effectKey → FindsExecuted call.lookupExternal) :
    ((afterEffects world calls).executed effectKey).length ≤ 1 ∧
      ∀ first ∈ returnedRefs effectKey world calls, ∀ second ∈ returnedRefs effectKey world calls, first = second := by
  have start : HappenedOnce effectKey world :=
    ⟨by simp [unexecuted], fun reference held => absurd held (unrecorded reference)⟩
  obtain ⟨final, -, returned⟩ := effects_once finds start
  refine ⟨final.once, ?_⟩
  intro first firstListed second secondListed
  have one := mem_executed (returned first firstListed)
  have other := mem_executed (returned second secondListed)
  obtain ⟨effect, only⟩ := List.length_eq_one_iff.mp (Nat.le_antisymm final.once (List.length_pos_of_mem one))
  rw [only, List.mem_singleton] at one other
  exact (ExternalEffect.mk.inj (one.trans other.symm)).2

end Once

def firstExecuted (effectKey : String) (effects : List ExternalEffect) : Option String :=
  (effects.find? (·.key = effectKey)).map (·.reference)

theorem firstExecuted_finds : FindsExecuted firstExecuted := by
  constructor
  · intro effectKey effects effect member same
    simp only [firstExecuted, ne_eq, Option.map_eq_none_iff, List.find?_eq_none, decide_eq_true_eq, not_forall]
    exact ⟨effect, member, not_not.mpr same⟩
  · intro effectKey effects reference found
    obtain ⟨effect, located, rfl⟩ := Option.map_eq_some_iff.mp found
    have same : effect.key = effectKey := by simpa using List.find?_some located
    rw [← same]
    exact List.mem_of_find?_eq_some located

def markedCall (left : Option Nat) : EffectCall :=
  { effectKey := "effect-1", lookupExternal := firstExecuted, left
    call := fun effects => "reference-" ++ toString effects.length }

/-- One process dies after the call, the next after it found the effect, and two get through. -/
def crashingCalls : List EffectCall := [markedCall (some 5), markedCall (some 4), markedCall none, markedCall none]

theorem crashing_calls_agree :
    returnedRefs "effect-1" {} crashingCalls = ["reference-0", "reference-0", "reference-0"] ∧
    ((afterEffects {} crashingCalls).executed "effect-1").length ≤ 1 ∧
    ∀ first ∈ returnedRefs "effect-1" {} crashingCalls, ∀ second ∈ returnedRefs "effect-1" {} crashingCalls,
      first = second := by
  refine ⟨by decide +kernel, ?_⟩
  apply effect_happens_once
  · rfl
  · rintro reference ⟨entry, held, -⟩
    cases held
  · intro call listed _
    simp only [crashingCalls, markedCall, List.mem_cons, List.not_mem_nil, or_false] at listed
    rcases listed with rfl | rfl | rfl | rfl <;> exact firstExecuted_finds

end DarkFactory
