import DarkFactory.Lib.Table
import Mathlib.Algebra.BigOperators.Group.List.Basic
import Mathlib.Algebra.Group.Hom.Defs
import Mathlib.Data.List.Induction
import Mathlib.Data.List.Nodup

/-! Amounts held for owners: an estimate counts until the actual amount is known, which then takes its place. Amounts are
    added one after the other, as an addition that rounds is neither associative nor commutative. -/

structure Hold (κ ω α : Type) where
  id : κ
  owner : ω
  estimate : α
  actual : Option α := none

namespace Holds

variable {κ ω α : Type} [DecidableEq κ] [DecidableEq ω] [AddZeroClass α]

def total (amounts : List α) : α := amounts.foldl (· + ·) 0

def counted (hold : Hold κ ω α) : α := hold.actual.getD hold.estimate

def isOpen (hold : Hold κ ω α) : Bool := hold.actual.isNone

def owned (owner : ω) (holds : List (Hold κ ω α)) : List (Hold κ ω α) := holds.filter fun hold => hold.owner = owner

def spent (holds : List (Hold κ ω α)) : α := total (holds.filterMap Hold.actual)

def reserved (holds : List (Hold κ ω α)) : α := total ((holds.filter isOpen).map Hold.estimate)

def place (hold : Hold κ ω α) (holds : List (Hold κ ω α)) : List (Hold κ ω α) := Table.insertNew Hold.id hold holds

def charge (id : κ) (amount : α) (holds : List (Hold κ ω α)) : List (Hold κ ω α) :=
  Table.update Hold.id id (fun hold => { hold with actual := hold.actual.or (some amount) }) holds

/-- Of the holds of each owner the last one at most is open. -/
def Queued (holds : List (Hold κ ω α)) : Prop :=
  ∀ owner, ∃ settled waiting : List (Hold κ ω α), owned owner holds = settled ++ waiting ∧
    (∀ hold ∈ settled, hold.actual.isSome) ∧ (∀ hold ∈ waiting, hold.actual = none) ∧ waiting.length ≤ 1

section Totals

variable {holds : List (Hold κ ω α)} {owner : ω}

theorem total_snoc (amounts : List α) (amount : α) : total (amounts ++ [amount]) = total amounts + amount :=
  List.foldl_append

omit [DecidableEq κ] [DecidableEq ω] [AddZeroClass α] in
theorem filterMap_settled {settled : List (Hold κ ω α)} (known : ∀ hold ∈ settled, hold.actual.isSome) :
    settled.filterMap Hold.actual = settled.map counted := by
  induction settled with
  | nil => rfl
  | cons hold rest ih =>
    obtain ⟨amount, actual⟩ := Option.isSome_iff_exists.mp (known hold List.mem_cons_self)
    rw [List.filterMap_cons_some actual, List.map_cons, counted, actual,
      ih fun other member => known other (List.mem_cons_of_mem _ member)]
    rfl

omit [DecidableEq κ] [DecidableEq ω] [AddZeroClass α] in
theorem filter_settled {settled : List (Hold κ ω α)} (known : ∀ hold ∈ settled, hold.actual.isSome) :
    settled.filter isOpen = [] := by
  refine List.filter_eq_nil_iff.mpr fun hold member => ?_
  rw [isOpen, Option.isNone_iff_eq_none, ← ne_eq, Option.ne_none_iff_isSome]
  exact known hold member

omit [DecidableEq κ] in
/-- Each hold of an owner counts once: by what it cost, or by its estimate while it is open. -/
theorem Queued.counted_total (queued : Queued holds) (owner : ω) :
    total ((owned owner holds).map counted) = spent (owned owner holds) + reserved (owned owner holds) := by
  obtain ⟨settled, waiting, split, known, unknown, one⟩ := queued owner
  rw [split, spent, reserved, List.filterMap_append, List.filter_append, List.map_append, filterMap_settled known,
    filter_settled known]
  match waiting with
  | [] =>
    simp only [List.map_nil, List.append_nil, List.filterMap_nil, List.filter_nil]
    exact (add_zero _).symm
  | [hold] =>
    have open_ : hold.actual = none := unknown hold List.mem_cons_self
    have estimate : total [hold.estimate] = hold.estimate := zero_add _
    simp [counted, isOpen, open_, total_snoc, estimate]
  | _ :: _ :: _ => simp at one

end Totals

section Steps

variable {holds : List (Hold κ ω α)} {hold : Hold κ ω α} {owner : ω} {id : κ} {amount : α}

theorem spent_place (unknown : hold.actual = none) : spent (owned owner (place hold holds)) = spent (owned owner holds) := by
  unfold place Table.insertNew
  cases Table.find Hold.id hold.id holds with
  | some present => rfl
  | none => by_cases own : hold.owner = owner <;> simp [owned, spent, own, unknown]

omit [AddZeroClass α] in
theorem owned_charge : owned owner (charge id amount holds) = charge id amount (owned owner holds) := by
  have blind : (fun hold : Hold κ ω α => decide (hold.owner = owner)) ∘
      (fun hold => if hold.id = id then { hold with actual := hold.actual.or (some amount) } else hold) =
        fun hold => decide (hold.owner = owner) := by
    funext hold
    by_cases here : hold.id = id <;> simp [here]
  rw [owned, charge, Table.update, List.filter_map, blind]
  rfl

omit [DecidableEq ω] [AddZeroClass α] in
theorem charge_known (known : ∀ hold ∈ holds, hold.id = id → hold.actual.isSome) : charge id amount holds = holds := by
  have same : ∀ hold ∈ holds,
      (if hold.id = id then { hold with actual := hold.actual.or (some amount) } else hold) = hold := by
    intro hold member
    by_cases here : hold.id = id
    · obtain ⟨amount, said⟩ := Option.isSome_iff_exists.mp (known hold member here)
      rw [if_pos here, said, Option.some_or, ← said]
    · exact if_neg here
  calc charge id amount holds = holds.map fun hold => hold := List.map_congr_left same
    _ = holds := List.map_id' _

omit [DecidableEq κ] [AddZeroClass α] in
theorem Queued.last (queued : Queued holds) (member : hold ∈ holds) (unknown : hold.actual = none) :
    ∃ settled, owned hold.owner holds = settled ++ [hold] ∧ ∀ other ∈ settled, other.actual.isSome := by
  obtain ⟨settled, waiting, split, known, -, one⟩ := queued hold.owner
  have listed : hold ∈ settled ++ waiting := split ▸ List.mem_filter.mpr ⟨member, by simp⟩
  have here : hold ∈ waiting := by
    refine (List.mem_append.mp listed).resolve_left fun done => ?_
    have said := known hold done
    rw [unknown] at said
    cases said
  match waiting with
  | [] => cases here
  | [other] =>
    obtain rfl := List.mem_singleton.mp here
    exact ⟨settled, split, known⟩
  | _ :: _ :: _ => simp at one

omit [AddZeroClass α] in
theorem Queued.owned_charged (queued : Queued holds) (member : hold ∈ holds) (unknown : hold.actual = none) :
    ∃ settled, owned hold.owner holds = settled ++ [hold] ∧ (∀ other ∈ settled, other.actual.isSome) ∧
      owned hold.owner (charge hold.id amount holds) = settled ++ [{ hold with actual := some amount }] := by
  obtain ⟨settled, split, known⟩ := queued.last member unknown
  have kept : charge hold.id amount settled = settled := charge_known fun other listed _ => known other listed
  have last : charge hold.id amount [hold] = [{ hold with actual := some amount }] := by
    simp [charge, Table.update, unknown]
  refine ⟨settled, split, known, ?_⟩
  rw [owned_charge, split]
  show Table.update Hold.id hold.id _ (settled ++ [hold]) = _
  rw [Table.update, List.map_append]
  exact congrArg₂ (· ++ ·) kept last

omit [AddZeroClass α] in
theorem owned_charge_other (unique : Table.Unique Hold.id holds) (member : hold ∈ holds) (other : hold.owner ≠ owner) :
    owned owner (charge hold.id amount holds) = owned owner holds := by
  rw [owned_charge]
  refine charge_known fun item listed same => absurd ?_ other
  obtain ⟨there, own⟩ := List.mem_filter.mp listed
  rw [← unique.eq there member same]
  exact of_decide_eq_true own

theorem Queued.spent_charge (queued : Queued holds) (unique : Table.Unique Hold.id holds) (member : hold ∈ holds)
    (unknown : hold.actual = none) : spent (owned owner (charge hold.id amount holds)) =
      if hold.owner = owner then spent (owned owner holds) + amount else spent (owned owner holds) := by
  by_cases own : hold.owner = owner
  · subst own
    obtain ⟨settled, split, known, charged⟩ := @Queued.owned_charged κ ω α _ _ holds hold amount queued member unknown
    rw [charged, split, if_pos rfl, spent, spent, List.filterMap_append, List.filterMap_append,
      List.filterMap_cons_none unknown, List.filterMap_nil, List.append_nil]
    exact total_snoc _ amount
  · rw [owned_charge_other unique member own, if_neg own]

omit [AddZeroClass α] in
theorem Queued.charge (queued : Queued holds) (unique : Table.Unique Hold.id holds) (member : hold ∈ holds)
    (unknown : hold.actual = none) : Queued (Holds.charge hold.id amount holds) := by
  intro owner
  by_cases own : hold.owner = owner
  · subst own
    obtain ⟨settled, -, known, charged⟩ := @Queued.owned_charged κ ω α _ _ holds hold amount queued member unknown
    refine ⟨settled ++ [{ hold with actual := some amount }], [], by rw [charged, List.append_nil], ?_, by simp, by simp⟩
    intro other listed
    rcases List.mem_append.mp listed with old | new
    · exact known other old
    · rw [List.mem_singleton.mp new]
      rfl
  · rw [owned_charge_other unique member own]
    exact queued owner

omit [AddZeroClass α] in
theorem Queued.place (queued : Queued holds) (unknown : hold.actual = none)
    (idle : (owned hold.owner holds).filter isOpen = []) : Queued (Holds.place hold holds) := by
  unfold Holds.place Table.insertNew
  cases Table.find Hold.id hold.id holds with
  | some present => exact queued
  | none =>
    intro owner
    rw [owned, List.filter_append]
    by_cases own : hold.owner = owner
    · subst own
      refine ⟨owned hold.owner holds, [hold], by simp [owned], fun other listed => ?_, by simpa using unknown, by simp⟩
      have settled := List.filter_eq_nil_iff.mp idle other listed
      rwa [isOpen, Option.isNone_iff_eq_none, ← ne_eq, Option.ne_none_iff_isSome] at settled
    · have apart : [hold].filter (fun hold => decide (hold.owner = owner)) = [] := by simp [own]
      rw [apart, List.append_nil]
      exact queued owner

omit [DecidableEq κ] [AddZeroClass α] in
theorem Queued.one_open (queued : Queued holds) (owner : ω) : ((owned owner holds).filter isOpen).length ≤ 1 := by
  obtain ⟨settled, waiting, split, known, -, one⟩ := queued owner
  rw [split, List.filter_append, filter_settled known, List.nil_append]
  exact Nat.le_trans (List.length_filter_le _ _) one

end Steps

/-! What is added exactly may be regrouped. -/

section Exact

variable {M : Type} [AddCommMonoid M] {holds : List (Hold κ ω α)}

theorem total_map (exact_ : α →+ M) (amounts : List α) : exact_ (total amounts) = (amounts.map exact_).sum := by
  induction amounts using List.reverseRecOn with
  | nil => exact exact_.map_zero
  | append_singleton earlier amount ih => rw [total_snoc, exact_.map_add, ih, List.map_append, List.sum_append]; simp

omit [DecidableEq κ] [AddZeroClass α] in
theorem sum_owners {owners : List ω} (weight : Hold κ ω α → M) (unique : owners.Nodup)
    (all : ∀ hold ∈ holds, hold.owner ∈ owners) :
    (owners.map fun owner => ((owned owner holds).map weight).sum).sum = (holds.map weight).sum := by
  induction holds with
  | nil => simp [owned]
  | cons head tail ih =>
    have split (owner : ω) : ((owned owner (head :: tail)).map weight).sum =
        (if head.owner = owner then weight head else 0) + ((owned owner tail).map weight).sum := by
      by_cases own : head.owner = owner <;> simp [owned, own]
    have alone : (owners.map fun owner => if head.owner = owner then weight head else 0).sum = weight head := by
      rw [List.sum_map_eq_nsmul_single head.owner _ fun owner other _ => if_neg (Ne.symm other),
        List.count_eq_one_of_mem unique (all head List.mem_cons_self), one_nsmul, if_pos rfl]
    rw [funext split, List.sum_map_add, alone, ih fun hold member => all hold (List.mem_cons_of_mem _ member),
      List.map_cons, List.sum_cons]

omit [DecidableEq κ] [DecidableEq ω] in
theorem spent_map (exact_ : α →+ M) (holds : List (Hold κ ω α)) :
    exact_ (spent holds) = (holds.map fun hold => (hold.actual.map exact_).getD 0).sum := by
  rw [spent, total_map]
  induction holds with
  | nil => rfl
  | cons hold rest ih => cases known : hold.actual <;> simp [known, ih]

omit [DecidableEq κ] [DecidableEq ω] in
theorem sum_counted (exact_ : α →+ M) (holds : List (Hold κ ω α)) :
    (holds.map fun hold => (hold.actual.map exact_).getD 0).sum + exact_ (reserved holds) =
      (holds.map fun hold => exact_ (counted hold)).sum := by
  rw [reserved, total_map, List.map_map]
  induction holds with
  | nil => simp
  | cons hold rest ih =>
    simp only [List.map_cons, List.sum_cons, ← ih]
    cases known : hold.actual with
    | none => simp [isOpen, counted, known, add_left_comm]
    | some amount => simp [isOpen, counted, known, add_assoc]

omit [DecidableEq κ] in
/-- Whatever the order: each hold counts once, by what it cost or by its estimate. -/
theorem exact_counted (exact_ : α →+ M) {owners : List ω} (unique : owners.Nodup)
    (all : ∀ hold ∈ holds, hold.owner ∈ owners) :
    exact_ (total (owners.map fun owner => spent (owned owner holds)) + reserved holds) =
      (holds.map fun hold => exact_ (counted hold)).sum := by
  rw [exact_.map_add, total_map, List.map_map, ← sum_counted, ← sum_owners _ unique all]
  congr 2
  exact List.map_congr_left fun owner _ => spent_map exact_ (owned owner holds)

end Exact

end Holds
