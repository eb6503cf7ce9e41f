import DarkFactory.State.Lease
import Mathlib.Data.List.Induction

namespace DarkFactory

inductive LeaseCall
  | acquire (ownerId : String) (ttl : Int) (now : Timestamp)
  | renew (ownerId : String) (fencingToken : Nat) (ttl : Int) (now : Timestamp)
  | release (ownerId : String) (fencingToken : Nat)
  deriving DecidableEq, Repr

def LeaseCall.acquires : LeaseCall → Bool
  | .acquire .. => true
  | _ => false

section Calls

variable (resourceType resourceId : String)

def LeaseCall.perform : LeaseCall → Session (Option Nat)
  | .acquire ownerId ttl now => some <$> DarkFactory.acquire resourceType resourceId ownerId ttl now
  | .renew ownerId token ttl now => do
    let _ ← DarkFactory.renew resourceType resourceId ownerId token ttl now
    pure none
  | .release ownerId token => do
    let _ ← DarkFactory.release resourceType resourceId ownerId token
    pure none

def LeaseCall.granted (call : LeaseCall) (store : Store) : Option Nat :=
  match call.perform resourceType resourceId store with
  | .ok token _ => token
  | .error _ _ => none

def afterCall (store : Store) (call : LeaseCall) : Store :=
  commit (call.perform resourceType resourceId) store

def afterCalls (calls : List LeaseCall) (store : Store) : Store :=
  calls.foldl (afterCall resourceType resourceId) store

/-- The tokens of the successful acquisitions, oldest first. -/
def grantedTokens : List LeaseCall → Store → List Nat
  | [], _ => []
  | call :: rest, store =>
    (call.granted resourceType resourceId store).toList ++
      grantedTokens rest (afterCall resourceType resourceId store call)

/-- Nobody passes a fence with the token: no renewal, no release, no status change. -/
structure Fenced (store : Store) (token : Nat) : Prop where
  renewal : ∀ ownerId ttl now renewed after,
    renew resourceType resourceId ownerId token ttl now store ≠ .ok renewed after
  release : ∀ ownerId after, release resourceType resourceId ownerId token store ≠ .ok true after
  status : resourceType = "execution" → ∀ target revision moved after,
    updateStatus resourceId target revision token store ≠ .ok moved after

structure TokensFence (calls : List LeaseCall) (store : Store) : Prop where
  increasing : (grantedTokens resourceType resourceId calls store).Pairwise (· < ·)
  earlier : ∀ before, before <+: calls →
    ∀ token ∈ (grantedTokens resourceType resourceId before store).dropLast,
      Fenced resourceType resourceId (afterCalls resourceType resourceId before store) token

/-- No acquisition after the first one meets an absent lease row. -/
def ReacquiredHeld (calls : List LeaseCall) (store : Store) : Prop :=
  ∀ before call, before ++ [call] <+: calls → call.acquires = true →
    grantedTokens resourceType resourceId before store ≠ [] →
    (afterCalls resourceType resourceId before store).lease resourceType resourceId ≠ none

end Calls

section Tokens

variable {resourceType resourceId : String} {store : Store} {call : LeaseCall} {calls : List LeaseCall}

theorem afterCalls_snoc :
    afterCalls resourceType resourceId (calls ++ [call]) store =
      afterCall resourceType resourceId (afterCalls resourceType resourceId calls store) call := by
  simp [afterCalls]

theorem grantedTokens_append {first second : List LeaseCall} :
    grantedTokens resourceType resourceId (first ++ second) store =
      grantedTokens resourceType resourceId first store ++
        grantedTokens resourceType resourceId second (afterCalls resourceType resourceId first store) := by
  induction first generalizing store with
  | nil => rfl
  | cons head tail ih => simp [grantedTokens, afterCalls, ih]

theorem grantedTokens_snoc :
    grantedTokens resourceType resourceId (calls ++ [call]) store =
      grantedTokens resourceType resourceId calls store ++
        (call.granted resourceType resourceId (afterCalls resourceType resourceId calls store)).toList := by
  simp [grantedTokens_append, grantedTokens]

def heldToken (resourceType resourceId : String) (store : Store) : Option Nat :=
  (store.lease resourceType resourceId).map (·.fencingToken)

theorem perform_acquire {ownerId : String} {ttl : Int} {now : Timestamp} {after : Store} {granted : Option Nat}
    (done : (LeaseCall.acquire ownerId ttl now).perform resourceType resourceId store = .ok granted after) :
    ∃ token, granted = some token ∧ token = (heldToken resourceType resourceId store).getD 0 + 1 ∧
      heldToken resourceType resourceId after = some token := by
  rw [LeaseCall.perform, map_eq_pure_bind] at done
  obtain ⟨token, written, acquired, returned⟩ := Outcome.state_bind_ok.mp done
  obtain ⟨rfl, rfl⟩ := Outcome.state_pure_ok.mp returned
  obtain ⟨counted, kept, -⟩ := acquire_ok acquired
  refine ⟨token, rfl, counted, ?_⟩
  obtain ⟨lease, there, same⟩ := Option.map_eq_some_iff.mp kept
  simp only [Prod.mk.injEq] at same
  simp [heldToken, there, same.2]

theorem perform_other (other : call.acquires = false) {granted : Option Nat} {after : Store}
    (done : call.perform resourceType resourceId store = .ok granted after) :
    granted = none ∧ (heldToken resourceType resourceId after = heldToken resourceType resourceId store ∨
      heldToken resourceType resourceId after = none) := by
  cases call with
  | acquire => simp [LeaseCall.acquires] at other
  | renew ownerId token ttl now =>
    obtain ⟨renewed, written, extended, returned⟩ := Outcome.state_bind_ok.mp done
    obtain ⟨rfl, rfl⟩ := Outcome.state_pure_ok.mp returned
    obtain ⟨lease, held, -, -, rfl⟩ := renew_ok extended
    refine ⟨rfl, Or.inl ?_⟩
    simp [heldToken, updateLease_self (extended_key ttl now), held, ExecutionLease.extended]
  | release ownerId token =>
    obtain ⟨released, written, removed, returned⟩ := Outcome.state_bind_ok.mp done
    obtain ⟨rfl, rfl⟩ := Outcome.state_pure_ok.mp returned
    refine ⟨rfl, ?_⟩
    rcases release_ok removed with ⟨-, -, rfl⟩ | ⟨-, rfl⟩
    · have gone : Table.find ExecutionLease.key (resourceType, resourceId)
          (Table.delete ExecutionLease.key (resourceType, resourceId) store.leases) = none :=
        Table.find_delete_self
      exact Or.inr (by simp [heldToken, Store.lease, gone])
    · exact Or.inl rfl

theorem call_cases (resourceType resourceId : String) (call : LeaseCall) (store : Store) :
    (∃ token, call.acquires = true ∧ call.granted resourceType resourceId store = some token ∧
        token = (heldToken resourceType resourceId store).getD 0 + 1 ∧
        heldToken resourceType resourceId (afterCall resourceType resourceId store call) = some token) ∨
      (call.granted resourceType resourceId store = none ∧
        (heldToken resourceType resourceId (afterCall resourceType resourceId store call) =
            heldToken resourceType resourceId store ∨
          heldToken resourceType resourceId (afterCall resourceType resourceId store call) = none)) := by
  unfold LeaseCall.granted afterCall commit
  cases done : call.perform resourceType resourceId store with
  | error failure partway => exact Or.inr ⟨rfl, Or.inl rfl⟩
  | ok granted after =>
    by_cases acquiring : call.acquires = true
    · left
      cases call with
      | acquire ownerId ttl now =>
        obtain ⟨token, rfl, counted, kept⟩ := perform_acquire done
        exact ⟨token, rfl, rfl, counted, kept⟩
      | renew | release => simp [LeaseCall.acquires] at acquiring
    · right
      obtain ⟨rfl, kept⟩ := perform_other (by simpa using acquiring) done
      exact ⟨rfl, kept⟩

theorem grantedTokens_pos : ∀ token ∈ grantedTokens resourceType resourceId calls store, 1 ≤ token := by
  induction calls generalizing store with
  | nil => simp [grantedTokens]
  | cons head tail ih =>
    intro token member
    rw [grantedTokens, List.mem_append] at member
    rcases member with granted | later
    · rcases call_cases resourceType resourceId head store with
        ⟨given, -, same, counted, -⟩ | ⟨nothing, -⟩
      · simp only [same, Option.toList_some, List.mem_singleton] at granted
        omega
      · simp [nothing] at granted
    · exact ih token later

/-- The row, when present, carries the newest token, and every token is above the earlier ones. -/
structure Counted (resourceType resourceId : String) (tokens : List Nat) (store : Store) : Prop where
  increasing : tokens.Pairwise (· < ·)
  newest : ∀ token, heldToken resourceType resourceId store = some token → tokens.getLast? = some token

theorem Counted.granted {tokens : List Nat} {token : Nat} {after : Store}
    (counted : Counted resourceType resourceId tokens store)
    (present : tokens ≠ [] → heldToken resourceType resourceId store ≠ none)
    (next : token = (heldToken resourceType resourceId store).getD 0 + 1)
    (kept : heldToken resourceType resourceId after = some token) :
    Counted resourceType resourceId (tokens ++ [token]) after := by
  refine ⟨?_, ?_⟩
  · rw [List.pairwise_append]
    refine ⟨counted.increasing, by simp, ?_⟩
    intro old member new same
    rw [List.mem_singleton] at same
    subst same
    obtain ⟨held, row⟩ := Option.ne_none_iff_exists'.mp (present (List.ne_nil_of_mem member))
    have last := counted.newest held row
    obtain ⟨init, split⟩ := List.getLast?_eq_some_iff.mp last
    have order := counted.increasing
    rw [split, List.pairwise_append] at order
    rw [split, List.mem_append, List.mem_singleton] at member
    rw [row] at next
    simp only [Option.getD_some] at next
    rcases member with early | rfl
    · have := order.2.2 old early held (by simp)
      omega
    · omega
  · intro held row
    rw [kept] at row
    simp [row]

theorem Counted.kept {tokens : List Nat} {after : Store}
    (counted : Counted resourceType resourceId tokens store)
    (unmoved : heldToken resourceType resourceId after = heldToken resourceType resourceId store ∨
      heldToken resourceType resourceId after = none) :
    Counted resourceType resourceId tokens after := by
  refine ⟨counted.increasing, ?_⟩
  intro token row
  rcases unmoved with same | gone
  · exact counted.newest token (same ▸ row)
  · simp [gone] at row

theorem heldToken_none :
    heldToken resourceType resourceId store = none ↔ store.lease resourceType resourceId = none := by
  simp [heldToken]

theorem ReacquiredHeld.initial {before : List LeaseCall}
    (held : ReacquiredHeld resourceType resourceId calls store) (part : before <+: calls) :
    ReacquiredHeld resourceType resourceId before store := by
  intro early call shorter
  exact held early call (shorter.trans part)

theorem counted_calls (fresh : store.lease resourceType resourceId = none)
    (held : ReacquiredHeld resourceType resourceId calls store) :
    Counted resourceType resourceId (grantedTokens resourceType resourceId calls store)
      (afterCalls resourceType resourceId calls store) := by
  induction calls using List.reverseRecOn with
  | nil => exact ⟨List.Pairwise.nil, by simp [afterCalls, heldToken, fresh]⟩
  | append_singleton before call ih =>
    have counted := ih (held.initial (List.prefix_append before [call]))
    rw [grantedTokens_snoc, afterCalls_snoc]
    rcases call_cases resourceType resourceId call (afterCalls resourceType resourceId before store) with
      ⟨token, acquiring, granted, next, kept⟩ | ⟨nothing, unmoved⟩
    · rw [granted]
      have present := held before call List.prefix_rfl acquiring
      exact counted.granted (fun some => heldToken_none.not.mpr (present some)) next kept
    · rw [nothing, Option.toList_none, List.append_nil]
      exact counted.kept unmoved

theorem fenced_of_heldToken {token : Nat}
    (stale : heldToken resourceType resourceId store ≠ some token) : Fenced resourceType resourceId store token := by
  refine ⟨?_, ?_, ?_⟩
  · intro ownerId ttl now renewed after passed
    obtain ⟨lease, row, -, same, -⟩ := renew_ok passed
    exact stale (by simp [heldToken, row, same])
  · intro ownerId after passed
    rcases release_ok passed with ⟨-, ⟨lease, row, -, same⟩, -⟩ | ⟨refused, -⟩
    · exact stale (by simp [heldToken, row, same])
    · simp at refused
  · rintro rfl target revision moved after passed
    obtain ⟨execution, path, -, current, -⟩ := updateStatus_ok passed
    exact stale current

theorem Counted.fenced {tokens : List Nat} {token : Nat}
    (counted : Counted resourceType resourceId tokens store) (earlier : token ∈ tokens.dropLast) :
    Fenced resourceType resourceId store token := by
  apply fenced_of_heldToken
  intro row
  obtain ⟨init, split⟩ := List.getLast?_eq_some_iff.mp (counted.newest token row)
  rw [split, List.dropLast_concat] at earlier
  have order := counted.increasing
  rw [split, List.pairwise_append] at order
  exact absurd (order.2.2 token earlier token (by simp)) (Nat.lt_irrefl token)

end Tokens

/-- Tokens order the holders of one resource exactly when no lease row is gone at a re-acquisition. -/
theorem tokens_fence_iff (resourceType resourceId : String) (store : Store) (calls : List LeaseCall)
    (fresh : store.lease resourceType resourceId = none) :
    TokensFence resourceType resourceId calls store ↔ ReacquiredHeld resourceType resourceId calls store := by
  constructor
  · intro fence before call part acquiring some absent
    obtain ⟨rest, whole⟩ := part
    have order := fence.increasing
    rw [← whole, grantedTokens_append, List.pairwise_append] at order
    rcases call_cases resourceType resourceId call (afterCalls resourceType resourceId before store) with
      ⟨token, -, granted, next, -⟩ | ⟨nothing, -⟩
    · have early := order.1
      rw [grantedTokens_snoc, granted, List.pairwise_append] at early
      obtain ⟨first, member⟩ := List.exists_mem_of_ne_nil _ some
      have above := early.2.2 first member token (by simp)
      have positive := grantedTokens_pos first member
      rw [heldToken_none.mpr absent] at next
      simp only [Option.getD_none] at next
      omega
    · cases call with
      | acquire ownerId ttl now =>
        simp [LeaseCall.granted, LeaseCall.perform, acquire, Outcome.perform, absent, map_eq_pure_bind,
          Bind.bind, EStateM.bind, Pure.pure, EStateM.pure] at nothing
      | renew | release => simp [LeaseCall.acquires] at acquiring
  · intro held
    refine ⟨(counted_calls fresh held).increasing, ?_⟩
    intro before part token earlier
    exact (counted_calls fresh (held.initial part)).fenced earlier

/-- A worker whose lease expired is fenced off by the thief's token. -/
theorem stolen_lease_fences :
    TokensFence "execution" "run_a" [.acquire "worker-1" 5 0, .acquire "worker-2" 5 9] {} := by
  refine (tokens_fence_iff "execution" "run_a" {} _ (by decide)).mpr ?_
  intro before call part acquiring granted
  rcases before with _ | ⟨first, _ | ⟨second, rest⟩⟩
  · exact absurd rfl granted
  · obtain ⟨rfl, -⟩ := List.cons_prefix_cons.mp part
    decide +kernel
  · have short := part.length_le
    simp at short

/-- Released in between, the lease restarts at token 1 and the first worker's token is current again. -/
theorem released_lease_reuses_token :
    ¬ TokensFence "execution" "run_a"
      [.acquire "worker-1" 5 0, .release "worker-1" 1, .acquire "worker-2" 5 9]
      { executions := [{ id := "run_a", changeId := "c", route := .quick, provider := .github }] } := by
  intro fence
  have earlier := fence.earlier _ List.prefix_rfl 1 (by decide +kernel)
  have passes : Outcome.succeeds (updateStatus "run_a" .running 1 1)
      (afterCalls "execution" "run_a"
        [.acquire "worker-1" 5 0, .release "worker-1" 1, .acquire "worker-2" 5 9]
        { executions := [{ id := "run_a", changeId := "c", route := .quick, provider := .github }] }) =
      true := by decide +kernel
  obtain ⟨moved, after, updated⟩ := Outcome.succeeds_iff.mp passes
  exact earlier.status rfl _ _ _ _ updated

end DarkFactory
