import DarkFactory.Budget.Spend
import DarkFactory.Lib.Holds

namespace DarkFactory

open Budget

/-- What a caller of the coordinator keeps: per reservation its estimate, and what the call used once it told. -/
abbrev Account := List (Hold String Role Spend)

inductive BudgetCall
  | reserve (role : Role) (key : String) (estimated : Usage) (now : Timestamp)
  | settle (reservationId : String) (usage : Option Usage)

def BudgetCall.perform : BudgetCall → EStateM BudgetError BudgetCoordinator BudgetReservation
  | .reserve role key estimated now => Budget.reserve role key estimated now
  | .settle reservationId usage => Budget.settle reservationId usage

def afterBudgetCall (coordinator : BudgetCoordinator) (call : BudgetCall) : BudgetCoordinator :=
  match call.perform coordinator with
  | .ok _ after => after
  | .error _ after => after

def booked (coordinator : BudgetCoordinator) (account : Account) (call : BudgetCall) : Account :=
  match call, call.perform coordinator with
  | .reserve role _ estimated _, .ok reservation _ =>
    Holds.place { id := reservation.reservationId, owner := role, estimate := .ofUsage estimated } account
  | .settle reservationId (some usage), .ok _ _ =>
    if usage.totalTokens.isSome then Holds.charge reservationId (.ofUsage usage) account else account
  | _, _ => account

def accounted (policy : BudgetPolicy) (calls : List BudgetCall) : BudgetCoordinator × Account :=
  calls.foldl (fun state call => (afterBudgetCall state.1 call, booked state.1 state.2 call)) ({ policy }, [])

structure WithinLimits (limits : BudgetLimits) (usage : Usage) (now : Timestamp) : Prop where
  tokens : ∀ limit, limits.tokenBudget = some limit → tokens usage < limit
  cost : ∀ limit, limits.costBudget = some limit → limit.le (cost usage) = false
  deadline : ∀ deadline, limits.deadline = some deadline → now ≤ deadline

def holdLine (hold : Hold String Role Spend) : String × Role × Spend × Bool :=
  (hold.id, hold.owner, hold.estimate, hold.actual.isSome)

def BudgetReservation.line (reservation : BudgetReservation) : String × Role × Spend × Bool :=
  (reservation.reservationId, reservation.role, .ofUsage reservation.estimated, reservation.settled)

/-- The coordinator counts what the account says: each reservation once, by its estimate while it is open and by
    what it used after. Costs are added in the order of the reservations, and then of the roles; tokens are exact. -/
structure BudgetAccounted (coordinator : BudgetCoordinator) (account : Account) : Prop where
  listed : coordinator.reservations.map BudgetReservation.line = account.map holdLine
  unique : Table.Unique BudgetReservation.reservationId coordinator.reservations
  oneOpen : ∀ role, (coordinator.reservations.filter fun reservation =>
    reservation.role = role && !reservation.settled).length ≤ 1
  settled : ∀ role, coordinator.usageFor role = (Holds.spent (Holds.owned role account)).usage
  reserved : ∀ role, coordinator.reservedUsage (some role) = (Holds.reserved (Holds.owned role account)).usage
  effectiveRole : ∀ role, coordinator.effectiveUsage (some role) =
    (Holds.total ((Holds.owned role account).map Holds.counted)).usage
  roles : coordinator.knownRoles.Nodup ∧ ∀ hold ∈ account, hold.owner ∈ coordinator.knownRoles
  settledRun : coordinator.totalUsage =
    (Holds.total (coordinator.knownRoles.map fun role => Holds.spent (Holds.owned role account))).usage
  reservedRun : coordinator.reservedUsage none = (Holds.reserved account).usage
  effectiveRun : coordinator.effectiveUsage none = addUsage coordinator.totalUsage (coordinator.reservedUsage none)
  tokensRun : (coordinator.effectiveUsage none).promptTokens =
      (account.map fun hold => (Holds.counted hold).promptTokens).sum ∧
    (coordinator.effectiveUsage none).completionTokens =
      (account.map fun hold => (Holds.counted hold).completionTokens).sum ∧
    tokens (coordinator.effectiveUsage none) = (account.map fun hold => (Holds.counted hold).totalTokens).sum
  aggregate : ∀ now, (coordinator.aggregate now).roles.map (·.role) = coordinator.knownRoles ∧
    (coordinator.aggregate now).run =
      (coordinator.aggregate now).roles.foldl (fun total entry => addUsage total entry.usage) zeroUsage
  entries : ∀ now, ∀ entry ∈ (coordinator.aggregate now).roles,
    entry.usage = (Holds.spent (Holds.owned entry.role account)).usage ∧
      entry.reserved = (Holds.reserved (Holds.owned entry.role account)).usage

structure BudgetAnswers (coordinator : BudgetCoordinator) : Prop where
  replayed : ∀ role key estimated now known,
    Table.find BudgetReservation.reservationId (reservationId role key) coordinator.reservations = some known →
    known.role = role ∧ Budget.reserve role key estimated now coordinator = .ok known coordinator
  resettled : ∀ id known usage, Table.find BudgetReservation.reservationId id coordinator.reservations = some known →
    known.settled = true → Budget.settle id usage coordinator = .ok known coordinator
  refused : ∀ role key estimated now error after,
    Budget.reserve role key estimated now coordinator = .error error after → after = coordinator
  granted : ∀ role key estimated now reservation after,
    Table.find BudgetReservation.reservationId (reservationId role key) coordinator.reservations = none →
    Budget.reserve role key estimated now coordinator = .ok reservation after →
    WithinLimits (coordinator.policy.limitsFor role) (coordinator.effectiveUsage (some role)) now ∧
      WithinLimits coordinator.policy.runLimits (coordinator.effectiveUsage none) now

section Calls

variable {coordinator : BudgetCoordinator} {role : Role} {key id : String} {estimated : Usage} {now : Timestamp}

/-- What `reserve` does: it answers a replay, refuses, or adds one open reservation. -/
theorem reserve_cases (coordinator : BudgetCoordinator) (role : Role) (key : String) (estimated : Usage)
    (now : Timestamp) :
    (∃ known, Table.find BudgetReservation.reservationId (reservationId role key) coordinator.reservations = some known ∧
      Budget.reserve role key estimated now coordinator = .ok known coordinator) ∨
    (Table.find BudgetReservation.reservationId (reservationId role key) coordinator.reservations = none ∧
      ∃ error, Budget.reserve role key estimated now coordinator = .error error coordinator) ∨
    (Table.find BudgetReservation.reservationId (reservationId role key) coordinator.reservations = none ∧
      (coordinator.check role now).state = .withinLimits ∧ coordinator.unsettledReservation role = none ∧
      Budget.reserve role key estimated now coordinator =
        .ok ⟨reservationId role key, role, estimated, now, false⟩
          { coordinator with
            reservations := coordinator.reservations ++ [⟨reservationId role key, role, estimated, now, false⟩] }) := by
  unfold Budget.reserve
  rw [Outcome.state_get_bind]
  dsimp only
  cases found : Table.find BudgetReservation.reservationId (reservationId role key) coordinator.reservations with
  | some known => exact Or.inl ⟨known, rfl, rfl⟩
  | none =>
    refine Or.inr ?_
    cases state : (coordinator.check role now).state with
    | awaitingDecision => exact Or.inl ⟨rfl, _, rfl⟩
    | withinLimits =>
      cases unsettled : coordinator.unsettledReservation role with
      | some open_ => exact Or.inl ⟨rfl, _, rfl⟩
      | none =>
        by_cases unknown : estimated.totalTokens = none ∧ (coordinator.policy.limitsFor role).configured = true
        · exact Or.inl ⟨rfl, _, by simp only [unknown]; rfl⟩
        · exact Or.inr ⟨rfl, rfl, rfl, by simp only [unknown]; rfl⟩

/-- What `settle` does: it refuses an unknown id, leaves what is settled or not told, or charges the usage. -/
theorem settle_cases (coordinator : BudgetCoordinator) (id : String) (usage : Option Usage) :
    (Table.find BudgetReservation.reservationId id coordinator.reservations = none ∧
      ∃ error, Budget.settle id usage coordinator = .error error coordinator) ∨
    (∃ known, Table.find BudgetReservation.reservationId id coordinator.reservations = some known ∧
      (known.settled = true ∨ usage.filter (·.totalTokens.isSome) = none) ∧
      Budget.settle id usage coordinator = .ok known coordinator) ∨
    (∃ known used, Table.find BudgetReservation.reservationId id coordinator.reservations = some known ∧
      known.settled = false ∧ usage = some used ∧ used.totalTokens.isSome = true ∧
      Budget.settle id usage coordinator = .ok { known with settled := true }
        { coordinator with
          ledgers := charged known.role used coordinator.ledgers
          reservations := Table.update BudgetReservation.reservationId id (fun _ => { known with settled := true })
            coordinator.reservations }) := by
  unfold Budget.settle
  rw [Outcome.state_get_bind]
  dsimp only
  cases found : Table.find BudgetReservation.reservationId id coordinator.reservations with
  | none => exact Or.inl ⟨rfl, _, rfl⟩
  | some known =>
    refine Or.inr ?_
    cases told : usage.filter (·.totalTokens.isSome) with
    | none => exact Or.inl ⟨known, rfl, Or.inr rfl, rfl⟩
    | some used =>
      obtain ⟨said, total⟩ := Option.filter_eq_some_iff.mp told
      cases settled : known.settled with
      | true => exact Or.inl ⟨known, rfl, Or.inl settled, by simp [settled]; rfl⟩
      | false => exact Or.inr ⟨known, used, rfl, settled, said, total, by simp [settled]; rfl⟩

/-- A scope is quiet exactly when the spend is under its limits. -/
theorem scopeViolations_nil {scope : BudgetScope} {owner : Option Role} {limits : BudgetLimits} {usage : Usage} :
    scopeViolations scope owner limits usage now = [] ↔ WithinLimits limits usage now := by
  unfold scopeViolations
  dsimp only
  rw [List.map_eq_nil_iff, continuationViolations_empty]
  unfold BudgetSnapshot.tokenBudgetExhausted BudgetSnapshot.costBudgetExhausted
  dsimp only
  constructor
  · rintro ⟨tokens, cost, deadline⟩
    refine ⟨fun limit set => ?_, fun limit set => ?_, deadline⟩
    · rw [set] at tokens
      simpa using tokens
    · rw [set] at cost
      exact cost
  · intro within
    refine ⟨?_, ?_, within.deadline⟩
    · cases set : limits.tokenBudget with
      | none => rfl
      | some limit => simpa using within.tokens limit set
    · cases set : limits.costBudget with
      | none => rfl
      | some limit => exact within.cost limit set

theorem check_within (within : (coordinator.check role now).state = .withinLimits) :
    WithinLimits (coordinator.policy.limitsFor role) (coordinator.effectiveUsage (some role)) now ∧
      WithinLimits coordinator.policy.runLimits (coordinator.effectiveUsage none) now := by
  unfold BudgetCoordinator.check at within
  dsimp only at within
  split at within
  · rename_i quiet
    obtain ⟨run, own⟩ := List.append_eq_nil_iff.mp quiet
    exact ⟨scopeViolations_nil.mp own, scopeViolations_nil.mp run⟩
  · cases within

theorem roleFront_apart {first second : Role} (front : (first.value ++ "_").toList <+: (second.value ++ "_").toList) :
    first = second := by
  have apart : first = second ∨ (first.value ++ "_").toList.isPrefixOf (second.value ++ "_").toList = false := by
    cases first <;> cases second <;> decide
  rcases apart with same | other
  · exact same
  · rw [List.isPrefixOf_iff_prefix.mpr front] at other
    cases other

/-- Reservations of different roles, or under different keys, have different ids. -/
theorem reservationId_inj {first second : Role} {left right : String}
    (same : reservationId first left = reservationId second right) : first = second ∧ left = right := by
  have text (role : Role) (key : String) :
      (reservationId role key).toList = "rsv_".toList ++ ((role.value ++ "_").toList ++ key.toList) := by
    unfold reservationId
    simp only [String.toList_append, List.append_assoc]
    rfl
  have lists := congrArg String.toList same
  rw [text, text, List.append_cancel_left_eq] at lists
  have roles : first = second := by
    have front : (first.value ++ "_").toList <+: (second.value ++ "_").toList ++ right.toList :=
      ⟨left.toList, lists⟩
    rcases List.prefix_or_prefix_of_prefix front (List.prefix_append _ _) with before | before
    · exact roleFront_apart before
    · exact (roleFront_apart before).symm
  subst roles
  exact ⟨rfl, String.toList_inj.mp (List.append_cancel_left lists)⟩

end Calls

structure Balanced (coordinator : BudgetCoordinator) (account : Account) : Prop where
  listed : coordinator.reservations.map BudgetReservation.line = account.map holdLine
  unique : Table.Unique Hold.id account
  usage : ∀ role, coordinator.roleUsage role = (Holds.spent (Holds.owned role account)).usage
  queued : Holds.Queued account
  ids : ∀ reservation ∈ coordinator.reservations, ∃ key, reservation.reservationId = reservationId reservation.role key

section Balanced

variable {coordinator : BudgetCoordinator} {account : Account} {role : Role} {key id : String} {now : Timestamp}

theorem Balanced.empty (policy : BudgetPolicy) : Balanced { policy } [] where
  listed := rfl
  unique := Table.Unique.nil
  usage _ := rfl
  queued _ := ⟨[], [], rfl, by simp, by simp, Nat.zero_le 1⟩
  ids := by simp

theorem Balanced.uniqueRows (balanced : Balanced coordinator account) :
    Table.Unique BudgetReservation.reservationId coordinator.reservations := by
  have ids := congrArg (List.map Prod.fst) balanced.listed
  rw [List.map_map, List.map_map] at ids
  have same : coordinator.reservations.map BudgetReservation.reservationId = account.map Hold.id := ids
  rw [Table.Unique, same]
  exact balanced.unique

theorem Balanced.hold (balanced : Balanced coordinator account) {reservation : BudgetReservation}
    (member : reservation ∈ coordinator.reservations) : ∃ hold ∈ account, holdLine hold = reservation.line := by
  have line : reservation.line ∈ account.map holdLine := balanced.listed ▸ List.mem_map_of_mem member
  simpa using line

/-- What the lines tell picks the same rows on both sides. -/
theorem Balanced.chosen (balanced : Balanced coordinator account) (p : String × Role × Spend × Bool → Bool) :
    (coordinator.reservations.filter (p ∘ BudgetReservation.line)).map BudgetReservation.line =
      (account.filter (p ∘ holdLine)).map holdLine := by
  rw [← List.filter_map, ← List.filter_map, balanced.listed]

theorem Balanced.openRows (balanced : Balanced coordinator account) (role : Option Role) :
    (coordinator.reservations.filter fun reservation => !reservation.settled && role.all (reservation.role = ·)).map
        BudgetReservation.line =
      ((account.filter fun hold => role.all (hold.owner = ·)).filter Holds.isOpen).map holdLine := by
  have same : (fun hold : Hold String Role Spend => Holds.isOpen hold && role.all (hold.owner = ·)) =
      (fun line : String × Role × Spend × Bool => !line.2.2.2 && role.all (line.2.1 = ·)) ∘ holdLine := by
    funext hold
    cases known : hold.actual <;> simp [holdLine, Holds.isOpen, known]
  rw [List.filter_filter, same]
  exact balanced.chosen fun line => !line.2.2.2 && role.all (line.2.1 = ·)

theorem Balanced.reservedUsage (balanced : Balanced coordinator account) (role : Option Role) :
    coordinator.reservedUsage role =
      (Holds.reserved (account.filter fun hold => role.all (hold.owner = ·))).usage := by
  have estimates := congrArg (List.map fun line => line.2.2.1) (balanced.openRows role)
  rw [List.map_map, List.map_map] at estimates
  rw [BudgetCoordinator.reservedUsage, Spend.usage_zero, Spend.foldl_addUsage]
  exact congrArg (fun spends => (Holds.total spends).usage) estimates

theorem Balanced.reservedTotal (balanced : Balanced coordinator account) :
    coordinator.reservedUsage none = (Holds.reserved account).usage := by
  have every : (account.filter fun hold => (none : Option Role).all (hold.owner = ·)) = account :=
    List.filter_eq_self.mpr fun _ _ => rfl
  rw [balanced.reservedUsage, every]

theorem Balanced.knownRoles (balanced : Balanced coordinator account) :
    coordinator.knownRoles.Nodup ∧ ∀ hold ∈ account, hold.owner ∈ coordinator.knownRoles := by
  constructor
  · exact (List.perm_insertionSort _ _).nodup_iff.mpr (List.nodup_dedup _)
  · intro hold member
    have line : holdLine hold ∈ coordinator.reservations.map BudgetReservation.line :=
      balanced.listed ▸ List.mem_map_of_mem member
    obtain ⟨reservation, listed, same⟩ := List.mem_map.mp line
    have owner : reservation.role = hold.owner := congrArg (·.2.1) same
    rw [BudgetCoordinator.knownRoles, List.mem_insertionSort, List.mem_dedup, List.mem_append, List.mem_append]
    exact Or.inl (Or.inr (owner ▸ List.mem_map_of_mem listed))

theorem Balanced.settledTotal (balanced : Balanced coordinator account) : coordinator.totalUsage =
    (Holds.total (coordinator.knownRoles.map fun role => Holds.spent (Holds.owned role account))).usage := by
  have same (role : Role) : Spend.ofUsage (coordinator.roleUsage role) = Holds.spent (Holds.owned role account) := by
    rw [balanced.usage role, Spend.ofUsage_usage]
  rw [BudgetCoordinator.totalUsage, BudgetCoordinator.settledUsage, Spend.usage_zero, Spend.foldl_addUsage, funext same]
  rfl

theorem Balanced.effectiveTotal (balanced : Balanced coordinator account) : coordinator.effectiveUsage none =
    (Holds.total (coordinator.knownRoles.map fun role => Holds.spent (Holds.owned role account)) +
      Holds.reserved account).usage := by
  rw [BudgetCoordinator.effectiveUsage, Spend.addUsage_eq, balanced.reservedTotal,
    show coordinator.settledUsage none = _ from balanced.settledTotal, Spend.ofUsage_usage, Spend.ofUsage_usage]

theorem Balanced.accounted (balanced : Balanced coordinator account) : BudgetAccounted coordinator account where
  listed := balanced.listed
  unique := balanced.uniqueRows
  oneOpen role := by
    have lengths := congrArg List.length (balanced.openRows (some role))
    rw [List.length_map, List.length_map] at lengths
    have same : (fun reservation : BudgetReservation => reservation.role = role && !reservation.settled) =
        fun reservation => !reservation.settled && (some role).all (reservation.role = ·) := by
      funext reservation
      simp [Bool.and_comm]
    rw [same, lengths]
    exact balanced.queued.one_open role
  settled := balanced.usage
  reserved role := balanced.reservedUsage (some role)
  effectiveRole role := by
    rw [BudgetCoordinator.effectiveUsage, Spend.addUsage_eq, balanced.reservedUsage, BudgetCoordinator.settledUsage,
      balanced.usage, Spend.ofUsage_usage, Spend.ofUsage_usage, balanced.queued.counted_total]
    rfl
  roles := balanced.knownRoles
  settledRun := balanced.settledTotal
  reservedRun := balanced.reservedTotal
  effectiveRun := rfl
  tokensRun := by
    obtain ⟨unique, all⟩ := balanced.knownRoles
    rw [balanced.effectiveTotal]
    exact ⟨Holds.exact_counted Spend.promptTokensHom unique all, Holds.exact_counted Spend.completionTokensHom unique all,
      Holds.exact_counted Spend.totalTokensHom unique all⟩
  aggregate now := by
    constructor
    · rw [BudgetCoordinator.aggregate, List.map_map]
      exact List.map_id _
    · show coordinator.settledUsage none = _
      rw [BudgetCoordinator.aggregate, List.foldl_map]
      rfl
  entries now entry listed := by
    obtain ⟨role, -, rfl⟩ := List.mem_map.mp listed
    exact ⟨balanced.usage role, balanced.reservedUsage (some role)⟩

theorem find_charged {owner : Role} {used : Usage} {ledgers : List RoleLedger} (role : Role) :
    Table.find RoleLedger.role role (charged owner used ledgers) =
      if owner = role then
        some (((Table.find RoleLedger.role role ledgers).getD { role }).charge used)
      else Table.find RoleLedger.role role ledgers := by
  have keeps (role : Role) (ledger : RoleLedger) (same : ledger.role = role) : (ledger.charge used).role = role := same
  unfold charged
  by_cases own : owner = role
  · subst own
    have opened := @Table.find_insertNew_self _ _ _ RoleLedger.role { role := owner } ledgers
    rw [Table.find_update_self (keeps owner), if_pos rfl]
    exact congrArg (Option.map (RoleLedger.charge used)) opened
  · rw [Table.find_update_other (keeps owner) (Ne.symm own), if_neg own]
    exact Table.find_insertNew_other (Ne.symm own)

theorem roleUsage_charged {owner : Role} {used : Usage} {rows : List BudgetReservation} (role : Role) :
    { coordinator with
        ledgers := charged owner used coordinator.ledgers, reservations := rows }.roleUsage role =
      if owner = role then addUsage (coordinator.roleUsage role) used else coordinator.roleUsage role := by
  unfold BudgetCoordinator.roleUsage
  dsimp only
  rw [find_charged]
  by_cases own : owner = role
  · rw [if_pos own, if_pos own]
    cases Table.find RoleLedger.role role coordinator.ledgers <;> rfl
  · rw [if_neg own, if_neg own]

theorem Balanced.absent (balanced : Balanced coordinator account)
    (absent : Table.find BudgetReservation.reservationId id coordinator.reservations = none) :
    Table.find Hold.id id account = none := by
  rw [Table.find_none] at absent ⊢
  intro hold member same
  have line : holdLine hold ∈ coordinator.reservations.map BudgetReservation.line :=
    balanced.listed ▸ List.mem_map_of_mem member
  obtain ⟨reservation, listed, equal⟩ := List.mem_map.mp line
  exact absent reservation listed ((congrArg Prod.fst equal).trans same)

theorem Balanced.granted (balanced : Balanced coordinator account) {estimated : Usage}
    (absent : Table.find BudgetReservation.reservationId (reservationId role key) coordinator.reservations = none)
    (idle : coordinator.unsettledReservation role = none) :
    Balanced { coordinator with
        reservations := coordinator.reservations ++ [⟨reservationId role key, role, estimated, now, false⟩] }
      (Holds.place { id := reservationId role key, owner := role, estimate := .ofUsage estimated } account) where
  listed := by
    rw [Holds.place, Table.insertNew, balanced.absent absent, List.map_append, List.map_append, balanced.listed]
    rfl
  unique := balanced.unique.insertNew
  usage other := by
    rw [Holds.spent_place rfl]
    exact balanced.usage other
  queued := by
    refine balanced.queued.place rfl ?_
    have none_open : (coordinator.reservations.filter fun reservation =>
        !reservation.settled && (some role).all (reservation.role = ·)) = [] := by
      refine List.filter_eq_nil_iff.mpr fun reservation member => ?_
      have quiet := List.find?_eq_none.mp idle reservation member
      rw [Bool.and_comm]
      exact quiet
    have lines := balanced.openRows (some role)
    rw [none_open, List.map_nil] at lines
    exact List.map_eq_nil_iff.mp lines.symm
  ids := by
    intro reservation member
    rcases List.mem_append.mp member with old | new
    · exact balanced.ids reservation old
    · rw [List.mem_singleton.mp new]
      exact ⟨key, rfl⟩

theorem Balanced.settled (balanced : Balanced coordinator account) {known : BudgetReservation} {used : Usage}
    (found : Table.find BudgetReservation.reservationId id coordinator.reservations = some known)
    (unsettled : known.settled = false) :
    Balanced { coordinator with
        ledgers := charged known.role used coordinator.ledgers
        reservations := Table.update BudgetReservation.reservationId id (fun _ => { known with settled := true })
          coordinator.reservations }
      (Holds.charge id (.ofUsage used) account) := by
  obtain ⟨member, own⟩ := Table.find_some found
  obtain ⟨hold, held, line⟩ := balanced.hold member
  obtain ⟨sameId, sameRest⟩ := Prod.mk.inj line
  obtain ⟨sameOwner, sameRest⟩ := Prod.mk.inj sameRest
  obtain ⟨sameEstimate, sameActual⟩ := Prod.mk.inj sameRest
  have unknown : hold.actual = none := by
    rw [unsettled] at sameActual
    exact Option.isSome_eq_false_iff.mp sameActual |> Option.isNone_iff_eq_none.mp
  have holdId : hold.id = id := sameId.trans own
  let told (line : String × Role × Spend × Bool) : String × Role × Spend × Bool :=
    if line.1 = id then (line.1, line.2.1, line.2.2.1, true) else line
  constructor
  · have rows : (Table.update BudgetReservation.reservationId id (fun _ => { known with settled := true })
        coordinator.reservations).map BudgetReservation.line =
          (coordinator.reservations.map BudgetReservation.line).map told := by
      rw [Table.update, List.map_map, List.map_map]
      refine List.map_congr_left fun reservation listed => ?_
      by_cases here : reservation.reservationId = id
      · obtain rfl := balanced.uniqueRows.eq listed member (here.trans own.symm)
        simp [told, BudgetReservation.line, here]
      · simp [told, BudgetReservation.line, here]
    have holds : (Holds.charge id (.ofUsage used) account).map holdLine = (account.map holdLine).map told := by
      rw [Holds.charge, Table.update, List.map_map, List.map_map]
      refine List.map_congr_left fun hold _ => ?_
      by_cases here : hold.id = id
      · cases actual : hold.actual <;> simp [told, holdLine, here, actual]
      · simp [told, holdLine, here]
    exact rows.trans ((congrArg (List.map told) balanced.listed).trans holds.symm)
  · exact balanced.unique.update fun _ => rfl
  · intro role
    rw [roleUsage_charged, balanced.usage role, ← holdId, balanced.queued.spent_charge balanced.unique held unknown,
      sameOwner]
    by_cases same : known.role = role
    · rw [if_pos same, if_pos same, Spend.addUsage_eq, Spend.ofUsage_usage]
    · rw [if_neg same, if_neg same]
  · rw [← holdId]
    exact balanced.queued.charge balanced.unique held unknown
  · intro reservation listed
    rcases Table.mem_update.mp listed with ⟨old, -⟩ | ⟨old, -, -, rfl⟩
    · exact balanced.ids reservation old
    · exact balanced.ids known member

theorem Balanced.replayed (balanced : Balanced coordinator account) {known : BudgetReservation} {hold : Hold String Role Spend}
    (member : known ∈ coordinator.reservations) (same : hold.id = known.reservationId) :
    Holds.place hold account = account := by
  obtain ⟨present, held, line⟩ := balanced.hold member
  have here : present.id = hold.id := (congrArg Prod.fst line).trans same.symm
  rw [Holds.place, Table.insertNew, ← here, balanced.unique.find held]

/-- A repeated settlement books nothing. -/
theorem Balanced.resettled (balanced : Balanced coordinator account) {known : BudgetReservation} {amount : Spend}
    (member : known ∈ coordinator.reservations) (settled : known.settled = true) :
    Holds.charge known.reservationId amount account = account := by
  obtain ⟨present, held, line⟩ := balanced.hold member
  refine Holds.charge_known fun hold listed same => ?_
  obtain rfl := balanced.unique.eq listed held (same.trans (congrArg Prod.fst line).symm)
  exact (congrArg (·.2.2.2) line).trans settled

theorem Balanced.step (balanced : Balanced coordinator account) (call : BudgetCall) :
    Balanced (afterBudgetCall coordinator call) (booked coordinator account call) := by
  unfold afterBudgetCall booked
  cases call with
  | reserve role key estimated now =>
    rcases reserve_cases coordinator role key estimated now with
      ⟨known, found, replay⟩ | ⟨-, error, refused⟩ | ⟨absent, -, idle, granted⟩
    · rw [BudgetCall.perform, replay]
      dsimp only
      rw [balanced.replayed (Table.find_some found).1 rfl]
      exact balanced
    · rw [BudgetCall.perform, refused]
      exact balanced
    · rw [BudgetCall.perform, granted]
      exact balanced.granted absent idle
  | settle id usage =>
    rcases settle_cases coordinator id usage with
      ⟨-, error, refused⟩ | ⟨known, found, kept, same⟩ | ⟨known, used, found, unsettled, rfl, told, charged⟩
    · rw [BudgetCall.perform, refused]
      cases usage <;> exact balanced
    · rw [BudgetCall.perform, same]
      cases usage with
      | none => exact balanced
      | some used =>
        dsimp only
        split
        · rename_i told
          obtain ⟨member, own⟩ := Table.find_some found
          have settled : known.settled = true := kept.resolve_right (by simp [Option.filter, told])
          rw [← own, balanced.resettled member settled]
          exact balanced
        · exact balanced
    · rw [BudgetCall.perform, charged]
      dsimp only
      rw [if_pos told]
      exact balanced.settled found unsettled

theorem afterBudgetCall_policy (coordinator : BudgetCoordinator) (call : BudgetCall) :
    (afterBudgetCall coordinator call).policy = coordinator.policy := by
  unfold afterBudgetCall
  cases call with
  | reserve role key estimated now =>
    rcases reserve_cases coordinator role key estimated now with
      ⟨known, -, answer⟩ | ⟨-, error, answer⟩ | ⟨-, -, -, answer⟩ <;> rw [BudgetCall.perform, answer]
  | settle id usage =>
    rcases settle_cases coordinator id usage with
      ⟨-, error, answer⟩ | ⟨known, -, -, answer⟩ | ⟨known, used, -, -, -, -, answer⟩ <;>
        rw [BudgetCall.perform, answer]

theorem accounted_policy (policy : BudgetPolicy) (calls : List BudgetCall) :
    (accounted policy calls).1.policy = policy := by
  induction calls using List.reverseRecOn with
  | nil => rfl
  | append_singleton earlier call ih =>
    rw [accounted, List.foldl_append]
    exact (afterBudgetCall_policy _ call).trans ih

theorem accounted_balanced (policy : BudgetPolicy) (calls : List BudgetCall) :
    Balanced (accounted policy calls).1 (accounted policy calls).2 := by
  induction calls using List.reverseRecOn with
  | nil => exact Balanced.empty policy
  | append_singleton earlier call ih =>
    rw [accounted, List.foldl_append]
    exact ih.step call

theorem Balanced.answers (balanced : Balanced coordinator account) : BudgetAnswers coordinator where
  replayed role key estimated now known found := by
    rcases reserve_cases coordinator role key estimated now with
      ⟨same, also, replay⟩ | ⟨absent, -⟩ | ⟨absent, -⟩
    · obtain rfl := Option.some.inj (found.symm.trans also)
      obtain ⟨member, own⟩ := Table.find_some found
      obtain ⟨issued, id⟩ := balanced.ids known member
      exact ⟨(reservationId_inj (id.symm.trans own)).1, replay⟩
    · rw [absent] at found
      cases found
    · rw [absent] at found
      cases found
  resettled id known usage found settled := by
    rcases settle_cases coordinator id usage with
      ⟨absent, -⟩ | ⟨same, also, -, kept⟩ | ⟨other, used, also, unsettled, -⟩
    · rw [absent] at found
      cases found
    · obtain rfl := Option.some.inj (found.symm.trans also)
      exact kept
    · obtain rfl := Option.some.inj (found.symm.trans also)
      rw [settled] at unsettled
      cases unsettled
  refused role key estimated now error after refused := by
    rcases reserve_cases coordinator role key estimated now with
      ⟨known, -, replay⟩ | ⟨-, other, same⟩ | ⟨-, -, -, granted⟩
    · rw [replay] at refused
      cases refused
    · rw [same] at refused
      cases refused
      rfl
    · rw [granted] at refused
      cases refused
  granted role key estimated now reservation after absent granted := by
    rcases reserve_cases coordinator role key estimated now with
      ⟨known, found, -⟩ | ⟨-, error, refused⟩ | ⟨-, within, -⟩
    · rw [absent] at found
      cases found
    · rw [refused] at granted
      cases granted
    · exact check_within within

end Balanced

/-- After any calls every reservation counts once and the totals are those of the account, and the next call only
    adds what is within the limits. -/
theorem budget_accounted (policy : BudgetPolicy) (calls : List BudgetCall) :
    (accounted policy calls).1.policy = policy ∧
      BudgetAccounted (accounted policy calls).1 (accounted policy calls).2 ∧
      BudgetAnswers (accounted policy calls).1 :=
  ⟨accounted_policy policy calls, (accounted_balanced policy calls).accounted, (accounted_balanced policy calls).answers⟩

end DarkFactory
