import DarkFactory.Tracker.Webhook

namespace DarkFactory

def Authentic (secrets : List String) (headers : Headers) (body : List UInt8) : Prop :=
  ∃ secret ∈ secrets, strippedHeader headers signatureHeader =
    computeSignature secret (strippedHeader headers timestampHeader) body

def InWindow (headers : Headers) (now toleranceSeconds : Int) : Prop :=
  ∃ timestamp, parseInt (strippedHeader headers timestampHeader) = some timestamp ∧
    (now - timestamp).natAbs ≤ toleranceSeconds

/-! ## Signatures -/

section Signatures

variable {secret timestamp signature : String} {secrets : List String} {body : List UInt8} {headers : Headers}
  {now toleranceSeconds : Int}

theorem computeSignature_ascii : isAscii (computeSignature secret timestamp body) = true := by
  have digits : ∀ c ∈ Sha256.hexDigits, c.toNat < 128 := by
    have every : Sha256.hexDigits.all (fun c => c.toNat < 128) = true := by decide +kernel
    simpa only [List.all_eq_true, decide_eq_true_eq] using every
  simp only [isAscii, List.all_eq_true, decide_eq_true_eq]
  exact fun c member => digits c (Sha256.hmacHexdigest_hex member)

theorem computeSignature_ne : computeSignature secret timestamp body ≠ "" := Sha256.hmacHexdigest_ne _ _

theorem compareDigest_of_ascii (ascii : isAscii signature = true) :
    compareDigest (computeSignature secret timestamp body) signature =
      .ok (computeSignature secret timestamp body == signature) := by
  simp [compareDigest, computeSignature_ascii, ascii]

theorem compareDigest_of_other (secret timestamp : String) (body : List UInt8) (other : isAscii signature = false) :
    ∃ error, compareDigest (computeSignature secret timestamp body) signature = .error error := by
  simp [compareDigest, other]

theorem anyMatches_of_ascii (ascii : isAscii signature = true) :
    anyMatches secrets timestamp body signature =
      .ok (secrets.any fun secret => computeSignature secret timestamp body == signature) := by
  have folded (found : Bool) : (secrets.foldlM (fun found secret => do
      let same ← compareDigest (computeSignature secret timestamp body) signature
      return found || same) found : Except WebhookError Bool) =
      .ok (found || secrets.any fun secret => computeSignature secret timestamp body == signature) := by
    induction secrets generalizing found with
    | nil => simp [pure, Except.pure]
    | cons secret rest ih =>
      rw [List.foldlM_cons, compareDigest_of_ascii ascii, List.any_cons, ← Bool.or_assoc]
      exact ih _
  simpa [anyMatches] using folded false

theorem anyMatches_of_other (other : isAscii signature = false) :
    anyMatches secrets timestamp body signature ≠ .ok true := by
  cases secrets with
  | nil => simp [anyMatches, pure, Except.pure]
  | cons secret rest =>
    obtain ⟨error, raised⟩ := compareDigest_of_other secret timestamp body other
    rw [anyMatches, List.foldlM_cons, raised]
    exact nofun

theorem anyMatches_iff : anyMatches secrets timestamp body signature = .ok true ↔
    ∃ secret ∈ secrets, signature = computeSignature secret timestamp body := by
  cases ascii : isAscii signature with
  | true =>
    rw [anyMatches_of_ascii ascii, Except.ok.injEq, List.any_eq_true]
    simp only [beq_iff_eq]
    exact exists_congr fun secret => and_congr_right fun _ => eq_comm
  | false =>
    refine iff_of_false (anyMatches_of_other ascii) ?_
    rintro ⟨secret, _, same⟩
    rw [same, computeSignature_ascii] at ascii
    exact absurd ascii (by decide)

theorem parseInt_blank : parseInt "" = none := by decide

def authenticated (headers : Headers) : WebhookVerification :=
  { accepted := true, reason := "accepted", eventId := headerOf headers deliveryIdHeader,
    eventType := headerOf headers eventHeader }

theorem authenticated_eventId (headers : Headers) :
    (authenticated headers).eventId = headerOf headers deliveryIdHeader := by
  rw [authenticated]

theorem verifyWebhook_of_authentic (authentic : Authentic secrets headers body)
    (inWindow : InWindow headers now toleranceSeconds) :
    verifyWebhook headers body secrets now toleranceSeconds = .ok (authenticated headers) := by
  have ⟨secret, member, signed⟩ := authentic
  have ⟨timestamp, parsed, near⟩ := inWindow
  have signature : strippedHeader headers signatureHeader ≠ "" := by
    rw [signed]
    exact computeSignature_ne
  have given : strippedHeader headers timestampHeader ≠ "" := by
    intro blank
    simp [blank, parseInt_blank] at parsed
  have found := anyMatches_iff.mpr authentic
  unfold verifyWebhook
  simp only [signature, given, parsed, found, if_false, Int.not_lt.mpr near, bind, Except.bind, if_true]
  rfl

theorem verifyWebhook_accepted {verification : WebhookVerification}
    (verified : verifyWebhook headers body secrets now toleranceSeconds = .ok verification)
    (accepted : verification.accepted = true) :
    verification = authenticated headers ∧ Authentic secrets headers body ∧ InWindow headers now toleranceSeconds := by
  unfold verifyWebhook at verified
  have refused {reason : String} (same : rejected reason headers = verification) : False := by
    rw [← same] at accepted
    simp [rejected] at accepted
  by_cases signature : strippedHeader headers signatureHeader = ""
  · simp only [signature, if_true] at verified
    exact (refused (Except.ok.inj verified)).elim
  by_cases given : strippedHeader headers timestampHeader = ""
  · simp only [signature, given, if_true, if_false] at verified
    exact (refused (Except.ok.inj verified)).elim
  simp only [signature, given, if_false] at verified
  cases parsed : parseInt (strippedHeader headers timestampHeader) with
  | none =>
    rw [parsed] at verified
    exact (refused (Except.ok.inj verified)).elim
  | some timestamp =>
    simp only [parsed] at verified
    split at verified
    · exact (refused (Except.ok.inj verified)).elim
    · rename_i near
      cases found : anyMatches secrets (strippedHeader headers timestampHeader) body
          (strippedHeader headers signatureHeader) with
      | error error =>
        rw [found] at verified
        exact nomatch verified
      | ok matching =>
        rw [found] at verified
        cases matching with
        | false => exact (refused (Except.ok.inj verified)).elim
        | true => exact ⟨(Except.ok.inj verified).symm, anyMatches_iff.mp found, timestamp, parsed, Int.not_lt.mp near⟩

end Signatures

/-! ## Runs -/

inductive GuardCall
  | verify (headers : Headers) (body : List UInt8) (now : Int)
  | rotate (secret : String)

structure AcceptedDelivery where
  timestamp : String
  body : List UInt8
  eventId : String
  deriving DecidableEq, Repr

structure GuardRun where
  guard : PlaneWebhookGuard
  log : List AcceptedDelivery := []

def GuardRun.eventIds (run : GuardRun) : List String := run.log.map AcceptedDelivery.eventId

def GuardRun.next (run : GuardRun) : GuardCall → GuardRun
  | .rotate secret =>
    match run.guard.rotate secret with
    | .ok guard => { run with guard }
    | .error _ => run
  | .verify headers body now =>
    match run.guard.verify headers body now with
    | (.ok ⟨true, _, some eventId, _⟩, guard) =>
      { guard, log := run.log ++ [⟨strippedHeader headers timestampHeader, body, eventId⟩] }
    | (_, guard) => { run with guard }

def PlaneWebhookGuard.Accepts (guard : PlaneWebhookGuard) (headers : Headers) (body : List UInt8) (now : Int) : Prop :=
  ∃ verification, (guard.verify headers body now).1 = .ok verification ∧ verification.accepted = true

section Runs

variable {guard : PlaneWebhookGuard} {run : GuardRun} {headers : Headers} {body : List UInt8} {now : Int}
  {eventId : String}

theorem register_fresh {dedup : WebhookDeduplicator} (fresh : eventId ∉ dedup.seen) :
    ∃ after, dedup.register eventId = (true, after) ∧ after.capacity = dedup.capacity ∧
      after.seen = Window.remember dedup.capacity dedup.seen eventId := by
  unfold WebhookDeduplicator.register
  rw [dif_neg fresh]
  exact ⟨_, rfl, rfl, rfl⟩

theorem register_seen {dedup : WebhookDeduplicator} (seen : eventId ∈ dedup.seen) :
    dedup.register eventId = (false, dedup) := by
  unfold WebhookDeduplicator.register
  rw [dif_pos seen]

structure PlaneWebhookGuard.Admits (guard : PlaneWebhookGuard) (headers : Headers) (body : List UInt8) (now : Int)
    (eventId : String) : Prop where
  authentic : Authentic guard.secrets headers body
  inWindow : InWindow headers now guard.toleranceSeconds
  named : headerOf headers deliveryIdHeader = some eventId
  fresh : eventId ∉ guard.dedup.seen

theorem verify_of_admits (admits : guard.Admits headers body now eventId) :
    ∃ dedup, dedup.capacity = guard.dedup.capacity ∧
      dedup.seen = Window.remember guard.dedup.capacity guard.dedup.seen eventId ∧
      guard.verify headers body now = (.ok (authenticated headers), { guard with dedup }) := by
  obtain ⟨dedup, registered, capacity, seen⟩ := register_fresh admits.fresh
  refine ⟨dedup, capacity, seen, ?_⟩
  have verified := verifyWebhook_of_authentic admits.authentic admits.inWindow
  have named := (authenticated_eventId headers).trans admits.named
  unfold PlaneWebhookGuard.verify
  rw [verified]
  simp only [named, registered]
  rfl

/-- A delivery that is not admitted is not accepted and leaves the guard as it was. -/
theorem verify_of_not_admits (refused : ∀ eventId, ¬ guard.Admits headers body now eventId) :
    (guard.verify headers body now).2 = guard ∧
      ∀ verification, (guard.verify headers body now).1 = .ok verification → verification.accepted = false := by
  unfold PlaneWebhookGuard.verify
  cases verified : verifyWebhook headers body guard.secrets now guard.toleranceSeconds with
  | error error => simp
  | ok verification =>
    cases accepted : verification.accepted with
    | false => simp [accepted]
    | true =>
      obtain ⟨rfl, authentic, inWindow⟩ := verifyWebhook_accepted verified accepted
      cases named : headerOf headers deliveryIdHeader with
      | none =>
        simp only [authenticated, named]
        simp
      | some eventId =>
        have seen : eventId ∈ guard.dedup.seen := by
          by_contra fresh
          exact refused eventId ⟨authentic, inWindow, named, fresh⟩
        simp only [authenticated, named, register_seen seen]
        simp

theorem accepts_iff : guard.Accepts headers body now ↔ ∃ eventId, guard.Admits headers body now eventId := by
  constructor
  · intro ⟨verification, verified, accepted⟩
    by_contra refused
    rw [not_exists] at refused
    simp [(verify_of_not_admits refused).2 verification verified] at accepted
  · intro ⟨eventId, admits⟩
    obtain ⟨dedup, _, _, verified⟩ := verify_of_admits admits
    exact ⟨authenticated headers, by rw [verified], rfl⟩

theorem next_of_admits (admits : run.guard.Admits headers body now eventId) :
    ∃ dedup : WebhookDeduplicator, dedup.capacity = run.guard.dedup.capacity ∧
      dedup.seen = Window.remember run.guard.dedup.capacity run.guard.dedup.seen eventId ∧
      run.next (.verify headers body now) =
        { guard := { run.guard with dedup }
          log := run.log ++ [⟨strippedHeader headers timestampHeader, body, eventId⟩] } := by
  obtain ⟨dedup, capacity, seen, verified⟩ := verify_of_admits admits
  refine ⟨dedup, capacity, seen, ?_⟩
  simp only [GuardRun.next, verified, authenticated, admits.named]

theorem next_of_not_admits (refused : ∀ eventId, ¬ run.guard.Admits headers body now eventId) :
    run.next (.verify headers body now) = run := by
  have ⟨same, silent⟩ := verify_of_not_admits refused
  unfold GuardRun.next
  dsimp only
  split
  · rename_i verified
    rw [verified] at silent
    exact absurd (silent _ rfl) (by simp)
  · rename_i verified
    rw [verified] at same
    cases same
    rfl

/-- The memory holds the last ids that were accepted, and equal ones stand as far apart as it is long. -/
structure GuardRun.Remembers (run : GuardRun) (toleranceSeconds : Int) (capacity : Nat) : Prop where
  tolerance : run.guard.toleranceSeconds = toleranceSeconds
  holds : run.guard.dedup.capacity = capacity
  seen : run.guard.dedup.seen = run.eventIds.rtake capacity
  spaced : Window.Spaced capacity run.eventIds

theorem remembers_next {toleranceSeconds : Int} {capacity : Nat} {call : GuardCall}
    (remembers : run.Remembers toleranceSeconds capacity) : (run.next call).Remembers toleranceSeconds capacity := by
  cases call with
  | rotate secret =>
    unfold GuardRun.next PlaneWebhookGuard.rotate
    by_cases blank : secret = ""
    · simpa [blank] using remembers
    · simp only [blank, dite_false]
      exact ⟨remembers.tolerance, remembers.holds, remembers.seen, remembers.spaced⟩
  | verify headers body now =>
    by_cases admitted : ∃ eventId, run.guard.Admits headers body now eventId
    · obtain ⟨eventId, admits⟩ := admitted
      obtain ⟨dedup, sameCapacity, seen, after⟩ := next_of_admits admits
      have grown : (run.next (.verify headers body now)).eventIds = run.eventIds ++ [eventId] := by
        simp [GuardRun.eventIds, after]
      have fresh := remembers.seen ▸ admits.fresh
      constructor
      · rw [after]
        exact remembers.tolerance
      · rw [after]
        exact sameCapacity.trans remembers.holds
      · rw [grown, after, ← Window.remember_eq, ← remembers.seen, ← remembers.holds]
        exact seen
      · rw [grown]
        exact Window.spaced_concat remembers.spaced fresh
    · rw [next_of_not_admits (not_exists.mp admitted)]
      exact remembers

theorem remembers_run {toleranceSeconds : Int} {capacity : Nat} (calls : List GuardCall)
    (remembers : run.Remembers toleranceSeconds capacity) :
    (calls.foldl GuardRun.next run).Remembers toleranceSeconds capacity := by
  induction calls generalizing run with
  | nil => exact remembers
  | cons call rest ih => exact ih (remembers_next remembers)

theorem remembers_create {secrets : List String} {toleranceSeconds : Int} {capacity : Nat}
    (created : PlaneWebhookGuard.create secrets toleranceSeconds capacity = .ok guard) :
    GuardRun.Remembers { guard } toleranceSeconds capacity := by
  unfold PlaneWebhookGuard.create at created
  dsimp only at created
  split at created
  · cases created
  split at created
  · cases created
  · cases created
    refine ⟨rfl, rfl, by simp [GuardRun.eventIds], ?_⟩
    intro before between after entry split
    simp [GuardRun.eventIds] at split

/-- Whatever is sent: an id is accepted again only after as many other deliveries as the memory holds, and the guard
    accepts exactly the authentic deliveries in the window whose id it does not remember. -/
theorem webhook_accepts_once {secrets : List String} {toleranceSeconds : Int} {dedupCapacity : Nat}
    (created : PlaneWebhookGuard.create secrets toleranceSeconds dedupCapacity = .ok guard) (calls : List GuardCall) :
    let run := calls.foldl GuardRun.next { guard }
    (∀ before first between second after, run.log = before ++ first :: (between ++ second :: after) →
        first.eventId ≠ second.eventId ∨ dedupCapacity ≤ between.length) ∧
      ∀ headers body now, run.guard.Accepts headers body now ↔
        Authentic run.guard.secrets headers body ∧ InWindow headers now toleranceSeconds ∧
          ∃ eventId, headerOf headers deliveryIdHeader = some eventId ∧
            eventId ∉ run.eventIds.rtake dedupCapacity := by
  intro run
  have remembers : run.Remembers toleranceSeconds dedupCapacity := remembers_run calls (remembers_create created)
  constructor
  · intro before first between second after split
    by_cases same : first.eventId = second.eventId
    · right
      have ids : run.eventIds = before.map AcceptedDelivery.eventId ++ first.eventId ::
          (between.map AcceptedDelivery.eventId ++ first.eventId :: after.map AcceptedDelivery.eventId) := by
        simp [GuardRun.eventIds, split, same]
      have apart := remembers.spaced _ _ _ _ ids
      rwa [List.length_map] at apart
    · exact .inl same
  · intro headers body now
    rw [accepts_iff]
    constructor
    · intro ⟨eventId, admits⟩
      have fresh := remembers.seen ▸ admits.fresh
      exact ⟨admits.authentic, remembers.tolerance ▸ admits.inWindow, eventId, admits.named, fresh⟩
    · intro ⟨authentic, inWindow, eventId, named, fresh⟩
      exact ⟨eventId, authentic, remembers.tolerance.symm ▸ inWindow, named, remembers.seen.symm ▸ fresh⟩

def signedHeaders (secret timestamp eventId : String) (body : List UInt8) : Headers :=
  [(signatureHeader, computeSignature secret timestamp body), (timestampHeader, timestamp), (deliveryIdHeader, eventId)]

theorem strip_computeSignature {secret timestamp : String} :
    Text.strip (computeSignature secret timestamp body) = computeSignature secret timestamp body := by
  have digits : ∀ c ∈ Sha256.hexDigits, Text.isSpace c = false := by
    have every : Sha256.hexDigits.all (fun c => !Text.isSpace c) = true := by decide +kernel
    simpa only [List.all_eq_true, Bool.not_eq_true'] using every
  have kept (chars : List Char) (hex : ∀ c ∈ chars, c ∈ Sha256.hexDigits) : chars.dropWhile Text.isSpace = chars := by
    cases chars with
    | nil => rfl
    | cons first rest => exact List.dropWhile_cons_of_neg (by simp [digits first (hex first List.mem_cons_self)])
  have hex (c : Char) (member : c ∈ (computeSignature secret timestamp body).toList) : c ∈ Sha256.hexDigits :=
    Sha256.hmacHexdigest_hex member
  rw [Text.strip, kept _ hex, kept _ (fun c member => hex c (List.mem_reverse.mp member)), List.reverse_reverse,
    String.ofList_toList]

theorem normalizedGet_three (signature timestamp eventId : String) :
    let headers : Headers :=
      [(signatureHeader, signature), (timestampHeader, timestamp), (deliveryIdHeader, eventId)]
    normalizedGet headers signatureHeader = some signature ∧ normalizedGet headers timestampHeader = some timestamp ∧
      normalizedGet headers deliveryIdHeader = some eventId := by
  have apart : lower timestampHeader ≠ lower signatureHeader ∧ lower deliveryIdHeader ≠ lower signatureHeader ∧
      lower deliveryIdHeader ≠ lower timestampHeader := by
    decide
  simp [normalizedGet, apart]

theorem strippedHeader_signed {secret timestamp eventId : String} :
    let headers := signedHeaders secret timestamp eventId body
    strippedHeader headers signatureHeader = computeSignature secret timestamp body ∧
      strippedHeader headers timestampHeader = Text.strip timestamp ∧
      strippedHeader headers deliveryIdHeader = Text.strip eventId := by
  have ⟨signature, stamp, name⟩ := normalizedGet_three (computeSignature secret timestamp body) timestamp eventId
  simp only [strippedHeader, signedHeaders, signature, stamp, name, Option.getD_some, strip_computeSignature, and_self]

/-- An authentic first delivery in the window is admitted. -/
theorem admits_signed {secret timestamp : String} {moment : Int} (active : secret ∈ guard.secrets)
    (clean : Text.strip timestamp = timestamp) (parsed : parseInt timestamp = some moment)
    (near : (now - moment).natAbs ≤ guard.toleranceSeconds) (trimmed : Text.strip eventId = eventId)
    (given : eventId ≠ "") (fresh : eventId ∉ guard.dedup.seen) :
    guard.Admits (signedHeaders secret timestamp eventId body) body now eventId := by
  have ⟨signature, stamp, name⟩ := @strippedHeader_signed body secret timestamp eventId
  rw [clean] at stamp
  rw [trimmed] at name
  constructor
  · exact ⟨secret, active, by rw [signature, stamp]⟩
  · exact ⟨moment, by rw [stamp, parsed], near⟩
  · simp [headerOf, name, given]
  · exact fresh

structure GuardRun.Ready (run : GuardRun) (secret : String) (capacity : Nat) (seen : List String)
    (log : List AcceptedDelivery) : Prop where
  active : secret ∈ run.guard.secrets
  tolerant : 0 ≤ run.guard.toleranceSeconds
  holds : run.guard.dedup.capacity = capacity
  remembered : run.guard.dedup.seen = seen
  accepted : run.log = log

theorem ready_signed {secret timestamp : String} {capacity : Nat} {seen : List String} {log : List AcceptedDelivery}
    (ready : run.Ready secret capacity seen log) (clean : Text.strip timestamp = timestamp)
    (parsed : parseInt timestamp = some now) (trimmed : Text.strip eventId = eventId) (given : eventId ≠ "")
    (fresh : eventId ∉ seen) :
    (run.next (.verify (signedHeaders secret timestamp eventId body) body now)).Ready secret capacity
      (Window.remember capacity seen eventId) (log ++ [⟨timestamp, body, eventId⟩]) := by
  have near : (now - now).natAbs ≤ run.guard.toleranceSeconds := by simpa using ready.tolerant
  have admits := @admits_signed run.guard body now eventId secret timestamp now ready.active clean parsed near trimmed
    given (ready.remembered ▸ fresh)
  obtain ⟨dedup, same, grown, after⟩ := next_of_admits admits
  rw [strippedHeader_signed.2.1, clean, ready.accepted] at after
  rw [ready.holds, ready.remembered] at grown
  rw [after]
  exact ⟨ready.active, ready.tolerant, same.trans ready.holds, grown, rfl⟩

theorem ready_create {secret : String} {capacity : Nat} (given : secret ≠ "") (positive : 0 < capacity) :
    ∃ guard, PlaneWebhookGuard.create [secret] defaultToleranceSeconds capacity = .ok guard ∧
      GuardRun.Ready { guard } secret capacity [] [] := by
  have cleaned : [secret].filter (· ≠ "") = [secret] := by simp [given]
  have fits : ¬ capacity < 1 := by omega
  unfold PlaneWebhookGuard.create
  simp only [cleaned, fits, dite_false, List.cons_ne_nil]
  have tolerant : (0 : Int) ≤ defaultToleranceSeconds := by decide
  exact ⟨_, rfl, List.mem_singleton.mpr rfl, tolerant, rfl, rfl, rfl⟩

/-- A captured delivery is accepted again under another id, which is not signed, and under its own one when the
    memory has lost it. -/
theorem replayed_delivery_accepted :
    (∃ guard, PlaneWebhookGuard.create ["s"] defaultToleranceSeconds defaultDedupCapacity = .ok guard ∧
      let send (eventId : String) : GuardCall := .verify (signedHeaders "s" "1000" eventId []) [] 1000
      ([send "a", send "b"].foldl GuardRun.next { guard }).log = [⟨"1000", [], "a"⟩, ⟨"1000", [], "b"⟩]) ∧
    ∃ guard, PlaneWebhookGuard.create ["s"] defaultToleranceSeconds 1 = .ok guard ∧
      let send (eventId : String) (body : List UInt8) : GuardCall :=
        .verify (signedHeaders "s" "1000" eventId body) body 1000
      ([send "a" [], send "b" [1], send "a" []].foldl GuardRun.next { guard }).log =
        [⟨"1000", [], "a"⟩, ⟨"1000", [1], "b"⟩, ⟨"1000", [], "a"⟩] := by
  have clean : Text.strip "1000" = "1000" := by decide
  have parsed : parseInt "1000" = some 1000 := by decide
  have a : Text.strip "a" = "a" := by decide
  have b : Text.strip "b" = "b" := by decide
  constructor
  · obtain ⟨guard, created, ready⟩ := @ready_create "s" defaultDedupCapacity (by decide) (by decide)
    have first := @ready_signed _ [] _ _ _ _ _ _ _ ready clean parsed a (by decide) (by decide)
    have second := @ready_signed _ [] _ _ _ _ _ _ _ first clean parsed b (by decide) (by decide)
    refine ⟨guard, created, ?_⟩
    intro send
    rw [List.foldl_cons, List.foldl_cons, List.foldl_nil]
    exact second.accepted
  · obtain ⟨guard, created, ready⟩ := @ready_create "s" 1 (by decide) (by decide)
    have first := @ready_signed _ [] _ _ _ _ _ _ _ ready clean parsed a (by decide) (by decide)
    have second := @ready_signed _ [1] _ _ _ _ _ _ _ first clean parsed b (by decide) (by decide)
    have third := @ready_signed _ [] _ _ _ _ _ _ _ second clean parsed a (by decide) (by decide)
    refine ⟨guard, created, ?_⟩
    intro send
    rw [List.foldl_cons, List.foldl_cons, List.foldl_cons, List.foldl_nil]
    exact third.accepted

/-- A fresh guard of one secret accepts a first delivery. -/
theorem first_delivery_accepted :
    ∃ guard, PlaneWebhookGuard.create ["s"] defaultToleranceSeconds 2 = .ok guard ∧
      guard.Accepts (signedHeaders "s" "1000" "a" [1]) [1] 1000 := by
  obtain ⟨guard, created, ready⟩ := @ready_create "s" 2 (by decide) (by decide)
  have once := (webhook_accepts_once created []).2 (signedHeaders "s" "1000" "a" [1]) [1] 1000
  have clean : Text.strip "1000" = "1000" := by decide
  have named : Text.strip "a" = "a" := by decide
  have admits := @admits_signed guard [1] 1000 "a" "s" "1000" 1000 ready.active clean (by decide)
    (by simpa using ready.tolerant) named (by decide) (by rw [ready.remembered]; decide)
  have inWindow := (remembers_create created).tolerance ▸ admits.inWindow
  have fresh : "a" ∉ (GuardRun.eventIds { guard }).rtake 2 := List.not_mem_nil
  exact ⟨guard, created, once.mpr ⟨admits.authentic, inWindow, "a", admits.named, fresh⟩⟩

end Runs

end DarkFactory
