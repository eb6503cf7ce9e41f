import DarkFactory.Changes.Decimals
import DarkFactory.Lib.Hmac
import DarkFactory.Lib.Window

namespace DarkFactory

def signatureHeader : String := "X-Plane-Signature"
def timestampHeader : String := "X-Plane-Timestamp"
def deliveryIdHeader : String := "X-Plane-Delivery"
def eventHeader : String := "X-Plane-Event"

def defaultToleranceSeconds : Int := 300
def defaultDedupCapacity : Nat := 4096
def maxActiveSecrets : Nat := 2

/-- What a call raises: the signature comparison a `TypeError`, a bad argument a `ValueError`. -/
inductive WebhookError
  | type (message : String)
  | value (message : String)
  deriving DecidableEq, Repr

/-- `<timestamp>.<body>` under the secret, in lower hexadecimal. -/
def computeSignature (secret timestamp : String) (body : List UInt8) : String :=
  Sha256.hmacHexdigest (Sha256.encode secret) (Sha256.encode (timestamp ++ ".") ++ body.map UInt8.toNat)

structure WebhookVerification where
  accepted : Bool
  reason : String
  eventId : Option String := none
  eventType : Option String := none
  deriving DecidableEq, Repr

/-- The headers as they came; of two whose names differ in case only the later counts. -/
abbrev Headers := List (String × String)

def lower (name : String) : List Char := name.toList.map Char.toLower

/-- No character outside ASCII lowers to one of a header's name. -/
def normalizedGet (headers : Headers) (name : String) : Option String :=
  (headers.reverse.find? fun header => lower header.1 = lower name).map Prod.snd

def strippedHeader (headers : Headers) (name : String) : String := Text.strip ((normalizedGet headers name).getD "")

def headerOf (headers : Headers) (name : String) : Option String :=
  some (strippedHeader headers name) |>.filter (· ≠ "")

def rejected (reason : String) (headers : Headers) : WebhookVerification :=
  { accepted := false, reason, eventId := headerOf headers deliveryIdHeader, eventType := headerOf headers eventHeader }

def isAscii (text : String) : Bool := text.toList.all (·.toNat < 128)

/-- `hmac.compare_digest` on two texts. -/
def compareDigest (expected signature : String) : Except WebhookError Bool :=
  if isAscii expected && isAscii signature then .ok (expected == signature)
  else .error (.type "comparing strings with non-ASCII characters is not supported")

def anyMatches (secrets : List String) (timestamp : String) (body : List UInt8) (signature : String) :
    Except WebhookError Bool :=
  secrets.foldlM (fun found secret => do
    let same ← compareDigest (computeSignature secret timestamp body) signature
    return found || same) false

def verifyWebhook (headers : Headers) (body : List UInt8) (secrets : List String) (now toleranceSeconds : Int) :
    Except WebhookError WebhookVerification := do
  let signature := strippedHeader headers signatureHeader
  if signature = "" then return rejected "missing_signature" headers
  let timestampRaw := strippedHeader headers timestampHeader
  if timestampRaw = "" then return rejected "missing_timestamp" headers
  match parseInt timestampRaw with
  | none => return rejected "malformed_timestamp" headers
  | some timestamp =>
    if toleranceSeconds < (now - timestamp).natAbs then return rejected "stale_timestamp" headers
    if ← anyMatches secrets timestampRaw body signature then
      return { accepted := true, reason := "accepted", eventId := headerOf headers deliveryIdHeader,
               eventType := headerOf headers eventHeader }
    return rejected "invalid_signature" headers

structure WebhookDeduplicator where
  capacity : Nat := defaultDedupCapacity
  seen : List String := []
  positive : 0 < capacity := by decide
  nodup : seen.Nodup := by simp
  bounded : seen.length ≤ capacity := by simp

theorem nodup_remember {capacity : Nat} {seen : List String} {eventId : String} (nodup : seen.Nodup)
    (fresh : eventId ∉ seen) : (Window.remember capacity seen eventId).Nodup := by
  rw [Window.remember, Window.evict_eq]
  have grown : (seen ++ [eventId]).Nodup := by simpa [List.nodup_append] using ⟨nodup, fun id seen same => fresh (same ▸ seen)⟩
  exact grown.sublist (List.drop_sublist _ _)

theorem length_remember_le {capacity : Nat} {seen : List String} {eventId : String} :
    (Window.remember capacity seen eventId).length ≤ capacity := by
  rw [Window.remember, Window.evict_eq, List.rtake, List.length_drop]
  omega

def WebhookDeduplicator.register (dedup : WebhookDeduplicator) (eventId : String) : Bool × WebhookDeduplicator :=
  if fresh : eventId ∈ dedup.seen then (false, dedup)
  else
    (true, { dedup with
      seen := Window.remember dedup.capacity dedup.seen eventId
      nodup := nodup_remember dedup.nodup fresh
      bounded := length_remember_le })

/-- `secrets` is never empty and holds no blank one, the current secret first. -/
structure PlaneWebhookGuard where
  secrets : List String
  toleranceSeconds : Int
  dedup : WebhookDeduplicator
  present : secrets ≠ []
  notBlank : ∀ secret ∈ secrets, secret ≠ ""

def PlaneWebhookGuard.create (secrets : List String) (toleranceSeconds : Int) (dedupCapacity : Nat) :
    Except WebhookError PlaneWebhookGuard :=
  let cleaned := secrets.filter (· ≠ "")
  if present : cleaned = [] then .error (.value "at least one webhook secret is required")
  else if positive : dedupCapacity < 1 then .error (.value "capacity must be positive")
  else
    .ok { secrets := cleaned
          toleranceSeconds
          dedup := { capacity := dedupCapacity, positive := not_lt.mp positive }
          present
          notBlank := fun secret member => by simpa using (List.mem_filter.mp member).2 }

def PlaneWebhookGuard.rotate (guard : PlaneWebhookGuard) (secret : String) : Except WebhookError PlaneWebhookGuard :=
  if blank : secret = "" then .error (.value "secret must not be blank")
  else
    .ok { guard with
      secrets := secret :: guard.secrets.take (maxActiveSecrets - 1)
      present := List.cons_ne_nil _ _
      notBlank := List.forall_mem_cons.mpr
        ⟨blank, fun other member => guard.notBlank other (List.mem_of_mem_take member)⟩ }

/-- An exception leaves the guard as it was. -/
def PlaneWebhookGuard.verify (guard : PlaneWebhookGuard) (headers : Headers) (body : List UInt8) (now : Int) :
    Except WebhookError WebhookVerification × PlaneWebhookGuard :=
  match verifyWebhook headers body guard.secrets now guard.toleranceSeconds with
  | .error error => (.error error, guard)
  | .ok verification =>
    if !verification.accepted then (.ok verification, guard)
    else
      match verification.eventId with
      | none =>
        (.ok { accepted := false, reason := "missing_event_id", eventType := verification.eventType }, guard)
      | some eventId =>
        match guard.dedup.register eventId with
        | (false, _) =>
          (.ok { accepted := false, reason := "duplicate_event", eventId := some eventId,
                 eventType := verification.eventType }, guard)
        | (true, dedup) => (.ok verification, { guard with dedup })

end DarkFactory
