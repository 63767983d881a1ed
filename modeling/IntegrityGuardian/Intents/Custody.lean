import IntegrityGuardian.Intents.Reconciler

/-!
# One-use custody of intents

`intent_custody.py`: any number of clients share one table, and each call runs
its checks and then one transaction.  The reservation a caller presents to
`consume` or `abandon` is an argument like any other and may be forged.
-/

namespace IntegrityGuardian.Intents

open Python Library

inductive Status where
  | reserved
  | consumed
  | abandoned
  deriving DecidableEq

def Status.text : Status → Str
  | .reserved => str "reserved"
  | .consumed => str "consumed"
  | .abandoned => str "abandoned"

/-- A row of `intent_custody`. -/
structure Row where
  tenantId : Str
  intentId : Str
  intentDigest : Str
  holder : Str
  reservationId : Str
  status : Status
  reservedAt : Str
  closedAt : Option Str
  receiptJson : Option Bytes
  deriving DecidableEq

/-- The primary key. -/
def Row.key (row : Row) : Str × Str := (row.tenantId, row.intentId)

abbrev Table := List Row

structure IntentReservation where
  tenantId : Str
  intentId : Str
  intentDigest : Str
  holder : Str
  reservationId : Str
  reservedAt : Str
  deriving DecidableEq

/-- A client of the store, with the tenant its constructor requires. -/
structure Client [Ed25519] where
  tenantId : Str
  tenantId_ne : tenantId ≠ []
  authorityKey : TrustedKey
  signer : Option Ed25519Signer

def refuse (message : String) : Error := .custodyError (str message)

/-- `_timestamp`: the argument, or what the clock shows when it is omitted. -/
def timestamp (now : Option Datetime) (clock : Instant) : Except Error Instant :=
  match now with
  | none => .ok clock
  | some d =>
    match d.utcoffset with
    | none => .error (refuse "custody time must include a timezone")
    | some offset => raising (instant (d.moment offset))

/-- `ChangeIntent {intent_id} is already {status}`. -/
def alreadyClosed (intentId : Str) (status : Status) : Error :=
  .replayError (str "ChangeIntent " ++ intentId ++ str " is already " ++ status.text)

/-- `_row`. -/
def findRow (tenantId intentId : Str) (table : Table) : Option Row :=
  table.find? fun row => row.key = (tenantId, intentId)

section
variable [UnicodeData]

/-- `intent_digest`. -/
def intentDigest (intent : Json) : Except Exc Str :=
  digestObject intent (str "change-intent-custody-v1")

/-- The identity of a reservation. -/
def reservationIdentity (tenantId intentId digest holder reservedAt : Str) : Except Exc Str := do
  let identity ← digestObject (.obj [
    (str "tenant_id", .str tenantId),
    (str "intent_id", .str intentId),
    (str "intent_digest", .str digest),
    (str "holder", .str holder),
    (str "reserved_at", .str reservedAt)]) (str "change-intent-reservation-v1")
  .ok (str "reservation:" ++ identity)

end

/-- The transaction of `reserve`. -/
def insertReservation (reservation : IntentReservation) (table : Table) : Except Error Table :=
  match findRow reservation.tenantId reservation.intentId table with
  | some existing => .error (alreadyClosed reservation.intentId existing.status)
  | none => do
    ensure (∀ row ∈ table, row.reservationId ≠ reservation.reservationId)
      (.raised (.integrityError (str "intent_custody.reservation_id")))
    .ok (table ++ [{
      tenantId := reservation.tenantId
      intentId := reservation.intentId
      intentDigest := reservation.intentDigest
      holder := reservation.holder
      reservationId := reservation.reservationId
      status := .reserved
      reservedAt := reservation.reservedAt
      closedAt := none
      receiptJson := none }])

/-- `_checked_reservation`. -/
def checkedReservation (tenantId : Str) (reservation : IntentReservation) (table : Table) :
    Except Error Row :=
  match findRow tenantId reservation.intentId table with
  | none => .error (refuse "reservation is unknown to this custody store")
  | some row => do
    ensure (row.reservationId = reservation.reservationId)
      (refuse "reservation is unknown to this custody store")
    ensure (row.intentDigest = reservation.intentDigest)
      (refuse "reservation intent digest mismatch")
    ensure (row.status = .reserved) (alreadyClosed reservation.intentId row.status)
    .ok row

/-- The `WHERE` of the update in `_close_row`. -/
def isOpen (tenantId : Str) (reservation : IntentReservation) (row : Row) : Bool :=
  row.key = (tenantId, reservation.intentId) ∧ row.reservationId = reservation.reservationId
    ∧ row.status = .reserved

def Row.close (row : Row) (status : Status) (closedAt : Str) (receiptJson : Bytes) : Row :=
  { row with status, closedAt := some closedAt, receiptJson := some receiptJson }

/-- `_close_row`. -/
def closeRow (tenantId : Str) (reservation : IntentReservation) (status : Status) (closedAt : Str)
    (receipt : Json) (table : Table) : Except Error Table := do
  let receiptJson ← raising (canonicalBytes receipt)
  ensure (table.countP (isOpen tenantId reservation) = 1)
    (.replayError (str "reservation was closed concurrently"))
  .ok (table.map fun row =>
    if isOpen tenantId reservation row then row.close status closedAt receiptJson else row)

/-- `PROTOCOL`. -/
def protocol : Str := str "integrity-guardian/change-intent-consumption/v1"

/-- What the receipts of `consume` and `abandon` begin with. -/
def receiptCore (outcome tenantId : Str) (reservation : IntentReservation) (row : Row)
    (closedAt : Str) : List (Str × Json) := [
  (str "protocol", .str protocol),
  (str "outcome", .str outcome),
  (str "tenant_id", .str tenantId),
  (str "intent_id", .str reservation.intentId),
  (str "intent_digest", .str reservation.intentDigest),
  (str "reservation_id", .str reservation.reservationId),
  (str "holder", .str row.holder),
  (str "reserved_at", .str row.reservedAt),
  (str "closed_at", .str closedAt)]

/-- The receipt of `consume`. -/
def consumedReceipt (tenantId : Str) (reservation : IntentReservation) (closedAt : Str)
    (observed : List ObservedDelta) (results : List Json) (row : Row) : Json :=
  .obj (receiptCore (str "consumed") tenantId reservation row closedAt ++ [
    (str "observation_event_ids",
      .arr (observed.map fun delta => optionalText delta.sourceEventId)),
    (str "classifications",
      .arr (results.filterMap fun item => item.get? (str "classification"))),
    (str "results", .arr results)])

/-- The receipt of `abandon`. -/
def abandonedReceipt (tenantId : Str) (reservation : IntentReservation) (closedAt reason : Str)
    (row : Row) : Json :=
  .obj (receiptCore (str "abandoned") tenantId reservation row closedAt ++ [
    (str "reason", .str reason)])

section
variable [UnicodeData] [Ed25519]

/-- `_seal`. -/
def Client.seal (client : Client) (receipt : Json) : Except Exc Json := do
  let identity ← digestObject receipt (str "change-intent-consumption-receipt-v1")
  let receipt := receipt.set (str "receipt_id") (.str (str "receipt:" ++ identity))
  match client.signer with
  | none => .ok receipt
  | some signer => signer.sign receipt

/-- `reserve` up to its transaction. -/
def Client.prepare (client : Client) (intent : Json) (holder : Str) (now : Option Datetime)
    (clock : Instant) : Except Error IntentReservation := do
  ensure (holder ≠ [] ∧ holder.length ≤ 256 ∧ holder.any CodePoint.isspace = false)
    (refuse "holder must be a non-empty token without whitespace")
  verifyChangeIntent intent client.authorityKey
  let view ← raising (readIntent intent)
  ensure (view.tenantId = client.tenantId)
    (refuse "cross-tenant intent reservation is prohibited")
  let current ← timestamp now clock
  let validFrom ← raising (parseTime view.validFrom)
  ensure (validFrom ≤ current.val) (refuse "ChangeIntent is not yet valid")
  let validUntil ← raising (parseTime view.validUntil)
  ensure (current.val ≤ validUntil) (refuse "ChangeIntent validity has ended")
  let digest ← raising (intentDigest intent)
  let reservedAt := Instant.render current
  let reservationId ← raising
    (reservationIdentity client.tenantId view.intentId digest holder reservedAt)
  .ok ⟨client.tenantId, view.intentId, digest, holder, reservationId, reservedAt⟩

/-- `reserve`. -/
def Client.reserve (client : Client) (intent : Json) (holder : Str) (now : Option Datetime)
    (clock : Instant) (table : Table) : Except Error (IntentReservation × Table) := do
  let reservation ← client.prepare intent holder now clock
  let table ← insertReservation reservation table
  .ok (reservation, table)

/-- The transaction of `consume` and `abandon`. -/
def Client.close (client : Client) (reservation : IntentReservation) (status : Status)
    (closedAt : Str) (receipt : Row → Json) (table : Table) : Except Error (Json × Table) := do
  let row ← checkedReservation client.tenantId reservation table
  let receipt ← raising (client.seal (receipt row))
  let table ← closeRow client.tenantId reservation status closedAt receipt table
  .ok (receipt, table)

/-- `consume` up to its transaction: the time of closing and the classification. -/
def Client.classify (client : Client) (reservation : IntentReservation) (intent : Json)
    (observed : List ObservedDelta) (now : Option Datetime) (clock : Instant) :
    Except Error (Str × List Json) := do
  verifyChangeIntent intent client.authorityKey
  let digest ← raising (intentDigest intent)
  ensure (digest = reservation.intentDigest) (refuse "intent does not match its reservation")
  let results ← reconcile (some intent) observed (some client.authorityKey)
  let current ← timestamp now clock
  .ok (Instant.render current, results)

/-- `consume`. -/
def Client.consume (client : Client) (reservation : IntentReservation) (intent : Json)
    (observed : List ObservedDelta) (now : Option Datetime) (clock : Instant) (table : Table) :
    Except Error (Json × Table) := do
  let (closedAt, results) ← client.classify reservation intent observed now clock
  client.close reservation .consumed closedAt
    (consumedReceipt client.tenantId reservation closedAt observed results) table

/-- `abandon`. -/
def Client.abandon (client : Client) (reservation : IntentReservation) (reason : Str)
    (now : Option Datetime) (clock : Instant) (table : Table) : Except Error (Json × Table) := do
  ensure (Str.strip reason ≠ []) (refuse "abandon reason is required")
  let current ← timestamp now clock
  client.close reservation .abandoned (Instant.render current)
    (abandonedReceipt client.tenantId reservation (Instant.render current) reason) table

/-! ## Calls -/

inductive Operation where
  | reserve (intent : Document) (holder : Str) (now : Option Datetime) (clock : Instant)
  | consume (reservation : IntentReservation) (intent : Document) (observed : List ObservedDelta)
      (now : Option Datetime) (clock : Instant)
  | abandon (reservation : IntentReservation) (reason : Str) (now : Option Datetime)
      (clock : Instant)

structure Call where
  client : Client
  operation : Operation

inductive Reply where
  | reservation (value : IntentReservation)
  | receipt (document : Json)

def exec (call : Call) (table : Table) : Except Error (Reply × Table) :=
  match call.operation with
  | .reserve intent holder now clock => do
    let (reservation, table) ← call.client.reserve intent.value holder now clock table
    .ok (.reservation reservation, table)
  | .consume reservation intent observed now clock => do
    let (receipt, table) ← call.client.consume reservation intent.value observed now clock table
    .ok (.receipt receipt, table)
  | .abandon reservation reason now clock => do
    let (receipt, table) ← call.client.abandon reservation reason now clock table
    .ok (.receipt receipt, table)

/-- The table after any calls of any clients, from an empty one. -/
def reached (calls : List Call) : Table := run exec [] calls

/-- What the calls returned or raised. -/
def outcomes (calls : List Call) : List (Call × Except Error Reply) := trace exec [] calls

end

end IntegrityGuardian.Intents
