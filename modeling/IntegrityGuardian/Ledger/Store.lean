import IntegrityGuardian.Ledger.Merkle
import IntegrityGuardian.Library.KeyedChain
import IntegrityGuardian.Schemas
import IntegrityGuardian.Signing

/-!
# The ledger store

`LedgerStore` of `ledger.py`: appends, the replay that verifies a table, and the
checkpoint it is compared with.  A table written by the store has typed columns;
`verify` is defined on what any SQLite file can hold in their place, since the
file is not trusted.  Connections that share a file are told apart by a number,
because a transaction that a call leaves open blocks the others.
-/

namespace IntegrityGuardian.Ledger

open Python Library

/-! ## Events -/

section
variable [UnicodeData]

/-- `ledger_event_identity`. -/
def ledgerEventIdentity (event : Json) : Except Exc Str := do
  let core := (event.pop (str "signature")).set (str "event_id") (.str (str "event:pending"))
  let digest ← digestObject core (str "ledger-event-identity-v1")
  .ok (str "event:" ++ digest.afterColon)

/-- `event_digest`. -/
def eventDigest (event : Json) : Except Exc Str := digestObject event (str "ledger-event-v1")

end

/-- The fields of a validated event the store compares. -/
structure Fields where
  eventId : Str
  tenantId : Str
  sourceId : Str
  sourceSequence : Int
  previousEventDigest : Option Str

def readFields (event : Json) : Except Exc Fields := do
  let eventId ← event.textItem (str "event_id")
  let tenantId ← event.textItem (str "tenant_id")
  let sourceId ← event.textItem (str "source_id")
  let sourceSequence ← event.intItem (str "source_sequence")
  let previousEventDigest ← event.optionalTextItem (str "previous_event_digest")
  .ok ⟨eventId, tenantId, sourceId, sourceSequence, previousEventDigest⟩

/-! ### Events up to key order -/

section
variable [UnicodeData]

@[simp] theorem eventDigest_sortKeys (event : Json) :
    eventDigest event.sortKeys = eventDigest event :=
  digestObject_sortKeys event _

theorem ledgerEventIdentity_sortKeys {event : Json} (hobj : event.IsObj) (hwf : event.wf = true) :
    ledgerEventIdentity event.sortKeys = ledgerEventIdentity event := by
  have hsorted := Json.wf_sortKeys hwf
  have hpop := Json.sortKeys_pop_congr hobj.sortKeys hobj hsorted hwf
    (Json.sortKeys_sortKeys event) (str "signature")
  have hset := Json.sortKeys_set_congr (hobj.sortKeys.pop _) (hobj.pop _)
    (Json.wf_pop hsorted (str "signature")) (Json.wf_pop hwf (str "signature"))
    (show (Json.str (str "event:pending")).wf = true from rfl) hpop (str "event_id")
  simp only [ledgerEventIdentity, digestObject_congr hset]

end

theorem readFields_sortKeys {event : Json} (hwf : event.wf = true) :
    readFields event.sortKeys = readFields event := by
  simp only [readFields, Json.textItem_sortKeys hwf, Json.intItem_sortKeys hwf,
    Json.optionalTextItem_sortKeys hwf]

/-! ## Tables -/

/-- A row of `ledger_events` as the store writes it. -/
structure Row where
  ledgerSequence : Int
  eventDigest : Str
  tenantId : Str
  sourceId : Str
  sourceSequence : Int
  previousEventDigest : Option Str
  eventJson : Bytes
  deriving DecidableEq

/-- What a column can hold; a `REAL` by its value, or none for an infinity. -/
inductive SqlValue where
  | null
  | integer (n : Int)
  | real (value : Option Rat)
  | text (s : Str)
  | blob (b : Bytes)
  deriving DecidableEq

namespace SqlValue

/-- `number == value` between an `int` and a column. -/
def equalsInt (n : Int) : SqlValue → Bool
  | .integer m => n = m
  | .real (some value) => (n : Rat) = value
  | _ => false

def ofOptionalText : Option Str → SqlValue
  | none => .null
  | some s => .text s

end SqlValue

/-- A row of `ledger_events` as it is read. -/
structure StoredRow where
  ledgerSequence : Int
  eventDigest : SqlValue
  tenantId : SqlValue
  sourceId : SqlValue
  sourceSequence : SqlValue
  previousEventDigest : SqlValue
  eventJson : SqlValue
  deriving DecidableEq

def Row.stored (row : Row) : StoredRow where
  ledgerSequence := row.ledgerSequence
  eventDigest := .text row.eventDigest
  tenantId := .text row.tenantId
  sourceId := .text row.sourceId
  sourceSequence := .integer row.sourceSequence
  previousEventDigest := .ofOptionalText row.previousEventDigest
  eventJson := .blob row.eventJson

/-- `ORDER BY ledger_sequence`. -/
def ledgerOrder (rows : List Row) : List Row :=
  rows.insertionSort fun a b => a.ledgerSequence ≤ b.ledgerSequence

def storedOrder (rows : List StoredRow) : List StoredRow :=
  rows.insertionSort fun a b => a.ledgerSequence ≤ b.ledgerSequence

/-- The identity a store is opened with and `ledger_meta` fixes. -/
structure Identity where
  tenantId : Str
  ledgerId : Str

/-! ## Appending -/

/-- `_source_tip`: the row with the highest number of one source. -/
def sourceTip (rows : List Row) (tenantId sourceId : Str) : Option Row :=
  KeyedChain.highest Row.sourceSequence
    (rows.filter fun r => r.tenantId = tenantId ∧ r.sourceId = sourceId)

/-- The key `AUTOINCREMENT` gives the next row; nothing is ever deleted. -/
def nextLedgerSequence (rows : List Row) : Int :=
  (rows.map Row.ledgerSequence).foldl max 0 + 1

/-- The `INSERT` of `_append_one`. -/
def insertRow (digest : Str) (fields : Fields) (eventJson : Bytes) (rows : List Row) :
    Except Exc (List Row) := do
  ensure (-9223372036854775808 ≤ fields.sourceSequence ∧ fields.sourceSequence < 9223372036854775808)
    .overflowError
  ensure (∀ r ∈ rows, r.eventDigest ≠ digest) (.integrityError (str "ledger_events.event_digest"))
  ensure (∀ r ∈ rows, ¬(r.tenantId = fields.tenantId ∧ r.sourceId = fields.sourceId
      ∧ r.sourceSequence = fields.sourceSequence))
    (.integrityError (str ("ledger_events.tenant_id, ledger_events.source_id, "
      ++ "ledger_events.source_sequence")))
  .ok (rows ++ [{
    ledgerSequence := nextLedgerSequence rows
    eventDigest := digest
    tenantId := fields.tenantId
    sourceId := fields.sourceId
    sourceSequence := fields.sourceSequence
    previousEventDigest := fields.previousEventDigest
    eventJson }])

/-- An exception that `ledger.py` does not raise itself. -/
def raising {α : Type} (x : Except Exc α) : Except Error α := x.mapError .raised

def refuse (message : String) : Error := .appendError (str message)

/-- `source sequence mismatch: expected {expected}, got {actual}`. -/
def sequenceMismatch (expected actual : Int) : Error :=
  .appendError (str "source sequence mismatch: expected " ++ Json.renderInt expected
    ++ str ", got " ++ Json.renderInt actual)

section
variable [UnicodeData]

/-- `_append_one`: the digest and the table with the event's row. -/
def appendOne (ledger : Identity) (event : Json) (rows : List Row) :
    Except Error (Str × List Row) := do
  raising (Schemas.validate Schemas.ledgerEvent event)
  let fields ← raising (readFields event)
  let identity ← raising (ledgerEventIdentity event)
  ensure (fields.eventId = identity) (refuse "ledger event identity mismatch")
  ensure (fields.tenantId = ledger.tenantId) (refuse "cross-tenant append is prohibited")
  let tip := sourceTip rows fields.tenantId fields.sourceId
  let expectedSequence := match tip with
    | none => 0
    | some row => row.sourceSequence + 1
  let expectedPrevious := tip.map Row.eventDigest
  ensure (fields.sourceSequence = expectedSequence)
    (sequenceMismatch expectedSequence fields.sourceSequence)
  ensure (fields.previousEventDigest = expectedPrevious)
    (refuse "previous source event digest mismatch")
  let digest ← raising (eventDigest event)
  let eventJson ← raising (canonicalBytes event)
  let rows ← raising (insertRow digest fields eventJson rows)
  .ok (digest, rows)

/-- The loop of `append_many`, over an iterable that may raise at its end. -/
def appendEach (ledger : Identity) (failure : Option Exc) :
    List Json → List Row → Except Error (List Str × List Row)
  | [], rows =>
    match failure with
    | none => .ok ([], rows)
    | some e => .error (.raised e)
  | event :: events, rows => do
    let (digest, rows) ← appendOne ledger event rows
    let (digests, rows) ← appendEach ledger failure events rows
    .ok (digest :: digests, rows)

end

/-! ## Verification -/

/-- `ledger sequence {sequence} {text}`. -/
def sequenceError (sequence : Int) (text : String) : Error :=
  .verificationError (str "ledger sequence " ++ Json.renderInt sequence ++ str text)

def distrust (message : String) : Error := .verificationError (str message)

/-- `parse_json_strict` of a column; anything but text and bytes is a `TypeError`. -/
def parseColumn : SqlValue → Option Json
  | .blob b => (parseJsonStrict b).toOption
  | .text s => (parseJsonStrictText s).toOption
  | _ => none

/-- The event of a row, parsed and validated. -/
def readEvent (row : StoredRow) : Except Error Json :=
  match parseColumn row.eventJson with
  | none => .error (sequenceError row.ledgerSequence " has invalid event bytes")
  | some event => do
    ensure (Schemas.ledgerEvent.accepts event)
      (sequenceError row.ledgerSequence " has invalid event bytes")
    .ok event

/-- The comparison of one indexed column with the event. -/
def checkIndexed (row : StoredRow) (field : String) (same : Bool) : Except Error Unit :=
  ensure (same = true) (sequenceError row.ledgerSequence (" indexed " ++ field ++ " mismatch"))

/-- What the loop of `verify` carries: `source_tips` and `reconstructed`. -/
structure Replay where
  sourceTips : List (Str × Int × Str)
  reconstructed : List Str

def Replay.empty : Replay := ⟨[], []⟩

/-- The tip of a source moves on. -/
def Replay.advance (s : Replay) (sourceId : Str) (sourceSequence : Int) (digest : Str) : Replay where
  sourceTips := (sourceId, sourceSequence, digest) :: s.sourceTips.filter fun t => t.1 != sourceId
  reconstructed := s.reconstructed ++ [digest]

section
variable [UnicodeData]

/-- The checks of `verify` on one row that come before its signature. -/
def replayRow (tenantId : Str) (s : Replay) (row : StoredRow) : Except Error (Json × Replay) := do
  let event ← readEvent row
  let calculated ← raising (eventDigest event)
  ensure (row.eventDigest = .text calculated) (sequenceError row.ledgerSequence " digest mismatch")
  let fields ← raising (readFields event)
  checkIndexed row "tenant_id" (row.tenantId = .text fields.tenantId)
  checkIndexed row "source_id" (row.sourceId = .text fields.sourceId)
  checkIndexed row "source_sequence" (row.sourceSequence.equalsInt fields.sourceSequence)
  checkIndexed row "previous_event_digest"
    (row.previousEventDigest = .ofOptionalText fields.previousEventDigest)
  ensure (fields.tenantId = tenantId) (distrust "cross-tenant event found")
  let identity ← raising (ledgerEventIdentity event)
  ensure (fields.eventId = identity) (distrust "ledger event identity mismatch")
  let previous := s.sourceTips.lookup fields.sourceId
  let expectedSequence := match previous with
    | none => 0
    | some tip => tip.1 + 1
  let expectedDigest := previous.map Prod.snd
  ensure (fields.sourceSequence = expectedSequence) (distrust "source sequence discontinuity")
  ensure (fields.previousEventDigest = expectedDigest)
    (distrust "source hash-chain discontinuity")
  .ok (event, s.advance fields.sourceId fields.sourceSequence calculated)

variable [Ed25519]

/-- The signature check of `verify` on one event. -/
def checkSignature (sourcePublicKeys : Str → Option TrustedKey) (event : Json) :
    Except Error Unit := do
  let sourceId ← raising (event.textItem (str "source_id"))
  match sourcePublicKeys sourceId with
  | none => .error (distrust "source signature verification failed")
  | some trustedKey => do
    let signature ← raising (event.item (str "signature"))
    let keyId ← raising (signature.textItem (str "key_id"))
    ensure (keyId = trustedKey.keyId) (distrust "source signature verification failed")
    let verified ← raising (verifySignature event trustedKey.publicKey)
    ensure (verified = true) (distrust "source signature verification failed")

/-- One pass of the loop of `verify`. -/
def verifyRow (tenantId : Str) (sourcePublicKeys : Str → Option TrustedKey) (s : Replay)
    (row : StoredRow) : Except Error Replay := do
  let (event, s) ← replayRow tenantId s row
  checkSignature sourcePublicKeys event
  .ok s

/-- The part of `verify` about a given checkpoint. -/
def verifyCheckpoint (ledger : Identity) (reconstructed : List Str) (checkpoint : Json)
    (checkpointKey : Option TrustedKey) : Except Error Unit :=
  match checkpointKey with
  | none => .error (distrust "checkpoint signature verification failed")
  | some key => do
    let signerId ← raising (checkpoint.item (str "signer_id"))
    ensure (signerId = .str key.keyId) (distrust "checkpoint signature verification failed")
    let signature ← raising (checkpoint.item (str "signature"))
    let keyId ← raising (signature.item (str "key_id"))
    ensure (keyId = .str key.keyId) (distrust "checkpoint signature verification failed")
    let verified ← raising (verifySignature checkpoint key.publicKey)
    ensure (verified = true) (distrust "checkpoint signature verification failed")
    raising (Schemas.validate Schemas.checkpoint checkpoint)
    let tenantId ← raising (checkpoint.textItem (str "tenant_id"))
    ensure (tenantId = ledger.tenantId) (distrust "checkpoint tenant mismatch")
    let ledgerId ← raising (checkpoint.textItem (str "ledger_id"))
    ensure (ledgerId = ledger.ledgerId) (distrust "checkpoint ledger mismatch")
    let treeSize ← raising (checkpoint.intItem (str "tree_size"))
    ensure (treeSize = reconstructed.length) (distrust "checkpoint tree size mismatch")
    ensure (reconstructed ≠ []) (distrust "checkpoint refers to empty ledger")
    let rootDigest ← raising (checkpoint.textItem (str "root_digest"))
    let root ← raising (merkleRoot reconstructed)
    ensure (rootDigest = root) (distrust "checkpoint Merkle root mismatch")
    let lastEventDigest ← raising (checkpoint.textItem (str "last_event_digest"))
    ensure (some lastEventDigest = reconstructed.getLast?) (distrust "checkpoint tip mismatch")

/-- The report of `verify`. -/
structure Verification where
  ok : Bool
  tenantId : Str
  ledgerId : Str
  treeSize : Nat
  sourceCount : Nat
  checkpointVerified : Bool
  deriving DecidableEq

/-- `verify`. -/
def verify (ledger : Identity) (table : List StoredRow)
    (sourcePublicKeys : Str → Option TrustedKey) (checkpoint : Option Json)
    (checkpointKey : Option TrustedKey) : Except Error Verification := do
  let replay ← (storedOrder table).foldlM (verifyRow ledger.tenantId sourcePublicKeys) Replay.empty
  match checkpoint with
  | none => .ok ()
  | some document => verifyCheckpoint ledger replay.reconstructed document checkpointKey
  .ok {
    ok := checkpoint.isSome
    tenantId := ledger.tenantId
    ledgerId := ledger.ledgerId
    treeSize := replay.reconstructed.length
    sourceCount := replay.sourceTips.length
    checkpointVerified := checkpoint.isSome }

end

/-! ## Connections -/

/-- A database file: its table and the connection that has a transaction open. -/
structure Database where
  rows : List Row
  writer : Option Nat

def Database.empty : Database := ⟨[], none⟩

/-- The table as `verify` reads it. -/
def Database.table (db : Database) : List StoredRow := db.rows.map Row.stored

/-- `COMMIT` after the body, or `ROLLBACK` when it raised. -/
def commitOrRollback {α : Type} (body : List Row → Except Error (α × List Row)) (db : Database) :
    Except Error α × Database :=
  match body db.rows with
  | .ok (a, rows) => (.ok a, ⟨rows, none⟩)
  | .error e => (.error e, ⟨db.rows, none⟩)

/-- `sqlite3.OperationalError` when another connection holds the write lock. -/
def locked : Error := .raised (.operationalError (str "database is locked"))

/-- `_write_transaction`. -/
def writeTransaction {α : Type} (connection : Nat)
    (body : List Row → Except Error (α × List Row)) (db : Database) : Except Error α × Database :=
  match db.writer with
  | none => commitOrRollback body db
  | some owner =>
    -- inside a transaction of its own, the connection ends that one with the body
    if owner = connection then commitOrRollback body db else (.error locked, db)

/-- What `precommit_validator` does. -/
inductive Verdict where
  | passes
  | raises (e : Exc)
  /-- It raises something outside `Exception`, which no handler sees. -/
  | interrupts

section
variable [UnicodeData]

/-- `append`. -/
def append (ledger : Identity) (connection : Nat) (event : Json) :
    Database → Except Error Str × Database :=
  writeTransaction connection (appendOne ledger event)

/-- `append_many`. -/
def appendMany (ledger : Identity) (connection : Nat) (events : List Json) (failure : Option Exc) :
    Database → Except Error (List Str) × Database :=
  writeTransaction connection (appendEach ledger failure events)

/-- `events`. -/
def events (rows : List Row) : Except Error (List Json) :=
  (ledgerOrder rows).mapM fun row =>
    match parseJsonStrict row.eventJson with
    | .ok event => .ok event
    | .error _ => .error (.raised (.valueError (str "invalid JSON")))

variable [Ed25519]

/-- The checks of `append_at_checkpoint` inside its transaction: the verdict of
the validator once `verify` has passed. -/
def admission (ledger : Identity) (event : Json) (sourcePublicKeys : Str → Option TrustedKey)
    (checkpoint : Json) (checkpointKey : TrustedKey)
    (precommitValidator : Option (List Json → Verdict)) (db : Database) :
    Except Error Verdict := do
  let _ ← verify ledger db.table sourcePublicKeys (some checkpoint) (some checkpointKey)
  match precommitValidator with
  | none => .ok .passes
  | some validator => do
    let current ← events db.rows
    .ok (validator (current ++ [event]))

/-- `append_at_checkpoint`. -/
def appendAtCheckpoint (ledger : Identity) (connection : Nat) (event : Json)
    (sourcePublicKeys : Str → Option TrustedKey) (checkpoint : Json) (checkpointKey : TrustedKey)
    (precommitValidator : Option (List Json → Verdict)) (db : Database) :
    Except Error Str × Database :=
  match db.writer with
  | some owner =>
    -- `BEGIN` fails; the handler's rollback ends an own transaction
    if owner = connection then
      (.error (.raised (.operationalError
        (str "cannot start a transaction within a transaction"))), ⟨db.rows, none⟩)
    else (.error locked, db)
  | none =>
    match admission ledger event sourcePublicKeys checkpoint checkpointKey precommitValidator db
      with
    | .error e => (.error e, db)
    | .ok (.raises e) => (.error (.raised e), db)
    | .ok .interrupts => (.error (.raised .baseException), ⟨db.rows, some connection⟩)
    | .ok .passes => commitOrRollback (appendOne ledger event) db

/-! ## Calls -/

/-- An append call with its arguments. -/
inductive Operation where
  | append (event : Document)
  | appendMany (events : List Document) (failure : Option Exc)
  | appendAtCheckpoint (event : Document) (sourcePublicKeys : Str → Option TrustedKey)
      (checkpoint : Document) (checkpointKey : TrustedKey)
      (precommitValidator : Option (List Json → Verdict))

structure Call where
  connection : Nat
  operation : Operation

/-- The events a call wants to append. -/
def Operation.events : Operation → List Document
  | .append event => [event]
  | .appendMany events _ => events
  | .appendAtCheckpoint event _ _ _ _ => [event]

/-- One call: the digests it returns or what it raises, and the file after it. -/
def step (ledger : Identity) (call : Call) (db : Database) :
    Except Error (List Str) × Database :=
  match call.operation with
  | .append event =>
    let (result, db) := append ledger call.connection event.value db
    (result.map fun digest => [digest], db)
  | .appendMany events failure =>
    appendMany ledger call.connection (events.map Document.value) failure db
  | .appendAtCheckpoint event keys checkpoint key validator =>
    let (result, db) := appendAtCheckpoint ledger call.connection event.value keys checkpoint.value
      key validator db
    (result.map fun digest => [digest], db)

/-- A call as a transaction of the run: what it raises is part of its result. -/
def exec (ledger : Identity) (call : Call) (db : Database) :
    Except Empty (Except Error (List Str) × Database) :=
  .ok (step ledger call db)

/-- The file after any calls on any connections, from an empty ledger. -/
def reached (ledger : Identity) (calls : List Call) : Database :=
  run (exec ledger) Database.empty calls

end

end IntegrityGuardian.Ledger
