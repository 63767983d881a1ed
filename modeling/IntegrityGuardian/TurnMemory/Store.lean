import IntegrityGuardian.TurnMemory.Receipts

/-!
# The turn-memory store

`TurnMemoryStore`: four tables that only ever grow, each call one transaction.
The constructor compares the metadata of the file with the client's own, so all
clients of a store share namespace, signer and identity profile.
-/

namespace IntegrityGuardian.TurnMemory

open Python Library
open Schemas.TurnMemory (intentBody uuidBody noEventReasons gapStages)

/-! ## Tables -/

/-- A row of `turn_registrations`.  The legacy table has no `intent_id`, which is read as
the empty text there. -/
structure RegistrationRow where
  registrationId : Str
  namespaceFingerprint : Str
  machineId : Str
  threadId : Str
  turnId : Str
  intentId : Str
  promptSha256 : Str
  receiptJson : Bytes
  deriving DecidableEq

/-- What the `UNIQUE` constraint of the table is about. -/
def RegistrationRow.identity (row : RegistrationRow) : Str × Str × Str × Str × Str :=
  (row.namespaceFingerprint, row.machineId, row.threadId, row.turnId, row.intentId)

/-- A row of `turn_terminal_receipts`. -/
structure TerminalRow where
  registrationId : Str
  requestDigest : Str
  receiptJson : Bytes
  deriving DecidableEq

/-- A row of `turn_gap_receipts`. -/
structure GapRow where
  receiptId : Str
  registrationId : Str
  requestDigest : Str
  receiptJson : Bytes
  deriving DecidableEq

/-- A row of `turn_memory_creation_policy`. -/
structure PolicyRow where
  generation : Int
  receiptJson : Bytes
  deriving DecidableEq

/-- The tables, their rows in the order of insertion. -/
structure Tables where
  registrations : List RegistrationRow
  terminals : List TerminalRow
  gaps : List GapRow
  policies : List PolicyRow
  deriving DecidableEq

def Tables.empty : Tables := ⟨[], [], [], []⟩

namespace Tables

def findRegistration (t : Tables) (registrationId : Str) : Option RegistrationRow :=
  t.registrations.find? fun row => row.registrationId = registrationId

def findTerminal (t : Tables) (registrationId : Str) : Option TerminalRow :=
  t.terminals.find? fun row => row.registrationId = registrationId

/-- `ORDER BY generation DESC LIMIT 1`. -/
def latestPolicy (t : Tables) : Option PolicyRow :=
  t.policies.foldl (fun best row =>
    match best with
    | some b => if b.generation < row.generation then some row else some b
    | none => some row) none

/-- `INSERT INTO turn_registrations`. -/
def insertRegistration (t : Tables) (row : RegistrationRow) : Except Error Tables := do
  ensure (∀ r ∈ t.registrations, r.registrationId ≠ row.registrationId)
    (.raised (.integrityError (str "turn_registrations.registration_id")))
  ensure (∀ r ∈ t.registrations, r.identity ≠ row.identity)
    (.raised (.integrityError (str "turn_registrations.turn_id")))
  .ok { t with registrations := t.registrations ++ [row] }

/-- `INSERT INTO turn_terminal_receipts`. -/
def insertTerminal (t : Tables) (row : TerminalRow) : Except Error Tables := do
  ensure (∀ r ∈ t.terminals, r.registrationId ≠ row.registrationId)
    (.raised (.integrityError (str "turn_terminal_receipts.registration_id")))
  .ok { t with terminals := t.terminals ++ [row] }

/-- `INSERT INTO turn_gap_receipts`. -/
def insertGap (t : Tables) (row : GapRow) : Except Error Tables := do
  ensure (∀ r ∈ t.gaps, r.receiptId ≠ row.receiptId)
    (.raised (.integrityError (str "turn_gap_receipts.receipt_id")))
  ensure (∀ r ∈ t.gaps, (r.registrationId, r.requestDigest) ≠
      (row.registrationId, row.requestDigest))
    (.raised (.integrityError (str "turn_gap_receipts.request_digest")))
  .ok { t with gaps := t.gaps ++ [row] }

/-- `INSERT INTO turn_memory_creation_policy`. -/
def insertPolicy (t : Tables) (row : PolicyRow) : Except Error Tables := do
  ensure (∀ r ∈ t.policies, r.generation ≠ row.generation)
    (.raised (.integrityError (str "turn_memory_creation_policy.generation")))
  .ok { t with policies := t.policies ++ [row] }

end Tables

/-- `_decode`.  Every stored receipt is canonical, and on canonical bytes `json.loads` is the
strict reader. -/
def decode (receiptJson : Bytes) : Except Error Json := do
  let value ← (Json.loadsBytes receiptJson).mapError fun _ => Error.raised (.valueError [])
  match value with
  | .obj _ => .ok value
  | _ => .error (refuse "stored turn-memory receipt is invalid")

/-- A client of the store, with the namespace its constructor checks. -/
structure TurnMemoryStore [Ed25519Keys] where
  namespaceFingerprint : Str
  isDigest : Schemas.digestBody namespaceFingerprint = true
  signer : Ed25519Signer
  identityProfile : Profile

namespace TurnMemoryStore

variable [Ed25519Keys]

/-- `_verify_profile_receipt`. -/
def verifyProfile (self : TurnMemoryStore) (kind : Kind) (receipt : Json) : Except Error Json :=
  verifyProfileReceipt self.identityProfile self.signer.trustedKey kind receipt

/-! ## Creation policy -/

/-- The fields `_sign_creation_policy` signs. -/
def policyCore (self : TurnMemoryStore) (mode : Str) (generation : Int) (clock : Instant) :
    List (String × Json) :=
  [("protocol", .str (str creationPolicyForm.protocol)),
    ("namespace_fingerprint", .str self.namespaceFingerprint),
    ("mode", .str mode),
    ("generation", .int generation),
    ("updated_at", .str clock.isoformatZ),
    ("production_authority", .bool false)]

/-- `_sign_creation_policy`. -/
def signCreationPolicy (self : TurnMemoryStore) (mode : Str) (generation : Int)
    (clock : Instant) : Except Exc Json :=
  signedReceipt (.fields (self.policyCore mode generation clock)) creationPolicyForm.idDomain
    self.signer

/-- `_creation_policy`. -/
def creationPolicy (self : TurnMemoryStore) (t : Tables) : Except Error Json := do
  ensure (self.identityProfile = .nativeIntent)
    (refuse "legacy profile has no modern creation policy")
  match t.latestPolicy with
  | none => .error (refuse "native creation policy is unavailable")
  | some row => do
    let stored ← decode row.receiptJson
    let receipt ← verifyReceipt creationPolicyForm self.signer.trustedKey stored
    let fingerprint ← raising (receipt.textItem (str "namespace_fingerprint"))
    let generation ← raising (receipt.intItem (str "generation"))
    ensure (fingerprint = self.namespaceFingerprint ∧ generation = row.generation)
      (refuse "native creation policy lineage mismatch")
    .ok receipt

/-- The policy `_initialize` writes into a new native store. -/
def firstPolicy (self : TurnMemoryStore) (clock : Instant) (t : Tables) : Except Error Tables := do
  if t.policies = [] then
    ensure (t.registrations = [])
      (refuse "existing native history has no verified creation policy")
    let policy ← raising (self.signCreationPolicy (str "enabled") 0 clock)
    let receiptJson ← raising (canonicalBytes policy)
    t.insertPolicy ⟨0, receiptJson⟩
  else .ok t

/-- The transaction of `_initialize`, once the metadata of the file is the client's. -/
def initializeStore (self : TurnMemoryStore) (clock : Instant) (t : Tables) : Except Error Tables :=
  match self.identityProfile with
  | .legacy => .ok t
  | .nativeIntent => do
    let t ← self.firstPolicy clock t
    let _ ← self.creationPolicy t
    .ok t

/-- `set_creation_policy`. -/
def setCreationPolicy (self : TurnMemoryStore) (mode expectedReceiptId : Str) (clock : Instant)
    (t : Tables) : Except Error (Json × Tables) := do
  ensure (mode = str "enabled" ∨ mode = str "rollback-read-close")
    (refuse "native creation policy mode is invalid")
  let expected ← digestValue expectedReceiptId "expected creation policy receipt"
  let previous ← self.creationPolicy t
  let receiptId ← raising (previous.textItem (str "receipt_id"))
  ensure (receiptId = expected) (refuse "native creation policy CAS changed")
  let previousMode ← raising (previous.textItem (str "mode"))
  if previousMode = mode then .ok (previous, t)
  else do
    let generation ← raising (previous.intItem (str "generation"))
    let result ← raising (self.signCreationPolicy mode (generation + 1) clock)
    let receiptJson ← raising (canonicalBytes result)
    let t ← t.insertPolicy ⟨generation + 1, receiptJson⟩
    .ok (result, t)

/-! ## Joins -/

/-- `_verify_registration_row`. -/
def verifyRegistrationRow (self : TurnMemoryStore) (row : RegistrationRow) :
    Except Error Json := do
  let stored ← decode row.receiptJson
  let receipt ← self.verifyProfile .registration stored
  let identity ← raising (receipt.item (str "identity"))
  let receiptId ← raising (receipt.textItem (str "receipt_id"))
  let fingerprint ← raising (receipt.textItem (str "namespace_fingerprint"))
  let machineId ← raising (identity.textItem (str "machine_id"))
  let threadId ← raising (identity.textItem (str "thread_id"))
  let turnId ← raising (identity.textItem (str "turn_id"))
  ensure (receiptId = row.registrationId ∧ fingerprint = self.namespaceFingerprint ∧
      machineId = row.machineId ∧ threadId = row.threadId ∧ turnId = row.turnId ∧
      (textMember identity "intent_id").getD [] = row.intentId)
    (refuse "turn-memory registration index mismatch")
  .ok receipt

/-- Two dictionaries are equal, whatever the order of their keys. -/
def sameDict (v w : Json) : Prop := v.sortKeys = w.sortKeys

instance (v w : Json) : Decidable (sameDict v w) := inferInstanceAs (Decidable (_ = _))

/-- `_verify_join`; `coverage` makes the same comparisons under its own messages. -/
def verifyJoin (self : TurnMemoryStore) (message : String) (receipt registration : Json)
    (registrationId : Str) : Except Error Unit := do
  let joined ← raising (receipt.textItem (str "registration_id"))
  let fingerprint ← raising (receipt.textItem (str "namespace_fingerprint"))
  let identity ← raising (receipt.item (str "identity"))
  let registered ← raising (registration.item (str "identity"))
  let prompt ← raising (receipt.textItem (str "prompt_sha256"))
  let registeredPrompt ← raising (registration.textItem (str "prompt_sha256"))
  ensure (joined = registrationId ∧ fingerprint = self.namespaceFingerprint ∧
      sameDict identity registered ∧ prompt = registeredPrompt)
    (refuse message)

/-- A stored receipt about a registration, verified and joined. -/
def verifyJoined (self : TurnMemoryStore) (kind : Kind) (receiptJson : Bytes)
    (registration : Json) : Except Error Json := do
  let stored ← decode receiptJson
  let receipt ← self.verifyProfile kind stored
  let registrationId ← raising (registration.textItem (str "receipt_id"))
  self.verifyJoin "turn-memory receipt registration join mismatch" receipt registration
    registrationId
  .ok receipt

/-! ## Opening -/

/-- The reply of a call: its receipt, and whether the call was answered from the store. -/
structure Reply where
  receipt : Json
  replayed : Bool
  gapRecorded : Option Bool := none

/-- The identity of `open_turn`, after its checks. -/
structure TurnIdentity where
  machineId : Str
  threadId : Str
  turnId : Str
  intentId : Str
  deriving DecidableEq

def TurnIdentity.toJson (i : TurnIdentity) : Json :=
  .fields ([("machine_id", .str i.machineId), ("thread_id", .str i.threadId),
    ("turn_id", .str i.turnId)]
      ++ if i.intentId = [] then [] else [("intent_id", .str i.intentId)])

/-- What `open_turn` checks before its transaction. -/
def checkIdentity (self : TurnMemoryStore) (machineId threadId turnId : Str)
    (intentId : Option Str) : Except Error TurnIdentity := do
  let machineId ← identity machineId "machine_id"
  let threadId ← identity threadId "thread_id"
  let turnId ← identity turnId "turn_id"
  let mismatch := refuse "turn-memory open arguments do not match identity profile"
  match intentId, self.identityProfile with
  | none, .legacy => .ok ⟨machineId, threadId, turnId, []⟩
  | some intent, .nativeIntent => do
    ensure (intentBody intent = true) (refuse "intent_id is invalid")
    ensure (uuidBody turnId = true) (refuse "native turn_id is invalid")
    ensure (uuidBody threadId = true) (refuse "native thread_id is invalid")
    .ok ⟨machineId, threadId, turnId, intent⟩
  | _, _ => .error mismatch

/-- `argument or _utc_now()`. -/
def textOrNow (argument : Option Str) (clock : Instant) : Str :=
  match argument with
  | some (c :: rest) => c :: rest
  | _ => clock.isoformatZ

/-- The fields of a new registration. -/
def registrationCore (self : TurnMemoryStore) (turn : TurnIdentity) (prompt openedAt : Str) :
    List (String × Json) :=
  [("protocol", .str (str Kind.registration.form.protocol)),
    ("namespace_fingerprint", .str self.namespaceFingerprint),
    ("identity", turn.toJson),
    ("prompt_sha256", .str prompt),
    ("opened_at", .str openedAt),
    ("terminal_required", .bool true),
    ("production_authority", .bool false)]

/-- The row lookup of `open_turn`. -/
def findIdentity (self : TurnMemoryStore) (t : Tables) (turn : TurnIdentity) :
    Option RegistrationRow :=
  t.registrations.find? fun row =>
    row.identity =
      (self.namespaceFingerprint, turn.machineId, turn.threadId, turn.turnId, turn.intentId)

/-- The rollback fence of `open_turn`. -/
def creationFence (self : TurnMemoryStore) (t : Tables) : Except Error Unit :=
  match self.identityProfile with
  | .legacy => .ok ()
  | .nativeIntent => do
    let policy ← self.creationPolicy t
    let mode ← raising (policy.textItem (str "mode"))
    ensure (mode = str "enabled")
      (refuse "new native-intent registrations are disabled by shared rollback fence")

/-- The branch of `open_turn` for an identity without a row. -/
def createRegistration (self : TurnMemoryStore) (turn : TurnIdentity) (prompt openedAt : Str)
    (t : Tables) : Except Error (Reply × Tables) := do
  self.creationFence t
  let form := Kind.registration.form
  let receipt ← raising (signedReceipt (.fields (self.registrationCore turn prompt openedAt))
    form.idDomain self.signer)
  let receipt ← self.verifyProfile .registration receipt
  let receiptId ← raising (receipt.textItem (str "receipt_id"))
  let receiptJson ← raising (canonicalBytes receipt)
  let t ← t.insertRegistration ⟨receiptId, self.namespaceFingerprint, turn.machineId,
    turn.threadId, turn.turnId, turn.intentId, prompt, receiptJson⟩
  .ok (⟨receipt, false, none⟩, t)

/-- `open_turn`. -/
def openTurn (self : TurnMemoryStore) (machineId threadId turnId promptSha256 : Str)
    (intentId openedAt : Option Str) (allowCreate : Bool) (clock : Instant) (t : Tables) :
    Except Error (Reply × Tables) := do
  let turn ← self.checkIdentity machineId threadId turnId intentId
  let prompt ← sha256Value promptSha256 "prompt_sha256"
  match self.findIdentity t turn with
  | some row => do
    let receipt ← self.verifyRegistrationRow row
    let registeredPrompt ← raising (receipt.textItem (str "prompt_sha256"))
    ensure (registeredPrompt = prompt) (refuse "turn identity collides with another prompt")
    .ok (⟨receipt, true, none⟩, t)
  | none => do
    ensure (allowCreate = true)
      (refuse "new native-intent registrations are disabled; exact replay remains available")
    self.createRegistration turn prompt (textOrNow openedAt clock) t

/-! ## Closing -/

/-- What a `close_turn` call decides, after its checks. -/
inductive Outcome where
  | events (references : List EventReference)
  | noEvent (reason : Str)
  deriving DecidableEq

/-- The fields of the outcome, in a receipt and in a request. -/
def Outcome.fields : Outcome → List (String × Json)
  | .events references => [("events", .arr (references.map EventReference.toJson))]
  | .noEvent reason => [("no_event_reason", .str reason)]

def Outcome.text : Outcome → String
  | .events _ => "events"
  | .noEvent _ => "no-event"

/-- What `close_turn` checks of its arguments. -/
def checkClose (outcome : Str) (events : Option (List Json)) (noEventReason : Option Str) :
    Except Error Outcome :=
  if outcome = str "events" then do
    let normalized ← normalizeEventReferences (events.getD [])
    ensure (noEventReason = none) (refuse "events outcome cannot contain a no-event reason")
    .ok (.events normalized)
  else if outcome = str "no-event" then
    match events, noEventReason with
    | none, some reason => do
      ensure (noEventReasons.any (fun known => str known == reason) = true)
        (refuse "no-event outcome requires one closed reason")
      .ok (.noEvent reason)
    | _, _ => .error (refuse "no-event outcome requires one closed reason")
  else .error (refuse "turn terminal outcome is invalid")

/-- The digest of a terminal request. -/
def terminalRequestDigest (registrationId : Str) (outcome : String)
    (fields : List (String × Json)) : Except Exc Str :=
  digest (.fields ([("registration_id", .str registrationId), ("outcome", .str (str outcome))]
    ++ fields)) "turn-memory-terminal-request-v1"

/-- The fields of a new terminal receipt. -/
def terminalCore (self : TurnMemoryStore) (registrationId prompt closedAt : Str)
    (identity : Json) (outcome : Outcome) : List (String × Json) :=
  [("protocol", .str (str Kind.terminalReceipt.form.protocol)),
    ("namespace_fingerprint", .str self.namespaceFingerprint),
    ("registration_id", .str registrationId),
    ("identity", identity),
    ("prompt_sha256", .str prompt),
    ("outcome", .str (str outcome.text)),
    ("closed_at", .str closedAt),
    ("production_authority", .bool false)] ++ outcome.fields

/-- The branch of `close_turn` for a registration without a terminal receipt. -/
def createTerminal (self : TurnMemoryStore) (registrationId requestDigest closedAt : Str)
    (outcome : Outcome) (registration : Json) (t : Tables) : Except Error (Reply × Tables) := do
  let identity ← raising (registration.item (str "identity"))
  let prompt ← raising (registration.textItem (str "prompt_sha256"))
  let receipt ← raising (signedReceipt
    (.fields (self.terminalCore registrationId prompt closedAt identity outcome))
    Kind.terminalReceipt.form.idDomain self.signer)
  let receipt ← self.verifyProfile .terminalReceipt receipt
  let receiptJson ← raising (canonicalBytes receipt)
  let t ← t.insertTerminal ⟨registrationId, requestDigest, receiptJson⟩
  .ok (⟨receipt, false, none⟩, t)

/-- The transaction of `close_turn`. -/
def closeTransaction (self : TurnMemoryStore) (registrationId requestDigest closedAt : Str)
    (outcome : Outcome) (t : Tables) : Except Error (Reply × Tables) :=
  match t.findRegistration registrationId with
  | none => .error (refuse "turn registration does not exist")
  | some row => do
    let registration ← self.verifyRegistrationRow row
    let fingerprint ← raising (registration.textItem (str "namespace_fingerprint"))
    ensure (fingerprint = self.namespaceFingerprint)
      (refuse "turn registration belongs to another namespace")
    match t.findTerminal registrationId with
    | some existing => do
      let receipt ← self.verifyJoined .terminalReceipt existing.receiptJson registration
      ensure (existing.requestDigest = requestDigest)
        (refuse "turn already has a conflicting terminal receipt")
      .ok (⟨receipt, true, none⟩, t)
    | none => self.createTerminal registrationId requestDigest closedAt outcome registration t

/-- `close_turn`. -/
def closeTurn (self : TurnMemoryStore) (registrationId outcome : Str)
    (events : Option (List Json)) (noEventReason closedAt : Option Str) (clock : Instant)
    (t : Tables) : Except Error (Reply × Tables) := do
  let registrationId ← digestValue registrationId "registration_id"
  let outcome ← checkClose outcome events noEventReason
  let requestDigest ← raising
    (terminalRequestDigest registrationId outcome.text outcome.fields)
  self.closeTransaction registrationId requestDigest (textOrNow closedAt clock) outcome t

/-! ## Gaps -/

/-- The fields of a new gap receipt. -/
def gapCore (self : TurnMemoryStore) (registrationId prompt stage observedAt : Str)
    (identity : Json) : List (String × Json) :=
  [("protocol", .str (str Kind.gapReceipt.form.protocol)),
    ("namespace_fingerprint", .str self.namespaceFingerprint),
    ("registration_id", .str registrationId),
    ("identity", identity),
    ("prompt_sha256", .str prompt),
    ("stage", .str stage),
    ("reason", .str (str "terminal-receipt-missing")),
    ("observed_at", .str observedAt),
    ("terminal", .bool false),
    ("production_authority", .bool false)]

/-- The branch of `observe_gap` for a gap that is not recorded yet. -/
def createGap (self : TurnMemoryStore) (registrationId requestDigest stage observedAt : Str)
    (registration : Json) (t : Tables) : Except Error (Reply × Tables) := do
  let identity ← raising (registration.item (str "identity"))
  let prompt ← raising (registration.textItem (str "prompt_sha256"))
  let receipt ← raising (signedReceipt
    (.fields (self.gapCore registrationId prompt stage observedAt identity))
    Kind.gapReceipt.form.idDomain self.signer)
  let receipt ← self.verifyProfile .gapReceipt receipt
  let receiptId ← raising (receipt.textItem (str "receipt_id"))
  let receiptJson ← raising (canonicalBytes receipt)
  let t ← t.insertGap ⟨receiptId, registrationId, requestDigest, receiptJson⟩
  .ok (⟨receipt, false, some true⟩, t)

/-- The transaction of `observe_gap`. -/
def gapTransaction (self : TurnMemoryStore) (registrationId requestDigest stage observedAt : Str)
    (t : Tables) : Except Error (Reply × Tables) :=
  match t.findRegistration registrationId with
  | none => .error (refuse "turn registration does not exist")
  | some row => do
    let registration ← self.verifyRegistrationRow row
    match t.findTerminal registrationId with
    | some terminal => do
      let receipt ← self.verifyJoined .terminalReceipt terminal.receiptJson registration
      .ok (⟨receipt, false, some false⟩, t)
    | none =>
      match t.gaps.find? fun row =>
          row.registrationId = registrationId ∧ row.requestDigest = requestDigest with
      | some existing => do
        let receipt ← self.verifyJoined .gapReceipt existing.receiptJson registration
        .ok (⟨receipt, true, some true⟩, t)
      | none => self.createGap registrationId requestDigest stage observedAt registration t

/-- `observe_gap`. -/
def observeGap (self : TurnMemoryStore) (registrationId stage : Str) (observedAt : Option Str)
    (clock : Instant) (t : Tables) : Except Error (Reply × Tables) := do
  let registrationId ← digestValue registrationId "registration_id"
  ensure (gapStages.any (fun known => str known == stage) = true)
    (refuse "coverage gap stage is invalid")
  let requestDigest ← raising (digest
    (.fields [("registration_id", .str registrationId), ("stage", .str stage)])
    "turn-memory-gap-request-v1")
  self.gapTransaction registrationId requestDigest stage (textOrNow observedAt clock) t

/-! ## Coverage -/

/-- `counts`. -/
structure Counts where
  registered : Nat
  terminal : Nat
  events : Nat
  noEvent : Nat
  unresolved : Nat
  deriving DecidableEq

/-- What the loop of `coverage` carries. -/
structure CoverageState where
  counts : Counts
  unresolved : List Json
  receiptSample : List Json
  sizeLimited : Bool

def CoverageState.start : CoverageState := ⟨⟨0, 0, 0, 0, 0⟩, [], [], false⟩

/-- `sample_budget`. -/
def sampleBudget : Nat := 262144

def sampleProtocol : Json := .str (str "integrity-guardian/turn-memory-receipt-sample/v1")

/-- The fields of a receipt sample. -/
def sampleFields (receipts : List Json) (limit returned : Nat) (complete hasMore limited : Bool) :
    List (String × Json) :=
  [("protocol", sampleProtocol),
    ("receipts", .arr receipts),
    ("limit", .int limit),
    ("returned_count", .int returned),
    ("complete", .bool complete),
    ("has_more", .bool hasMore),
    ("size_limited", .bool limited),
    ("byte_budget", .int sampleBudget),
    ("absence_is_retry_authority", .bool false),
    ("canonical_writes", .int 0)]

/-- The sample after one more row: the entry is added unless the sample gets too large. -/
def extendSample (limit : Nat) (entry : Json) (state : CoverageState) :
    Except Error CoverageState :=
  if state.receiptSample.length < limit then do
    let proposed := state.receiptSample ++ [entry]
    let bytes ← raising (canonicalBytes
      (.fields (sampleFields proposed limit proposed.length false false false)))
    if bytes.length ≤ sampleBudget then .ok { state with receiptSample := proposed }
    else .ok { state with sizeLimited := true }
  else .ok state

/-- One entry of the sample. -/
def sampleEntry (registrationId : Str) (registration terminal requestDigest gap : Json)
    (status : String) : Json :=
  .fields [("registration_id", .str registrationId),
    ("registration_receipt", registration),
    ("terminal_receipt", terminal),
    ("terminal_request_digest", requestDigest),
    ("gap_receipt", gap),
    ("status", .str (str status))]

/-- The fields of the request a stored terminal receipt answers. -/
def requestFields (receipt : Json) (outcome : Str) : Except Exc (List (String × Json)) :=
  if outcome = str "events" then do
    let events ← receipt.item (str "events")
    .ok [("outcome", .str outcome), ("events", events)]
  else if outcome = str "no-event" then do
    let reason ← receipt.item (str "no_event_reason")
    .ok [("outcome", .str outcome), ("no_event_reason", reason)]
  else .ok [("outcome", .str outcome)]

/-- A closed turn in the loop of `coverage`. -/
def coverTerminal (self : TurnMemoryStore) (limit : Nat) (row : RegistrationRow)
    (registration : Json) (terminal : TerminalRow) (state : CoverageState) :
    Except Error CoverageState := do
  let stored ← decode terminal.receiptJson
  let receipt ← self.verifyProfile .terminalReceipt stored
  self.verifyJoin "turn-memory terminal index mismatch" receipt registration row.registrationId
  let outcome ← raising (receipt.textItem (str "outcome"))
  let fields ← raising (requestFields receipt outcome)
  let requestDigest ← raising (digest
    (.fields (("registration_id", .str row.registrationId) :: fields))
    "turn-memory-terminal-request-v1")
  ensure (terminal.requestDigest = requestDigest) (refuse "terminal request digest mismatch")
  let state ← extendSample limit (sampleEntry row.registrationId registration receipt
    (.str requestDigest) .null "closed") state
  let counts := { state.counts with terminal := state.counts.terminal + 1 }
  .ok { state with
    counts := if outcome = str "events" then { counts with events := counts.events + 1 }
      else { counts with noEvent := counts.noEvent + 1 } }

/-- The latest gap receipt of a registration, verified. -/
def latestGap (self : TurnMemoryStore) (t : Tables) (row : RegistrationRow)
    (registration : Json) : Except Error (Option Json) :=
  match (t.gaps.filter fun gap => gap.registrationId = row.registrationId).getLast? with
  | none => .ok none
  | some gap => do
    let stored ← decode gap.receiptJson
    let receipt ← self.verifyProfile .gapReceipt stored
    self.verifyJoin "turn-memory gap index mismatch" receipt registration row.registrationId
    .ok (some receipt)

/-- `gap_receipt["receipt_id"]`, or `None` without a gap receipt. -/
def latestGapReceiptId : Option Json → Except Exc Json
  | none => .ok .null
  | some receipt => receipt.item (str "receipt_id")

/-- An open turn in the loop of `coverage`. -/
def coverOpen (self : TurnMemoryStore) (t : Tables) (limit : Nat) (row : RegistrationRow)
    (registration : Json) (state : CoverageState) : Except Error CoverageState := do
  let counts := { state.counts with unresolved := state.counts.unresolved + 1 }
  let gap ← self.latestGap t row registration
  let gapReceiptId ← raising (latestGapReceiptId gap)
  let state ← extendSample limit (sampleEntry row.registrationId registration .null .null
    (gap.getD .null) "open") { state with counts }
  let entry := Json.fields ([("registration_id", .str row.registrationId),
      ("machine_id", .str row.machineId), ("thread_id", .str row.threadId),
      ("turn_id", .str row.turnId)]
    ++ (if row.intentId = [] then [] else [("intent_id", .str row.intentId)])
    ++ [("latest_gap_receipt_id", gapReceiptId)])
  .ok (if state.unresolved.length < limit then
      { state with unresolved := state.unresolved ++ [entry] } else state)

/-- One row of the loop of `coverage`. -/
def coverRow (self : TurnMemoryStore) (t : Tables) (limit : Nat) (state : CoverageState)
    (row : RegistrationRow) : Except Error CoverageState := do
  let registration ← self.verifyRegistrationRow row
  let state := { state with
    counts := { state.counts with registered := state.counts.registered + 1 } }
  match t.findTerminal row.registrationId with
  | some terminal => self.coverTerminal limit row registration terminal state
  | none => self.coverOpen t limit row registration state

/-- The reply of `coverage`. -/
structure Coverage where
  counts : Counts
  unresolved : List Json
  receiptSample : Json

/-- The rows `coverage` selects, newest first. -/
def selected (self : TurnMemoryStore) (machineId threadId : Option Str) (t : Tables) :
    List RegistrationRow :=
  t.registrations.reverse.filter fun row =>
    row.namespaceFingerprint = self.namespaceFingerprint ∧
      (∀ m ∈ machineId, row.machineId = m) ∧ ∀ x ∈ threadId, row.threadId = x

/-- An identity argument that may be left out. -/
def optionalIdentity (value : Option Str) (name : String) : Except Error Unit :=
  match value with
  | none => .ok ()
  | some value => (identity value name).map fun _ => ()

/-- The policy that `coverage` reads first, in the native profile. -/
def checkPolicy (self : TurnMemoryStore) (t : Tables) : Except Error Unit :=
  match self.identityProfile with
  | .legacy => .ok ()
  | .nativeIntent => (self.creationPolicy t).map fun _ => ()

/-- `coverage`.  Its two queries are two read transactions, so that calls may be committed
between the tables the policy is read from and those the rows are read from. -/
def coverage (self : TurnMemoryStore) (machineId threadId : Option Str) (limit : Int)
    (policies t : Tables) : Except Error Coverage := do
  ensure (1 ≤ limit ∧ limit ≤ 500) (refuse "coverage limit is invalid")
  optionalIdentity machineId "machine_id"
  optionalIdentity threadId "thread_id"
  self.checkPolicy policies
  let state ← (self.selected machineId threadId t).foldlM (self.coverRow t limit.toNat)
    CoverageState.start
  let returned := state.receiptSample.length
  .ok ⟨state.counts, state.unresolved, .fields (sampleFields state.receiptSample limit.toNat
    returned (state.counts.registered == returned) (decide (returned < state.counts.registered))
    state.sizeLimited)⟩

/-! ## Calls -/

/-- A transaction on the store, by whichever client. -/
inductive Call where
  /-- The constructor of another client. -/
  | connect
  | openTurn (machineId threadId turnId promptSha256 : Str) (intentId openedAt : Option Str)
      (allowCreate : Bool)
  | closeTurn (registrationId outcome : Str) (events : Option (List Json))
      (noEventReason closedAt : Option Str)
  | observeGap (registrationId stage : Str) (observedAt : Option Str)
  | setCreationPolicy (mode expectedReceiptId : Str)

/-- The transaction of a call, at the time the clock shows. -/
def execute (self : TurnMemoryStore) (call : Call × Instant) (t : Tables) :
    Except Error (Option Reply × Tables) :=
  match call.1 with
  | .connect => do
    let t ← self.initializeStore call.2 t
    .ok (none, t)
  | .openTurn machineId threadId turnId promptSha256 intentId openedAt allowCreate => do
    let (reply, t) ← self.openTurn machineId threadId turnId promptSha256 intentId openedAt
      allowCreate call.2 t
    .ok (some reply, t)
  | .closeTurn registrationId outcome events noEventReason closedAt => do
    let (reply, t) ← self.closeTurn registrationId outcome events noEventReason closedAt call.2 t
    .ok (some reply, t)
  | .observeGap registrationId stage observedAt => do
    let (reply, t) ← self.observeGap registrationId stage observedAt call.2 t
    .ok (some reply, t)
  | .setCreationPolicy mode expectedReceiptId => do
    let (receipt, t) ← self.setCreationPolicy mode expectedReceiptId call.2 t
    .ok (some ⟨receipt, false, none⟩, t)

end TurnMemoryStore

end IntegrityGuardian.TurnMemory
