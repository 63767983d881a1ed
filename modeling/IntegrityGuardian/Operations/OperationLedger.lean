import IntegrityGuardian.Canonical
import IntegrityGuardian.Python.Value

/-!
# The operation ledger

`operation_ledger.py`: durable custody of the original request of an operation,
and the state machine its sender follows.  Every call opens its own connection
and runs one transaction; a call that raises closes the connection and leaves
nothing behind.
-/

namespace IntegrityGuardian.Operations

open Python Library

/-- The exceptions of `operation_ledger.py`, next to those of the interpreter. -/
inductive Error where
  | ledgerError (message : Str)
  | conflict (message : Str)
  | pending (message : Str)
  | raised (e : Exc)
  deriving DecidableEq

def raising {α : Type} (x : Except Exc α) : Except Error α := x.mapError .raised

def refuse (message : String) : Error := .ledgerError (str message)

def conflict (message : String) : Error := .conflict (str message)

def pending (message : String) : Error := .pending (str message)

/-! ## States -/

/-- `STATES`, and `archived`, which `prepare` sets. -/
inductive State where
  | prepared
  | sending
  | knownUnsent
  | unknown
  | reconciledAbsent
  | committed
  | blocked
  | archived
  deriving DecidableEq

def State.text : State → Str
  | .prepared => str "prepared"
  | .sending => str "sending"
  | .knownUnsent => str "known-unsent"
  | .unknown => str "unknown"
  | .reconciledAbsent => str "reconciled-absent"
  | .committed => str "committed"
  | .blocked => str "blocked"
  | .archived => str "archived"

/-- `STATES`. -/
def states : List State :=
  [.prepared, .sending, .knownUnsent, .unknown, .reconciledAbsent, .committed, .blocked]

/-- The member of `STATES` a text names. -/
def State.ofText (text : Str) : Option State := states.find? fun s => s.text = text

/-- `TRANSITIONS`. -/
def transitions : State → List State
  | .prepared => [.sending, .committed, .blocked]
  | .sending => [.knownUnsent, .unknown, .committed, .blocked]
  | .knownUnsent => [.sending, .committed, .blocked]
  | .unknown => [.reconciledAbsent, .committed, .blocked]
  | .reconciledAbsent => [.sending, .committed, .blocked]
  | .committed | .blocked | .archived => []

/-! ## Rows -/

/-- A row of `operations`. -/
structure Row where
  ownerKey : Str
  operationKey : Str
  tool : Str
  requestBytes : Bytes
  requestSha256 : Str
  state : State
  attempts : Nat
  receiptBytes : Option Bytes
  createdNs : Int
  updatedNs : Int
  deriving DecidableEq

abbrev Table := List Row

/-- The arguments of the constructor that later calls use. -/
structure Config where
  maxRecords : Nat
  maxBytes : Nat
  retentionSeconds : Nat
  maxTombstones : Nat
  records_bound : 1 ≤ maxRecords ∧ maxRecords ≤ 4096
  bytes_bound : 1024 ≤ maxBytes ∧ maxBytes ≤ 67108864
  retention_bound : 1 ≤ retentionSeconds ∧ retentionSeconds ≤ 604800
  tombstones_bound : 1 ≤ maxTombstones ∧ maxTombstones ≤ 1048576

def Config.retentionNs (config : Config) : Int := config.retentionSeconds * 1000000000

section
variable [UnicodeData] [FloatData]

/-! ## Requests -/

def tools : List Str := [str "integrity_append_event", str "integrity_turn_memory_close"]

def credentialFields : List Str :=
  [str "password", str "authorization", str "cookie", str "access_token", str "refresh_token",
    str "private_key"]

mutual
/-- The nested `validate` of `canonical_request`. -/
def validate : Value → Except Error Unit
  | .null | .bool _ | .int _ | .str _ => .ok ()
  | .float x =>
    ensure (FloatData.isfinite x = true) (refuse "request is outside the canonical JSON profile")
  | .arr items => validateItems items
  | .obj members => validateMembers members
  | .foreign _ _ => .error (refuse "request is outside the canonical JSON profile")

def validateItems : List Value → Except Error Unit
  | [] => .ok ()
  | v :: vs => do
    validate v
    validateItems vs

def validateMembers : List (Str × Value) → Except Error Unit
  | [] => .ok ()
  | (key, v) :: ms => do
    ensure (key.flatMap UnicodeData.casefold ∉ credentialFields)
      (refuse "credential fields are prohibited")
    validate v
    validateMembers ms
end

/-- `isinstance(value, dict)`. -/
def isDict : Value → Bool
  | .obj _ => true
  | .foreign isDict _ => isDict
  | _ => false

/-- `canonical_request`. -/
def canonicalRequest (tool : Str) (arguments : Value) : Except Error Bytes := do
  ensure (tool ∈ tools ∧ isDict arguments = true) (refuse "unsupported operation")
  validate arguments
  let raw ← raising
    (Value.obj [(str "tool", .str tool), (str "arguments", arguments)]).dumpsBytes
  ensure (raw.length ≤ 262144) (refuse "operation exceeds custody budget")
  .ok raw

/-- `sha256:[a-f0-9]{64}`, matched in full. -/
def isRegistrationDigest (s : Str) : Bool :=
  (str "sha256:").isPrefixOf s && (s.drop 7).length == 64 && (s.drop 7).all CodePoint.isLowerHex

/-- `_key`. -/
def checkKey (ownerKey operationKey tool : Str) (arguments : Value) : Except Error Unit := do
  ensure (isRegistrationDigest ownerKey = true) (refuse "owner must be a registration digest")
  let isAppend := tool = str "integrity_append_event"
  let eventUid := (arguments.get? (str "event_uid")).getD (.str [])
  let expected := if isAppend then str "append:" ++ eventUid.text else str "close:" ++ ownerKey
  let registered := match arguments.get? (str "registration_id") with
    | some v => v.eq (.str ownerKey)
    | none => false
  ensure (operationKey = expected ∧ ¬(tool = str "integrity_turn_memory_close" ∧ registered = false))
    (conflict "semantic operation key or registration mismatch")
  ensure (¬isAppend ∨ ((arguments.get? (str "event_uid")).getD .null).truthy = true)
    (refuse "append requires stable event UID")

/-! ## Records -/

/-- What a call returns. -/
structure Record where
  row : Row
  arguments : Option Value
  receipt : Option Value

/-- The subscript `value[key]`. -/
def subscript (v : Value) (key : String) : Except Error Value :=
  match v with
  | .obj _ =>
    match v.get? (str key) with
    | some w => .ok w
    | none => .error (.raised (.keyError (str key)))
  | _ => .error (.raised .typeError)

/-- `canonical_request` of the parsed tool, which need not be a text. -/
def canonicalParsed (tool arguments : Value) : Except Error (Str × Bytes) :=
  match tool with
  | .str tool => do
    let raw ← canonicalRequest tool arguments
    .ok (tool, raw)
  | _ => .error (refuse "unsupported operation")

/-- The stored receipt, parsed. -/
def parsedReceipt : Option Bytes → Except Error (Option Value)
  | none => .ok none
  | some b => do
    let v ← raising (Value.loadsBytes b)
    .ok (some v)

/-- `_record`. -/
def record (row : Row) : Except Error Record :=
  if row.state = .archived then do
    ensure (row.requestBytes = [] ∧ row.receiptBytes = none)
      (conflict "invalid completed custody tombstone")
    .ok ⟨row, none, none⟩
  else do
    ensure (row.requestSha256 = sha256Digest row.requestBytes)
      (conflict "stored original request digest mismatch")
    let parsed ← raising (Value.loadsBytes row.requestBytes)
    let parsedTool ← subscript parsed "tool"
    let arguments ← subscript parsed "arguments"
    let (tool, raw) ← canonicalParsed parsedTool arguments
    ensure (raw = row.requestBytes ∧ tool = row.tool) (conflict "stored request is not canonical")
    let receipt ← parsedReceipt row.receiptBytes
    .ok ⟨row, some arguments, receipt⟩

/-! ## Transactions -/

/-- `SELECT … WHERE operation_key=?`. -/
def findOperation (operationKey : Str) (table : Table) : Option Row :=
  table.find? fun row => row.operationKey = operationKey

/-- `SELECT … WHERE owner_key=? AND operation_key=?`. -/
def findOwned (ownerKey operationKey : Str) (table : Table) : Option Row :=
  table.find? fun row => row.ownerKey = ownerKey ∧ row.operationKey = operationKey

/-- The tombstone of a completed operation. -/
def Row.archive (row : Row) : Row :=
  { row with state := .archived, requestBytes := [], receiptBytes := none }

/-- The `UPDATE` that reclaims completed payloads. -/
def reclaim (cutoff : Int) (table : Table) : Table :=
  table.map fun row =>
    if row.state = .committed ∧ row.updatedNs < cutoff then row.archive else row

/-- `LENGTH(request_bytes)+COALESCE(LENGTH(receipt_bytes),0)`. -/
def Row.size (row : Row) : Nat :=
  row.requestBytes.length + match row.receiptBytes with
    | none => 0
    | some b => b.length

def totalSize (table : Table) : Nat := (table.map Row.size).sum

/-- The branch of `prepare` for a key that has a row. -/
def resume (ownerKey : Str) (raw : Bytes) (digest : Str) (row : Row) : Except Error Record := do
  let result ← record row
  if result.row.state = .archived then do
    ensure (result.row.ownerKey = ownerKey ∧ result.row.requestSha256 = digest)
      (conflict "archived UID belongs to different original operation")
    .error (pending "completed payload retention expired; no automatic replay")
  else do
    ensure (result.row.ownerKey = ownerKey ∧ result.row.requestBytes = raw
        ∧ result.row.requestSha256 = digest)
      (conflict "same operation key has different original content")
    .ok result

/-- The row `prepare` inserts. -/
def prepared (ownerKey operationKey tool : Str) (raw : Bytes) (digest : Str) (now : Int) : Row where
  ownerKey := ownerKey
  operationKey := operationKey
  tool := tool
  requestBytes := raw
  requestSha256 := digest
  state := .prepared
  attempts := 0
  receiptBytes := none
  createdNs := now
  updatedNs := now

/-- The branch of `prepare` for a new key. -/
def enter (config : Config) (ownerKey operationKey tool : Str) (raw : Bytes) (digest : Str)
    (cutoffClock now : Int) (table : Table) : Except Error (Record × Table) := do
  let table := reclaim (cutoffClock - config.retentionNs) table
  let live := table.filter fun row => row.state ≠ .archived
  let tombstones := table.countP fun row => row.state = .archived
  ensure (tombstones < config.maxTombstones) (refuse "UID ownership tombstone quota exhausted")
  ensure (live.length < config.maxRecords ∧ totalSize live + raw.length ≤ config.maxBytes)
    (refuse "ledger quota exhausted; unresolved operations were preserved")
  let row := prepared ownerKey operationKey tool raw digest now
  let result ← record row
  .ok (result, table ++ [row])

/-- `prepare`. -/
def prepare (config : Config) (ownerKey operationKey tool : Str) (arguments : Value)
    (cutoffClock now : Int) (table : Table) : Except Error (Record × Table) := do
  let raw ← canonicalRequest tool arguments
  checkKey ownerKey operationKey tool arguments
  let digest := sha256Digest raw
  match findOperation operationKey table with
  | some row => do
    let result ← resume ownerKey raw digest row
    .ok (result, table)
  | none => enter config ownerKey operationKey tool raw digest cutoffClock now table

/-- `UPDATE operations SET … WHERE owner_key=? AND operation_key=?`. -/
def update (ownerKey operationKey : Str) (f : Row → Row) (table : Table) : Table :=
  table.map fun row => if row.ownerKey = ownerKey ∧ row.operationKey = operationKey then f row else row

/-- The row `UPDATE`s leave, as the call returns it. -/
def updated (row : Row) (f : Row → Row) (table : Table) : Except Error (Record × Table) := do
  let result ← record (f row)
  .ok (result, update row.ownerKey row.operationKey f table)

/-- The checks of `mark` on its arguments: the state, and the receipt's bytes. -/
def markArguments (state : Str) (receipt : Option Value) : Except Error (State × Option Bytes) :=
  match State.ofText state with
  | none => .error (refuse "invalid state")
  | some target => do
    ensure (target ≠ .sending) (refuse "use claim_send to consume a bounded attempt")
    match receipt with
    | none => do
      ensure (target ≠ .committed) (refuse "committed requires a verified receipt supplied by caller")
      .ok (target, none)
    | some document => do
      ensure (target = .committed → isDict document = true)
        (refuse "committed requires a verified receipt supplied by caller")
      ensure (target = .committed) (refuse "only committed may store a receipt")
      let raw ← raising document.dumpsBytes
      ensure (raw.length ≤ 262144) (refuse "receipt exceeds custody budget")
      .ok (target, some raw)

/-- `expected_state`. -/
def checkExpected (expectedState : Option Str) (state : State) : Except Error Unit :=
  match expectedState with
  | none => .ok ()
  | some expected => ensure (state.text = expected) (pending "operation state changed")

/-- `previous["receipt"] == receipt`. -/
def sameReceipt (previous : Option Value) (receipt : Option Value) : Bool :=
  match previous, receipt with
  | some v, some w => v.eq w
  | none, none => true
  | _, _ => false

/-- The quota `mark` checks when it stores a receipt. -/
def checkReceiptQuota (config : Config) (rawReceipt : Option Bytes) (table : Table) :
    Except Error Unit :=
  match rawReceipt with
  | none => .ok ()
  | some raw =>
    ensure (totalSize table + raw.length ≤ config.maxBytes)
      (refuse "ledger receipt quota exhausted; effect remains to be reconciled")

/-- `mark`. -/
def mark (config : Config) (ownerKey operationKey state : Str) (receipt : Option Value)
    (expectedState : Option Str) (clock : Int) (table : Table) : Except Error (Record × Table) := do
  let (target, rawReceipt) ← markArguments state receipt
  match findOwned ownerKey operationKey table with
  | none => .error (refuse "operation is not prepared")
  | some row => do
    let previous ← record row
    checkExpected expectedState row.state
    if row.state = .committed then do
      ensure (target = .committed ∧ sameReceipt previous.receipt receipt = true)
        (conflict "committed operation is immutable")
      .ok (previous, table)
    else do
      ensure (row.state ≠ .archived) (pending "completed operation custody is archived")
      ensure (target ∈ transitions row.state) (pending "unsafe operation state transition")
      checkReceiptQuota config rawReceipt table
      updated row (fun r => { r with state := target, receiptBytes := rawReceipt, updatedNs := clock })
        table

/-- `claim_send`. -/
def claimSend (ownerKey operationKey : Str) (maxAttempts : Int) (expectedState : Option Str)
    (clock : Int) (table : Table) : Except Error (Record × Table) := do
  ensure (1 ≤ maxAttempts ∧ maxAttempts ≤ 3) (refuse "send attempt budget is invalid")
  match findOwned ownerKey operationKey table with
  | none => .error (refuse "operation is not prepared")
  | some row => do
    let _ ← record row
    checkExpected expectedState row.state
    ensure (row.state ∈ [State.prepared, .knownUnsent, .reconciledAbsent])
      (pending "operation requires reconciliation or is terminal")
    ensure ((row.attempts : Int) < maxAttempts) (pending "durable send attempt budget exhausted")
    updated row (fun r => { r with state := .sending, attempts := r.attempts + 1, updatedNs := clock })
      table

/-! ## Calls -/

inductive Operation where
  | prepare (ownerKey operationKey tool : Str) (arguments : Value) (cutoffClock now : Int)
  | mark (ownerKey operationKey state : Str) (receipt : Option Value) (expectedState : Option Str)
      (clock : Int)
  | claimSend (ownerKey operationKey : Str) (maxAttempts : Int) (expectedState : Option Str)
      (clock : Int)

/-- The key an operation names. -/
def Operation.key : Operation → Str
  | .prepare _ operationKey _ _ _ _ => operationKey
  | .mark _ operationKey _ _ _ _ => operationKey
  | .claimSend _ operationKey _ _ _ => operationKey

/-- The owner an operation names. -/
def Operation.owner : Operation → Str
  | .prepare ownerKey _ _ _ _ _ => ownerKey
  | .mark ownerKey _ _ _ _ _ => ownerKey
  | .claimSend ownerKey _ _ _ _ => ownerKey

structure Call where
  config : Config
  operation : Operation

def exec (call : Call) (table : Table) : Except Error (Record × Table) :=
  match call.operation with
  | .prepare ownerKey operationKey tool arguments cutoffClock now =>
    prepare call.config ownerKey operationKey tool arguments cutoffClock now table
  | .mark ownerKey operationKey state receipt expectedState clock =>
    mark call.config ownerKey operationKey state receipt expectedState clock table
  | .claimSend ownerKey operationKey maxAttempts expectedState clock =>
    claimSend ownerKey operationKey maxAttempts expectedState clock table

/-- The table after any calls of any processes, from an empty one. -/
def reached (calls : List Call) : Table := run exec [] calls

/-- What the calls returned or raised. -/
def outcomes (calls : List Call) : List (Call × Except Error Record) := trace exec [] calls

end

end IntegrityGuardian.Operations
