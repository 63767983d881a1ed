import IntegrityGuardian.Schemas.TaskClosure
import IntegrityGuardian.Signing

/-!
# Task closure

`task_closure.py`: the receipt of one append attempt, its reconciliation, the chain
of the owner's instructions and the receipt that closes a task.
-/

namespace IntegrityGuardian.TaskClosure

open Python Library
open Schemas.TurnMemory (eventUidBody sha256Body)

inductive Error where
  /-- `TaskClosureError`. -/
  | taskClosure (message : Str)
  | exc (e : Exc)

def raising {α : Type} (x : Except Exc α) : Except Error α := x.mapError .exc

def closureError (message : String) : Error := .taskClosure (str message)

/-- A `TaskClosureError` with the message `task closure … rejected`. -/
def rejected (field : String) : Error :=
  .taskClosure (str "task closure " ++ str field ++ str " rejected")

/-! ## Checks of single values -/

/-- `_freeze`. -/
def freeze (value : Json) (field : String) : Except Error Json :=
  match canonicalBytes value with
  | .error _ => .error (rejected field)
  | .ok payload =>
    match parseJsonStrict payload with
    | .ok (.obj members) => .ok (.obj members)
    | _ => .error (rejected field)

/-- `_require_id`, `_require_digest`, `_require_hex_digest`: a text in full. -/
def requireText (body : Str → Bool) (value : Json) (field : String) : Except Error Str :=
  match value with
  | .str text => if body text then .ok text else .error (rejected field)
  | _ => .error (rejected field)

def requireId (value : Json) (field : String) : Except Error Str :=
  requireText Schemas.idBody value field

def requireDigest (value : Json) (field : String) : Except Error Str :=
  requireText Schemas.digestBody value field

def requireHexDigest (value : Json) (field : String) : Except Error Str :=
  requireText sha256Body value field

/-- `_require_event_uid`. -/
def requireEventUid (value : Json) : Except Error Str :=
  requireText eventUidBody value "event UID"

/-- `validate` with its `ValidationError` replaced. -/
def validated (schema : Schema) (value : Json) (field : String) : Except Error Unit :=
  (Schemas.validate schema value).mapError fun _ => rejected field

section
variable [UnicodeData]

/-- `_identity`. -/
def identity (document : Json) (head domain : String) : Except Error Str := do
  let digest ← raising (digestObject document (str domain))
  .ok (str head ++ digest.afterColon)

/-! ## Reconciliations -/

/-- `verify_event_uid_reconciliation`. -/
def verifyEventUidReconciliation (reconciliation : Json) : Except Error Json := do
  let frozen ← freeze reconciliation "reconciliation"
  validated Schemas.TaskClosure.eventUidReconciliation frozen "reconciliation schema"
  let expected ← identity (frozen.pop (str "reconciliation_id")) "event-uid-reconciliation:"
    "action-log-event-uid-reconciliation-v1"
  let reconciliationId ← raising (frozen.textItem (str "reconciliation_id"))
  ensure (reconciliationId = expected)
    (closureError "task closure reconciliation identity mismatch")
  let matchCount ← raising (frozen.intItem (str "match_count"))
  let eventId ← raising (frozen.item (str "event_id"))
  ensure (matchCount = 1 ↔ eventId ≠ .null) (rejected "reconciliation semantics")
  .ok frozen

/-! ## Append attempts -/

/-- `client_APPEND_RECEIPT_PROTOCOL`. -/
def clientAppendReceiptProtocol : Str := str "integrity-client-memory-mcp/v2/append-receipt"

/-- `required` of `_validated_append_receipt`. -/
def appendReceiptKeys : List String :=
  ["protocol", "source_label", "observed_utc", "event_uid", "event_id", "request_sha256",
    "outcome"]

/-- `set(document) == keys` for a `dict`. -/
def hasKeys (document : Json) (keys : List String) : Bool :=
  match document with
  | .obj members =>
    members.all (fun m => (keys.map str).contains m.1)
      && keys.all fun key => (document.get? (str key)).isSome
  | _ => false

/-- `value in {"created", "duplicate"}`, which raises for what has no hash. -/
def isOutcome : Json → Except Error Bool
  | .str text => .ok (text == str "created" || text == str "duplicate")
  | .arr _ | .obj _ => .error (.exc .typeError)
  | _ => .ok false

/-- `_validated_append_receipt`. -/
def validatedAppendReceipt (receipt : Json) (eventUid requestSha256 : Str) :
    Except Error (Str × Int) := do
  let frozen ← freeze receipt "server append receipt"
  let get (key : String) : Json := (frozen.get? (str key)).getD .null
  ensure (hasKeys frozen appendReceiptKeys = true ∧
      get "protocol" = .str clientAppendReceiptProtocol)
    (rejected "server append receipt")
  ensure (get "event_uid" = .str eventUid ∧ get "request_sha256" = .str requestSha256)
    (closureError "task closure server append binding mismatch")
  let known ← isOutcome (get "outcome")
  ensure (known = true) (closureError "task closure server append binding mismatch")
  match get "outcome", get "event_id" with
  | .str outcome, .int eventId =>
    if 1 ≤ eventId then .ok (outcome, eventId) else .error (rejected "server event id")
  | _, _ => .error (rejected "server event id")

/-- What `build_append_attempt_receipt` is called with. -/
structure AttemptArguments where
  eventUid : Json
  requestSha256 : Json
  requestSent : Json
  responseReceived : Json
  appendReceipt : Option Document
  reconciliation : Option Document

/-- What the branches of `build_append_attempt_receipt` decide. -/
structure Outcome where
  state : String
  serverOutcome : Json
  eventId : Json
  reconciliation : Json
  nextStep : String

/-- The branches over the evidence of an attempt. -/
def classify (eventUid requestSha256 : Str) (requestSent responseReceived : Bool)
    (appendReceipt reconciliation : Option Document) : Except Error Outcome :=
  match appendReceipt, reconciliation with
  | some receipt, _ => do
    ensure (requestSent = true ∧ responseReceived = true)
      (rejected "server receipt transport state")
    let (outcome, eventId) ← validatedAppendReceipt receipt.value eventUid requestSha256
    let state := if outcome = str "created" then "confirmed-created" else "confirmed-duplicate"
    .ok ⟨state, .str outcome, .int eventId, .null, "none"⟩
  | none, some evidence => do
    ensure (requestSent = true) (closureError "task closure reconciliation preceded append")
    let frozen ← verifyEventUidReconciliation evidence.value
    let boundUid ← raising (frozen.textItem (str "event_uid"))
    let boundRequest ← raising (frozen.textItem (str "request_sha256"))
    ensure (boundUid = eventUid ∧ boundRequest = requestSha256)
      (closureError "task closure reconciliation binding mismatch")
    let matchCount ← raising (frozen.intItem (str "match_count"))
    if matchCount = 1 then do
      let eventId ← raising (frozen.intItem (str "event_id"))
      .ok ⟨"reconciled-created", .null, .int eventId, frozen, "none"⟩
    else
      .ok ⟨"reconciled-absent", .null, .null, frozen, "owner-decision-required"⟩
  | none, none =>
    if requestSent then .ok ⟨"unknown-outcome", .null, .null, .null, "reconcile-by-event-uid"⟩
    else .ok ⟨"not-started", .null, .null, .null, "send-once"⟩

/-- An object of flags. -/
def flagsObject (fs : List (String × Bool)) : Json := .fields (fs.map fun f => (f.1, .bool f.2))

/-- `authority_boundary` of an attempt. -/
def attemptAuthority (requestSent : Bool) : List (String × Bool) :=
  [("event_create_attempted", requestSent), ("event_update", false), ("event_delete", false),
    ("event_import", false), ("event_overwrite", false), ("bulk_write", false),
    ("production_authority", false)]

/-- `core` of `build_append_attempt_receipt`. -/
def attemptCore (eventUid requestSha256 : Str) (requestSent responseReceived : Bool)
    (outcome : Outcome) : List (String × Json) :=
  [("protocol", .str (str "integrity-guardian/action-log-append-attempt-receipt/v1")),
    ("event_uid", .str eventUid),
    ("request_sha256", .str requestSha256),
    ("request_sent", .bool requestSent),
    ("response_received", .bool responseReceived),
    ("state", .str (str outcome.state)),
    ("server_outcome", outcome.serverOutcome),
    ("event_id", outcome.eventId),
    ("reconciliation", outcome.reconciliation),
    ("first_request_allowed", .bool (outcome.state == "not-started")),
    ("automatic_retry_allowed", .bool false),
    ("permitted_next_step", .str (str outcome.nextStep)),
    ("privacy_boundary", flagsObject Schemas.TaskClosure.privacyBoundary),
    ("authority_boundary", flagsObject (attemptAuthority requestSent))]

/-- `_identity` of an attempt. -/
def attemptIdentity (core : Json) : Except Error Str :=
  identity core "action-log-append-attempt:" "action-log-append-attempt-v1"

/-- The transport flags, when both are booleans. -/
def transportFlags (requestSent responseReceived : Json) : Except Error (Bool × Bool) :=
  match requestSent, responseReceived with
  | .bool sent, .bool received => .ok (sent, received)
  | _, _ => .error (rejected "append transport state")

/-- `build_append_attempt_receipt`. -/
def buildAppendAttemptReceipt (arguments : AttemptArguments) : Except Error Json := do
  let eventUid ← requireEventUid arguments.eventUid
  let requestSha256 ← requireHexDigest arguments.requestSha256 "request SHA-256"
  let (sent, received) ← transportFlags arguments.requestSent arguments.responseReceived
  ensure (received = true → sent = true)
    (closureError "task closure response cannot precede request")
  ensure (sent = false → arguments.appendReceipt.isNone = true ∧
      arguments.reconciliation.isNone = true)
    (closureError "task closure unstarted append has evidence")
  ensure (arguments.appendReceipt.isNone = true ∨ arguments.reconciliation.isNone = true)
    (closureError "task closure append has competing outcomes")
  let outcome ← classify eventUid requestSha256 sent received arguments.appendReceipt
    arguments.reconciliation
  let core := attemptCore eventUid requestSha256 sent received outcome
  let attemptId ← attemptIdentity (.fields core)
  let receipt := Json.fields (core ++ [("attempt_id", .str attemptId)])
  validated Schemas.TaskClosure.appendAttemptReceipt receipt "append attempt schema"
  .ok receipt

/-- `_CONFIRMED_APPEND_STATES`. -/
def confirmedAppendStates : List Str :=
  [str "confirmed-created", str "confirmed-duplicate", str "reconciled-created"]

/-- `verify_append_attempt_receipt`. -/
def verifyAppendAttemptReceipt (receipt : Json) : Except Error Json := do
  let frozen ← freeze receipt "append attempt"
  validated Schemas.TaskClosure.appendAttemptReceipt frozen "append attempt schema"
  let expected ← attemptIdentity (frozen.pop (str "attempt_id"))
  let attemptId ← raising (frozen.textItem (str "attempt_id"))
  ensure (attemptId = expected) (closureError "task closure append attempt identity mismatch")
  let retry ← raising (frozen.boolItem (str "automatic_retry_allowed"))
  ensure (retry = false) (rejected "append retry boundary")
  let state ← raising (frozen.textItem (str "state"))
  let eventId ← raising (frozen.item (str "event_id"))
  let nextStep ← raising (frozen.textItem (str "permitted_next_step"))
  if state ∈ confirmedAppendStates then
    ensure (eventId ≠ .null ∧ nextStep = str "none") (rejected "confirmed append semantics")
  else
    ensure (eventId = .null) (closureError "task closure unconfirmed append has event id")
  .ok frozen

/-! ## Instructions -/

variable [Ed25519Keys]

/-- `verify_task_instruction`. -/
def verifyTaskInstruction (instruction : Json) (ownerKey : TrustedKey) : Except Error Json := do
  let frozen ← freeze instruction "instruction"
  validated Schemas.TaskClosure.taskInstructionEnvelope frozen "instruction schema"
  let core := ((frozen.pop (str "instruction_id")).pop (str "instruction_digest")).pop
    (str "signature")
  let expectedDigest ← raising (digestObject core (str "task-instruction-envelope-v1"))
  let expectedId ← identity core "task-instruction:" "task-instruction-identity-v1"
  let instructionDigest ← raising (frozen.textItem (str "instruction_digest"))
  let instructionId ← raising (frozen.textItem (str "instruction_id"))
  ensure (instructionDigest = expectedDigest ∧ instructionId = expectedId)
    (closureError "task closure instruction identity mismatch")
  let signature ← raising (frozen.item (str "signature"))
  let keyId ← raising (signature.textItem (str "key_id"))
  let fingerprint ← raising (frozen.textItem (str "owner_key_fingerprint"))
  ensure (keyId = ownerKey.keyId ∧ fingerprint = publicKeyFingerprint ownerKey.publicKey)
    (rejected "owner signature")
  let valid ← raising (verifySignature frozen ownerKey.publicKey)
  ensure (valid = true) (rejected "owner signature")
  .ok frozen

/-- The variables of the loop of `resolve_task_instructions`. -/
structure Permissions where
  task : Str
  phases : Dict Str Str
  previous : Option Json

/-- One pass of the loop. -/
def resolveStep (taskId : Str) (s : Permissions) (instruction : Json) :
    Except Error Permissions := do
  let named ← raising (instruction.textItem (str "task_id"))
  ensure (named = taskId) (closureError "task closure instruction chain crossed tasks")
  let sequence ← raising (instruction.intItem (str "sequence"))
  let supersedes ← raising (instruction.optionalTextItem (str "supersedes_digest"))
  match s.previous with
  | none =>
    ensure (sequence = 1 ∧ supersedes = none) (rejected "instruction chain origin")
  | some previous => do
    let before ← raising (previous.intItem (str "sequence"))
    let digest ← raising (previous.textItem (str "instruction_digest"))
    ensure (sequence = before + 1 ∧ supersedes = some digest) (rejected "instruction chain link")
  let constraints ← raising (instruction.item (str "constraints"))
  let permission ← raising (constraints.textItem (str "terminal_event_append"))
  let scope ← raising (instruction.textItem (str "scope"))
  if permission = str "unchanged" then
    .ok { s with previous := some instruction }
  else if scope = str "task" then
    .ok { s with task := permission, previous := some instruction }
  else do
    let phase ← raising (instruction.textItem (str "phase_id"))
    .ok { s with phases := s.phases.insert phase permission, previous := some instruction }

/-- What `resolve_task_instructions` returns. -/
structure InstructionState where
  taskId : Str
  currentPhase : Str
  headDigest : Str
  headSequence : Int
  chainDigest : Str
  taskPermission : Str
  phasePermission : Str
  effective : Str
  expiredPhaseIds : List Str

/-- `resolve_task_instructions`. -/
def resolveTaskInstructions (instructions : List Json) (currentPhase : Str)
    (ownerKey : TrustedKey) : Except Error InstructionState := do
  let _ ← requireId (.str currentPhase) "current phase"
  ensure (1 ≤ instructions.length ∧ instructions.length ≤ 256)
    (rejected "instruction chain size")
  let verified ← instructions.mapM fun item => verifyTaskInstruction item ownerKey
  let taskId ← raising ((verified.headD .null).textItem (str "task_id"))
  let final ← verified.foldlM (resolveStep taskId) ⟨str "deny", ∅, none⟩
  let phasePermission := final.phases[currentPhase]?.getD (str "inherit")
  let effective := if final.task = str "allow" ∧ phasePermission ≠ str "deny" then str "allow"
    else str "deny"
  let digests ← verified.mapM fun item => raising (item.item (str "instruction_digest"))
  let chainDigest ← raising (digestObject (.arr digests) (str "task-instruction-chain-v1"))
  let head := verified.getLastD .null
  let headDigest ← raising (head.textItem (str "instruction_digest"))
  let headSequence ← raising (head.intItem (str "sequence"))
  .ok
    { taskId, currentPhase, headDigest, headSequence, chainDigest, phasePermission, effective
      taskPermission := final.task
      expiredPhaseIds := (final.phases.toList.map Prod.fst).filter (· ≠ currentPhase) }

/-! ## Closures -/

/-- `_append_request_sha256`. -/
def appendRequestSha256 (eventUid summary : Str) (details : Json) (tags : List Str) :
    Except Error Str := do
  let tags := (tags.map Str.strip ++ [str "client-workstation", str "medor", str "remote-append",
    str "task"]).eraseDups
  let payload ← raising (canonicalBytes (.fields
    [("event_uid", .str eventUid),
      ("kind", .str (str "task")),
      ("summary", .str summary.strip),
      ("details", details),
      ("tags", .arr (tags.map .str))]))
  .ok (hex (sha256 payload))

/-- What `build_task_closure_event` returns, as far as a closure reads it. -/
structure ClosureEvent where
  eventUid : Str
  requestSha256 : Str
  state : InstructionState

/-- `build_task_closure_event`. -/
def buildTaskClosureEvent (instructions : List Json) (evidenceDigest completedAt : Str)
    (ownerKey : TrustedKey) : Except Error ClosureEvent := do
  let _ ← requireDigest (.str evidenceDigest) "evidence digest"
  let state ← resolveTaskInstructions instructions (str "closure") ownerKey
  ensure (state.effective = str "allow")
    (closureError "task closure terminal append is not authorized")
  let binding := Json.fields
    [("protocol", .str (str "integrity-guardian/task-closure-event/v1")),
      ("task_id", .str state.taskId),
      ("instruction_head_digest", .str state.headDigest),
      ("instruction_chain_digest", .str state.chainDigest),
      ("evidence_digest", .str evidenceDigest),
      ("completed_at", .str completedAt),
      ("result", .str (str "complete"))]
  let eventUid ← identity binding "client:task-closure:" "task-closure-terminal-event-v1"
  let details := Json.fields
    [("closure", binding),
      ("event_mutation", .str (str "append-only")),
      ("production_authority", .bool false)]
  let requestSha256 ← appendRequestSha256 eventUid
    (str "Integrity task completed with a receipt-bound terminal event.") details
    [str "task-closure", str "receipt-bound", str "no-prod"]
  .ok ⟨eventUid, requestSha256, state⟩

/-- The members of the state a closure carries. -/
def InstructionState.document (state : InstructionState) : Json :=
  .fields
    [("instruction_head_digest", .str state.headDigest),
      ("instruction_head_sequence", .int state.headSequence),
      ("instruction_chain_digest", .str state.chainDigest),
      ("task_terminal_event_append", .str state.taskPermission),
      ("phase_terminal_event_append", .str state.phasePermission),
      ("effective_terminal_event_append", .str state.effective),
      ("expired_phase_ids", .arr (state.expiredPhaseIds.map .str))]

/-- `build_task_closure_receipt`. -/
def buildTaskClosureReceipt (instructions : List Json) (evidenceDigest completedAt : Str)
    (appendAttempt : Json) (ownerKey : TrustedKey) : Except Error Json := do
  let event ← buildTaskClosureEvent instructions evidenceDigest completedAt ownerKey
  let attempt ← verifyAppendAttemptReceipt appendAttempt
  let appendState ← raising (attempt.textItem (str "state"))
  ensure (appendState ∈ confirmedAppendStates)
    (closureError "task completion requires a confirmed terminal event")
  let eventUid ← raising (attempt.textItem (str "event_uid"))
  let requestSha256 ← raising (attempt.textItem (str "request_sha256"))
  ensure (eventUid = event.eventUid ∧ requestSha256 = event.requestSha256)
    (closureError "task closure terminal event binding mismatch")
  let eventId ← raising (attempt.item (str "event_id"))
  let attemptId ← raising (attempt.textItem (str "attempt_id"))
  let core : List (String × Json) :=
    [("protocol", .str (str "integrity-guardian/task-closure-receipt/v1")),
      ("task_id", .str event.state.taskId),
      ("status", .str (str "complete")),
      ("phase_id", .str (str "closure")),
      ("completed_at", .str completedAt),
      ("evidence_digest", .str evidenceDigest),
      ("instruction_state", event.state.document),
      ("terminal_event", .fields
        [("event_uid", .str eventUid),
          ("event_id", eventId),
          ("append_state", .str appendState),
          ("request_sha256", .str requestSha256),
          ("append_attempt_id", .str attemptId)]),
      ("mutation_boundary", flagsObject Schemas.TaskClosure.mutationBoundary),
      ("authority_boundary", flagsObject Schemas.TaskClosure.closureAuthority)]
  let closureId ← identity (.fields core) "task-closure:" "task-closure-receipt-v1"
  let receipt := Json.fields (core ++ [("closure_id", .str closureId)])
  validated Schemas.TaskClosure.taskClosureReceipt receipt "receipt schema"
  .ok receipt

end

end IntegrityGuardian.TaskClosure
