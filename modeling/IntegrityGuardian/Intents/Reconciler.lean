import IntegrityGuardian.Schemas
import IntegrityGuardian.Signing

/-!
# Reconciliation of signed intents

`reconciler.py`: the verification of a `ChangeIntent` and the classification of
observed deltas against it.  A document is read once its schema has accepted it,
so every subscript below finds a value of the expected type.
-/

namespace IntegrityGuardian.Intents

open Python Library

/-- The exceptions of `reconciler.py` and `intent_custody.py`, next to those of
the interpreter. -/
inductive Error where
  | verificationError (message : Str)
  | custodyError (message : Str)
  | replayError (message : Str)
  | raised (e : Exc)
  deriving DecidableEq

def raising {α : Type} (x : Except Exc α) : Except Error α := x.mapError .raised

def distrust (message : String) : Error := .verificationError (str message)

/-! ## Intents -/

/-- One element of `expected_changes`. -/
structure ExpectedChange where
  selector : Str
  operation : Str
  beforeDigest : Option Str
  afterDigest : Option Str
  deriving DecidableEq

/-- What verification and classification read of an intent. -/
structure Intent where
  intentId : Str
  tenantId : Str
  nodeId : Str
  createdAt : Str
  validFrom : Str
  validUntil : Str
  retrospective : Bool
  selectors : List Str
  operations : List Str
  expectedChanges : List ExpectedChange

def items : Json → Except Exc (List Json)
  | .arr vs => .ok vs
  | _ => .error .typeError

def text : Json → Except Exc Str
  | .str s => .ok s
  | _ => .error .typeError

def texts (v : Json) : Except Exc (List Str) := do
  let vs ← items v
  vs.mapM text

def readChange (v : Json) : Except Exc ExpectedChange := do
  let selector ← v.textItem (str "selector")
  let operation ← v.textItem (str "operation")
  let beforeDigest ← v.optionalTextItem (str "before_digest")
  let afterDigest ← v.optionalTextItem (str "after_digest")
  .ok ⟨selector, operation, beforeDigest, afterDigest⟩

/-- The subscripts of a validated intent. -/
def readIntent (v : Json) : Except Exc Intent := do
  let intentId ← v.textItem (str "intent_id")
  let tenantId ← v.textItem (str "tenant_id")
  let target ← v.item (str "target")
  let nodeId ← target.textItem (str "node_id")
  let createdAt ← v.textItem (str "created_at")
  let validFrom ← v.textItem (str "valid_from")
  let validUntil ← v.textItem (str "valid_until")
  let scope ← v.item (str "scope")
  let selectors ← texts (← scope.item (str "selectors"))
  let operations ← texts (← scope.item (str "operations"))
  let changes ← items (← v.item (str "expected_changes"))
  let expectedChanges ← changes.mapM readChange
  .ok {
    intentId, tenantId, nodeId, createdAt, validFrom, validUntil
    retrospective := v.get? (str "retrospective") = some (.bool true)
    selectors, operations, expectedChanges }

/-- `_parse_time`: the instant of an aware timestamp. -/
def parseTime [UnicodeData] (value : Str) : Except Exc Int :=
  match Datetime.fromisoformat value with
  | none => .error (.valueError (str "Invalid isoformat string: " ++ value.repr))
  | some d =>
    match d.utcoffset with
    | none => .error (.valueError (str "timestamp must include a timezone"))
    | some offset => .ok (d.moment offset)

/-! ## Verification -/

/-- `b"integrity-guardian\x00change-intent-v1\x00"`. -/
def changeIntentFrame : Bytes :=
  (str "integrity-guardian").map (fun c => UInt8.ofNat c.val) ++ 0 ::
    (str "change-intent-v1").map (fun c => UInt8.ofNat c.val) ++ [0]

/-- `_intent_signature_payload`. -/
def intentSignaturePayload (intent : Json) : Except Error Bytes :=
  match intent.get? (str "authorization") with
  | some (.obj members) => do
    let unsigned := intent.set (str "authorization") ((Json.obj members).pop (str "signature"))
    let payload ← raising (canonicalBytes unsigned)
    .ok (changeIntentFrame ++ payload)
  | _ => .error (distrust "ChangeIntent authorization is missing")

/-- The scope check on the expected changes, from the given index on. -/
def checkScope (selectors operations : List Str) : Nat → List ExpectedChange → Except Error Unit
  | _, [] => .ok ()
  | index, change :: changes => do
    ensure (change.selector ∈ selectors ∧ change.operation ∈ operations)
      (.verificationError (str "expected change " ++ Json.decimal index
        ++ str " is outside the declared scope"))
    checkScope selectors operations (index + 1) changes

section
variable [UnicodeData] [Ed25519]

/-- `verify_change_intent`. -/
def verifyChangeIntent (intent : Json) (authorityKey : TrustedKey) : Except Error Unit := do
  raising (Schemas.validate Schemas.changeIntent intent)
  let authorization ← raising (intent.item (str "authorization"))
  let signature ← raising (authorization.item (str "signature"))
  let keyId ← raising (signature.textItem (str "key_id"))
  ensure (keyId = authorityKey.keyId) (distrust "ChangeIntent authority key identity mismatch")
  let payload ← intentSignaturePayload intent
  let value ← raising (signature.textItem (str "value"))
  ensure (verifyBytes payload value authorityKey.publicKey = true)
    (distrust "ChangeIntent signature verification failed")
  let view ← raising (readIntent intent)
  let createdAt ← raising (parseTime view.createdAt)
  let validFrom ← raising (parseTime view.validFrom)
  let validUntil ← raising (parseTime view.validUntil)
  ensure (validFrom ≤ validUntil) (distrust "ChangeIntent validity interval is inverted")
  ensure (createdAt ≤ validUntil) (distrust "ChangeIntent was created after its validity ended")
  checkScope view.selectors view.operations 0 view.expectedChanges

end

/-! ## Classification -/

inductive Classification where
  | authorizedSuccess
  | authorizedFailed
  | authorizedPartial
  | scopeBreach
  | unrecordedChange
  | retrospectiveClaim
  | plannedNotObserved
  | sensorGap
  | ambiguous
  deriving DecidableEq

/-- `classification.value`. -/
def Classification.value : Classification → Str
  | .authorizedSuccess => str "authorized_success"
  | .authorizedFailed => str "authorized_failed"
  | .authorizedPartial => str "authorized_partial"
  | .scopeBreach => str "scope_breach"
  | .unrecordedChange => str "unrecorded_change"
  | .retrospectiveClaim => str "retrospective_claim"
  | .plannedNotObserved => str "planned_not_observed"
  | .sensorGap => str "sensor_gap"
  | .ambiguous => str "ambiguous"

inductive PostCheck where
  | pass
  | fail
  | pending
  | notRun
  deriving DecidableEq

structure ObservedDelta where
  tenantId : Str
  nodeId : Str
  selector : Str
  operation : Str
  observedAt : Str
  beforeDigest : Option Str
  afterDigest : Option Str
  postCheck : PostCheck
  evidenceComplete : Bool
  sourceEventId : Option Str

def optionalText : Option Str → Json
  | none => .null
  | some s => .str s

def optionalIndex : Option Nat → Json
  | none => .null
  | some n => .int n

section
variable [UnicodeData]

/-- `_result`. -/
def result (classification : Classification) (delta : Option ObservedDelta)
    (intent : Option Intent) (reason : Str) (expectedIndex : Option Nat) : Except Exc Json := do
  let core : Json := .obj [
    (str "classification", .str classification.value),
    (str "reason", .str reason),
    (str "intent_id", optionalText (intent.map Intent.intentId)),
    (str "selector", optionalText (delta.map ObservedDelta.selector)),
    (str "operation", optionalText (delta.map ObservedDelta.operation)),
    (str "source_event_id", optionalText (delta.bind ObservedDelta.sourceEventId)),
    (str "tenant_id", optionalText (match delta with
      | some d => some d.tenantId
      | none => intent.map Intent.tenantId)),
    (str "node_id", optionalText (match delta with
      | some d => some d.nodeId
      | none => intent.map Intent.nodeId)),
    (str "expected_change_index", optionalIndex expectedIndex)]
  let digest ← digestObject core (str "reconciliation-decision-v1")
  .ok (core.set (str "decision_id") (.str (str "decision:" ++ digest.afterColon)))

end

/-- The class of one delta, with the index it names and the one it matches. -/
structure Judgement where
  classification : Classification
  reason : Str
  expectedIndex : Option Nat
  isMatch : Bool

/-- The indexes of the expected changes with the delta's selector and operation. -/
def exactScopeIndexes (expected : List ExpectedChange) (delta : ObservedDelta) : List Nat :=
  (List.range expected.length).filter fun index =>
    match expected[index]? with
    | some change => change.selector = delta.selector ∧ change.operation = delta.operation
    | none => false

/-- `indexes[0] if len(indexes) == 1 else None`. -/
def onlyIndex : List Nat → Option Nat
  | [index] => some index
  | _ => none

/-- The class of a delta whose one expected change is `change`. -/
def judgeMatch (change : ExpectedChange) (delta : ObservedDelta) : Classification × Str :=
  if ¬(change.beforeDigest = delta.beforeDigest ∧ change.afterDigest = delta.afterDigest) then
    (.authorizedPartial,
      str "inside scope but observed before/after digest is not the exact intended diff")
  else
    match delta.postCheck with
    | .pass => (.authorizedSuccess, str "exact prior intent, exact diff and post-check PASS")
    | .fail =>
      (.authorizedFailed, str "exact intended diff observed but required post-check failed")
    | _ => (.authorizedPartial, str "exact intended diff observed but post-check is incomplete")

/-- The body of the loop of `reconcile`, with the intent's parsed timestamps. -/
def judge [UnicodeData] (intent : Intent) (createdAt validFrom validUntil : Int) (delta : ObservedDelta) :
    Except Exc Judgement := do
  let observedAt ← parseTime delta.observedAt
  let indexes := exactScopeIndexes intent.expectedChanges delta
  if delta.tenantId ≠ intent.tenantId ∨ delta.nodeId ≠ intent.nodeId then
    .ok ⟨.scopeBreach, str "observed tenant or node is outside intent target", none, false⟩
  else if !delta.evidenceComplete then
    .ok ⟨.sensorGap, str "observation evidence is incomplete", none, false⟩
  else if intent.retrospective ∨ createdAt > observedAt then
    .ok ⟨.retrospectiveClaim, str "ChangeIntent was created after the observation",
      onlyIndex indexes, false⟩
  else if observedAt < validFrom ∨ observedAt > validUntil then
    .ok ⟨.unrecordedChange, str "ChangeIntent was not valid at observation time",
      onlyIndex indexes, false⟩
  else
    match indexes with
    | [] =>
      .ok ⟨.scopeBreach, str "observed selector or operation is outside intent scope", none, false⟩
    | [index] =>
      match intent.expectedChanges[index]? with
      | some change =>
        let (classification, reason) := judgeMatch change delta
        .ok ⟨classification, reason, some index, true⟩
      | none => .error .typeError
    | _ =>
      .ok ⟨.ambiguous, str "multiple expected changes match the same selector and operation",
        none, false⟩

section
variable [UnicodeData]

/-- One pass of the loop: the entry for the delta and the index it matched. -/
def reconcileDelta (intent : Intent) (createdAt validFrom validUntil : Int)
    (delta : ObservedDelta) : Except Exc (Json × Option Nat) := do
  let judgement ← judge intent createdAt validFrom validUntil delta
  let entry ← result judgement.classification (some delta) (some intent) judgement.reason
    judgement.expectedIndex
  .ok (entry, if judgement.isMatch then judgement.expectedIndex else none)

/-- The entries for the expected changes no delta matched. -/
def missingEntries (intent : Intent) (matched : List Nat) : Except Exc (List Json) :=
  let missing := (List.range intent.expectedChanges.length).filter fun index => index ∉ matched
  let classification : Classification :=
    if matched = [] then .plannedNotObserved else .authorizedPartial
  missing.mapM fun index =>
    result classification none (some intent)
      (str "expected change " ++ Json.decimal index ++ str " was not observed") (some index)

/-- The entry for a delta without an intent. -/
def unrecorded (delta : ObservedDelta) : Except Exc Json :=
  if !delta.evidenceComplete then
    result .sensorGap (some delta) none (str "observation evidence is incomplete") none
  else
    result .unrecordedChange (some delta) none (str "no applicable prior ChangeIntent") none

variable [Ed25519]

/-- `reconcile`. -/
def reconcile (intent : Option Json) (observed : List ObservedDelta)
    (authorityKey : Option TrustedKey) : Except Error (List Json) :=
  match intent with
  | none => raising (observed.mapM unrecorded)
  | some document =>
    match authorityKey with
    | none => .error (distrust "trusted ChangeIntent authority key is required")
    | some key => do
      verifyChangeIntent document key
      let view ← raising (readIntent document)
      let createdAt ← raising (parseTime view.createdAt)
      let validFrom ← raising (parseTime view.validFrom)
      let validUntil ← raising (parseTime view.validUntil)
      if observed = [] then
        let entry ← raising (result .plannedNotObserved none (some view)
          (str "valid intent has no observed change") none)
        .ok [entry]
      else
        let entries ← raising
          (observed.mapM (reconcileDelta view createdAt validFrom validUntil))
        let missing ← raising (missingEntries view (entries.filterMap Prod.snd))
        .ok (entries.map Prod.fst ++ missing)

end

end IntegrityGuardian.Intents
