import IntegrityGuardian.Schemas.KeyTransition
import IntegrityGuardian.Signing.Domains
import Mathlib.Data.Finset.Insert

/-!
# The key lifecycle

`key_lifecycle.py`: signed transitions of the public key a tenant uses for a purpose.
A transition is checked against its schema and its authority, and then against the
state it is applied to.
-/

namespace IntegrityGuardian.KeyLifecycle

open Python Library

def raising {α : Type} (x : Except Exc α) : Except Error α := x.mapError .raised

def refuse (message : String) : Error := .lifecycleError (str message)

/-- The constructor of public keys of the `cryptography` package; nothing stands for its
`ValueError`. -/
class Ed25519Import extends Ed25519 where
  /-- `Ed25519PublicKey.from_public_bytes`. -/
  fromPublicBytes : Bytes → Option PublicKey

/-- `KeyRecord`. -/
structure KeyRecord where
  keyId : Str
  publicKeyValue : Str
  validFrom : Str
  validUntil : Str
  deriving DecidableEq

/-- What `validate_tenant_id` returns. -/
abbrev TenantId := { s : Str // Schemas.tenantName s = true }

/-- `KeyLifecycleState`, whose constructor validates the tenant. -/
structure KeyLifecycleState where
  tenantId : TenantId
  purpose : Str
  sequence : Int
  active : Option KeyRecord
  retiredKeyIds : Finset Str
  revokedKeyIds : Finset Str

/-- The empty lifecycle of a tenant and a purpose. -/
def KeyLifecycleState.empty (tenantId : TenantId) (purpose : Str) : KeyLifecycleState where
  tenantId := tenantId
  purpose := purpose
  sequence := -1
  active := none
  retiredKeyIds := ∅
  revokedKeyIds := ∅

/-- `_parse_time`. -/
def parseTime (value : Str) : Except Error Int :=
  match Datetime.fromisoformat value with
  | none => .error (refuse "invalid key lifecycle timestamp")
  | some d =>
    match d.utcoffset with
    | none => .error (refuse "key lifecycle timestamp must include timezone")
    | some offset => .ok (d.moment offset)

section
variable [Ed25519Import]

/-- `trusted_key_from_value`. -/
def trustedKeyFromValue (keyId value : Str) : Except Error TrustedKey :=
  let invalid : Error := .raised (.valueError (str "invalid Ed25519 public key"))
  match unbase64url value with
  | none => .error invalid
  | some raw =>
    if raw.length ≠ 32 then .error invalid
    else
      match Ed25519Import.fromPublicBytes raw with
      | none => .error invalid
      | some publicKey => .ok ⟨keyId, publicKey⟩

/-- `_verify_transition_authority`. -/
def verifyTransitionAuthority (document : Json) (authorityKey : TrustedKey) :
    Except Error Unit := do
  let rejected := refuse "key transition authority signature rejected"
  let authorization ← raising (document.item (str "authorization"))
  let signature ← raising (authorization.item (str "signature"))
  let authorityId ← raising (authorization.textItem (str "authority_id"))
  ensure (authorityId = authorityKey.keyId) rejected
  let keyId ← raising (signature.textItem (str "key_id"))
  ensure (keyId = authorityKey.keyId) rejected
  let payload ← signaturePayload document
  let value ← raising (signature.textItem (str "value"))
  ensure (verifyBytes payload value authorityKey.publicKey = true) rejected

/-- `_successor_record`. -/
def successorRecord (document : Json) : Except Error (Option KeyRecord) := do
  let successor ← raising (document.item (str "successor"))
  if successor = .null then .ok none
  else do
    let keyId ← raising (successor.textItem (str "key_id"))
    let publicKeyValue ← raising (successor.textItem (str "public_key"))
    let validFrom ← raising (successor.textItem (str "valid_from"))
    let validUntil ← raising (successor.textItem (str "valid_until"))
    let _ ← trustedKeyFromValue keyId publicKeyValue
    let begins ← parseTime validFrom
    let ends ← parseTime validUntil
    let recordedAt ← raising (document.textItem (str "recorded_at"))
    let recorded ← parseTime recordedAt
    ensure (begins ≤ recorded ∧ recorded ≤ ends)
      (refuse "successor key is not valid at transition time")
    .ok (some ⟨keyId, publicKeyValue, validFrom, validUntil⟩)

/-- The successor has the identity of a key that was or is in use. -/
def Reused (state : KeyLifecycleState) : Option KeyRecord → Prop
  | none => False
  | some record => record.keyId ∈ state.retiredKeyIds ∨ record.keyId ∈ state.revokedKeyIds ∨
    state.active.map KeyRecord.keyId = some record.keyId

instance (state : KeyLifecycleState) : (successor : Option KeyRecord) →
    Decidable (Reused state successor)
  | none => inferInstanceAs (Decidable False)
  | some _ => inferInstanceAs (Decidable (_ ∨ _ ∨ _))

/-- The state after an operation: the key in use and the keys that were. -/
def change (state : KeyLifecycleState) (operation : Str) (predecessor : Option Str)
    (successor : Option KeyRecord) : Except Error KeyLifecycleState :=
  if operation = str "enroll" then do
    ensure (state.sequence = -1 ∧ state.active = none ∧ predecessor = none)
      (refuse "enrollment is allowed only for an empty lifecycle")
    .ok { state with active := successor }
  else if operation = str "rotate" then
    let mismatch := refuse "rotation predecessor does not match active key"
    match state.active, successor with
    | some active, some record => do
      ensure (predecessor = some active.keyId) mismatch
      .ok { state with
        active := some record, retiredKeyIds := insert active.keyId state.retiredKeyIds }
    | _, _ => .error mismatch
  else if operation = str "revoke" then
    let mismatch := refuse "revocation predecessor does not match active key"
    match state.active with
    | some active => do
      ensure (predecessor = some active.keyId ∧ successor = none) mismatch
      .ok { state with
        active := none, revokedKeyIds := insert active.keyId state.revokedKeyIds }
    | none => .error mismatch
  else if operation = str "recover" then do
    ensure (0 ≤ state.sequence ∧ state.active = none ∧ state.revokedKeyIds ≠ ∅ ∧
        predecessor = none ∧ successor ≠ none)
      (refuse "recovery requires a previously revoked inactive lifecycle")
    .ok { state with active := successor }
  else .error (refuse "unsupported key transition operation")

/-- `apply_key_transition`. -/
def applyKeyTransition (state : KeyLifecycleState) (document : Json)
    (authorityKey : TrustedKey) : Except Error KeyLifecycleState := do
  ensure (Schemas.keyTransition.accepts document = true)
    (refuse "key transition schema rejected")
  verifyTransitionAuthority document authorityKey
  let tenantId ← raising (document.textItem (str "tenant_id"))
  ensure (tenantId = state.tenantId.val) (refuse "cross-tenant key transition prohibited")
  let purpose ← raising (document.textItem (str "purpose"))
  ensure (purpose = state.purpose) (refuse "key purpose mismatch")
  let sequence ← raising (document.intItem (str "sequence"))
  ensure (sequence = state.sequence + 1) (refuse "key transition sequence mismatch")
  let operation ← raising (document.textItem (str "operation"))
  let predecessor ← raising (document.optionalTextItem (str "predecessor_key_id"))
  let successor ← successorRecord document
  ensure (¬Reused state successor) (refuse "key identifier reuse is prohibited")
  let changed ← change state operation predecessor successor
  .ok { changed with sequence := sequence }

/-- A document with the key of the authority that is to have signed it. -/
structure Submission where
  document : Json
  authorityKey : TrustedKey

/-- The states of a lifecycle: the first one and one after each accepted document. -/
def states (state : KeyLifecycleState) : List Submission → List KeyLifecycleState
  | [] => [state]
  | submission :: submissions =>
    match applyKeyTransition state submission.document submission.authorityKey with
    | .ok next => state :: states next submissions
    | .error _ => states state submissions

end

end IntegrityGuardian.KeyLifecycle
