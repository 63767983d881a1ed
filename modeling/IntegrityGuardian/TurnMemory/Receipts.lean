import IntegrityGuardian.Schemas.TurnMemory
import IntegrityGuardian.Signing.OwnSignatures

/-!
# Signed turn-memory receipts

`turn_memory.py`, up to the store: the checks of its arguments, the receipts it
signs, and their verification under the two identity profiles.
-/

namespace IntegrityGuardian.TurnMemory

open Python Library
open Schemas.TurnMemory (identityBody sha256Body intentBody uuidBody eventUidBody noEventReasons
  gapStages)

inductive Error where
  /-- `TurnMemoryError`. -/
  | turnMemory (message : Str)
  /-- An exception of the interpreter, of `sqlite3` or of `jsonschema`. -/
  | raised (e : Exc)
  deriving DecidableEq

def refuse (message : String) : Error := .turnMemory (str message)

def raising {α : Type} (x : Except Exc α) : Except Error α := x.mapError .raised

/-! ## Arguments -/

/-- `_digest`. -/
def digest (value : Json) (domain : String) : Except Exc Str := do
  let payload ← canonicalBytes value
  .ok (sha256Digest ((str domain).flatMap utf8Octets ++ 0 :: payload))

/-- `_identity`. -/
def identity (value : Str) (name : String) : Except Error Str := do
  ensure (identityBody value = true) (refuse (name ++ " is invalid"))
  .ok value

/-- `_digest_value`. -/
def digestValue (value : Str) (name : String) : Except Error Str := do
  ensure (Schemas.digestBody value = true) (refuse (name ++ " is invalid"))
  .ok value

/-- `_sha256_value`. -/
def sha256Value (value : Str) (name : String) : Except Error Str := do
  ensure (sha256Body value = true) (refuse (name ++ " is invalid"))
  .ok value

/-- A member of the mapping that is a text. -/
def textMember (raw : Json) (key : String) : Option Str :=
  match raw.get? (str key) with
  | some (.str s) => some s
  | _ => none

/-- One normalized event reference. -/
structure EventReference where
  eventUid : Str
  eventId : Int
  requestSha256 : Str
  deriving DecidableEq

def EventReference.toJson (e : EventReference) : Json :=
  .fields [("event_uid", .str e.eventUid), ("event_id", .int e.eventId),
    ("request_sha256", .str e.requestSha256)]

/-- The checks of one element of `events`. -/
def eventReference (raw : Json) : Except Error EventReference := do
  match textMember raw "event_uid" with
  | none => .error (refuse "event_uid is invalid")
  | some eventUid =>
    ensure (eventUidBody eventUid = true) (refuse "event_uid is invalid")
    match raw.get? (str "event_id") with
    | some (.int eventId) =>
      ensure (1 ≤ eventId) (refuse "event_id is invalid")
      match textMember raw "request_sha256" with
      | none => .error (refuse "event request_sha256 is invalid")
      | some requestSha256 =>
        let requestSha256 ← sha256Value requestSha256 "event request_sha256"
        .ok ⟨eventUid, eventId, requestSha256⟩
    | _ => .error (refuse "event_id is invalid")

/-- The order `normalized.sort` leaves elements in. -/
def EventReference.le (a b : EventReference) : Bool :=
  a.eventId < b.eventId || (a.eventId == b.eventId && decide (a.eventUid ≤ b.eventUid))

/-- `normalize_event_references`.  `seen` holds what `normalized` does. -/
def normalizeEventReferences (events : List Json) : Except Error (List EventReference) := do
  let normalized ← events.foldlM (fun (normalized : List EventReference) raw => do
    let reference ← eventReference raw
    .ok (if reference ∈ normalized then normalized else normalized ++ [reference])) []
  let sorted := normalized.insertionSort fun a b => a.le b = true
  ensure (sorted ≠ []) (refuse "events terminal receipt requires at least one event")
  .ok sorted

/-! ## Receipts -/

/-- The three kinds of receipts about a turn. -/
inductive Kind where
  | registration
  | terminalReceipt
  | gapReceipt
  deriving DecidableEq

/-- `identity_profile`. -/
inductive Profile where
  | legacy
  | nativeIntent
  deriving DecidableEq

/-- The schema, the protocol and the digest domain of a receipt. -/
structure Form where
  schema : Schema
  protocol : String
  idDomain : String

def Kind.form : Kind → Form
  | .registration =>
    ⟨Schemas.TurnMemory.registration Schemas.TurnMemory.identity,
      "integrity-guardian/turn-memory-registration/v1", "turn-memory-registration-v1"⟩
  | .terminalReceipt =>
    ⟨Schemas.TurnMemory.terminalReceipt Schemas.TurnMemory.identity,
      "integrity-guardian/turn-memory-terminal-receipt/v1", "turn-memory-terminal-v1"⟩
  | .gapReceipt =>
    ⟨Schemas.TurnMemory.gapReceipt Schemas.TurnMemory.identity,
      "integrity-guardian/turn-memory-gap-receipt/v1", "turn-memory-gap-v1"⟩

/-- `_legacy_validator`. -/
def legacyValidator : Kind → Schema
  | .registration => Schemas.TurnMemory.registration Schemas.TurnMemory.legacyIdentity
  | .terminalReceipt => Schemas.TurnMemory.terminalReceipt Schemas.TurnMemory.legacyIdentity
  | .gapReceipt => Schemas.TurnMemory.gapReceipt Schemas.TurnMemory.legacyIdentity

def creationPolicyForm : Form :=
  ⟨Schemas.TurnMemory.creationPolicy, "integrity-guardian/turn-memory-creation-policy/v1",
    "turn-memory-creation-policy-v1"⟩

section
variable [Ed25519]

/-- `_signed_receipt`. -/
def signedReceipt (core : Json) (idDomain : String) (signer : Ed25519Signer) :
    Except Exc Json := do
  let receiptId ← digest core idDomain
  signer.sign (core.set (str "receipt_id") (.str receiptId))

/-- `_verify_receipt`. -/
def verifyReceipt (form : Form) (trustedKey : TrustedKey) (receipt : Json) :
    Except Error Json := do
  raising (Schemas.validate form.schema receipt)
  let protocol ← raising (receipt.item (str "protocol"))
  ensure (protocol = .str (str form.protocol)) (refuse "turn-memory receipt protocol mismatch")
  let signature ← raising (receipt.item (str "signature"))
  let keyId ← raising (signature.textItem (str "key_id"))
  let rejected := refuse "turn-memory receipt signature rejected"
  ensure (keyId = trustedKey.keyId) rejected
  let verified ← raising (verifySignature receipt trustedKey.publicKey)
  ensure (verified = true) rejected
  let unsigned := receipt.pop (str "signature")
  let receiptId ← raising (unsigned.textItem (str "receipt_id"))
  let expected ← raising (digest (unsigned.pop (str "receipt_id")) form.idDomain)
  ensure (receiptId = expected) (refuse "turn-memory receipt identity mismatch")
  .ok receipt

end

/-- What `verify_turn_terminal_receipt` checks of the outcome. -/
def checkOutcome (candidate : Json) : Except Error Unit := do
  let outcome ← raising (candidate.textItem (str "outcome"))
  if outcome = str "events" then
    ensure (candidate.get? (str "no_event_reason") = none ∧
        (candidate.arrayItem (str "events")).toOption.getD [] ≠ [])
      (refuse "events terminal receipt is incomplete")
  else if outcome = str "no-event" then
    ensure (noEventReasons.any (fun reason =>
          candidate.get? (str "no_event_reason") == some (.str (str reason))) = true ∧
        candidate.get? (str "events") = none)
      (refuse "no-event terminal receipt is incomplete")
  else .error (refuse "turn terminal outcome is invalid")

/-- What the native profile asks of an identity. -/
def checkNativeIdentity (verified : Json) : Except Error Unit := do
  let identity ← raising (verified.item (str "identity"))
  let turnId ← raising (identity.textItem (str "turn_id"))
  let threadId ← raising (identity.textItem (str "thread_id"))
  ensure (intentBody ((textMember identity "intent_id").getD []) = true ∧ uuidBody turnId = true ∧
      uuidBody threadId = true)
    (refuse "native identity profile receipt mismatch")

/-- What the verifier of a kind adds to `_verify_receipt`. -/
def kindCheck (kind : Kind) (verified : Json) : Except Error Unit :=
  match kind with
  | .terminalReceipt => checkOutcome verified
  | _ => .ok ()

/-- What a profile adds. -/
def profileCheck (profile : Profile) (kind : Kind) (verified : Json) : Except Error Unit :=
  match profile with
  | .legacy => raising (Schemas.validate (legacyValidator kind) verified)
  | .nativeIntent => checkNativeIdentity verified

section
variable [Ed25519]

/-- `_verify_profile_receipt`. -/
def verifyProfileReceipt (profile : Profile) (trustedKey : TrustedKey) (kind : Kind)
    (receipt : Json) : Except Error Json := do
  let verified ← verifyReceipt kind.form trustedKey receipt
  kindCheck kind verified
  profileCheck profile kind verified
  .ok verified

/-! ## What a verified receipt is -/

/-- The checks of `_verify_receipt`. -/
structure Verified (form : Form) (trustedKey : TrustedKey) (receipt : Json) : Prop where
  valid : form.schema.accepts receipt = true
  protocol : receipt.get? (str "protocol") = some (.str (str form.protocol))
  keyId : ∃ signature, receipt.get? (str "signature") = some signature ∧
    signature.get? (str "key_id") = some (.str trustedKey.keyId)
  signed : verifySignature receipt trustedKey.publicKey = .ok true
  receiptId : ∃ receiptId, (receipt.pop (str "signature")).get? (str "receipt_id") =
      some (.str receiptId) ∧
    digest ((receipt.pop (str "signature")).pop (str "receipt_id")) form.idDomain = .ok receiptId

theorem verifyReceipt_eq_ok {form : Form} {trustedKey : TrustedKey} {receipt verified : Json} :
    verifyReceipt form trustedKey receipt = .ok verified ↔
      verified = receipt ∧ Verified form trustedKey receipt := by
  constructor
  · intro h
    obtain ⟨⟨⟩, hvalid, h⟩ := bind_eq_ok.1 h
    obtain ⟨protocol, hprotocol, h⟩ := bind_eq_ok.1 h
    obtain ⟨hsame, h⟩ := ensure_bind_eq_ok.1 h
    obtain ⟨signature, hsignature, h⟩ := bind_eq_ok.1 h
    obtain ⟨keyId, hkeyId, h⟩ := bind_eq_ok.1 h
    obtain ⟨htrusted, h⟩ := ensure_bind_eq_ok.1 h
    obtain ⟨answer, hsigned, h⟩ := bind_eq_ok.1 h
    obtain ⟨hanswer, h⟩ := ensure_bind_eq_ok.1 h
    obtain ⟨receiptId, hreceiptId, h⟩ := bind_eq_ok.1 h
    obtain ⟨expected, hexpected, h⟩ := bind_eq_ok.1 h
    obtain ⟨hid, h⟩ := ensure_bind_eq_ok.1 h
    rw [raising, mapError_eq_ok] at hvalid hprotocol hsignature hkeyId hsigned hreceiptId hexpected
    rw [hsame] at hprotocol
    rw [htrusted] at hkeyId
    rw [hanswer] at hsigned
    rw [← hid] at hexpected
    exact ⟨(Except.ok.inj h).symm, {
      valid := Schemas.validate_eq_ok.1 hvalid
      protocol := Json.item_eq_ok.1 hprotocol
      keyId := ⟨signature, Json.item_eq_ok.1 hsignature, Json.textItem_eq_ok.1 hkeyId⟩
      signed := hsigned
      receiptId := ⟨receiptId, Json.textItem_eq_ok.1 hreceiptId, hexpected⟩ }⟩
  · rintro ⟨rfl, hverified⟩
    obtain ⟨signature, hsignature, hkeyId⟩ := hverified.keyId
    obtain ⟨receiptId, hreceiptId, hexpected⟩ := hverified.receiptId
    refine bind_eq_ok.2 ⟨(), mapError_eq_ok.2 (Schemas.validate_eq_ok.2 hverified.valid), ?_⟩
    refine bind_eq_ok.2 ⟨_, mapError_eq_ok.2 (Json.item_eq_ok.2 hverified.protocol), ?_⟩
    refine ensure_bind_eq_ok.2 ⟨rfl, ?_⟩
    refine bind_eq_ok.2 ⟨_, mapError_eq_ok.2 (Json.item_eq_ok.2 hsignature), ?_⟩
    refine bind_eq_ok.2 ⟨_, mapError_eq_ok.2 (Json.textItem_eq_ok.2 hkeyId), ?_⟩
    refine ensure_bind_eq_ok.2 ⟨rfl, ?_⟩
    refine bind_eq_ok.2 ⟨_, mapError_eq_ok.2 hverified.signed, ?_⟩
    refine ensure_bind_eq_ok.2 ⟨rfl, ?_⟩
    refine bind_eq_ok.2 ⟨_, mapError_eq_ok.2 (Json.textItem_eq_ok.2 hreceiptId), ?_⟩
    refine bind_eq_ok.2 ⟨_, mapError_eq_ok.2 hexpected, ?_⟩
    exact ensure_bind_eq_ok.2 ⟨rfl, rfl⟩

end

/-! ## Receipts in key order -/

theorem get?_text_sortKeys {v : Json} (hwf : v.wf = true) {key s : Str}
    (h : v.get? key = some (.str s)) : v.sortKeys.get? key = some (.str s) := by
  rw [Json.get?_sortKeys hwf, h]
  rfl

variable {v : Json}

theorem canonicalBytes_congr {w : Json} (h : v.sortKeys = w.sortKeys) :
    canonicalBytes v = canonicalBytes w := by
  rw [← canonicalBytes_sortKeys v, h, canonicalBytes_sortKeys]

theorem digest_congr {w : Json} (h : v.sortKeys = w.sortKeys) (domain : String) :
    digest v domain = digest w domain := by
  unfold digest
  rw [canonicalBytes_congr h]

theorem sortKeys_pop_sortKeys (hobj : v.IsObj) (hwf : v.wf = true) (key : Str) :
    (v.sortKeys.pop key).sortKeys = (v.pop key).sortKeys :=
  Json.sortKeys_pop_congr hobj.sortKeys hobj (Json.wf_sortKeys hwf) hwf (Json.sortKeys_sortKeys v)
    key

theorem signaturePayload_sortKeys (hobj : v.IsObj) (hwf : v.wf = true) :
    signaturePayload v.sortKeys = signaturePayload v := by
  unfold signaturePayload
  rw [canonicalBytes_congr (sortKeys_pop_sortKeys hobj hwf (str "signature"))]

section
variable [Ed25519]

theorem verifySignature_sortKeys {v : Json} (hobj : v.IsObj) (hwf : v.wf = true)
    {publicKey : Ed25519.PublicKey} (h : verifySignature v publicKey = .ok true) :
    verifySignature v.sortKeys publicKey = .ok true := by
  have hpayload := signaturePayload_sortKeys hobj hwf
  have hsignature := Json.get?_sortKeys hwf (str "signature")
  obtain ⟨members, rfl⟩ := hobj
  obtain ⟨sorted, hsorted⟩ : (Json.obj members).sortKeys.IsObj := Json.IsObj.sortKeys ⟨_, rfl⟩
  rw [hsorted] at hpayload hsignature ⊢
  unfold verifySignature at h ⊢
  cases hget : (Json.obj members).get? (str "signature") with
  | none => simp [hget] at h
  | some w =>
    have hw := Json.wf_of_get? hwf hget
    rw [hget] at h hsignature
    rw [hsignature]
    cases w with
    | obj fields =>
      have htext : ∀ key s, fields.lookup key = some (.str s) →
          ((Json.sortMembers fields).insertionSort fun a b => a.1 ≤ b.1).lookup key =
            some (.str s) := by
        intro key s hkey
        have hlookup := @get?_text_sortKeys _ hw key s hkey
        simpa only [Json.sortKeys, Json.get?] using hlookup
      simp only [Option.map_some, Json.sortKeys, ne_eq, ite_not] at h ⊢
      split at h
      · rename_i halgorithm
        rw [if_pos (htext _ _ halgorithm), hpayload]
        obtain ⟨payload, hp, h⟩ := bind_eq_ok.1 h
        rw [hp, ok_bind]
        split at h
        · rename_i value hvalue
          rw [htext _ _ hvalue]
          exact h
        · cases h
      · cases h
    | _ => simp at h

theorem Verified.sortKeys {form : Form} {trustedKey : TrustedKey} {receipt : Json}
    (h : Verified form trustedKey receipt) (hwf : receipt.wf = true) :
    Verified form trustedKey receipt.sortKeys := by
  obtain ⟨signature, hsignature, hkeyId⟩ := h.keyId
  obtain ⟨receiptId, hreceiptId, hdigest⟩ := h.receiptId
  have hobj : receipt.IsObj := Json.isObj_of_get? h.protocol
  have hpop := sortKeys_pop_sortKeys hobj hwf (str "signature")
  have hpopObj := hobj.pop (str "signature")
  have hpopWf := Json.wf_pop hwf (str "signature")
  have hsortedObj := hobj.sortKeys.pop (str "signature")
  have hsortedWf := Json.wf_pop (Json.wf_sortKeys hwf) (str "signature")
  have htwice := Json.sortKeys_pop_congr hsortedObj hpopObj hsortedWf hpopWf hpop
    (str "receipt_id")
  have hid := Json.map_get?_of_sortKeys_eq hsortedWf hpopWf hpop (str "receipt_id")
  rw [hreceiptId] at hid
  have hidText : (receipt.sortKeys.pop (str "signature")).get? (str "receipt_id") =
      some (.str receiptId) := by
    cases hget : (receipt.sortKeys.pop (str "signature")).get? (str "receipt_id") with
    | none => simp [hget] at hid
    | some w =>
      rw [hget] at hid
      cases w <;> simp_all [Json.sortKeys]
  exact {
    valid := (form.schema.accepts_sortKeys hwf).trans h.valid
    protocol := get?_text_sortKeys hwf h.protocol
    keyId := ⟨signature.sortKeys, by rw [Json.get?_sortKeys hwf, hsignature]; rfl,
      get?_text_sortKeys (Json.wf_of_get? hwf hsignature) hkeyId⟩
    signed := verifySignature_sortKeys hobj hwf h.signed
    receiptId := ⟨receiptId, hidText, (digest_congr htwice _).trans hdigest⟩ }

end

/-! ## Receipts of a profile -/

/-- What a terminal receipt decides. -/
inductive Decided (receipt : Json) : Prop where
  | events (vs : List Json) (nonempty : vs ≠ [])
      (outcome : receipt.get? (str "outcome") = some (.str (str "events")))
      (events : receipt.get? (str "events") = some (.arr vs))
      (noReason : receipt.get? (str "no_event_reason") = none)
  | noEvent (reason : String) (known : reason ∈ noEventReasons)
      (outcome : receipt.get? (str "outcome") = some (.str (str "no-event")))
      (noEventReason : receipt.get? (str "no_event_reason") = some (.str (str reason)))
      (noEvents : receipt.get? (str "events") = none)

theorem events_ne_noEvent : str "no-event" ≠ str "events" := by decide

variable {receipt v : Json}

theorem checkOutcome_eq_ok : checkOutcome receipt = .ok () ↔ Decided receipt := by
  constructor
  · intro h
    obtain ⟨outcome, houtcome, h⟩ := bind_eq_ok.1 h
    rw [raising, mapError_eq_ok, Json.textItem_eq_ok] at houtcome
    split at h
    · rename_i hevents
      rw [ensure_eq_ok] at h
      cases hitem : receipt.arrayItem (str "events") with
      | error e => simp [hitem, Except.toOption] at h
      | ok vs =>
        rw [hitem] at h
        exact .events vs h.2 (hevents ▸ houtcome) (Json.arrayItem_eq_ok.1 hitem) h.1
    · split at h
      · rename_i hnoEvent
        rw [ensure_eq_ok] at h
        obtain ⟨reason, hknown, hreason⟩ := List.any_eq_true.1 h.1
        exact .noEvent reason hknown (hnoEvent ▸ houtcome) (beq_iff_eq.1 hreason) h.2
      · cases h
  · intro h
    cases h with
    | events vs nonempty outcome events noReason =>
      refine bind_eq_ok.2 ⟨str "events", mapError_eq_ok.2 (Json.textItem_eq_ok.2 outcome), ?_⟩
      rw [if_pos rfl, ensure_eq_ok, Json.arrayItem_eq_ok.2 events]
      exact ⟨noReason, nonempty⟩
    | noEvent reason known outcome noEventReason noEvents =>
      refine bind_eq_ok.2 ⟨str "no-event", mapError_eq_ok.2 (Json.textItem_eq_ok.2 outcome), ?_⟩
      rw [if_neg events_ne_noEvent, if_pos rfl, ensure_eq_ok]
      exact ⟨List.any_eq_true.2 ⟨reason, known, beq_iff_eq.2 noEventReason⟩, noEvents⟩

theorem get?_none_sortKeys (hwf : v.wf = true) {key : Str} (h : v.get? key = none) :
    v.sortKeys.get? key = none := by
  rw [Json.get?_sortKeys hwf, h]
  rfl

theorem Decided.sortKeys (h : Decided receipt) (hwf : receipt.wf = true) :
    Decided receipt.sortKeys := by
  cases h with
  | events vs nonempty outcome events noReason =>
    refine .events (Json.sortItems vs) ?_ (get?_text_sortKeys hwf outcome) ?_
      (get?_none_sortKeys hwf noReason)
    · rw [Schema.sortItems_eq_map]
      simpa using nonempty
    · rw [Json.get?_sortKeys hwf, events]
      rfl
  | noEvent reason known outcome noEventReason noEvents =>
    exact .noEvent reason known (get?_text_sortKeys hwf outcome)
      (get?_text_sortKeys hwf noEventReason) (get?_none_sortKeys hwf noEvents)

theorem textMember_sortKeys (hwf : v.wf = true) (key : String) :
    textMember v.sortKeys key = textMember v key := by
  unfold textMember
  rw [Json.get?_sortKeys hwf]
  rcases v.get? (str key) with _ | (_ | _ | _ | _ | _ | _) <;> rfl

theorem checkNativeIdentity_sortKeys (hwf : v.wf = true) :
    checkNativeIdentity v.sortKeys = checkNativeIdentity v := by
  unfold checkNativeIdentity
  rw [Json.item_sortKeys hwf]
  cases hitem : v.item (str "identity") with
  | error e => rfl
  | ok w =>
    have hw := Json.wf_of_get? hwf (Json.item_eq_ok.1 hitem)
    simp only [raising, Except.map, Except.mapError, ok_bind, Json.textItem_sortKeys hw,
      textMember_sortKeys hw]

section
variable [Ed25519]

/-- The checks of `_verify_profile_receipt`. -/
structure ProfileVerified (profile : Profile) (trustedKey : TrustedKey) (kind : Kind)
    (receipt : Json) : Prop where
  verified : Verified kind.form trustedKey receipt
  decided : kind = .terminalReceipt → Decided receipt
  profiled : profileCheck profile kind receipt = .ok ()

variable {receipt : Json} {kind : Kind} {profile : Profile} {trustedKey : TrustedKey}

theorem verifyProfileReceipt_eq_ok {verified : Json} :
    verifyProfileReceipt profile trustedKey kind receipt = .ok verified ↔
      verified = receipt ∧ ProfileVerified profile trustedKey kind receipt := by
  constructor
  · intro h
    obtain ⟨checked, hverified, h⟩ := bind_eq_ok.1 h
    obtain ⟨⟨⟩, hdecided, h⟩ := bind_eq_ok.1 h
    obtain ⟨⟨⟩, hprofiled, h⟩ := bind_eq_ok.1 h
    cases h
    obtain ⟨rfl, hverified⟩ := verifyReceipt_eq_ok.1 hverified
    refine ⟨rfl, hverified, ?_, hprofiled⟩
    rintro rfl
    exact checkOutcome_eq_ok.1 hdecided
  · rintro ⟨rfl, hverified, hdecided, hprofiled⟩
    refine bind_eq_ok.2 ⟨verified, verifyReceipt_eq_ok.2 ⟨rfl, hverified⟩, ?_⟩
    refine bind_eq_ok.2 ⟨(), ?_, bind_eq_ok.2 ⟨(), hprofiled, rfl⟩⟩
    cases kind with
    | terminalReceipt => exact checkOutcome_eq_ok.2 (hdecided rfl)
    | registration => rfl
    | gapReceipt => rfl

theorem ProfileVerified.sortKeys (h : ProfileVerified profile trustedKey kind receipt)
    (hwf : receipt.wf = true) : ProfileVerified profile trustedKey kind receipt.sortKeys where
  verified := h.verified.sortKeys hwf
  decided hkind := (h.decided hkind).sortKeys hwf
  profiled := by
    rw [← h.profiled]
    cases profile with
    | legacy => simp only [profileCheck, Schemas.validate_sortKeys _ hwf]
    | nativeIntent => simp only [profileCheck, checkNativeIdentity_sortKeys hwf]

end

end IntegrityGuardian.TurnMemory
