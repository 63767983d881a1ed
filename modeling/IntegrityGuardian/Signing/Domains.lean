import IntegrityGuardian.Canonical.Encoding
import IntegrityGuardian.Intents.Reconciler

/-!
# The signed payloads

Four modules frame what they sign by hand: `signing.py` drops the document's own
signature, `reconciler.py`, `key_lifecycle.py` and `retention.py` the one inside its
authorization.  A payload tells which of them made it, and the document without that
signature.
-/

namespace IntegrityGuardian

open Python Library

/-! ## Signatures inside an authorization -/

/-- `b"integrity-guardian\x00…\x00"`. -/
def payloadFrame (tag : String) : Bytes :=
  (str "integrity-guardian").map (fun c => UInt8.ofNat c.val) ++ 0 ::
    (str tag).map (fun c => UInt8.ofNat c.val) ++ [0]

/-- The document without the signature of its authorization, which has to be an object. -/
def withoutAuthorizationSignature (document : Json) : Option Json :=
  match document.get? (str "authorization") with
  | some (.obj members) =>
    some (document.set (str "authorization") ((Json.obj members).pop (str "signature")))
  | _ => none

/-- A payload of a document signed inside its authorization; `missing` is raised without one. -/
def authorizedPayload {ε : Type} (tag : String) (missing : ε) (raised : Exc → ε)
    (document : Json) : Except ε Bytes :=
  match withoutAuthorizationSignature document with
  | some unsigned => do
    let payload ← (canonicalBytes unsigned).mapError raised
    .ok (payloadFrame tag ++ payload)
  | none => .error missing

namespace KeyLifecycle

/-- The exceptions of `key_lifecycle.py`, next to those of the interpreter. -/
inductive Error where
  | lifecycleError (message : Str)
  | raised (e : Exc)
  deriving DecidableEq

/-- `_signature_payload`. -/
def signaturePayload (document : Json) : Except Error Bytes :=
  authorizedPayload "key-transition-v1"
    (.lifecycleError (str "key transition authorization is missing")) .raised document

end KeyLifecycle

namespace Retention

/-- The exceptions of `retention.py`, next to those of the interpreter. -/
inductive Error where
  | policyError (message : Str)
  | raised (e : Exc)
  deriving DecidableEq

/-- `_signature_payload`. -/
def signaturePayload (document : Json) : Except Error Bytes :=
  authorizedPayload "retention-policy-v1"
    (.policyError (str "retention authorization is missing")) .raised document

end Retention

/-! ## The four families -/

/-- The functions that build payloads. -/
inductive PayloadFamily where
  | signedObject
  | changeIntent
  | keyTransition
  | retentionPolicy
  deriving DecidableEq

theorem toOption_eq_some {ε α : Type} {x : Except ε α} {a : α} :
    x.toOption = some a ↔ x = .ok a := by
  cases x <;> simp [Except.toOption]

theorem authorizedPayload_eq_ok {ε : Type} {tag : String} {missing : ε} {raised : Exc → ε}
    {document : Json} {p : Bytes} :
    authorizedPayload tag missing raised document = .ok p ↔
      ∃ value b, withoutAuthorizationSignature document = some value ∧
        canonicalBytes value = .ok b ∧ p = payloadFrame tag ++ b := by
  unfold authorizedPayload
  cases withoutAuthorizationSignature document with
  | none => simp
  | some unsigned =>
    simp only [bind_eq_ok, mapError_eq_ok, Option.some.injEq]
    constructor
    · rintro ⟨b, hb, hp⟩
      exact ⟨_, b, rfl, hb, (Except.ok.inj hp).symm⟩
    · rintro ⟨_, b, rfl, hb, rfl⟩
      exact ⟨b, hb, rfl⟩

theorem intentSignaturePayload_eq (intent : Json) :
    Intents.intentSignaturePayload intent =
      authorizedPayload "change-intent-v1"
        (Intents.distrust "ChangeIntent authorization is missing") .raised intent := by
  unfold Intents.intentSignaturePayload authorizedPayload withoutAuthorizationSignature
  cases intent.get? (str "authorization") with
  | none => rfl
  | some authorization => cases authorization <;> rfl

namespace PayloadFamily

/-- What the family's function returns, or nothing where it raises. -/
def payload : PayloadFamily → Json → Option Bytes
  | signedObject, document => (signaturePayload document).toOption
  | changeIntent, document => (Intents.intentSignaturePayload document).toOption
  | keyTransition, document => (KeyLifecycle.signaturePayload document).toOption
  | retentionPolicy, document => (Retention.signaturePayload document).toOption

/-- The tag in the frame. -/
def tag : PayloadFamily → String
  | signedObject => "signed-object-v1"
  | changeIntent => "change-intent-v1"
  | keyTransition => "key-transition-v1"
  | retentionPolicy => "retention-policy-v1"

/-- The document without the signature that the family leaves out. -/
def unsigned : PayloadFamily → Json → Option Json
  | signedObject, document => some (document.pop (str "signature"))
  | changeIntent, document => withoutAuthorizationSignature document
  | keyTransition, document => withoutAuthorizationSignature document
  | retentionPolicy, document => withoutAuthorizationSignature document

theorem payload_eq_some {family : PayloadFamily} {document : Json} {p : Bytes} :
    family.payload document = some p ↔
      ∃ value b, family.unsigned document = some value ∧ canonicalBytes value = .ok b ∧
        p = payloadFrame family.tag ++ b := by
  cases family with
  | signedObject =>
    simp only [payload, unsigned, toOption_eq_some, signaturePayload, bind_eq_ok,
      Option.some.injEq]
    constructor
    · rintro ⟨b, hb, hp⟩
      exact ⟨_, b, rfl, hb, (Except.ok.inj hp).symm⟩
    · rintro ⟨_, b, rfl, hb, rfl⟩
      exact ⟨b, hb, rfl⟩
  | changeIntent =>
    rw [payload, toOption_eq_some, intentSignaturePayload_eq]
    exact authorizedPayload_eq_ok
  | keyTransition => exact toOption_eq_some.trans authorizedPayload_eq_ok
  | retentionPolicy => exact toOption_eq_some.trans authorizedPayload_eq_ok

end PayloadFamily

/-! ## Separation -/

theorem zero_notMem_tag (family : PayloadFamily) :
    (0 : UInt8) ∉ (str family.tag).map fun c => UInt8.ofNat c.val := by
  cases family <;> decide

theorem tag_octets_injective {f g : PayloadFamily}
    (h : ((str f.tag).map fun c => UInt8.ofNat c.val) =
      (str g.tag).map fun c => UInt8.ofNat c.val) : f = g := by
  cases f <;> cases g <;> first | rfl | exact absurd h (by decide)

theorem payloadFrame_injective {f g : PayloadFamily} {b c : Bytes}
    (h : payloadFrame f.tag ++ b = payloadFrame g.tag ++ c) : f = g ∧ b = c := by
  unfold payloadFrame at h
  simp only [List.append_assoc, List.cons_append, List.nil_append] at h
  have hrest := (List.cons.inj (List.append_cancel_left h)).2
  obtain ⟨htag, hbody⟩ := append_separator_inj (zero_notMem_tag f) (zero_notMem_tag g) hrest
  exact ⟨tag_octets_injective htag, hbody⟩

variable {value : Json}

theorem wf_withoutAuthorizationSignature {document : Json} (hwf : document.wf = true)
    (h : withoutAuthorizationSignature document = some value) : value.wf = true := by
  unfold withoutAuthorizationSignature at h
  split at h
  · rename_i members hget
    rw [← Option.some.inj h]
    exact Json.wf_set hwf (Json.wf_pop (Json.wf_of_get? hwf hget) _) _
  · cases h

theorem PayloadFamily.wf_unsigned {family : PayloadFamily} {document : Json}
    (hwf : document.wf = true) (h : family.unsigned document = some value) : value.wf = true := by
  cases family with
  | signedObject =>
    rw [← Option.some.inj h]
    exact Json.wf_pop hwf _
  | changeIntent => exact wf_withoutAuthorizationSignature hwf h
  | keyTransition => exact wf_withoutAuthorizationSignature hwf h
  | retentionPolicy => exact wf_withoutAuthorizationSignature hwf h

/-- Two payloads are the same exactly when one family made both, of documents that are the same
without the signature it leaves out.  A signature that is good for one payload at most
authenticates documents of one family only. -/
theorem payloads_separated (f g : PayloadFamily) (d e : Document) :
    match f.payload d.value, g.payload e.value with
    | some p, some q =>
      (p = q ↔ f = g ∧
        (f.unsigned d.value).map Json.sortKeys = (g.unsigned e.value).map Json.sortKeys) ∧
      ∀ [Ed25519] (key : Ed25519.PublicKey) (value : Str),
        (∀ p' q', verifyBytes p' value key = true → verifyBytes q' value key = true → p' = q') →
        verifyBytes p value key = true → verifyBytes q value key = true → f = g
    | _, _ => True := by
  cases hp : f.payload d.value with
  | none => trivial
  | some p =>
    cases hq : g.payload e.value with
    | none => trivial
    | some q =>
      obtain ⟨v, b, hv, hb, rfl⟩ := PayloadFamily.payload_eq_some.1 hp
      obtain ⟨w, c, hw, hc, rfl⟩ := PayloadFamily.payload_eq_some.1 hq
      refine ⟨?_, ?_⟩
      · rw [hv, hw, Option.map_some, Option.map_some, Option.some.injEq]
        constructor
        · intro h
          obtain ⟨hfamily, rfl⟩ := payloadFrame_injective h
          exact ⟨hfamily, sortKeys_eq_of_canonicalBytes_eq (PayloadFamily.wf_unsigned d.wf hv)
            (PayloadFamily.wf_unsigned e.wf hw) hb hc⟩
        · rintro ⟨rfl, hsorted⟩
          rw [← canonicalBytes_sortKeys, hsorted, canonicalBytes_sortKeys, hc] at hb
          rw [Except.ok.inj hb]
      · intro _ key value honly hverified hverified'
        exact (payloadFrame_injective (honly _ _ hverified hverified')).1

end IntegrityGuardian
