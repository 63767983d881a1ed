import IntegrityGuardian.Canonical

/-!
# Signed documents

`signing.py`.  The elliptic-curve arithmetic belongs to a package outside the
repository, so it is a parameter: a type of keys with the two operations the
program calls.
-/

namespace IntegrityGuardian

open Python
open Python.Json (ch)
open Library (bind_eq_ok)

/-- The Ed25519 primitives of the `cryptography` package. -/
class Ed25519 where
  PrivateKey : Type
  PublicKey : Type
  /-- `private_key.sign(payload)`. -/
  sign : PrivateKey → Bytes → Bytes
  /-- `public_key.verify(signature, payload)` returns instead of raising. -/
  verify : PublicKey → Bytes → Bytes → Bool

/-- The operations of the package on keys themselves. -/
class Ed25519Keys extends Ed25519 where
  /-- `private_key.public_key()`. -/
  publicKey : PrivateKey → PublicKey
  /-- `public_key.public_bytes(Encoding.Raw, PublicFormat.Raw)`. -/
  publicBytes : PublicKey → Bytes

/-! ## Base64 -/

/-- The character of a six-bit value. -/
def base64Digit (n : Nat) : CodePoint :=
  if n < 26 then ⟨65 + n % 26, by omega⟩
  else if n < 52 then ⟨97 + (n - 26) % 26, by omega⟩
  else if n < 62 then ⟨48 + (n - 52) % 10, by omega⟩
  else if n = 62 then ch '-'
  else ch '_'

/-- The six-bit value of a character; `altchars` adds to the standard alphabet. -/
def base64Value (c : CodePoint) : Option Nat :=
  if 65 ≤ c.val ∧ c.val ≤ 90 then some (c.val - 65)
  else if 97 ≤ c.val ∧ c.val ≤ 122 then some (c.val - 71)
  else if 48 ≤ c.val ∧ c.val ≤ 57 then some (c.val + 4)
  else if c = ch '-' ∨ c = ch '+' then some 62
  else if c = ch '_' ∨ c = ch '/' then some 63
  else none

/-- `_base64url`. -/
def base64url : Bytes → Str
  | [] => []
  | [a] => [base64Digit (a.toNat / 4), base64Digit (a.toNat % 4 * 16)]
  | [a, b] =>
    [base64Digit (a.toNat / 4), base64Digit (a.toNat % 4 * 16 + b.toNat / 16),
      base64Digit (b.toNat % 16 * 4)]
  | a :: b :: c :: rest =>
    base64Digit (a.toNat / 4) :: base64Digit (a.toNat % 4 * 16 + b.toNat / 16)
      :: base64Digit (b.toNat % 16 * 4 + c.toNat / 64) :: base64Digit (c.toNat % 64)
      :: base64url rest

/-- `base64.b64decode` of the padded text. -/
def base64Decode : Str → Option Bytes
  | [] => some []
  | [_] => none
  | [a, b] => do
    let a ← base64Value a
    let b ← base64Value b
    some [UInt8.ofNat (a * 4 + b / 16)]
  | [a, b, c] => do
    let a ← base64Value a
    let b ← base64Value b
    let c ← base64Value c
    some [UInt8.ofNat (a * 4 + b / 16), UInt8.ofNat (b % 16 * 16 + c / 4)]
  | a :: b :: c :: d :: rest => do
    let a ← base64Value a
    let b ← base64Value b
    let c ← base64Value c
    let d ← base64Value d
    let tail ← base64Decode rest
    some (UInt8.ofNat (a * 4 + b / 16) :: UInt8.ofNat (b % 16 * 16 + c / 4)
      :: UInt8.ofNat (c % 4 * 64 + d) :: tail)

/-- `_unbase64url`; `none` is its `ValueError`. -/
def unbase64url (value : Str) : Option Bytes :=
  if value = [] then none
  else do
    let decoded ← base64Decode value
    if base64url decoded = value then some decoded else none

/-! ## Signatures -/

/-- `b"integrity-guardian\x00signed-object-v1\x00"`. -/
def signedObjectFrame : Bytes :=
  (str "integrity-guardian").map (fun c => UInt8.ofNat c.val) ++ 0 ::
    (str "signed-object-v1").map (fun c => UInt8.ofNat c.val) ++ [0]

/-- `signature_payload`. -/
def signaturePayload (document : Json) : Except Exc Bytes := do
  let unsigned ← canonicalBytes (document.pop (str "signature"))
  .ok (signedObjectFrame ++ unsigned)

section
variable [Ed25519]

structure TrustedKey where
  keyId : Str
  publicKey : Ed25519.PublicKey

structure Ed25519Signer where
  keyId : Str
  privateKey : Ed25519.PrivateKey

/-- `sign_bytes`. -/
def Ed25519Signer.signBytes (signer : Ed25519Signer) (payload : Bytes) : Str :=
  base64url (Ed25519.sign signer.privateKey payload)

/-- The `signature` member of a signed document. -/
def signatureObject (keyId value : Str) : Json :=
  .obj [(str "algorithm", .str (str "ed25519")), (str "key_id", .str keyId),
    (str "value", .str value)]

/-- `Ed25519Signer.sign`. -/
def Ed25519Signer.sign (signer : Ed25519Signer) (document : Json) : Except Exc Json := do
  let payload ← signaturePayload document
  .ok (document.set (str "signature") (signatureObject signer.keyId (signer.signBytes payload)))

/-- `verify_bytes`. -/
def verifyBytes (payload : Bytes) (value : Str) (publicKey : Ed25519.PublicKey) : Bool :=
  match unbase64url value with
  | some signature => Ed25519.verify publicKey signature payload
  | none => false

/-- `verify_signature`.  A document that has no canonical form raises; a
signature member of the wrong shape does not. -/
def verifySignature (document : Json) (publicKey : Ed25519.PublicKey) : Except Exc Bool :=
  match document with
  | .obj _ =>
    match document.get? (str "signature") with
    | some (.obj members) =>
      if members.lookup (str "algorithm") ≠ some (.str (str "ed25519")) then .ok false
      else do
        let payload ← signaturePayload document
        match members.lookup (str "value") with
        | some (.str value) => .ok (verifyBytes payload value publicKey)
        | _ => .ok false
    | _ => .ok false
  | _ => .error .attributeError

/-- `verify_trusted_signature`. -/
def verifyTrustedSignature (document : Json) (trustedKey : TrustedKey) : Except Exc Bool :=
  match document with
  | .obj _ =>
    match document.get? (str "signature") with
    | some (.obj members) =>
      if members.lookup (str "key_id") ≠ some (.str trustedKey.keyId) then .ok false
      else verifySignature document trustedKey.publicKey
    | _ => .ok false
  | _ => .error .attributeError

end

section
variable [Ed25519Keys]

/-- `Ed25519Signer.public_key`. -/
def Ed25519Signer.publicKey (signer : Ed25519Signer) : Ed25519.PublicKey :=
  Ed25519Keys.publicKey signer.privateKey

/-- The public half of a signer, under its own name. -/
def Ed25519Signer.trustedKey (signer : Ed25519Signer) : TrustedKey :=
  ⟨signer.keyId, signer.publicKey⟩

/-- `public_key_fingerprint`. -/
def publicKeyFingerprint (publicKey : Ed25519.PublicKey) : Str :=
  sha256Digest (Ed25519Keys.publicBytes publicKey)

end

/-! ## Verification of canonical documents -/

variable {v : Json}

theorem signaturePayload_of_encodable (h : v.encodable = true) :
    ∃ b, signaturePayload v = .ok b := by
  obtain ⟨b, hb⟩ := canonicalBytes_of_encodable (Json.encodable_pop h (str "signature"))
  exact ⟨_, by rw [signaturePayload, hb]; rfl⟩

theorem verifySignature_of_encodable [Ed25519] (hobj : v.IsObj)
    (h : v.encodable = true) (publicKey : Ed25519.PublicKey) :
    ∃ answer, verifySignature v publicKey = .ok answer := by
  obtain ⟨members, rfl⟩ := hobj
  obtain ⟨payload, hpayload⟩ := signaturePayload_of_encodable h
  simp only [verifySignature, hpayload, Library.ok_bind]
  repeat' split
  all_goals exact ⟨_, rfl⟩

end IntegrityGuardian
