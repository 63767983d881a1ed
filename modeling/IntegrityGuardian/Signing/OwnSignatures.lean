import IntegrityGuardian.Signing
import IntegrityGuardian.Schemas.Texts

/-!
# Signatures that verify

A signer verifies its own documents: the text form of a signature decodes to the
signature, and the package accepts it for the payload it was made for.
-/

namespace IntegrityGuardian

open Python
open Python.Json (ch)

/-! ## Base64 round trip -/

variable {n : Nat}

theorem base64Value_base64Digit (hn : n < 64) : base64Value (base64Digit n) = some n := by
  have hall : ∀ i : Fin 64, base64Value (base64Digit i) = some i.val := by decide
  exact hall ⟨n, hn⟩

/-- The characters a signature schema allows. -/
def isBase64url (c : CodePoint) : Bool :=
  Schemas.isAlphanumeric c || (str "_-").contains c

theorem val_lt_of_isBase64url {c : CodePoint} (h : isBase64url c = true) : c.val < 0x80 := by
  rcases Bool.or_eq_true_iff.1 h with h | h
  · exact Schemas.val_lt_of_isAlphanumeric h
  · exact Schemas.ascii_of_mem_str (by decide) h

theorem isBase64url_base64Digit (hn : n < 64) : isBase64url (base64Digit n) = true := by
  have hall : ∀ i : Fin 64, isBase64url (base64Digit i) = true := by decide
  exact hall ⟨n, hn⟩

theorem ofNat_toNat_eq {b : UInt8} (h : n = b.toNat) : UInt8.ofNat n = b := by
  rw [h, UInt8.ofNat_toNat]

theorem base64Decode_base64url (b : Bytes) : base64Decode (base64url b) = some b := by
  fun_induction base64url b with
  | case1 => rfl
  | case2 a =>
    have ha := a.toNat_lt
    have hvalue := ofNat_toNat_eq (b := a) (n := a.toNat / 4 * 4 + a.toNat % 4 * 16 / 16)
      (by omega)
    simp only [base64Decode,
      base64Value_base64Digit (show a.toNat / 4 < 64 by omega),
      base64Value_base64Digit (show a.toNat % 4 * 16 < 64 by omega), hvalue,
      Option.bind_eq_bind, Option.bind_some]
  | case3 a b =>
    have ha := a.toNat_lt
    have hb := b.toNat_lt
    have hfirst := ofNat_toNat_eq (b := a)
      (n := a.toNat / 4 * 4 + (a.toNat % 4 * 16 + b.toNat / 16) / 16) (by omega)
    have hsecond := ofNat_toNat_eq (b := b)
      (n := (a.toNat % 4 * 16 + b.toNat / 16) % 16 * 16 + b.toNat % 16 * 4 / 4) (by omega)
    simp only [base64Decode,
      base64Value_base64Digit (show a.toNat / 4 < 64 by omega),
      base64Value_base64Digit (show a.toNat % 4 * 16 + b.toNat / 16 < 64 by omega),
      base64Value_base64Digit (show b.toNat % 16 * 4 < 64 by omega), hfirst, hsecond,
      Option.bind_eq_bind, Option.bind_some]
  | case4 a b c rest ih =>
    have ha := a.toNat_lt
    have hb := b.toNat_lt
    have hc := c.toNat_lt
    have hfirst := ofNat_toNat_eq (b := a)
      (n := a.toNat / 4 * 4 + (a.toNat % 4 * 16 + b.toNat / 16) / 16) (by omega)
    have hsecond := ofNat_toNat_eq (b := b)
      (n := (a.toNat % 4 * 16 + b.toNat / 16) % 16 * 16
        + (b.toNat % 16 * 4 + c.toNat / 64) / 4) (by omega)
    have hthird := ofNat_toNat_eq (b := c)
      (n := (b.toNat % 16 * 4 + c.toNat / 64) % 4 * 64 + c.toNat % 64) (by omega)
    simp only [base64Decode, ih,
      base64Value_base64Digit (show a.toNat / 4 < 64 by omega),
      base64Value_base64Digit (show a.toNat % 4 * 16 + b.toNat / 16 < 64 by omega),
      base64Value_base64Digit (show b.toNat % 16 * 4 + c.toNat / 64 < 64 by omega),
      base64Value_base64Digit (show c.toNat % 64 < 64 by omega), hfirst, hsecond, hthird,
      Option.bind_eq_bind, Option.bind_some]

theorem length_base64url (b : Bytes) : (base64url b).length = (b.length * 4 + 2) / 3 := by
  fun_induction base64url b with
  | case1 => rfl
  | case2 a => simp
  | case3 a b => simp
  | case4 a b c rest ih =>
    simp only [List.length_cons, ih]
    omega

theorem all_base64url (b : Bytes) : (base64url b).all isBase64url = true := by
  fun_induction base64url b with
  | case1 => rfl
  | case2 a =>
    have ha := a.toNat_lt
    simp [isBase64url_base64Digit (show a.toNat / 4 < 64 by omega),
      isBase64url_base64Digit (show a.toNat % 4 * 16 < 64 by omega)]
  | case3 a b =>
    have ha := a.toNat_lt
    have hb := b.toNat_lt
    simp [isBase64url_base64Digit (show a.toNat / 4 < 64 by omega),
      isBase64url_base64Digit (show a.toNat % 4 * 16 + b.toNat / 16 < 64 by omega),
      isBase64url_base64Digit (show b.toNat % 16 * 4 < 64 by omega)]
  | case4 a b c rest ih =>
    have ha := a.toNat_lt
    have hb := b.toNat_lt
    have hc := c.toNat_lt
    simp [isBase64url_base64Digit (show a.toNat / 4 < 64 by omega),
      isBase64url_base64Digit (show a.toNat % 4 * 16 + b.toNat / 16 < 64 by omega),
      isBase64url_base64Digit (show b.toNat % 16 * 4 + c.toNat / 64 < 64 by omega),
      isBase64url_base64Digit (show c.toNat % 64 < 64 by omega), ih]

theorem unbase64url_base64url {b : Bytes} (h : b ≠ []) : unbase64url (base64url b) = some b := by
  have hlength := length_base64url b
  have hpositive := List.length_pos_of_ne_nil h
  have hne : base64url b ≠ [] := by
    intro hempty
    rw [hempty, List.length_nil] at hlength
    omega
  unfold unbase64url
  rw [if_neg hne, base64Decode_base64url]
  simp

/-- Of all texts only the encoder's own is read: no signature has two texts. -/
theorem unbase64url_eq_some_iff (value : Str) (b : Bytes) :
    unbase64url value = some b ↔ b ≠ [] ∧ value = base64url b := by
  constructor
  · intro h
    unfold unbase64url at h
    split at h
    · cases h
    rename_i hvalue
    obtain ⟨decoded, -, h⟩ := Option.bind_eq_some_iff.1 h
    split at h
    · rename_i hsame
      cases h
      refine ⟨?_, hsame.symm⟩
      rintro rfl
      exact hvalue hsame.symm
    · cases h
  · rintro ⟨hb, rfl⟩
    exact unbase64url_base64url hb

/-! ## Own signatures -/

section
variable [Ed25519Keys]

/-- What the package documents of a key pair: a signature has 64 octets and the
public half accepts it. -/
structure Ed25519Signer.Lawful (signer : Ed25519Signer) : Prop where
  length : ∀ payload, (Ed25519.sign signer.privateKey payload).length = 64
  verify : ∀ payload, Ed25519.verify signer.publicKey (Ed25519.sign signer.privateKey payload)
    payload = true

variable {payload : Bytes} {signer : Ed25519Signer} {fs : List (String × Json)}

theorem Ed25519Signer.Lawful.verifyBytes (h : signer.Lawful) (payload : Bytes) :
    verifyBytes payload (signer.signBytes payload) signer.publicKey = true := by
  have hne : Ed25519.sign signer.privateKey payload ≠ [] := by
    intro hempty
    have hlength := h.length payload
    rw [hempty] at hlength
    cases hlength
  unfold IntegrityGuardian.verifyBytes Ed25519Signer.signBytes
  rw [unbase64url_base64url hne]
  exact h.verify payload

theorem Ed25519Signer.Lawful.signatureBody (h : signer.Lawful)
    (payload : Bytes) : Schemas.signatureBody (signer.signBytes payload) = true := by
  have hlength : (signer.signBytes payload).length = 86 := by
    rw [signBytes, length_base64url, h.length]
  have hall : (signer.signBytes payload).all isBase64url = true := all_base64url _
  unfold Schemas.signatureBody Schemas.between
  rw [hlength]
  exact hall

omit [Ed25519Keys] in
theorem sign_fields [Ed25519] (signer : Ed25519Signer) (hfresh : "signature" ∉ fs.map Prod.fst)
    (hpayload : signaturePayload (.fields fs) = .ok payload) :
    signer.sign (.fields fs) = .ok (.fields (fs ++
      [("signature", signatureObject signer.keyId (signer.signBytes payload))])) := by
  unfold Ed25519Signer.sign
  rw [hpayload, Library.ok_bind, Json.set_fields hfresh]

omit [Ed25519Keys] in
theorem signaturePayload_append (hfresh : "signature" ∉ fs.map Prod.fst) (signature : Json) :
    signaturePayload (.fields (fs ++ [("signature", signature)])) =
      signaturePayload (.fields fs) := by
  have hself : fs.filter (fun f => f.1 != "signature") = fs := by
    apply List.filter_eq_self.2
    intro f hf
    exact bne_iff_ne.2 fun heq => hfresh (heq ▸ List.mem_map_of_mem hf)
  have htail : [("signature", signature)].filter (fun f : String × Json => f.1 != "signature") =
      [] := by simp
  unfold signaturePayload
  rw [Json.pop_fields, Json.pop_fields, List.filter_append, htail, hself, List.append_nil]

theorem Ed25519Signer.Lawful.verifySignature (h : signer.Lawful)
    (hfresh : "signature" ∉ fs.map Prod.fst)
    (hpayload : signaturePayload (.fields fs) = .ok payload) : verifySignature (.fields (fs ++
      [("signature", signatureObject signer.keyId (signer.signBytes payload))]))
      signer.publicKey = .ok true := by
  have hget : (Json.fields (fs ++ [("signature",
      signatureObject signer.keyId (signer.signBytes payload))])).get? (str "signature") =
      some (signatureObject signer.keyId (signer.signBytes payload)) :=
    (Json.get?_fields _ _).trans (Json.lookup_snoc hfresh _)
  have hsame := (signaturePayload_append hfresh (signatureObject signer.keyId
    (signer.signBytes payload))).trans hpayload
  obtain ⟨members, hmembers⟩ := Json.isObj_fields (fs ++ [("signature",
    signatureObject signer.keyId (signer.signBytes payload))])
  rw [hmembers] at hget hsame ⊢
  unfold IntegrityGuardian.verifySignature
  simp only [hget, signatureObject]
  have halgorithm : List.lookup (str "algorithm") [(str "algorithm", Json.str (str "ed25519")),
      (str "key_id", .str signer.keyId), (str "value", .str (signer.signBytes payload))] =
      some (.str (str "ed25519")) := rfl
  have hvalue : List.lookup (str "value") [(str "algorithm", Json.str (str "ed25519")),
      (str "key_id", .str signer.keyId), (str "value", .str (signer.signBytes payload))] =
      some (.str (signer.signBytes payload)) := rfl
  rw [halgorithm, if_neg (not_not.2 rfl), hsame, Library.ok_bind, hvalue]
  simp only [h.verifyBytes]

theorem accepts_signature (hsigner : signer.Lawful)
    (hid : Schemas.id.accepts (.str signer.keyId) = true) (payload : Bytes) :
    Schemas.signature.accepts (signatureObject signer.keyId (signer.signBytes payload)) = true := by
  have hvalue := Schemas.accepts_matching_of (hsigner.signatureBody payload)
  show Schemas.signature.accepts (.fields [("algorithm", .str (str "ed25519")),
    ("key_id", .str signer.keyId), ("value", .str (signer.signBytes payload))]) = true
  apply Schema.accepts_closed_fields.2
  refine ⟨by simp, by simp [List.lookup_cons], ?_⟩
  simp only [List.forall_mem_cons, List.not_mem_nil, false_imp_iff, implies_true, and_true]
  exact ⟨Schema.accepts_of_lookup rfl (Schemas.accepts_const _), Schema.accepts_of_lookup rfl hid,
    Schema.accepts_of_lookup rfl hvalue⟩

theorem encodable_signature
    (hid : Schemas.id.accepts (.str signer.keyId) = true) (payload : Bytes) :
    (signatureObject signer.keyId (signer.signBytes payload)).encodable = true := by
  have hvalue : Schemas.Ascii (signer.signBytes payload) :=
    Schemas.ascii_of_all (fun _ => val_lt_of_isBase64url) (all_base64url _)
  show (Json.fields [("algorithm", .str (str "ed25519")),
    ("key_id", .str signer.keyId), ("value", .str (signer.signBytes payload))]).encodable = true
  apply Json.encodable_fields
  simp only [List.forall_mem_cons, List.not_mem_nil, false_imp_iff, implies_true, and_true]
  exact ⟨by decide, Schemas.encodable_of_id hid, hvalue.encodable⟩

omit [Ed25519Keys] in
theorem keyId_of_signatureObject {keyId value : Str}
    (h : Schemas.signature.accepts (signatureObject keyId value) = true) :
    Schemas.id.accepts (.str keyId) = true := by
  obtain ⟨w, hw, hid⟩ := @Schema.get?_of_closed _ _ _ h "key_id" Schemas.id (by simp) (by simp)
  cases hw
  exact hid

end

end IntegrityGuardian
