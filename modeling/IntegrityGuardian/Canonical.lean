import IntegrityGuardian.Python.JsonObject

/-!
# Canonical bytes and domain-separated digests

`canonical.py` and `hashing.py`.  `Json` holds exactly the values `_validate`
accepts, so a canonicalization fails only where UTF-8 refuses a surrogate.
-/

namespace IntegrityGuardian

open Python
open Library (bind_eq_ok)

/-- `canonical_bytes`. -/
def canonicalBytes (value : Json) : Except Exc Bytes :=
  match encodeUtf8 value.dumps with
  | some b => .ok b
  | none => .error .unicodeEncodeError

/-- `parse_json_strict` on bytes; its errors are the `CanonicalizationError`s. -/
def parseJsonStrict (document : Bytes) : Except Json.DecodeError Json :=
  Json.loadsBytes document

/-- `parse_json_strict` on text. -/
def parseJsonStrictText (document : Str) : Except Json.DecodeError Json :=
  Json.loads document

/-- `PROFILE`. -/
def profile : Str := str "guardian-json-v1"

/-- `FRAME_SEPARATOR`: backslash, `x`, `0`, `0`. -/
def frameSeparator : Str := str "\\x00"

/-- `sha256_digest`. -/
def sha256Digest (payload : Bytes) : Str := str "sha256:" ++ hex (sha256 payload)

section
variable [UnicodeData]

/-- `validate_domain`. -/
def validateDomain (domain : Str) : Except Exc Unit :=
  if domain = [] ∨ domain.any (fun c => c.isspace || !UnicodeData.isprintable c
      || c == Json.ch '\\') then
    .error (.valueError
      (str "domain must be a non-empty printable token without whitespace or backslash"))
  else .ok ()

/-- The bytes in front of the canonical value inside a digest frame. -/
def digestPrefix (domain : Str) : Bytes :=
  (str "integrity-guardian" ++ frameSeparator ++ profile ++ frameSeparator ++ domain
    ++ frameSeparator).flatMap utf8Octets

/-- `digest_object`. -/
def digestObject (value : Json) (domain : Str) : Except Exc Str := do
  validateDomain domain
  let payload ← canonicalBytes value
  .ok (sha256Digest (digestPrefix domain ++ payload))

end

/-! ## Canonical bytes -/

variable {b : Bytes} {v value : Json}

theorem canonicalBytes_eq_ok :
    canonicalBytes value = .ok b ↔ encodeUtf8 value.dumps = some b := by
  unfold canonicalBytes
  split <;> simp_all

theorem parseJsonStrict_canonicalBytes (hwf : value.wf = true)
    (h : canonicalBytes value = .ok b) : parseJsonStrict b = .ok value.sortKeys :=
  Json.loadsBytes_encode_dumps hwf (canonicalBytes_eq_ok.1 h)

@[simp] theorem canonicalBytes_sortKeys (value : Json) :
    canonicalBytes value.sortKeys = canonicalBytes value := by
  unfold canonicalBytes Json.dumps
  rw [Json.sortKeys_sortKeys]

theorem sortKeys_eq_of_canonicalBytes_eq {w : Json} (hv : v.wf = true)
    (hw : w.wf = true) (hbv : canonicalBytes v = .ok b) (hbw : canonicalBytes w = .ok b) :
    v.sortKeys = w.sortKeys := by
  have h := parseJsonStrict_canonicalBytes hv hbv
  rw [parseJsonStrict_canonicalBytes hw hbw] at h
  exact (Except.ok.inj h).symm

theorem canonicalBytes_of_encodable (h : v.encodable = true) : ∃ b, canonicalBytes v = .ok b :=
  ⟨_, canonicalBytes_eq_ok.2 (Json.encodeUtf8_dumps h)⟩

theorem encodable_of_canonicalBytes (h : canonicalBytes v = .ok b) : v.encodable = true :=
  Json.encodable_of_encodeUtf8 (canonicalBytes_eq_ok.1 h)

/-! ## Digests -/

theorem sha256Digest_inj {p q : Bytes} (h : sha256Digest p = sha256Digest q) :
    sha256 p = sha256 q :=
  hex_injective (List.append_cancel_left h)

section
variable [UnicodeData]

@[simp] theorem digestObject_sortKeys (value : Json) (domain : Str) :
    digestObject value.sortKeys domain = digestObject value domain := by
  unfold digestObject
  rw [canonicalBytes_sortKeys]

theorem digestObject_congr {v w : Json} (h : v.sortKeys = w.sortKeys) (domain : Str) :
    digestObject v domain = digestObject w domain := by
  rw [← digestObject_sortKeys v, h, digestObject_sortKeys]

theorem digestObject_eq_ok {value : Json} {domain digest : Str}
    (h : digestObject value domain = .ok digest) :
    ∃ b, canonicalBytes value = .ok b ∧ digest = sha256Digest (digestPrefix domain ++ b) := by
  unfold digestObject at h
  obtain ⟨-, -, h⟩ := bind_eq_ok.1 h
  obtain ⟨b, hb, h⟩ := bind_eq_ok.1 h
  cases h
  exact ⟨b, hb, rfl⟩

theorem validateDomain_of_ascii {domain : Str} (hne : domain ≠ [])
    (h : domain.all (fun c => 33 ≤ c.val && c.val < 127 && c != Json.ch '\\') = true) :
    validateDomain domain = .ok () := by
  have hany : domain.any (fun c => c.isspace || !UnicodeData.isprintable c
      || c == Json.ch '\\') = false := by
    rw [List.any_eq_false]
    intro c hc
    have hgood := List.all_eq_true.1 h c hc
    simp only [Bool.and_eq_true, decide_eq_true_eq, bne_iff_ne, ne_eq] at hgood
    have hspace : c.isspace = false := by
      simp only [CodePoint.isspace, Bool.or_eq_false_iff, Bool.and_eq_false_iff,
        decide_eq_false_iff_not, beq_eq_false_iff_ne]
      omega
    have hprint := UnicodeData.isprintable_ascii c (by omega)
    simp only [hspace, hprint]
    simp
    exact ⟨⟨by omega, by omega⟩, hgood.2⟩
  unfold validateDomain
  rw [if_neg (by simp [hne, hany])]

theorem digestObject_of_domain {domain : Str} (h : validateDomain domain = .ok ())
    {value : Json} {b : Bytes} (hb : canonicalBytes value = .ok b) :
    digestObject value domain = .ok (sha256Digest (digestPrefix domain ++ b)) := by
  unfold digestObject
  rw [h, hb]
  rfl

end

end IntegrityGuardian
