import IntegrityGuardian.Python.JsonSchema
import IntegrityGuardian.Python.Isoformat

/-!
# The protocol schemas

`schemas.py` and the documents under `schema/` the development validates
against.  Patterns are searched, not matched in full, so a text that ends in one
line feed passes wherever the text without it does.
-/

namespace IntegrityGuardian.Schemas

open Python
open Python.Json (ch isDigit)

/-! ## Patterns -/

/-- `re.search` of `^body$` for a body without line feeds. -/
def searchLine (body : Str → Bool) (s : Str) : Bool :=
  body s || (s.getLast? == some (ch '\n') && body s.dropLast)

/-- `[class]{low,high}` on the whole text. -/
def between (low high : Nat) (member : CodePoint → Bool) (s : Str) : Bool :=
  low ≤ s.length && s.length ≤ high && s.all member

/-- `[A-Za-z0-9]`. -/
def isAlphanumeric (c : CodePoint) : Bool :=
  (65 ≤ c.val && c.val ≤ 90) || (97 ≤ c.val && c.val ≤ 122) || isDigit c

/-- An identifier: one of `[A-Za-z0-9]`, then up to 255 of these or of dot,
underscore, colon, slash and hyphen. -/
def idBody : Str → Bool
  | [] => false
  | c :: rest =>
    isAlphanumeric c
      && between 0 255 (fun c => isAlphanumeric c || (str "._:-/").contains c) rest

/-- `sha256:[0-9a-f]{64}`. -/
def digestBody (s : Str) : Bool :=
  (str "sha256:").isPrefixOf s && between 64 64 CodePoint.isLowerHex (s.drop 7)

/-- `[A-Za-z0-9_-]{43,128}`. -/
def signatureBody (s : Str) : Bool :=
  between 43 128 (fun c => isAlphanumeric c || (str "_-").contains c) s

/-! ## `date-time` -/

/-- The text has the template's shape, where a zero stands for any digit. -/
def hasShape (template s : Str) : Bool :=
  template.length == s.length
    && (template.zip s).all fun p => if p.1 = ch '0' then isDigit p.2 else p.1 == p.2

/-- `(?:\.\d+)?(?:Z|[+-]\d{2}:\d{2})`. -/
def isTimeTail (s : Str) : Bool :=
  let offset (s : Str) : Bool :=
    s == str "Z" || hasShape (str "+00:00") s || hasShape (str "-00:00") s
  match s with
  | [] => false
  | c :: rest =>
    if c = ch '.' then
      !(rest.takeWhile isDigit).isEmpty && offset (rest.dropWhile isDigit)
    else offset s

/-- `_is_rfc3339`.  `\d` also matches other decimal digits, but `fromisoformat`
then refuses the text. -/
def isRfc3339 (s : Str) : Bool :=
  hasShape (str "0000-00-00T00:00:00") (s.take 19) && isTimeTail (s.drop 19)
    && match Datetime.fromisoformat s with
      | some d => d.utcoffset.isSome
      | none => false

/-! ## Shared definitions -/

/-- `#/$defs/id`. -/
def id : Schema := .keywords [.ofType .string, .text (searchLine idBody)]

/-- `#/$defs/timestamp`. -/
def timestamp : Schema := .keywords [.ofType .string, .text isRfc3339]

/-- `#/$defs/digest`. -/
def digest : Schema := .keywords [.ofType .string, .text (searchLine digestBody)]

/-- `#/$defs/signature`. -/
def signature : Schema :=
  .closed ["algorithm", "key_id", "value"]
    [("algorithm", .const "ed25519"),
      ("key_id", id),
      ("value", .keywords [.ofType .string, .text (searchLine signatureBody)])]

/-- A digest or `null`. -/
def optionalDigest : Schema := .oneOf [digest, .ofType .null]

/-! ## Documents -/

/-- `ledger-event.schema.json`. -/
def ledgerEvent : Schema :=
  .closed
    ["protocol", "event_id", "tenant_id", "source_id", "source_sequence", "event_type",
      "recorded_at", "payload_digest", "previous_event_digest", "signature"]
    [("protocol", .const "integrity-guardian/ledger-event/v1"),
      ("event_id", id),
      ("tenant_id", id),
      ("source_id", id),
      ("source_sequence", .keywords [.ofType .integer, .minimum 0]),
      ("event_type", .enum
        ["observation", "change-intent", "baseline-approval", "reconciliation", "sensor-gap",
          "key-event", "discovery-index-snapshot", "toolz-authorization-decision",
          "toolz-authorization-consumption", "adapter-attempt-prepared",
          "adapter-attempt-dispatching", "adapter-attempt-executor-returned",
          "adapter-attempt-witnessed"]),
      ("recorded_at", timestamp),
      ("payload_digest", digest),
      ("previous_event_digest", optionalDigest),
      ("signature", signature)]

/-- `checkpoint.schema.json`. -/
def checkpoint : Schema :=
  .closed
    ["protocol", "checkpoint_id", "tenant_id", "ledger_id", "tree_size", "root_digest",
      "last_event_digest", "created_at", "signer_id", "signature"]
    [("protocol", .const "integrity-guardian/checkpoint/v1"),
      ("checkpoint_id", id),
      ("tenant_id", id),
      ("ledger_id", id),
      ("tree_size", .keywords [.ofType .integer, .minimum 1]),
      ("root_digest", digest),
      ("last_event_digest", digest),
      ("created_at", timestamp),
      ("signer_id", id),
      ("signature", signature)]

/-- A text of `"minLength": 1` and the given `"maxLength"`. -/
def boundedText (maxLength : Nat) : Schema :=
  .keywords [.ofType .string, .text fun s => 1 ≤ s.length, .text fun s => s.length ≤ maxLength]

/-- The operations an intent can name. -/
def operation : Schema :=
  .enum ["create", "update-content", "update-metadata", "delete", "execute"]

/-- One element of `expected_changes`. -/
def expectedChange : Schema :=
  .closed ["selector", "operation", "before_digest", "after_digest"]
    [("selector", boundedText 1024),
      ("operation", operation),
      ("before_digest", optionalDigest),
      ("after_digest", optionalDigest)]

/-- A non-empty array without repetitions. -/
def distinctArray (item : Schema) : Schema :=
  .keywords [.ofType .array, .minItems 1, .uniqueItems, .items item]

/-- `change-intent.schema.json`. -/
def changeIntent : Schema :=
  .closed
    ["protocol", "intent_id", "tenant_id", "actor", "target", "scope", "expected_changes",
      "created_at", "valid_from", "valid_until", "authorization"]
    [("protocol", .const "integrity-guardian/change-intent/v1"),
      ("intent_id", id),
      ("tenant_id", id),
      ("actor", .closed ["actor_id", "kind"]
        [("actor_id", id), ("kind", .enum ["human", "service", "ai-agent"]),
          ("session_id", id)]),
      ("target", .closed ["node_id"] [("node_id", id), ("adapter_id", id)]),
      ("scope", .closed ["selectors", "operations"]
        [("selectors", distinctArray (boundedText 1024)),
          ("operations", distinctArray operation)]),
      ("expected_changes",
        .keywords [.ofType .array, .minItems 1, .items expectedChange]),
      ("created_at", timestamp),
      ("valid_from", timestamp),
      ("valid_until", timestamp),
      ("retrospective", .ofType .boolean),
      ("reason", boundedText 4096),
      ("authorization", .closed ["authority_id", "decision", "signature"]
        [("authority_id", id), ("decision", .const "approved"), ("signature", signature)])]

/-- A text that starts with `head`, with at least `low` members of a class after it. -/
def headed (head : String) (low : Nat) (member : CodePoint → Bool) (s : Str) : Bool :=
  (str head).isPrefixOf s
    && low ≤ (s.drop (str head).length).length && (s.drop (str head).length).all member

/-- A text with a searched pattern. -/
def matching (body : Str → Bool) : Schema :=
  .keywords [.ofType .string, .text (searchLine body)]

/-- A key inside `native-database-enrollment.schema.json`. -/
def enrolledKey : Schema :=
  .closed ["key_id", "role", "algorithm", "public_key", "fingerprint"]
    [("key_id", boundedText 256),
      ("role", .enum ["database-source", "database-checkpoint"]),
      ("algorithm", .const "ed25519"),
      ("public_key",
        matching (between 43 43 fun c => isAlphanumeric c || (str "_-").contains c)),
      ("fingerprint", digest)]

/-- `native-database-enrollment.schema.json`. -/
def nativeDatabaseEnrollment : Schema :=
  .closed
    ["protocol", "instance_id", "tenant_id", "ledger_id", "database_id", "source_key",
      "checkpoint_key", "created_at", "enrollment_id", "signature"]
    [("protocol", .const "integrity-guardian/native-database-enrollment/v1"),
      ("instance_id", boundedText 256),
      ("tenant_id",
        matching (headed "tenant:" 1 fun c => isAlphanumeric c || (str "._-").contains c)),
      ("ledger_id",
        matching (headed "ledger:" 1 fun c => isAlphanumeric c || (str "._:-").contains c)),
      ("database_id",
        matching fun s => s.length == 73 && headed "database:" 64 CodePoint.isLowerHex s),
      ("source_key", enrolledKey),
      ("checkpoint_key", enrolledKey),
      ("created_at", timestamp),
      ("enrollment_id", digest),
      ("signature", .closed ["algorithm", "key_id", "value"]
        [("algorithm", .const "ed25519"),
          ("key_id", boundedText 256),
          ("value",
            matching (between 86 86 fun c => isAlphanumeric c || (str "_-").contains c))])]

/-- `validate`. -/
def validate (schema : Schema) (instance_ : Json) : Except Exc Unit :=
  if schema.accepts instance_ then .ok () else .error .validationError

variable {v w : Json} {keywords : List Schema} {key : Str}

theorem validate_eq_ok {schema : Schema} :
    validate schema v = .ok () ↔ schema.accepts v = true := by
  unfold validate
  split <;> simp_all

@[simp] theorem validate_sortKeys (schema : Schema) (hwf : v.wf = true) :
    validate schema v.sortKeys = validate schema v := by
  unfold validate
  rw [schema.accepts_sortKeys hwf]

/-! ## Reading validated fields -/

theorem textItem_of_string (hget : v.get? key = some w)
    (h : (Schema.keywords (.ofType .string :: keywords)).accepts w = true) :
    ∃ s, v.textItem key = .ok s := by
  obtain ⟨s, rfl⟩ := Schema.eq_str_of_string (Schema.accepts_keywords h (List.mem_cons_self ..))
  exact ⟨s, by simp only [Json.textItem, Json.item_eq_ok.2 hget]⟩

theorem keyId_of_signature (hget : v.get? key = some w) (h : signature.accepts w = true) :
    ∃ keyId, v.item key = .ok w ∧ w.textItem (str "key_id") = .ok keyId := by
  obtain ⟨u, hu, hid⟩ := @Schema.get?_of_closed _ _ w h "key_id" id (by simp) (by simp)
  obtain ⟨keyId, hkeyId⟩ := textItem_of_string hu hid
  exact ⟨keyId, Json.item_eq_ok.2 hget, hkeyId⟩

end IntegrityGuardian.Schemas
