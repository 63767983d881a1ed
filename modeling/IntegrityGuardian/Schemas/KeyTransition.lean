import IntegrityGuardian.Schemas.TurnMemory

/-!
# The key-transition schema

`key-transition.schema.json`: what a transition may carry depends on its operation.
-/

namespace IntegrityGuardian.Schemas

open Python
open Python.Json (ch isDigit)

/-- A head, one of `[A-Za-z0-9]`, then up to 127 of these or of dot, underscore, colon and
hyphen. -/
def headedName (head : String) (s : Str) : Bool :=
  (str head).isPrefixOf s &&
    match s.drop (str head).length with
    | [] => false
    | c :: rest =>
      isAlphanumeric c && between 0 127 (fun c => isAlphanumeric c || (str "._:-").contains c) rest

/-- `tenant:[a-z0-9][a-z0-9._-]{0,63}`. -/
def tenantName (s : Str) : Bool :=
  let isLower (c : CodePoint) : Bool := (97 ≤ c.val && c.val ≤ 122) || isDigit c
  (str "tenant:").isPrefixOf s &&
    match s.drop 7 with
    | [] => false
    | c :: rest => isLower c && between 0 63 (fun c => isLower c || (str "._-").contains c) rest

/-- The identity of a key. -/
def keyName : Schema := matching (headedName "key:")

/-- The identity of a key, or `null`. -/
def optionalKeyName : Schema :=
  .keywords [.oneOf [.ofType .string, .ofType .null], .text (searchLine (headedName "key:"))]

/-- Texts of `[A-Za-z0-9_-]` of one length. -/
def base64Text (length : Nat) : Schema :=
  matching (between length length fun c => isAlphanumeric c || (str "_-").contains c)

/-- `#/$defs/key`. -/
def transitionKey : Schema :=
  .closed ["key_id", "algorithm", "public_key", "valid_from", "valid_until"]
    [("key_id", keyName),
      ("algorithm", .const "ed25519"),
      ("public_key", base64Text 43),
      ("valid_from", timestamp),
      ("valid_until", timestamp)]

/-- `#/$defs/signature`. -/
def transitionSignature : Schema :=
  .closed ["algorithm", "key_id", "value"]
    [("algorithm", .const "ed25519"), ("key_id", keyName), ("value", base64Text 86)]

/-- What the operations of a kind ask of the predecessor and the successor. -/
def transitionCarries (operation predecessor successor : Schema) : Schema :=
  .ifThen (.properties [("operation", operation)])
    (.properties [("predecessor_key_id", predecessor), ("successor", successor)])

/-- `key-transition.schema.json`. -/
def keyTransition : Schema :=
  .keywords
    [.closed
      ["protocol", "transition_id", "tenant_id", "purpose", "sequence", "operation",
        "predecessor_key_id", "successor", "recorded_at", "reason", "authorization"]
      [("protocol", .const "integrity-guardian/key-transition/v1"),
        ("transition_id", matching (headedName "key-transition:")),
        ("tenant_id", matching tenantName),
        ("purpose", .enum
          ["authority", "sensor", "ledger", "checkpoint", "release", "external-store",
            "executor"]),
        ("sequence", natural),
        ("operation", .enum ["enroll", "rotate", "revoke", "recover"]),
        ("predecessor_key_id", optionalKeyName),
        ("successor", .oneOf [.ofType .null, transitionKey]),
        ("recorded_at", timestamp),
        ("reason", boundedText 512),
        ("authorization", .closed ["authority_id", "decision", "signature"]
          [("authority_id", keyName), ("decision", .const "approved"),
            ("signature", transitionSignature)])],
      transitionCarries (.enum ["enroll", "recover"]) (.ofType .null) transitionKey,
      transitionCarries (.const "rotate") (.ofType .string) transitionKey,
      transitionCarries (.const "revoke") (.ofType .string) (.ofType .null)]

theorem carries_of_accepts {operation predecessor successor : Schema} {v op : Json}
    (h : (transitionCarries operation predecessor successor).accepts v = true)
    (hop : v.get? (str "operation") = some op) (haccepts : operation.accepts op = true) :
    (∀ w, v.get? (str "predecessor_key_id") = some w → predecessor.accepts w = true) ∧
      ∀ w, v.get? (str "successor") = some w → successor.accepts w = true := by
  simp only [transitionCarries, Schema.ifThen, Schema.properties, Schema.propertiesAccept,
    List.all_cons, List.all_nil, hop, haccepts, Bool.and_true, Bool.not_true, Bool.false_or,
    Bool.and_eq_true] at h
  constructor
  · intro w hw
    simpa [hw] using h.1
  · intro w hw
    simpa [hw] using h.2

end IntegrityGuardian.Schemas
