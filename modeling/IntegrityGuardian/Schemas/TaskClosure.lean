import IntegrityGuardian.Schemas.ObserverAnchor

/-!
# The task-closure schemas

The receipts of one append attempt and of its reconciliation, the owner's
instructions and the closure of a task.
-/

namespace IntegrityGuardian.Schemas.TaskClosure

open Python
open TurnMemory (eventUidBody sha256Body)
open Python.Json (isDigit)

/-- `seed://project/[a-z0-9][a-z0-9._-]{0,127}`. -/
def seedNamespaceBody (s : Str) : Bool :=
  let lower (c : CodePoint) : Bool := (97 ≤ c.val && c.val ≤ 122) || isDigit c
  (str "seed://project/").isPrefixOf s
    && match s.drop 15 with
      | [] => false
      | c :: rest => lower c && between 0 127 (fun c => lower c || (str "._-").contains c) rest

/-- `null`, or an integer from one to the greatest of SQLite. -/
def eventId : Schema :=
  .oneOf [.ofType .null, .keywords [.ofType .integer, .minimum 1, .maximum (2 ^ 63 - 1)]]

/-- `action-log-event-uid-reconciliation.schema.json`. -/
def eventUidReconciliation : Schema :=
  .closed
    ["protocol", "reconciliation_id", "source_namespace", "action_log_alias", "event_uid",
      "request_sha256", "observed_at", "match_count", "event_id", "content_read",
      "event_body_emitted", "unique_index_expected", "production_authority"]
    [("protocol", .const "integrity-guardian/action-log-event-uid-reconciliation/v1"),
      ("reconciliation_id", matching (hashBody "event-uid-reconciliation:")),
      ("source_namespace", matching seedNamespaceBody),
      ("action_log_alias", .const "actionlog://global"),
      ("event_uid", matching eventUidBody),
      ("request_sha256", matching sha256Body),
      ("observed_at", timestamp),
      ("match_count", .keywords [.ofType .integer, .minimum 0, .maximum 1]),
      ("event_id", eventId),
      ("content_read", .constBool false),
      ("event_body_emitted", .constBool false),
      ("unique_index_expected", .constBool true),
      ("production_authority", .constBool false)]

/-- `state` of an attempt. -/
def appendStates : List String :=
  ["not-started", "confirmed-created", "confirmed-duplicate", "unknown-outcome",
    "reconciled-created", "reconciled-absent"]

/-- `permitted_next_step` of an attempt. -/
def nextSteps : List String :=
  ["send-once", "none", "reconcile-by-event-uid", "owner-decision-required"]

/-- `privacy_boundary` of an attempt. -/
def privacyBoundary : List (String × Bool) :=
  [("event_body_read", false), ("event_body_emitted", false), ("secrets_emitted", false)]

/-- `authority_boundary` of an attempt. -/
def attemptAuthority : Schema :=
  .closed
    ["event_create_attempted", "event_update", "event_delete", "event_import",
      "event_overwrite", "bulk_write", "production_authority"]
    [("event_create_attempted", .ofType .boolean),
      ("event_update", .constBool false),
      ("event_delete", .constBool false),
      ("event_import", .constBool false),
      ("event_overwrite", .constBool false),
      ("bulk_write", .constBool false),
      ("production_authority", .constBool false)]

/-- `properties` of `action-log-append-attempt-receipt.schema.json`. -/
def attemptProperties : List (String × Schema) :=
  [("protocol", .const "integrity-guardian/action-log-append-attempt-receipt/v1"),
    ("attempt_id", matching (hashBody "action-log-append-attempt:")),
    ("event_uid", matching eventUidBody),
    ("request_sha256", matching sha256Body),
    ("request_sent", .ofType .boolean),
    ("response_received", .ofType .boolean),
    ("state", .enum appendStates),
    ("server_outcome", .oneOf [.ofType .null, .enum ["created", "duplicate"]]),
    ("event_id", eventId),
    ("reconciliation", .oneOf [.ofType .null, eventUidReconciliation]),
    ("first_request_allowed", .ofType .boolean),
    ("automatic_retry_allowed", .constBool false),
    ("permitted_next_step", .enum nextSteps),
    ("privacy_boundary", flags privacyBoundary),
    ("authority_boundary", attemptAuthority)]

/-- `action-log-append-attempt-receipt.schema.json`; every property is required. -/
def appendAttemptReceipt : Schema := .closed (attemptProperties.map Prod.fst) attemptProperties

/-- `#/$defs/mutation_boundary`. -/
def mutationBoundary : List (String × Bool) :=
  [("update", false), ("delete", false), ("import", false), ("overwrite", false),
    ("bulk_write", false)]

/-- `task-instruction-envelope.schema.json`. -/
def taskInstructionEnvelope : Schema :=
  .keywords
    [.closed
      ["protocol", "instruction_id", "instruction_digest", "task_id", "sequence", "issued_at",
        "authority_source", "owner_key_fingerprint", "owner_instruction_digest", "scope",
        "phase_id", "supersedes_digest", "constraints", "mutation_boundary", "signature"]
      [("protocol", .const "integrity-guardian/task-instruction-envelope/v1"),
        ("instruction_id", matching (hashBody "task-instruction:")),
        ("instruction_digest", digest),
        ("task_id", id),
        ("sequence", .keywords [.ofType .integer, .minimum 1, .maximum (2 ^ 63 - 1)]),
        ("issued_at", timestamp),
        ("authority_source", .const "owner-explicit"),
        ("owner_key_fingerprint", digest),
        ("owner_instruction_digest", digest),
        ("scope", .enum ["task", "phase"]),
        ("phase_id", .oneOf [.ofType .null, id]),
        ("supersedes_digest", .oneOf [.ofType .null, digest]),
        ("constraints", .closed ["terminal_event_append"]
          [("terminal_event_append", .enum ["allow", "deny", "unchanged"])]),
        ("mutation_boundary", flags mutationBoundary),
        ("signature", signature)],
      .ifThen (.properties [("scope", .const "task")])
        (.properties [("phase_id", .ofType .null)]),
      .ifThen (.properties [("scope", .const "phase")]) (.properties [("phase_id", id)])]

/-- `authority_boundary` of a closure. -/
def closureAuthority : List (String × Bool) :=
  [("execution", false), ("network", false), ("production_authority", false),
    ("route_authority", false)]

/-- `task-closure-receipt.schema.json`. -/
def taskClosureReceipt : Schema :=
  .closed
    ["protocol", "closure_id", "task_id", "status", "phase_id", "completed_at",
      "evidence_digest", "instruction_state", "terminal_event", "mutation_boundary",
      "authority_boundary"]
    [("protocol", .const "integrity-guardian/task-closure-receipt/v1"),
      ("closure_id", matching (hashBody "task-closure:")),
      ("task_id", id),
      ("status", .const "complete"),
      ("phase_id", .const "closure"),
      ("completed_at", timestamp),
      ("evidence_digest", digest),
      ("instruction_state",
        .closed
          ["instruction_head_digest", "instruction_head_sequence", "instruction_chain_digest",
            "task_terminal_event_append", "phase_terminal_event_append",
            "effective_terminal_event_append", "expired_phase_ids"]
          [("instruction_head_digest", digest),
            ("instruction_head_sequence", .keywords [.ofType .integer, .minimum 1]),
            ("instruction_chain_digest", digest),
            ("task_terminal_event_append", .enum ["allow", "deny"]),
            ("phase_terminal_event_append", .enum ["allow", "deny", "inherit"]),
            ("effective_terminal_event_append", .const "allow"),
            ("expired_phase_ids", .keywords [.ofType .array, .uniqueItems, .items id])]),
      ("terminal_event",
        .closed ["event_uid", "event_id", "append_state", "request_sha256", "append_attempt_id"]
          [("event_uid", matching (hashBody "client:task-closure:")),
            ("event_id", .keywords [.ofType .integer, .minimum 1, .maximum (2 ^ 63 - 1)]),
            ("append_state",
              .enum ["confirmed-created", "confirmed-duplicate", "reconciled-created"]),
            ("request_sha256", matching sha256Body),
            ("append_attempt_id", matching (hashBody "action-log-append-attempt:"))]),
      ("mutation_boundary", flags mutationBoundary),
      ("authority_boundary", flags closureAuthority)]

end IntegrityGuardian.Schemas.TaskClosure
