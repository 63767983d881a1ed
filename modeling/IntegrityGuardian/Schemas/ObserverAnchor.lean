import IntegrityGuardian.Schemas.TurnMemory

/-!
# The observer-anchor schemas

`observer-anchor-record.schema.json`, and the outcome observation an anchor can
carry as its subject.
-/

namespace IntegrityGuardian.Schemas

open Python

/-- Dot, underscore, colon, slash, hyphen, or one of `[A-Za-z0-9]`. -/
def isIdCharacter (c : CodePoint) : Bool := isAlphanumeric c || (str "._:/-").contains c

/-- One of `[A-Za-z0-9]`, up to 255 characters of an identifier, the word
`synthetic`, and any number of characters of an identifier. -/
def syntheticIdBody : Str → Bool
  | [] => false
  | c :: rest =>
    isAlphanumeric c && rest.all isIdCharacter
      && (List.range 256).any fun n => (str "synthetic").isPrefixOf (rest.drop n)

/-- `#/$defs/synthetic_id`. -/
def syntheticId : Schema := matching syntheticIdBody

/-- An object whose members are the given flags. -/
def flags (fs : List (String × Bool)) : Schema :=
  .closed (fs.map Prod.fst) (fs.map fun f => (f.1, .constBool f.2))

/-! ## The anchor record -/

/-- The subjects of an anchor. -/
def subjectKinds : List String :=
  ["toolz-route-store-cursor", "toolz-authority-checkpoint", "toolz-action-outcome-observation"]

/-- `storage_boundary`, as the schema and `_STORAGE_BOUNDARY` have it. -/
def storageBoundary : List (String × Bool) :=
  [("availability_recovery", true),
    ("crash_atomic_replace", true),
    ("local_storage", true),
    ("network", false),
    ("production_authority", false),
    ("same_failure_domain_rollback_protection", false),
    ("subject_store_write", false),
    ("trusted_latest_without_external_pin", false)]

/-- `observer-anchor-record.schema.json`. -/
def observerAnchorRecord : Schema :=
  let initial : Schema :=
    .keywords [.properties [("sequence", .constInt 0)], .required ["sequence"]]
  .keywords
    [.closed
      ["protocol", "anchor_id", "store_id", "sequence", "previous_anchor_digest", "subject_kind",
        "subject_digest", "subject", "created_at", "storage_boundary"]
      [("protocol", .const "integrity-guardian/observer-anchor-record/v1"),
        ("anchor_id", matching (hashBody "observer-anchor:")),
        ("store_id", syntheticId),
        ("sequence", .keywords [.ofType .integer, .minimum 0, .maximum 1000000]),
        ("previous_anchor_digest", optionalDigest),
        ("subject_kind", .enum subjectKinds),
        ("subject_digest", digest),
        ("subject", .ofType .object),
        ("created_at", timestamp),
        ("storage_boundary", flags storageBoundary)],
      .ifThen initial (.properties [("previous_anchor_digest", .ofType .null)]),
      .ifThen (.not initial) (.properties [("previous_anchor_digest", digest)])]

/-! ## The outcome observation -/

/-- `#/$defs/state_observation`. -/
def stateObservation : Schema :=
  .closed ["state_digest", "zone_id", "state_entity_id", "evidence_digest", "observed_at"]
    [("state_digest", digest),
      ("zone_id", syntheticId),
      ("state_entity_id", id),
      ("evidence_digest", digest),
      ("observed_at", timestamp)]

/-- `authorization`. -/
def outcomeAuthorization : Schema :=
  .closed
    ["request_id", "request_digest", "readiness_receipt_digest", "start_witness_id",
      "start_witness_digest", "decision_id", "decision_digest", "grant_id", "consumption_id",
      "consumption_digest", "ledger_event_digest", "checkpoint_digest"]
    [("request_id", matching (hashBody "toolz-authorization-request:")),
      ("request_digest", digest),
      ("readiness_receipt_digest", digest),
      ("start_witness_id", matching (hashBody "toolz-start-state-witness:")),
      ("start_witness_digest", digest),
      ("decision_id", matching (hashBody "toolz-authority-decision:")),
      ("decision_digest", digest),
      ("grant_id", matching (hashBody "toolz-single-use-grant:")),
      ("consumption_id", matching (hashBody "toolz-grant-consumption:")),
      ("consumption_digest", digest),
      ("ledger_event_digest", digest),
      ("checkpoint_digest", digest)]

/-- `tool_context`. -/
def outcomeToolContext : Schema :=
  .closed
    ["artifact_id", "artifact_digest", "environment_profile_id",
      "environment_fingerprint_digest", "ui_context_digest"]
    [("artifact_id", syntheticId),
      ("artifact_digest", digest),
      ("environment_profile_id", syntheticId),
      ("environment_fingerprint_digest", digest),
      ("ui_context_digest", digest)]

/-- `intent`. -/
def outcomeIntent : Schema :=
  .closed
    ["route_proposal_id", "route_digest", "hop_index", "action_class", "operation_digest",
      "relation_id", "from_entity_id", "to_entity_id", "from_zone_id", "to_zone_id"]
    [("route_proposal_id",
        matching fun s =>
          hashBody "discovery-theory-route:" s || hashBody "discovery-feedback-ranked-route:" s),
      ("route_digest", digest),
      ("hop_index", .constInt 0),
      ("action_class",
        .enum ["observe", "navigate", "activate", "input", "submit", "wait", "external-call"]),
      ("operation_digest", digest),
      ("relation_id", id),
      ("from_entity_id", id),
      ("to_entity_id", id),
      ("from_zone_id", syntheticId),
      ("to_zone_id", syntheticId)]

/-- `observer`. -/
def outcomeObserver : Schema :=
  .closed ["observer_id", "observer_artifact_digest", "key_id", "key_fingerprint"]
    [("observer_id", syntheticId),
      ("observer_artifact_digest", digest),
      ("key_id", id),
      ("key_fingerprint", digest)]

/-- `timing`. -/
def outcomeTiming : Schema :=
  .closed ["consumed_at", "observation_started_at", "observation_completed_at", "created_at"]
    [("consumed_at", timestamp),
      ("observation_started_at", timestamp),
      ("observation_completed_at", timestamp),
      ("created_at", timestamp)]

/-- `authority_boundary`: flags, and whether a change of state was observed. -/
def outcomeAuthorityBoundary : Schema :=
  let fs : List (String × Bool) :=
    [("authorization_granted", true),
      ("browser_control", false),
      ("credentials", false),
      ("execution_performed", false),
      ("external_action_attempt_proven", false),
      ("external_action_causality_proven", false),
      ("feedback_promotion", false),
      ("grant_consumption_proven", true),
      ("independent_observation", true),
      ("model_sdk", false),
      ("network", false),
      ("production_authority", false),
      ("raw_ui_data", false),
      ("route_memory_store_write", false),
      ("tool_invocation", false)]
  .closed ("state_change_observed" :: fs.map Prod.fst)
    (("state_change_observed", .oneOf [.ofType .boolean, .ofType .null])
      :: fs.map fun f => (f.1, .constBool f.2))

/-- What an outcome asks of its reason, its second observation, the evidence of its
gap and the observed change. -/
def outcomeImplies (outcome : String) (reason after gap change : Schema) : Schema :=
  .ifThen (.keywords [.properties [("outcome", .const outcome)], .required ["outcome"]])
    (.properties
      [("reason_code", reason),
        ("after_observation", after),
        ("gap_evidence_digest", gap),
        ("authority_boundary", .properties [("state_change_observed", change)])])

/-- `toolz-action-outcome-observation.schema.json`. -/
def toolzActionOutcomeObservation : Schema :=
  .keywords
    [.closed
      ["protocol", "observation_id", "tenant_id", "policy_id", "policy_digest", "authorization",
        "tool_context", "intent", "observer", "outcome", "reason_code", "before_observation",
        "after_observation", "gap_evidence_digest", "timing", "privacy_boundary",
        "authority_boundary", "signature"]
      [("protocol", .const "integrity-guardian/toolz-action-outcome-observation/v1"),
        ("observation_id", matching (hashBody "toolz-action-outcome-observation:")),
        ("tenant_id", .const "tenant:public-6e3cdbebaafc8efa"),
        ("policy_id", syntheticId),
        ("policy_digest", digest),
        ("authorization", outcomeAuthorization),
        ("tool_context", outcomeToolContext),
        ("intent", outcomeIntent),
        ("observer", outcomeObserver),
        ("outcome",
          .enum ["expected-transition-observed", "pre-state-retained",
            "unexpected-state-observed", "outcome-unknown"]),
        ("reason_code",
          .enum ["expected-transition", "pre-state-retained", "unexpected-state",
            "observer-unavailable", "observation-timeout", "executor-crash-reported",
            "transport-loss-reported"]),
        ("before_observation", stateObservation),
        ("after_observation", .oneOf [stateObservation, .ofType .null]),
        ("gap_evidence_digest", optionalDigest),
        ("timing", outcomeTiming),
        ("privacy_boundary",
          flags
            [("cookies", false), ("credentials", false), ("dom", false), ("form_values", false),
              ("free_text", false), ("operation_parameters", false), ("screenshots", false),
              ("selectors", false), ("urls", false)]),
        ("authority_boundary", outcomeAuthorityBoundary),
        ("signature", signature)],
      outcomeImplies "expected-transition-observed" (.const "expected-transition")
        stateObservation (.ofType .null) (.constBool true),
      outcomeImplies "pre-state-retained" (.const "pre-state-retained")
        stateObservation (.ofType .null) (.constBool false),
      outcomeImplies "unexpected-state-observed" (.const "unexpected-state")
        stateObservation (.ofType .null) (.constBool true),
      outcomeImplies "outcome-unknown"
        (.enum ["observer-unavailable", "observation-timeout", "executor-crash-reported",
          "transport-loss-reported"])
        (.ofType .null) digest (.ofType .null)]

end IntegrityGuardian.Schemas
