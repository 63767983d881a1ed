import IntegrityGuardian.Schemas
import IntegrityGuardian.Python.JsonFields

/-!
# The discovery schemas

The record, delta receipt and index snapshot documents under `schema/`.
-/

namespace IntegrityGuardian.Schemas

open Python

/-- An identifier of up to 249 characters after `tenant:`. -/
def tenantBody (s : Str) : Bool :=
  (str "tenant:").isPrefixOf s && idBody (s.drop 7) && s.length ≤ 256

/-- A fixed head and a hash in hexadecimal. -/
def hashBody (head : String) (s : Str) : Bool :=
  (str head).isPrefixOf s && between 64 64 CodePoint.isLowerHex (s.drop (str head).length)

/-- `#/$defs/tenant_id`. -/
def tenantId : Schema := matching tenantBody

/-- An integer from zero on. -/
def natural : Schema := .keywords [.ofType .integer, .minimum 0]

/-- An integer from zero to a bound. -/
def boundedNatural (greatest : Int) : Schema :=
  .keywords [.ofType .integer, .minimum 0, .maximum greatest]

/-- `#/$defs/entity_assertion`. -/
def entityAssertion : Schema :=
  .closed ["kind", "entity_id", "entity_type"]
    [("kind", .const "entity"), ("entity_id", id), ("entity_type", id)]

/-- `#/$defs/relation_assertion`. -/
def relationAssertion : Schema :=
  .closed
    ["kind", "relation_id", "relation_type", "from_entity_id", "to_entity_id", "from_zone_id",
      "to_zone_id"]
    [("kind", .const "relation"), ("relation_id", id), ("relation_type", id),
      ("from_entity_id", id), ("to_entity_id", id), ("from_zone_id", id), ("to_zone_id", id)]

/-- `#/$defs/gap_assertion`. -/
def gapAssertion : Schema :=
  .closed ["kind", "gap_id", "classification", "subject_id"]
    [("kind", .const "gap"),
      ("gap_id", id),
      ("classification", .enum
        ["unknown-entity", "unknown-relation", "conflicting-identity", "unobserved-zone",
          "unsupported-protocol", "denied-coverage", "stale-source", "ambiguous-owner",
          "model-gap"]),
      ("subject_id", .oneOf [id, .ofType .null])]

/-- The five flags of an offline boundary, all off. -/
def offlineBoundary : Schema :=
  .closed ["credentials", "execution", "model_sdk", "network", "production_authority"]
    [("credentials", .constBool false), ("execution", .constBool false),
      ("model_sdk", .constBool false), ("network", .constBool false),
      ("production_authority", .constBool false)]

/-- `#/$defs/index_boundary`. -/
def indexBoundary : Schema :=
  .closed ["execution_performed", "model_calls", "network", "production_authority", "tool_calls"]
    [("execution_performed", .constBool false), ("model_calls", .constInt 0),
      ("network", .constBool false), ("production_authority", .constBool false),
      ("tool_calls", .constInt 0)]

/-- The evidence of a record. -/
def discoveryEvidence : Schema :=
  .closed
    ["state", "provenance", "confidence_ppm", "content_digest", "source_artifact_digest",
      "coverage"]
    [("state", .enum ["present", "absent", "unknown", "sensor-gap"]),
      ("provenance", .enum ["OBSERVED", "DERIVED", "LEARNED", "PROPOSED"]),
      ("confidence_ppm", boundedNatural 1000000),
      ("content_digest", optionalDigest),
      ("source_artifact_digest", digest),
      ("coverage", .closed ["state", "scope_digest"]
        [("state", .enum ["complete", "partial", "denied", "unknown"]),
          ("scope_digest", digest)])]

/-- `discovery-record.schema.json`. -/
def discoveryRecord : Schema :=
  .closed
    ["protocol", "record_id", "tenant_id", "source_id", "source_epoch", "sequence",
      "observed_at", "zone_id", "change", "assertion", "evidence", "previous_record_digest",
      "collector_boundary", "signature"]
    [("protocol", .const "integrity-guardian/discovery-record/v1"),
      ("record_id", matching (hashBody "discovery-record:")),
      ("tenant_id", tenantId),
      ("source_id", id),
      ("source_epoch", id),
      ("sequence", natural),
      ("observed_at", timestamp),
      ("zone_id", id),
      ("change", .enum ["upsert", "delete"]),
      ("assertion", .oneOf [entityAssertion, relationAssertion, gapAssertion]),
      ("evidence", discoveryEvidence),
      ("previous_record_digest", optionalDigest),
      ("collector_boundary", offlineBoundary),
      ("signature", signature)]

/-- The source tip inside a receipt. -/
def receiptTip : Schema :=
  .closed ["source_id", "source_epoch", "sequence", "record_digest", "source_artifact_digest"]
    [("source_id", id), ("source_epoch", id), ("sequence", natural), ("record_digest", digest),
      ("source_artifact_digest", digest)]

/-- An array of distinct items up to a length. -/
def boundedSet (most : Nat) (item : Schema) : Schema :=
  .keywords [.ofType .array, .maxItems most, .uniqueItems, .items item]

/-- An array up to a length. -/
def boundedArray (most : Nat) (item : Schema) : Schema :=
  .keywords [.ofType .array, .maxItems most, .items item]

/-- `discovery-delta-receipt.schema.json`. -/
def discoveryDeltaReceipt : Schema :=
  .closed
    ["protocol", "receipt_id", "tenant_id", "batch_digest", "accepted_count", "inserted_count",
      "updated_count", "deleted_count", "no_op_count", "active_assertion_count",
      "changed_zone_ids", "cross_zone_relation_ids", "source_tips", "index_boundary", "signature"]
    [("protocol", .const "integrity-guardian/discovery-delta-receipt/v1"),
      ("receipt_id", matching (hashBody "discovery-delta-receipt:")),
      ("tenant_id", tenantId),
      ("batch_digest", digest),
      ("accepted_count", boundedNatural 1000),
      ("inserted_count", boundedNatural 1000),
      ("updated_count", boundedNatural 1000),
      ("deleted_count", boundedNatural 1000),
      ("no_op_count", boundedNatural 1000),
      ("active_assertion_count", boundedNatural 25000),
      ("changed_zone_ids", boundedSet 256 id),
      ("cross_zone_relation_ids", boundedSet 1000 id),
      ("source_tips", boundedSet 1000 receiptTip),
      ("index_boundary", indexBoundary),
      ("signature", signature)]

/-- `#/$defs/trusted_source`. -/
def trustedSource : Schema :=
  .closed ["source_id", "source_epoch", "source_artifact_digest", "key_id",
      "public_key_fingerprint"]
    [("source_id", id), ("source_epoch", id), ("source_artifact_digest", digest), ("key_id", id),
      ("public_key_fingerprint", digest)]

/-- `#/$defs/source_tip`. -/
def snapshotTip : Schema :=
  .closed ["source_id", "source_epoch", "sequence", "record_digest", "source_artifact_digest",
      "record"]
    [("source_id", id), ("source_epoch", id), ("sequence", natural), ("record_digest", digest),
      ("source_artifact_digest", digest), ("record", .ofType .object)]

/-- `#/$defs/semantic_history_entry`. -/
def semanticHistoryEntry : Schema :=
  .closed ["source_id", "assertion_kind", "assertion_id", "semantic_identity"]
    [("source_id", id),
      ("assertion_kind", .enum ["entity", "relation", "gap"]),
      ("assertion_id", id),
      ("semantic_identity", matching (hashBody "discovery-semantic:"))]

/-- `discovery-index-snapshot.schema.json`. -/
def discoveryIndexSnapshot : Schema :=
  .closed
    ["protocol", "snapshot_id", "tenant_id", "created_at", "snapshot_sequence",
      "previous_snapshot_digest", "active_state_digest", "trusted_sources", "source_tips",
      "active_records", "index_boundary", "signature"]
    [("protocol", .const "integrity-guardian/discovery-index-snapshot/v1"),
      ("snapshot_id", matching (hashBody "discovery-index-snapshot:")),
      ("tenant_id", tenantId),
      ("created_at", timestamp),
      ("snapshot_sequence", natural),
      ("previous_snapshot_digest", optionalDigest),
      ("active_state_digest", digest),
      ("trusted_sources", boundedSet 1000 trustedSource),
      ("source_tips", boundedSet 1000 snapshotTip),
      ("active_records", boundedArray 25000 (.ofType .object)),
      ("admission_state", .closed ["policy_digest", "semantic_history"]
        [("policy_digest", digest),
          ("semantic_history", boundedArray 25000 semanticHistoryEntry)]),
      ("index_boundary", indexBoundary),
      ("signature", signature)]

end IntegrityGuardian.Schemas
