import IntegrityGuardian.Schemas.Discovery
import IntegrityGuardian.Signing

/-!
# Discovery records

The signed statements of `discovery.py` and their verification.  A verified
record is kept with its document and the fields the index reads of it.
-/

namespace IntegrityGuardian.Discovery

open Python Library

inductive Error where
  /-- `DiscoveryError`. -/
  | discovery (message : Str)
  /-- `DiscoveryAdmissionError`. -/
  | admission (message : Str)
  | raised (e : Exc)
  deriving DecidableEq

def refuse (message : String) : Error := .discovery (str message)

/-- An exception that `discovery.py` does not raise itself. -/
def raising {α : Type} (x : Except Exc α) : Except Error α := x.mapError .raised

/-! ## Enumerations -/

inductive DiscoveryAssertionKind where
  | entity
  | relation
  | gap
  deriving DecidableEq

def DiscoveryAssertionKind.value : DiscoveryAssertionKind → String
  | .entity => "entity"
  | .relation => "relation"
  | .gap => "gap"

inductive DiscoveryChange where
  | upsert
  | delete
  deriving DecidableEq

def DiscoveryChange.value : DiscoveryChange → String
  | .upsert => "upsert"
  | .delete => "delete"

inductive DiscoveryState where
  | present
  | absent
  | unknown
  | sensorGap
  deriving DecidableEq

def DiscoveryState.value : DiscoveryState → String
  | .present => "present"
  | .absent => "absent"
  | .unknown => "unknown"
  | .sensorGap => "sensor-gap"

inductive UnknownClass where
  | unknownEntity
  | unknownRelation
  | conflictingIdentity
  | unobservedZone
  | unsupportedProtocol
  | deniedCoverage
  | staleSource
  | ambiguousOwner
  | modelGap
  deriving DecidableEq

def UnknownClass.value : UnknownClass → String
  | .unknownEntity => "unknown-entity"
  | .unknownRelation => "unknown-relation"
  | .conflictingIdentity => "conflicting-identity"
  | .unobservedZone => "unobserved-zone"
  | .unsupportedProtocol => "unsupported-protocol"
  | .deniedCoverage => "denied-coverage"
  | .staleSource => "stale-source"
  | .ambiguousOwner => "ambiguous-owner"
  | .modelGap => "model-gap"

def UnknownClass.all : List UnknownClass :=
  [.unknownEntity, .unknownRelation, .conflictingIdentity, .unobservedZone, .unsupportedProtocol,
    .deniedCoverage, .staleSource, .ambiguousOwner, .modelGap]

/-! ## Assertions -/

inductive Assertion where
  | entity (entityId entityType : Str)
  | relation (relationId relationType fromEntityId toEntityId fromZoneId toZoneId : Str)
  | gap (gapId : Str) (classification : UnknownClass) (subjectId : Option Str)
  deriving DecidableEq

def Assertion.kind : Assertion → DiscoveryAssertionKind
  | .entity .. => .entity
  | .relation .. => .relation
  | .gap .. => .gap

/-- `_assertion_identity`. -/
def Assertion.identity : Assertion → Str
  | .entity entityId _ => entityId
  | .relation relationId .. => relationId
  | .gap gapId .. => gapId

def readAssertion (v : Json) : Except Exc Assertion := do
  let kind ← memberItem [.entity, .relation, .gap] DiscoveryAssertionKind.value v (str "kind")
  match kind with
  | .entity => do
    let entityId ← v.textItem (str "entity_id")
    let entityType ← v.textItem (str "entity_type")
    .ok (.entity entityId entityType)
  | .relation => do
    let relationId ← v.textItem (str "relation_id")
    let relationType ← v.textItem (str "relation_type")
    let fromEntityId ← v.textItem (str "from_entity_id")
    let toEntityId ← v.textItem (str "to_entity_id")
    let fromZoneId ← v.textItem (str "from_zone_id")
    let toZoneId ← v.textItem (str "to_zone_id")
    .ok (.relation relationId relationType fromEntityId toEntityId fromZoneId toZoneId)
  | .gap => do
    let gapId ← v.textItem (str "gap_id")
    let classification ← memberItem UnknownClass.all UnknownClass.value v (str "classification")
    let subjectId ← v.optionalTextItem (str "subject_id")
    .ok (.gap gapId classification subjectId)

/-! ## Records -/

/-- A validated record: its document and the fields read of it. -/
structure Record where
  document : Json
  recordId : Str
  tenantId : Str
  sourceId : Str
  sourceEpoch : Str
  sequence : Int
  zoneId : Str
  change : DiscoveryChange
  assertion : Assertion
  state : DiscoveryState
  contentDigest : Option Str
  sourceArtifactDigest : Str
  previousRecordDigest : Option Str
  deriving DecidableEq

def readRecord (document : Json) : Except Exc Record := do
  let recordId ← document.textItem (str "record_id")
  let tenantId ← document.textItem (str "tenant_id")
  let sourceId ← document.textItem (str "source_id")
  let sourceEpoch ← document.textItem (str "source_epoch")
  let sequence ← document.intItem (str "sequence")
  let zoneId ← document.textItem (str "zone_id")
  let change ← memberItem [.upsert, .delete] DiscoveryChange.value document (str "change")
  let assertionItem ← document.item (str "assertion")
  let assertion ← readAssertion assertionItem
  let evidence ← document.item (str "evidence")
  let state ← memberItem [.present, .absent, .unknown, .sensorGap] DiscoveryState.value evidence
    (str "state")
  let contentDigest ← evidence.optionalTextItem (str "content_digest")
  let sourceArtifactDigest ← evidence.textItem (str "source_artifact_digest")
  let previousRecordDigest ← document.optionalTextItem (str "previous_record_digest")
  .ok { document, recordId, tenantId, sourceId, sourceEpoch, sequence, zoneId, change, assertion,
        state, contentDigest, sourceArtifactDigest, previousRecordDigest }

/-- The trusted epoch of a source. -/
abbrev SourceKey := Str ×ₗ Str

/-- Source, assertion kind and assertion identity. -/
abbrev ActiveKey := Str ×ₗ Str ×ₗ Str

instance : Std.TransCmp (orderCmp (κ := SourceKey)) := inferInstance

instance : Std.TransCmp (orderCmp (κ := ActiveKey)) := inferInstance

def Record.sourceKey (record : Record) : SourceKey :=
  toLex (record.sourceId, record.sourceEpoch)

/-- `_active_key`. -/
def Record.activeKey (record : Record) : ActiveKey :=
  toLex (record.sourceId,
    toLex (str record.assertion.kind.value, record.assertion.identity))

/-- `_record_zones`. -/
def Record.zones (record : Record) : Finset Str :=
  match record.assertion with
  | .relation _ _ _ _ fromZoneId toZoneId => {record.zoneId, fromZoneId, toZoneId}
  | _ => {record.zoneId}

/-- The relation a record names, when it joins two zones. -/
def Record.crossZoneRelations (record : Record) : Finset Str :=
  match record.assertion with
  | .relation relationId _ _ _ fromZoneId toZoneId =>
    if fromZoneId ≠ toZoneId then {relationId} else ∅
  | _ => ∅

/-- `_DISCOVERY_BOUNDARY`. -/
def discoveryBoundary : Json :=
  .fields [("credentials", .bool false), ("execution", .bool false), ("model_sdk", .bool false),
    ("network", .bool false), ("production_authority", .bool false)]

/-- The kind, state and content of a record agree. -/
def checkEvidence (record : Record) : Except Error Unit :=
  if record.change = .delete then
    ensure (record.state = .absent ∧ record.contentDigest = none)
      (refuse "discovery deletion must be an empty tombstone")
  else if record.assertion.kind = .gap then
    ensure ((record.state = .unknown ∨ record.state = .sensorGap) ∧ record.contentDigest = none)
      (refuse "discovery gap evidence rejected")
  else ensure (record.state = .present) (refuse "discovery assertion must be present")

/-- What a caller of `verify_discovery_record` expects of the record. -/
structure Expected where
  tenantId : Option Str
  sourceId : Option Str
  sourceEpoch : Option Str
  sourceArtifactDigest : Option Str

/-- A check that is skipped for `None`. -/
def ensureExpected (expected : Option Str) (actual : Str) (message : String) :
    Except Error Unit :=
  ensure (expected = none ∨ expected = some actual) (refuse message)

section
variable [UnicodeData]

/-- `discovery_record_identity`. -/
def discoveryRecordIdentity (record : Json) : Except Exc Str := do
  let core := (record.pop (str "record_id")).pop (str "signature")
  let digest ← digestObject core (str "discovery-record-identity-v1")
  .ok (str "discovery-record:" ++ digest.afterColon)

/-- `discovery_record_digest`. -/
def discoveryRecordDigest (record : Json) : Except Exc Str :=
  digestObject record (str "discovery-record-chain-v1")

variable [Ed25519]

/-- `verify_discovery_record`. -/
def verifyDiscoveryRecord (document : Json) (trustedKey : TrustedKey) (expected : Expected) :
    Except Error Record := do
  ensure (Schemas.discoveryRecord.accepts document) (refuse "discovery record schema is invalid")
  let boundary ← raising (document.item (str "collector_boundary"))
  ensure (boundary.sortKeys = discoveryBoundary.sortKeys)
    (refuse "discovery collector boundary mismatch")
  let record ← raising (readRecord document)
  let identity ← raising (discoveryRecordIdentity document)
  ensure (record.recordId = identity) (refuse "discovery record identity mismatch")
  let signature ← raising (document.item (str "signature"))
  let keyId ← raising (signature.textItem (str "key_id"))
  ensure (keyId = trustedKey.keyId) (refuse "discovery record signature rejected")
  let verified ← raising (verifySignature document trustedKey.publicKey)
  ensure (verified = true) (refuse "discovery record signature rejected")
  ensureExpected expected.tenantId record.tenantId "cross-tenant discovery record rejected"
  ensureExpected expected.sourceId record.sourceId "discovery source identity mismatch"
  ensureExpected expected.sourceEpoch record.sourceEpoch "discovery source epoch mismatch"
  ensureExpected expected.sourceArtifactDigest record.sourceArtifactDigest
    "discovery source artifact mismatch"
  checkEvidence record
  .ok record

end

/-! ## Trusted sources -/

/-- `TrustedDiscoverySource`, with what its constructor checks. -/
structure TrustedDiscoverySource [Ed25519] where
  sourceId : Str
  sourceEpoch : Str
  sourceArtifactDigest : Str
  trustedKey : TrustedKey
  sourceId_valid : Schemas.idBody sourceId = true
  sourceEpoch_valid : Schemas.idBody sourceEpoch = true
  sourceArtifactDigest_valid : Schemas.digestBody sourceArtifactDigest = true

def TrustedDiscoverySource.key [Ed25519] (source : TrustedDiscoverySource) : SourceKey :=
  toLex (source.sourceId, source.sourceEpoch)

/-- The expectations of the index on a record of a trusted source. -/
def TrustedDiscoverySource.expects [Ed25519] (source : TrustedDiscoverySource) (tenantId : Str) :
    Expected where
  tenantId := some tenantId
  sourceId := some source.sourceId
  sourceEpoch := some source.sourceEpoch
  sourceArtifactDigest := some source.sourceArtifactDigest

end IntegrityGuardian.Discovery
