import IntegrityGuardian.Discovery.Index

/-!
# Index snapshots

The signed checkpoints of `ZonedDiscoveryIndex`: `export_snapshot`, the two
verifications of a checkpoint, and `restore`.
-/

namespace IntegrityGuardian.Discovery

open Python Library

section
variable [UnicodeData] [Ed25519Keys]

/-! ## Exporting -/

/-- `_trusted_source_document`. -/
def trustedSourceDocument (source : TrustedDiscoverySource) : Json :=
  .fields [("source_id", .str source.sourceId), ("source_epoch", .str source.sourceEpoch),
    ("source_artifact_digest", .str source.sourceArtifactDigest),
    ("key_id", .str source.trustedKey.keyId),
    ("public_key_fingerprint", .str (publicKeyFingerprint source.trustedKey.publicKey))]

/-- The bindings of a trust set, in key order. -/
def sourceDocuments (sources : List TrustedDiscoverySource) : List Json :=
  (sources.insertionSort fun a b => a.key ≤ b.key).map trustedSourceDocument

/-- One of the `source_tips` of a snapshot. -/
def exportTip (config : Config) (index : Index) (tip : SourceKey × Int × Str) :
    Except Exc Json :=
  match config.trusted tip.1, index.sourceTipRecords[tip.1]? with
  | some source, some record =>
    .ok (.fields (tipFields source tip.2 ++ [("record", record.document)]))
  | _, _ => .error (.keyError (ofLex tip.1).1)

/-- One entry of the `semantic_history` of a snapshot. -/
def historyEntry (item : ActiveKey × Str) : Json :=
  .fields [("source_id", .str (ofLex item.1).1),
    ("assertion_kind", .str (ofLex (ofLex item.1).2).1),
    ("assertion_id", .str (ofLex (ofLex item.1).2).2),
    ("semantic_identity", .str item.2)]

/-- The `admission_state` of a snapshot, when the index has a policy. -/
def admissionStateFields (config : Config) (index : Index) : List (String × Json) :=
  match config.admissionPolicy with
  | none => []
  | some policy =>
    [("admission_state", .fields [("policy_digest", .str policy.digest),
      ("semantic_history", .arr (index.semanticHistory.toList.map historyEntry))])]

/-- `active_records()`. -/
def activeRecords (index : Index) : List Json :=
  index.active.toList.map fun item => item.2.document

/-- The `core` of a snapshot. -/
def snapshotFields (config : Config) (index : Index) (createdAt activeStateDigest : Str)
    (sourceTips : List Json) : List (String × Json) :=
  [("protocol", .str (str "integrity-guardian/discovery-index-snapshot/v1")),
    ("tenant_id", .str config.tenantId),
    ("created_at", .str createdAt),
    ("snapshot_sequence", .int index.nextSnapshotSequence),
    ("previous_snapshot_digest", .ofOptionalText index.previousSnapshotDigest),
    ("active_state_digest", .str activeStateDigest),
    ("trusted_sources", .arr (sourceDocuments config.trustedSources)),
    ("source_tips", .arr sourceTips),
    ("active_records", .arr (activeRecords index)),
    ("index_boundary", indexBoundary)] ++ admissionStateFields config index

/-- `discovery_index_snapshot_identity`. -/
def discoveryIndexSnapshotIdentity (snapshot : Json) : Except Exc Str := do
  let core := (snapshot.pop (str "snapshot_id")).pop (str "signature")
  let digest ← digestObject core (str "discovery-index-snapshot-identity-v1")
  .ok (str "discovery-index-snapshot:" ++ digest.afterColon)

/-- `discovery_index_snapshot_digest`. -/
def discoveryIndexSnapshotDigest (snapshot : Json) : Except Exc Str :=
  digestObject snapshot (str "discovery-index-snapshot-chain-v1")

/-- The digest of the active records. -/
def activeStateDigest (activeRecords : List Json) : Except Exc Str :=
  digestObject (.arr activeRecords) (str "discovery-active-state-v1")

/-! ## Reading a snapshot -/

structure SnapshotTip where
  key : SourceKey
  sequence : Int
  recordDigest : Str
  sourceArtifactDigest : Str
  record : Json

def readTip (tip : Json) : Except Exc SnapshotTip := do
  let key ← sourceKeyOf tip
  let sequence ← tip.intItem (str "sequence")
  let recordDigest ← tip.textItem (str "record_digest")
  let sourceArtifactDigest ← tip.textItem (str "source_artifact_digest")
  let record ← tip.item (str "record")
  .ok ⟨key, sequence, recordDigest, sourceArtifactDigest, record⟩

def readHistoryEntry (item : Json) : Except Exc (ActiveKey × Str) := do
  let sourceId ← item.textItem (str "source_id")
  let assertionKind ← item.textItem (str "assertion_kind")
  let assertionId ← item.textItem (str "assertion_id")
  let identity ← item.textItem (str "semantic_identity")
  .ok (toLex (sourceId, toLex (assertionKind, assertionId)), identity)

/-- `candidate.get("admission_state")`. -/
def readAdmissionState (snapshot : Json) :
    Except Exc (Option (Str × List (ActiveKey × Str))) :=
  match snapshot.get? (str "admission_state") with
  | none => .ok none
  | some state => do
    let policyDigest ← state.textItem (str "policy_digest")
    let items ← state.arrayItem (str "semantic_history")
    let history ← items.mapM readHistoryEntry
    .ok (some (policyDigest, history))

/-- The fields of a validated snapshot. -/
structure Snapshot where
  document : Json
  snapshotId : Str
  tenantId : Str
  snapshotSequence : Int
  previousSnapshotDigest : Option Str
  activeStateDigest : Str
  trustedSources : List Json
  sourceTips : List SnapshotTip
  activeRecords : List Json
  admissionState : Option (Str × List (ActiveKey × Str))

def readSnapshot (document : Json) : Except Exc Snapshot := do
  let snapshotId ← document.textItem (str "snapshot_id")
  let tenantId ← document.textItem (str "tenant_id")
  let snapshotSequence ← document.intItem (str "snapshot_sequence")
  let previousSnapshotDigest ← document.optionalTextItem (str "previous_snapshot_digest")
  let activeStateDigest ← document.textItem (str "active_state_digest")
  let trustedSources ← document.arrayItem (str "trusted_sources")
  let tips ← document.arrayItem (str "source_tips")
  let sourceTips ← tips.mapM readTip
  let activeRecords ← document.arrayItem (str "active_records")
  let admissionState ← readAdmissionState document
  .ok { document, snapshotId, tenantId, snapshotSequence, previousSnapshotDigest,
        activeStateDigest, trustedSources, sourceTips, activeRecords, admissionState }

/-! ## Verifying a snapshot -/

/-- The key and the artifact of a binding. -/
def readBinding (binding : Json) : Except Exc (SourceKey × Str) := do
  let key ← sourceKeyOf binding
  let artifact ← binding.textItem (str "source_artifact_digest")
  .ok (key, artifact)

/-- The checks of a snapshot on one source tip, after those in front of it. -/
def checkTip (tenantId : Str) (bindings : List (SourceKey × Str)) (earlier : List SnapshotTip)
    (tip : SnapshotTip) : Except Error Unit := do
  ensure (tip.key ∉ earlier.map SnapshotTip.key) (refuse "duplicate discovery snapshot source tip")
  match bindings.lookup tip.key with
  | none => .error (refuse "unbound discovery snapshot source tip")
  | some artifact => do
    ensure (tip.sourceArtifactDigest = artifact)
      (refuse "discovery snapshot source artifact mismatch")
    ensure (Schemas.discoveryRecord.accepts tip.record)
      (refuse "discovery snapshot tip record schema is invalid")
    let record ← raising (readRecord tip.record)
    let mismatch := refuse "discovery snapshot tip record mismatch"
    ensure (record.tenantId = tenantId ∧ record.sourceKey = tip.key ∧
      record.sequence = tip.sequence ∧ record.sourceArtifactDigest = tip.sourceArtifactDigest)
      mismatch
    let digest ← raising (discoveryRecordDigest tip.record)
    ensure (digest = tip.recordDigest) mismatch

/-- The loop over the source tips. -/
def checkTips (tenantId : Str) (bindings : List (SourceKey × Str)) :
    List SnapshotTip → List SnapshotTip → Except Error Unit
  | _, [] => .ok ()
  | earlier, tip :: tips => do
    checkTip tenantId bindings earlier tip
    checkTips tenantId bindings (earlier ++ [tip]) tips

/-- `_active_key` of a record that is not validated yet. -/
def rawActiveKey (record : Json) : Except Exc ActiveKey := do
  let assertion ← record.item (str "assertion")
  let sourceId ← displayedItem record "source_id"
  let kind ← memberItem [.entity, .relation, .gap] DiscoveryAssertionKind.value assertion
    (str "kind")
  let identity ← displayedItem assertion (match kind with
    | .entity => "entity_id"
    | .relation => "relation_id"
    | .gap => "gap_id")
  .ok (toLex (sourceId, toLex (str kind.value, identity)))

/-- The checks of a snapshot on one active record. -/
def checkActive (tenantId : Str) (bindings : List (SourceKey × Str)) (tips : List SnapshotTip)
    (document : Json) : Except Error Unit := do
  ensure (Schemas.discoveryRecord.accepts document)
    (refuse "discovery snapshot active record schema is invalid")
  let record ← raising (readRecord document)
  ensure (record.tenantId = tenantId) (refuse "cross-tenant discovery snapshot record rejected")
  ensure (record.change = .upsert) (refuse "discovery snapshot contains a tombstone")
  match bindings.lookup record.sourceKey, tips.find? fun tip => tip.key = record.sourceKey with
  | some artifact, some tip => do
    ensure (record.sourceArtifactDigest = artifact)
      (refuse "discovery snapshot active artifact mismatch")
    ensure (record.sequence ≤ tip.sequence)
      (refuse "discovery snapshot active record exceeds source tip")
    if record.sequence = tip.sequence then do
      let digest ← raising (discoveryRecordDigest document)
      ensure (digest = tip.recordDigest) (refuse "discovery snapshot source tip digest mismatch")
    else .ok ()
  | _, _ => .error (refuse "unbound discovery snapshot active record")

/-- The part of `verify_discovery_index_snapshot` after the signed envelope. -/
def checkSnapshotContent (snapshot : Snapshot) : Except Error Unit := do
  let bindings ← raising (snapshot.trustedSources.mapM readBinding)
  ensure ((bindings.map Prod.fst).Pairwise (· ≤ ·))
    (refuse "discovery snapshot source bindings are not canonical")
  ensure (bindings.map Prod.fst).Nodup (refuse "duplicate discovery snapshot source binding")
  ensure ((snapshot.sourceTips.map SnapshotTip.key).Pairwise (· ≤ ·))
    (refuse "discovery snapshot source tips are not canonical")
  checkTips snapshot.tenantId bindings [] snapshot.sourceTips
  let keys ← (snapshot.activeRecords.mapM rawActiveKey).mapError fun _ =>
    refuse "discovery snapshot active record rejected"
  ensure (keys.Pairwise (· ≤ ·)) (refuse "discovery snapshot active records are not canonical")
  ensure keys.Nodup (refuse "duplicate discovery snapshot active assertion")
  snapshot.activeRecords.forM (checkActive snapshot.tenantId bindings snapshot.sourceTips)
  let expected ← raising (activeStateDigest snapshot.activeRecords)
  ensure (snapshot.activeStateDigest = expected)
    (refuse "discovery snapshot active state digest mismatch")

/-- `verify_discovery_index_snapshot`. -/
def verifyDiscoveryIndexSnapshot (document : Json) (trustedKey : TrustedKey)
    (expectedSnapshotId expectedTenantId : Option Str) : Except Error Snapshot := do
  ensure (Schemas.discoveryIndexSnapshot.accepts document)
    (refuse "discovery index snapshot schema is invalid")
  let snapshot ← raising (readSnapshot document)
  let identity ← raising (discoveryIndexSnapshotIdentity document)
  ensure (snapshot.snapshotId = identity) (refuse "discovery index snapshot identity mismatch")
  checkSigned document trustedKey "discovery index snapshot signature rejected"
  ensureExpected expectedSnapshotId snapshot.snapshotId "discovery index snapshot pin mismatch"
  ensureExpected expectedTenantId snapshot.tenantId
    "cross-tenant discovery index snapshot rejected"
  let boundary ← raising (document.item (str "index_boundary"))
  ensure (boundary.sortKeys = indexBoundary.sortKeys)
    (refuse "discovery index snapshot boundary mismatch")
  ensure (snapshot.snapshotSequence = 0 ↔ snapshot.previousSnapshotDigest = none)
    (refuse "discovery index snapshot chain continuity rejected")
  checkSnapshotContent snapshot
  .ok snapshot

/-- `ZonedDiscoveryIndex.export_snapshot`; a call that raises leaves the index as it was. -/
def exportSnapshot (config : Config) (createdAt : Str) (index : Index) :
    Except Error (Json × Index) := do
  let sourceTips ← raising (index.sourceTips.toList.mapM (exportTip config index))
  let stateDigest ← raising (activeStateDigest (activeRecords index))
  let core := snapshotFields config index createdAt stateDigest sourceTips
  let snapshotId ← raising (discoveryIndexSnapshotIdentity (.fields core))
  let snapshot ← raising (config.receiptSigner.sign
    (.fields (("snapshot_id", .str snapshotId) :: core)))
  let _ ← verifyDiscoveryIndexSnapshot snapshot config.receiptSigner.trustedKey none
    (some config.tenantId)
  let digest ← raising (discoveryIndexSnapshotDigest snapshot)
  .ok (snapshot, { index with
    nextSnapshotSequence := index.nextSnapshotSequence + 1
    previousSnapshotDigest := some digest })

/-! ## Restoring -/

/-- The verification of a stored record against the trust set. -/
def verifyStored (config : Config) (key : SourceKey) (document : Json) : Except Error Record :=
  match config.trusted key with
  | none => .error (.raised (.keyError (ofLex key).1))
  | some source =>
    verifyDiscoveryRecord document source.trustedKey (source.expects config.tenantId)

/-- The tips of a snapshot with their verified records. -/
def verifyTips (config : Config) (tips : List SnapshotTip) :
    Except Error (List (SourceKey × Record)) :=
  tips.mapM fun tip => do
    let record ← verifyStored config tip.key tip.record
    .ok (tip.key, record)

/-- The verified active records of a snapshot, by their keys. -/
def verifyActive (config : Config) (documents : List Json) :
    Except Error (List (ActiveKey × Record)) :=
  documents.mapM fun document => do
    let key ← raising (sourceKeyOf document)
    let record ← verifyStored config key document
    .ok (record.activeKey, record)

/-- `verify_discovery_index_snapshot_sources`. -/
def verifyDiscoveryIndexSnapshotSources (document : Json) (trustedSnapshotKey : TrustedKey)
    (config : Config) (expectedSnapshotId : Str) : Except Error Snapshot := do
  let snapshot ← verifyDiscoveryIndexSnapshot document trustedSnapshotKey
    (some expectedSnapshotId) (some config.tenantId)
  ensure (snapshot.trustedSources.map Json.sortKeys =
      (sourceDocuments config.trustedSources).map Json.sortKeys)
    (refuse "discovery snapshot trust configuration mismatch")
  let _ ← verifyTips config snapshot.sourceTips
  let _ ← verifyActive config snapshot.activeRecords
  .ok snapshot

/-- The semantic history a snapshot without admission state starts from. -/
def derivedHistory (policy : DiscoveryAdmissionPolicy) (active : List (ActiveKey × Record)) :
    Except Error (List (ActiveKey × Str)) :=
  active.mapM fun item => do
    let identity ← discoverySemanticIdentity policy item.2
    .ok (item.1, identity)

/-- The semantic history of a restored index. -/
def restoreHistory (admissionPolicy : Option DiscoveryAdmissionPolicy)
    (active : List (ActiveKey × Record))
    (admissionState : Option (Str × List (ActiveKey × Str))) :
    Except Error (List (ActiveKey × Str)) :=
  match admissionPolicy, admissionState with
  | none, none => .ok []
  | none, some _ => .error (refuse "discovery snapshot admission state requires policy")
  | some policy, none => derivedHistory policy active
  | some policy, some (policyDigest, history) => do
    ensure (policyDigest = policy.digest)
      (refuse "discovery snapshot admission state policy mismatch")
    ensure (history.map Prod.fst).Nodup (refuse "duplicate discovery admission semantic history")
    active.forM fun item => do
      let identity ← discoverySemanticIdentity policy item.2
      ensure (history.lookup item.1 = some identity)
        (refuse "discovery admission active semantic history mismatch")
    .ok history

/-- The policy a caller of `restore` pins by its digest. -/
def checkPolicyPin (admissionPolicy : Option DiscoveryAdmissionPolicy)
    (expectedAdmissionPolicyDigest : Option Str) : Except Error Unit :=
  match admissionPolicy, expectedAdmissionPolicyDigest with
  | none, none => .ok ()
  | some policy, some expected => do
    ensure (Schemas.digestBody expected) (refuse "expected_admission_policy_digest rejected")
    ensure (policy.digest = expected)
      (refuse "discovery restore admission policy pin mismatch")
  | _, _ =>
    .error (refuse "discovery restore admission policy and digest must be supplied together")

/-- `ZonedDiscoveryIndex.restore`.  The trust set is checked before the snapshot
is read against it, as the constructor does. -/
def restore (document : Json) (expectedSnapshotId expectedTenantId : Str)
    (trustedSnapshotKey : TrustedKey) (trustedSources : List TrustedDiscoverySource)
    (receiptSigner : Ed25519Signer) (admissionPolicy : Option DiscoveryAdmissionPolicy)
    (expectedAdmissionPolicyDigest : Option Str) : Except Error (Config × Index) := do
  checkPolicyPin admissionPolicy expectedAdmissionPolicyDigest
  let config ← Config.init expectedTenantId trustedSources receiptSigner admissionPolicy
  let snapshot ← verifyDiscoveryIndexSnapshotSources document trustedSnapshotKey config
    expectedSnapshotId
  ensure (receiptSigner.keyId = trustedSnapshotKey.keyId ∧
      publicKeyFingerprint receiptSigner.publicKey =
        publicKeyFingerprint trustedSnapshotKey.publicKey)
    (refuse "discovery snapshot continuation signer mismatch")
  let tipRecords ← verifyTips config snapshot.sourceTips
  let active ← verifyActive config snapshot.activeRecords
  let history ← restoreHistory admissionPolicy active snapshot.admissionState
  let digest ← raising (discoveryIndexSnapshotDigest snapshot.document)
  .ok (config,
    { sourceTips := .ofList (snapshot.sourceTips.map fun tip =>
        (tip.key, tip.sequence, tip.recordDigest)) orderCmp
      sourceTipRecords := .ofList tipRecords orderCmp
      active := .ofList active orderCmp
      semanticHistory := .ofList history orderCmp
      lastAdmissionDecisions := []
      nextSnapshotSequence := snapshot.snapshotSequence.toNat + 1
      previousSnapshotDigest := some digest })

end

end IntegrityGuardian.Discovery
