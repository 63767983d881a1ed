import IntegrityGuardian.Discovery.Admission

/-!
# The zoned discovery index

`ZonedDiscoveryIndex` of `discovery.py`.  `apply` stages the tips, the active
records and the semantic history, and has two places where it keeps what it
staged: at the end of a batch, and when admission quarantines a record, where
the staged active records are left behind.
-/

namespace IntegrityGuardian.Discovery

open Python Library

section
variable [UnicodeData] [Ed25519Keys]

/-! ## Index state -/

/-- What the constructor of the index fixes. -/
structure Config where
  tenantId : Str
  trustedSources : List TrustedDiscoverySource
  receiptSigner : Ed25519Signer
  admissionPolicy : Option DiscoveryAdmissionPolicy
  tenantId_valid : Schemas.tenantBody tenantId = true
  count_le : trustedSources.length ≤ 1000
  nodup : (trustedSources.map TrustedDiscoverySource.key).Nodup

/-- `ZonedDiscoveryIndex.__init__`. -/
def Config.init (tenantId : Str) (trustedSources : List TrustedDiscoverySource)
    (receiptSigner : Ed25519Signer) (admissionPolicy : Option DiscoveryAdmissionPolicy) :
    Except Error Config :=
  if htenant : Schemas.tenantBody tenantId = true then
    if hcount : trustedSources.length ≤ 1000 then
      if hnodup : (trustedSources.map TrustedDiscoverySource.key).Nodup then
        .ok ⟨tenantId, trustedSources, receiptSigner, admissionPolicy, htenant, hcount, hnodup⟩
      else .error (refuse "duplicate trusted discovery source epoch")
    else .error (refuse "trusted discovery source count rejected")
  else .error (refuse "tenant_id rejected")

/-- `self._trusted_sources.get(key)`. -/
def Config.trusted (config : Config) (key : SourceKey) : Option TrustedDiscoverySource :=
  config.trustedSources.find? fun source => source.key = key

/-- The mutable attributes of the index. -/
structure Index where
  sourceTips : Dict SourceKey (Int × Str)
  sourceTipRecords : Dict SourceKey Record
  active : Dict ActiveKey Record
  semanticHistory : Dict ActiveKey Str
  lastAdmissionDecisions : List DiscoveryAdmissionDecision
  nextSnapshotSequence : Nat
  previousSnapshotDigest : Option Str

def Index.empty : Index := ⟨∅, ∅, ∅, ∅, [], 0, none⟩

/-! ## Receiving a record -/

/-- The parts of a display between commas. -/
def joined : List Str → Str
  | [] => []
  | [s] => s
  | s :: rest => s ++ str ", " ++ joined rest

mutual
/-- `repr(value)`. -/
def repr : Json → Str
  | .null => str "None"
  | .bool true => str "True"
  | .bool false => str "False"
  | .int n => Json.renderInt n
  | .str s => Str.repr s
  | .arr items => str "[" ++ joined (reprItems items) ++ str "]"
  | .obj members => str "\x7b" ++ joined (reprMembers members) ++ str "\x7d"

def reprItems : List Json → List Str
  | [] => []
  | v :: vs => repr v :: reprItems vs

def reprMembers : List (Str × Json) → List Str
  | [] => []
  | (k, v) :: ms => (Str.repr k ++ str ": " ++ repr v) :: reprMembers ms
end

/-- `str(value)`. -/
def display : Json → Str
  | .str s => s
  | v => repr v

/-- `str(value[key])`. -/
def displayedItem (v : Json) (key : String) : Except Exc Str := do
  let item ← v.item (str key)
  .ok (display item)

/-- The source epoch a record names, before it is verified. -/
def rawSourceKey (raw : Json) : Except Exc SourceKey := do
  let sourceId ← displayedItem raw "source_id"
  let sourceEpoch ← displayedItem raw "source_epoch"
  .ok (toLex (sourceId, sourceEpoch))

/-- The trusted source a record names. -/
def trustedSourceOf (config : Config) (raw : Json) : Except Error TrustedDiscoverySource := do
  let key ← (rawSourceKey raw).mapError fun _ =>
    refuse "discovery source epoch cannot be read"
  match config.trusted key with
  | some source => .ok source
  | none => .error (refuse "untrusted discovery source epoch rejected")

/-- The sequence after a tip. -/
def nextSequence : Option (Int × Str) → Int
  | none => 0
  | some tip => tip.1 + 1

/-- The verified record that continues its source, and its digest. -/
def receive (config : Config) (tips : Dict SourceKey (Int × Str)) (raw : Json) :
    Except Error (Record × Str) := do
  let source ← trustedSourceOf config raw
  let record ← verifyDiscoveryRecord raw source.trustedKey (source.expects config.tenantId)
  let previousTip := tips[source.key]?
  ensure (¬record.sequence < nextSequence previousTip) (refuse "discovery record replay rejected")
  ensure (¬nextSequence previousTip < record.sequence)
    (refuse "discovery source sequence discontinuity")
  ensure (record.previousRecordDigest = previousTip.map Prod.snd)
    (refuse "discovery source chain discontinuity")
  let digest ← raising (discoveryRecordDigest raw)
  .ok (record, digest)

/-! ## Staging a batch -/

/-- The local variables of `apply`. -/
structure Staged where
  tips : Dict SourceKey (Int × Str)
  tipRecords : Dict SourceKey Record
  active : Dict ActiveKey Record
  semanticHistory : Dict ActiveKey Str
  touchedSources : Finset SourceKey
  changedZones : Finset Str
  crossZoneRelationIds : Finset Str
  inserted : Nat
  updated : Nat
  deleted : Nat
  noOp : Nat

def Staged.start (index : Index) : Staged where
  tips := index.sourceTips
  tipRecords := index.sourceTipRecords
  active := index.active
  semanticHistory := index.semanticHistory
  touchedSources := ∅
  changedZones := ∅
  crossZoneRelationIds := ∅
  inserted := 0
  updated := 0
  deleted := 0
  noOp := 0

/-- The tip of the record's source moves on; verification has compared the source. -/
def Staged.advance (s : Staged) (record : Record) (digest : Str) : Staged :=
  { s with
    tips := s.tips.insert record.sourceKey (record.sequence, digest)
    tipRecords := s.tipRecords.insert record.sourceKey record
    touchedSources := insert record.sourceKey s.touchedSources }

/-- The decision of the admission policy, when the index has one. -/
def admission (config : Config) (reviewPriority : Json) (s : Staged) (record : Record) :
    Except Error (Option DiscoveryAdmissionDecision) :=
  match config.admissionPolicy with
  | none => .ok none
  | some policy => do
    let decision ← evaluateDiscoveryAdmission policy record s.active[record.activeKey]?
      s.semanticHistory[record.activeKey]? reviewPriority
    .ok (some decision)

/-- `staged_semantic_history[key] = decision.semantic_identity`, unless it is `None`. -/
def Staged.remember (s : Staged) (record : Record) (identity : Option Str) : Staged :=
  match identity with
  | none => s
  | some identity =>
    { s with semanticHistory := s.semanticHistory.insert record.activeKey identity }

/-- The zones and cross-zone relations of a record count as changed. -/
def Staged.touch (s : Staged) (record : Record) : Staged :=
  { s with
    changedZones := s.changedZones ∪ record.zones
    crossZoneRelationIds := s.crossZoneRelationIds ∪ record.crossZoneRelations }

/-- The upsert or delete of an accepted record. -/
def Staged.change (s : Staged) (record : Record) : Staged :=
  match record.change, s.active[record.activeKey]? with
  | .delete, none => { s with noOp := s.noOp + 1 }
  | .delete, some _ =>
    { s with active := s.active.erase record.activeKey, deleted := s.deleted + 1 }
  | .upsert, none =>
    { s with active := s.active.insert record.activeKey record, inserted := s.inserted + 1 }
  | .upsert, some _ =>
    { s with active := s.active.insert record.activeKey record, updated := s.updated + 1 }

/-- The part of the loop body after admission. -/
def Staged.settle (s : Staged) (record : Record) (identity : Option Str) : Staged :=
  let s := s.remember record identity
  let s := match s.active[record.activeKey]? with
    | none => s
    | some old => s.touch old
  (s.touch record).change record

/-- How the loop of `apply` leaves early. -/
inductive Halt where
  | raised (e : Error)
  | quarantined (s : Staged) (record : Record) (decision : DiscoveryAdmissionDecision)

/-- One pass of the loop of `apply`. -/
def stageOne (config : Config) (reviewPriority : Json) (s : Staged) (raw : Json) :
    Except Halt (Record × Option DiscoveryAdmissionDecision × Staged) := do
  let (record, digest) ← (receive config s.tips raw).mapError .raised
  let s := s.advance record digest
  let decision ← (admission config reviewPriority s record).mapError .raised
  match decision with
  | none => .ok (record, none, s.settle record none)
  | some decision =>
    if decision.action = .quarantine then .error (.quarantined s record decision)
    else .ok (record, some decision, s.settle record decision.semanticIdentity)

/-- What the loop of `apply` came to. -/
inductive Pass where
  | staged (s : Staged) (accepted : List Record) (decisions : List DiscoveryAdmissionDecision)
  | quarantined (s : Staged) (accepted : List Record) (record : Record) (reason : String)
    (decisions : List DiscoveryAdmissionDecision)
  | raised (e : Error)

/-- The loop of `apply`. -/
def stageEach (config : Config) (reviewPriority : Json) :
    List Json → Staged → List Record → List DiscoveryAdmissionDecision → Pass
  | [], s, accepted, decisions => .staged s accepted decisions
  | raw :: rest, s, accepted, decisions =>
    match stageOne config reviewPriority s raw with
    | .error (.raised e) => .raised e
    | .error (.quarantined s record decision) =>
      .quarantined s accepted record decision.reason (decisions ++ [decision])
    | .ok (record, decision, s) =>
      stageEach config reviewPriority rest s (accepted ++ [record])
        (decisions ++ decision.toList)

/-! ## Receipts -/

/-- `_INDEX_BOUNDARY`. -/
def indexBoundary : Json :=
  .fields [("execution_performed", .bool false), ("model_calls", .int 0), ("network", .bool false),
    ("production_authority", .bool false), ("tool_calls", .int 0)]

/-- The fields of a source tip, in a receipt or a snapshot. -/
def tipFields (source : TrustedDiscoverySource) (tip : Int × Str) : List (String × Json) :=
  [("source_id", .str source.sourceId), ("source_epoch", .str source.sourceEpoch),
    ("sequence", .int tip.1), ("record_digest", .str tip.2),
    ("source_artifact_digest", .str source.sourceArtifactDigest)]

/-- The `source_tips` of a receipt; a touched source has a tip and is trusted. -/
def receiptTips (config : Config) (s : Staged) : List Json :=
  (ascending s.touchedSources).filterMap fun key => do
    let tip ← s.tips[key]?
    let source ← config.trusted key
    some (.fields (tipFields source tip))

/-- The `core` of a receipt. -/
def receiptFields (config : Config) (s : Staged) (accepted : List Record) (batchDigest : Str) :
    List (String × Json) :=
  [("protocol", .str (str "integrity-guardian/discovery-delta-receipt/v1")),
    ("tenant_id", .str config.tenantId),
    ("batch_digest", .str batchDigest),
    ("accepted_count", .int accepted.length),
    ("inserted_count", .int s.inserted),
    ("updated_count", .int s.updated),
    ("deleted_count", .int s.deleted),
    ("no_op_count", .int s.noOp),
    ("active_assertion_count", .int s.active.size),
    ("changed_zone_ids", .arr ((ascending s.changedZones).map .str)),
    ("cross_zone_relation_ids", .arr ((ascending s.crossZoneRelationIds).map .str)),
    ("source_tips", .arr (receiptTips config s)),
    ("index_boundary", indexBoundary)]

/-- `discovery_delta_receipt_identity`. -/
def discoveryDeltaReceiptIdentity (receipt : Json) : Except Exc Str := do
  let core := (receipt.pop (str "receipt_id")).pop (str "signature")
  let digest ← digestObject core (str "discovery-delta-receipt-identity-v1")
  .ok (str "discovery-delta-receipt:" ++ digest.afterColon)

/-- The texts of an array. -/
def textsItem (v : Json) (key : Str) : Except Exc (List Str) := do
  let items ← v.arrayItem key
  items.mapM Json.asText

/-- The source keys of the items of an array. -/
def sourceKeyOf (v : Json) : Except Exc SourceKey := do
  let sourceId ← v.textItem (str "source_id")
  let sourceEpoch ← v.textItem (str "source_epoch")
  .ok (toLex (sourceId, sourceEpoch))

/-- The signature and tenant checks shared by receipts and snapshots. -/
def checkSigned (document : Json) (trustedKey : TrustedKey) (message : String) :
    Except Error Unit := do
  let signature ← raising (document.item (str "signature"))
  let keyId ← raising (signature.textItem (str "key_id"))
  ensure (keyId = trustedKey.keyId) (refuse message)
  let verified ← raising (verifySignature document trustedKey.publicKey)
  ensure (verified = true) (refuse message)

/-- `verify_discovery_delta_receipt`.  A list equals its own stable sort exactly when
its keys ascend, and the sort of its set when they ascend strictly. -/
def verifyDiscoveryDeltaReceipt (receipt : Json) (trustedKey : TrustedKey)
    (expectedTenantId : Option Str) : Except Error Unit := do
  ensure (Schemas.discoveryDeltaReceipt.accepts receipt)
    (refuse "discovery delta receipt schema is invalid")
  let receiptId ← raising (receipt.textItem (str "receipt_id"))
  let identity ← raising (discoveryDeltaReceiptIdentity receipt)
  ensure (receiptId = identity) (refuse "discovery delta receipt identity mismatch")
  checkSigned receipt trustedKey "discovery delta receipt signature rejected"
  let tenantId ← raising (receipt.textItem (str "tenant_id"))
  ensureExpected expectedTenantId tenantId "cross-tenant discovery delta receipt rejected"
  let boundary ← raising (receipt.item (str "index_boundary"))
  ensure (boundary.sortKeys = indexBoundary.sortKeys)
    (refuse "discovery delta index boundary mismatch")
  let zones ← raising (textsItem receipt (str "changed_zone_ids"))
  ensure (zones.Pairwise (· < ·)) (refuse "discovery changed zones are not canonical")
  let relations ← raising (textsItem receipt (str "cross_zone_relation_ids"))
  ensure (relations.Pairwise (· < ·)) (refuse "cross-zone relation ids are not canonical")
  let tips ← raising (receipt.arrayItem (str "source_tips"))
  let keys ← raising (tips.mapM sourceKeyOf)
  ensure (keys.Pairwise (· ≤ ·)) (refuse "discovery source tips are not canonical")
  let accepted ← raising (receipt.intItem (str "accepted_count"))
  let inserted ← raising (receipt.intItem (str "inserted_count"))
  let updated ← raising (receipt.intItem (str "updated_count"))
  let deleted ← raising (receipt.intItem (str "deleted_count"))
  let noOp ← raising (receipt.intItem (str "no_op_count"))
  ensure (accepted = inserted + updated + deleted + noOp)
    (refuse "discovery delta receipt counts disagree")

/-- The limits and the signed receipt at the end of a batch. -/
def issueReceipt (config : Config) (s : Staged) (accepted : List Record) :
    Except Error Json := do
  ensure (s.active.size ≤ 25000) (refuse "discovery active assertion limit exceeded")
  ensure (s.semanticHistory.size ≤ 25000) (refuse "discovery semantic history limit exceeded")
  ensure (s.changedZones.card ≤ 256) (refuse "discovery changed zone limit exceeded")
  let batchDigest ← raising (digestObject (.arr (accepted.map Record.document))
    (str "discovery-delta-batch-v1"))
  let core := receiptFields config s accepted batchDigest
  let receiptId ← raising (discoveryDeltaReceiptIdentity (.fields core))
  let receipt ← raising (config.receiptSigner.sign
    (.fields (("receipt_id", .str receiptId) :: core)))
  verifyDiscoveryDeltaReceipt receipt config.receiptSigner.trustedKey (some config.tenantId)
  .ok receipt

/-! ## Applying a batch -/

/-- The index after the end of a batch. -/
def Index.commit (index : Index) (s : Staged) (decisions : List DiscoveryAdmissionDecision) :
    Index :=
  { index with
    sourceTips := s.tips
    sourceTipRecords := s.tipRecords
    active := s.active
    semanticHistory := s.semanticHistory
    lastAdmissionDecisions := decisions }

/-- The index after a quarantine: `self._active` is not assigned. -/
def Index.commitQuarantine (index : Index) (s : Staged)
    (decisions : List DiscoveryAdmissionDecision) : Index :=
  { index with
    sourceTips := s.tips
    sourceTipRecords := s.tipRecords
    semanticHistory := s.semanticHistory
    lastAdmissionDecisions := decisions }

/-- `discovery admission quarantined: {reason}`. -/
def quarantinedError (reason : String) : Error :=
  .discovery (str "discovery admission quarantined: " ++ str reason)

/-- `ZonedDiscoveryIndex.apply`: what it returns or raises, and the index it leaves. -/
def apply (config : Config) (records : List Json) (reviewPriority : Json) (index : Index) :
    Except Error Json × Index :=
  if 1 ≤ records.length ∧ records.length ≤ 1000 then
    match stageEach config reviewPriority records (Staged.start index) [] [] with
    | .raised e => (.error e, index)
    | .quarantined s _ _ reason decisions =>
      (.error (quarantinedError reason), index.commitQuarantine s decisions)
    | .staged s accepted decisions =>
      match issueReceipt config s accepted with
      | .error e => (.error e, index)
      | .ok receipt => (.ok receipt, index.commit s decisions)
  else (.error (refuse "discovery delta batch size rejected"), index)

end

end IntegrityGuardian.Discovery
