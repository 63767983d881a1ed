import IntegrityGuardian.Discovery.Sound
import IntegrityGuardian.Discovery.Retention
import IntegrityGuardian.Signing.OwnSignatures

/-!
# Checkpoints

A snapshot of a sound index reads back as the index, passes every check of the
verifier, and restores to an index that cannot be told apart from the exported
one by further calls.
-/

namespace IntegrityGuardian.Discovery

open Python Library

/-! ## Documents that read back -/

def SnapshotTip.document (tip : SnapshotTip) : Json :=
  .fields [("source_id", .str (ofLex tip.key).1), ("source_epoch", .str (ofLex tip.key).2),
    ("sequence", .int tip.sequence), ("record_digest", .str tip.recordDigest),
    ("source_artifact_digest", .str tip.sourceArtifactDigest), ("record", tip.record)]

theorem readTip_document (tip : SnapshotTip) : readTip tip.document = .ok tip := by
  unfold readTip sourceKeyOf SnapshotTip.document
  rw [Json.textItem_fields rfl, Json.textItem_fields rfl, Json.intItem_fields rfl,
    Json.textItem_fields rfl, Json.textItem_fields rfl, Json.item_fields rfl]
  rfl

theorem readHistoryEntry_historyEntry (item : ActiveKey × Str) :
    readHistoryEntry (historyEntry item) = .ok item := by
  unfold readHistoryEntry historyEntry
  rw [Json.textItem_fields rfl, Json.textItem_fields rfl, Json.textItem_fields rfl,
    Json.textItem_fields rfl]
  rfl

section
variable [Ed25519Keys]

theorem readBinding_trustedSourceDocument (source : TrustedDiscoverySource) :
    readBinding (trustedSourceDocument source) = .ok (source.key, source.sourceArtifactDigest) := by
  unfold readBinding sourceKeyOf trustedSourceDocument
  rw [Json.textItem_fields rfl, Json.textItem_fields rfl, Json.textItem_fields rfl]
  rfl

end

section
variable [UnicodeData]

/-! ## Read records -/

variable {record : Record}

theorem rawActiveKey_document (h : Fields record) :
    rawActiveKey record.document = .ok record.activeKey := by
  obtain ⟨v, hv, hassertion⟩ := h.assertion
  obtain ⟨hkind, hidentity⟩ := get?_of_readAssertion hassertion
  have hmember : memberItem [.entity, .relation, .gap] DiscoveryAssertionKind.value v (str "kind") =
      .ok record.assertion.kind := by
    unfold memberItem
    rw [Json.textItem_eq_ok.2 hkind]
    cases record.assertion.kind <;> decide
  have hdisplayed : displayedItem v record.assertion.kind.identityKey =
      .ok record.assertion.identity := by
    unfold displayedItem
    rw [Json.item_eq_ok.2 hidentity]
    rfl
  have hsource : displayedItem record.document "source_id" = .ok record.sourceId := by
    unfold displayedItem
    rw [Json.item_eq_ok.2 h.sourceId]
    rfl
  unfold rawActiveKey
  rw [Json.item_eq_ok.2 hv, ok_bind, hsource, ok_bind, hmember, ok_bind]
  show (do
    let identity ← displayedItem v record.assertion.kind.identityKey
    .ok (toLex (record.sourceId, toLex (str record.assertion.kind.value, identity)))) = _
  rw [hdisplayed]
  rfl

omit [UnicodeData] in
theorem sourceKeyOf_document (h : Fields record) :
    sourceKeyOf record.document = .ok record.sourceKey := by
  unfold sourceKeyOf
  rw [Json.textItem_eq_ok.2 h.sourceId, Json.textItem_eq_ok.2 h.sourceEpoch]
  rfl

variable [Ed25519Keys]

/-! ## Tips -/

/-- The tip of a snapshot for a stored tip. -/
def snapshotTip (config : Config) (index : Index) (item : SourceKey × Int × Str) :
    SnapshotTip where
  key := item.1
  sequence := item.2.1
  recordDigest := item.2.2
  sourceArtifactDigest :=
    ((config.trusted item.1).map TrustedDiscoverySource.sourceArtifactDigest).getD []
  record := (index.sourceTipRecords[item.1]?.map Record.document).getD .null

def snapshotTips (config : Config) (index : Index) : List SnapshotTip :=
  index.sourceTips.toList.map (snapshotTip config index)

/-- What a sound index stores under a tip. -/
structure TipEntry (config : Config) (index : Index) (item : SourceKey × Int × Str)
    (source : TrustedDiscoverySource) (record : Record) : Prop where
  trusted : config.trusted item.1 = some source
  tipRecord : index.sourceTipRecords[item.1]? = some record
  verified : Verified config.tenantId source record
  stored : Stored config record item.2.2
  sourceKey : record.sourceKey = item.1
  sequence : record.sequence = item.2.1

variable {config : Config} {index index' : Index} {snapshot : Json} {record : Record}
  {key : SourceKey} {item : SourceKey × Int × Str} {createdAt : Str}
  {source : TrustedDiscoverySource}

theorem Sound.tipEntry (h : Sound config index) (hitem : item ∈ index.sourceTips.toList) :
    ∃ source record, TipEntry config index item source record := by
  obtain ⟨key, tip⟩ := item
  have htip := Dict.mem_toList.1 hitem
  rcases h.tips key with ⟨hnone, -⟩ | ⟨record, digest, hsome, hrecord, hkey, hstored⟩
  · rw [htip] at hnone
    cases hnone
  · rw [htip] at hsome
    cases hsome
    obtain ⟨source, htrusted, hverified⟩ := hstored.source
    rw [hkey] at htrusted
    exact ⟨source, record, htrusted, hrecord, hverified, hstored, hkey, rfl⟩

theorem TipEntry.snapshotTip_eq (h : TipEntry config index item source record) :
    snapshotTip config index item =
      ⟨item.1, item.2.1, item.2.2, source.sourceArtifactDigest, record.document⟩ := by
  unfold snapshotTip
  rw [h.trusted, h.tipRecord]
  rfl

theorem Sound.exportTips (h : Sound config index) :
    index.sourceTips.toList.mapM (exportTip config index) =
      .ok ((snapshotTips config index).map SnapshotTip.document) := by
  unfold snapshotTips
  rw [List.map_map]
  apply mapM_eq_ok_map
  intro item hitem
  obtain ⟨source, record, hentry⟩ := h.tipEntry hitem
  have hkey : source.key = item.1 := (trusted_key hentry.trusted).2
  unfold exportTip
  rw [hentry.trusted, hentry.tipRecord, Function.comp_apply, hentry.snapshotTip_eq,
    SnapshotTip.document, ← hkey]
  rfl

theorem snapshotTips_keys (config : Config) (index : Index) :
    (snapshotTips config index).map SnapshotTip.key = index.sourceTips.toList.map Prod.fst := by
  unfold snapshotTips
  rw [List.map_map]
  rfl

/-! ## The snapshot of an index -/

/-- The signed document an export writes. -/
def snapshotDocument (config : Config) (index : Index) (createdAt stateDigest snapshotId : Str)
    (signature : Json) : Json :=
  .fields ((("snapshot_id", .str snapshotId) :: snapshotFields config index createdAt stateDigest
    ((snapshotTips config index).map SnapshotTip.document)) ++ [("signature", signature)])

/-- What a reader finds in it. -/
def snapshotContent (config : Config) (index : Index) (document : Json)
    (stateDigest snapshotId : Str) : Snapshot where
  document := document
  snapshotId := snapshotId
  tenantId := config.tenantId
  snapshotSequence := index.nextSnapshotSequence
  previousSnapshotDigest := index.previousSnapshotDigest
  activeStateDigest := stateDigest
  trustedSources := sourceDocuments config.trustedSources
  sourceTips := snapshotTips config index
  activeRecords := activeRecords index
  admissionState :=
    config.admissionPolicy.map fun policy => (policy.digest, index.semanticHistory.toList)

theorem readAdmissionState_snapshotDocument (config : Config) (index : Index)
    (createdAt stateDigest snapshotId : Str) (signature : Json) :
    readAdmissionState
        (snapshotDocument config index createdAt stateDigest snapshotId signature) =
      .ok (config.admissionPolicy.map fun policy =>
        (policy.digest, index.semanticHistory.toList)) := by
  unfold readAdmissionState snapshotDocument snapshotFields admissionStateFields
  rw [Json.get?_fields]
  cases config.admissionPolicy with
  | none => rfl
  | some policy =>
    have hhistory : (index.semanticHistory.toList.map historyEntry).mapM readHistoryEntry =
        .ok index.semanticHistory.toList := by
      rw [mapM_eq_ok, List.forall₂_map_left_iff, List.forall₂_same]
      exact fun item _ => readHistoryEntry_historyEntry item
    show (do
      let policyDigest ← Json.textItem _ (str "policy_digest")
      let items ← Json.arrayItem _ (str "semantic_history")
      let history ← items.mapM readHistoryEntry
      .ok (some (policyDigest, history))) = _
    rw [Json.textItem_fields rfl, Json.arrayItem_fields rfl, ok_bind, ok_bind, hhistory]
    rfl

theorem readSnapshot_snapshotDocument (config : Config) (index : Index)
    (createdAt stateDigest snapshotId : Str) (signature : Json) :
    readSnapshot (snapshotDocument config index createdAt stateDigest snapshotId signature) =
      .ok (snapshotContent config index
        (snapshotDocument config index createdAt stateDigest snapshotId signature)
        stateDigest snapshotId) := by
  have htips : ((snapshotTips config index).map SnapshotTip.document).mapM readTip =
      .ok (snapshotTips config index) := by
    rw [mapM_eq_ok, List.forall₂_map_left_iff, List.forall₂_same]
    exact fun tip _ => readTip_document tip
  have hstate := readAdmissionState_snapshotDocument config index createdAt stateDigest snapshotId
    signature
  unfold readSnapshot
  rw [hstate]
  unfold snapshotDocument snapshotFields
  rw [Json.textItem_fields rfl, Json.textItem_fields rfl, Json.intItem_fields rfl,
    Json.optionalTextItem_fields rfl, Json.textItem_fields rfl, Json.arrayItem_fields rfl,
    Json.arrayItem_fields rfl, ok_bind, ok_bind, ok_bind, ok_bind, ok_bind, ok_bind, ok_bind,
    htips, Json.arrayItem_fields rfl]
  rfl

/-! ## Content checks -/

/-- The bindings a verifier reads in a snapshot. -/
def bindings (config : Config) : List (SourceKey × Str) :=
  (config.trustedSources.insertionSort fun a b => a.key ≤ b.key).map fun source =>
    (source.key, source.sourceArtifactDigest)

theorem readBindings (config : Config) :
    (sourceDocuments config.trustedSources).mapM readBinding = .ok (bindings config) := by
  unfold sourceDocuments bindings
  rw [mapM_eq_ok, List.forall₂_map_left_iff, List.forall₂_map_right_iff, List.forall₂_same]
  exact fun source _ => readBinding_trustedSourceDocument source

theorem bindings_sorted (config : Config) :
    ((bindings config).map Prod.fst).Pairwise (· ≤ ·) := by
  unfold bindings
  rw [List.map_map, List.pairwise_map]
  have htotal : Std.Total fun a b : TrustedDiscoverySource => a.key ≤ b.key :=
    ⟨fun a b => le_total a.key b.key⟩
  have htrans : IsTrans TrustedDiscoverySource fun a b => a.key ≤ b.key :=
    ⟨fun _ _ _ => le_trans⟩
  exact List.pairwise_insertionSort _ config.trustedSources

theorem bindings_nodup (config : Config) : ((bindings config).map Prod.fst).Nodup := by
  unfold bindings
  rw [List.map_map]
  have hperm := List.perm_insertionSort (fun a b : TrustedDiscoverySource => a.key ≤ b.key)
    config.trustedSources
  exact ((hperm.map TrustedDiscoverySource.key).nodup_iff).2 config.nodup

theorem lookup_bindings (h : config.trusted key = some source) :
    (bindings config).lookup key = some source.sourceArtifactDigest := by
  rw [Json.lookup_eq_some_iff_mem (bindings_nodup config)]
  obtain ⟨hmem, rfl⟩ := trusted_key h
  exact List.mem_map.2 ⟨source, (List.mem_insertionSort _).2 hmem, rfl⟩

theorem TipEntry.checkTip
    (h : TipEntry config index item source record) {earlier : List SnapshotTip}
    (hfresh : item.1 ∉ earlier.map SnapshotTip.key) :
    checkTip config.tenantId (bindings config) earlier (snapshotTip config index item) =
      .ok () := by
  unfold Discovery.checkTip
  rw [h.snapshotTip_eq]
  simp only [lookup_bindings h.trusted]
  have hsame : record.tenantId = config.tenantId ∧ record.sourceKey = item.1 ∧
      record.sequence = item.2.1 ∧ record.sourceArtifactDigest = source.sourceArtifactDigest :=
    ⟨h.verified.tenantId, h.sourceKey, h.sequence, h.verified.sourceArtifactDigest⟩
  rw [ensure_of hfresh, ok_bind, ensure_of trivial, ok_bind, ensure_of h.verified.accepts,
    ok_bind, h.verified.read, raising_ok, ok_bind, ensure_of hsame, ok_bind, h.stored.digest]
  exact ensure_of rfl _

theorem Sound.checkTips (h : Sound config index)
    (items : List (SourceKey × Int × Str)) (earlier : List SnapshotTip)
    (hitems : ∀ item ∈ items, item ∈ index.sourceTips.toList)
    (hnodup : (earlier.map SnapshotTip.key ++ items.map Prod.fst).Nodup) :
    checkTips config.tenantId (bindings config) earlier
      (items.map (snapshotTip config index)) = .ok () := by
  induction items generalizing earlier with
  | nil => rfl
  | cons item items ih =>
    obtain ⟨source, record, hentry⟩ := h.tipEntry (hitems item (List.mem_cons_self ..))
    have hfresh : item.1 ∉ earlier.map SnapshotTip.key := by
      intro hmem
      exact List.disjoint_of_nodup_append hnodup hmem (by simp)
    rw [List.map_cons, Discovery.checkTips, hentry.checkTip hfresh, ok_bind]
    apply ih _ fun other hother => hitems other (List.mem_cons_of_mem _ hother)
    simpa [snapshotTip] using hnodup

theorem Sound.rawActiveKeys (h : Sound config index) :
    (activeRecords index).mapM rawActiveKey = .ok (index.active.toList.map Prod.fst) := by
  unfold activeRecords
  rw [mapM_eq_ok, List.forall₂_map_left_iff, List.forall₂_map_right_iff, List.forall₂_same]
  intro item hitem
  obtain ⟨hkey, -, digest, tip, hstored, -⟩ := h.active item.1 item.2 (Dict.mem_toList.1 hitem)
  obtain ⟨source, -, hverified⟩ := hstored.source
  rw [rawActiveKey_document hverified.fields, hkey]

theorem find_snapshotTip {tip : Int × Str} (htip : index.sourceTips[key]? = some tip) :
    (snapshotTips config index).find? (fun t => t.key = key) =
      some (snapshotTip config index (key, tip)) := by
  have hmem := Dict.mem_toList.2 htip
  unfold snapshotTips
  rw [List.find?_map]
  cases hfind : index.sourceTips.toList.find?
      ((fun t : SnapshotTip => decide (t.key = key)) ∘ snapshotTip config index) with
  | none =>
    have hnot := List.find?_eq_none.1 hfind _ hmem
    simp [snapshotTip] at hnot
  | some item =>
    have hitem := List.mem_of_find?_eq_some hfind
    have hfound := List.find?_some hfind
    have hkey : item.1 = key := of_decide_eq_true hfound
    have hget := Dict.mem_toList.1 (show (item.1, item.2) ∈ _ from hitem)
    rw [hkey, htip] at hget
    rw [Option.map_some, ← hkey, Option.some.inj hget]

theorem Sound.checkActive (h : Sound config index) : (activeRecords index).forM
      (checkActive config.tenantId (bindings config) (snapshotTips config index)) = .ok () := by
  rw [forM_eq_ok]
  intro document hdocument
  obtain ⟨⟨key, record⟩, hitem, rfl⟩ := List.mem_map.1 hdocument
  obtain ⟨-, hchange, digest, tip, hstored, htip, hle, heq⟩ :=
    h.active key record (Dict.mem_toList.1 hitem)
  obtain ⟨source, htrusted, hverified⟩ := hstored.source
  unfold Discovery.checkActive
  simp only
  rw [ensure_of hverified.accepts, ok_bind, hverified.read, raising_ok, ok_bind,
    ensure_of hverified.tenantId, ok_bind, ensure_of hchange, ok_bind]
  simp only [lookup_bindings htrusted, find_snapshotTip htip]
  rw [ensure_of hverified.sourceArtifactDigest, ok_bind]
  show (ensure (record.sequence ≤ tip.1) _ >>= fun _ => _) = _
  rw [ensure_of hle, ok_bind]
  split
  · rename_i hsame
    rw [hstored.digest]
    exact ensure_of (heq hsame).symm _
  · rfl

theorem Sound.checkSnapshotContent (h : Sound config index)
    {stateDigest : Str} (hdigest : activeStateDigest (activeRecords index) = .ok stateDigest)
    (document : Json) (snapshotId : Str) :
    checkSnapshotContent (snapshotContent config index document stateDigest snapshotId) =
      .ok () := by
  have hsorted : ((snapshotTips config index).map SnapshotTip.key).Pairwise (· ≤ ·) := by
    rw [snapshotTips_keys, List.pairwise_map]
    exact index.sourceTips.toList_sorted.imp fun hlt => hlt.le
  have htips : Discovery.checkTips config.tenantId (bindings config) [] (snapshotTips config index) =
      .ok () := h.checkTips _ [] (fun _ hitem => hitem) (by
        rw [List.map_nil, List.nil_append]
        exact index.sourceTips.keys_toList_nodup)
  have hkeys : (index.active.toList.map Prod.fst).Pairwise (· ≤ ·) := by
    rw [List.pairwise_map]
    exact index.active.toList_sorted.imp fun hlt => hlt.le
  unfold Discovery.checkSnapshotContent
  simp only [snapshotContent, readBindings, h.rawActiveKeys, hdigest, raising_ok, Except.mapError,
    ok_bind, ensure_of (bindings_sorted config), ensure_of (bindings_nodup config),
    htips, ensure_of hkeys, ensure_of index.active.keys_toList_nodup, h.checkActive,
    ensure_of trivial]
  exact ensure_bind_eq_ok.2 ⟨hsorted, rfl⟩

/-! ## Verification of a snapshot -/

/-- The unsigned fields of a snapshot of the index. -/
def snapshotCore (config : Config) (index : Index) (createdAt stateDigest : Str) :
    List (String × Json) :=
  snapshotFields config index createdAt stateDigest
    ((snapshotTips config index).map SnapshotTip.document)

theorem notMem_snapshotCore (config : Config) (index : Index) (createdAt stateDigest : Str) :
    "signature" ∉ (snapshotCore config index createdAt stateDigest).map Prod.fst := by
  unfold snapshotCore snapshotFields admissionStateFields
  cases config.admissionPolicy <;> simp

theorem identity_snapshotDocument (config : Config) (index : Index)
    (createdAt stateDigest snapshotId : Str) (signature : Json) :
    discoveryIndexSnapshotIdentity
        (snapshotDocument config index createdAt stateDigest snapshotId signature) =
      discoveryIndexSnapshotIdentity (.fields (snapshotCore config index createdAt stateDigest)) := by
  have hpop : ((snapshotDocument config index createdAt stateDigest snapshotId signature).pop
        (str "snapshot_id")).pop (str "signature") =
      ((Json.fields (snapshotCore config index createdAt stateDigest)).pop
        (str "snapshot_id")).pop (str "signature") := by
    have htail : ([("signature", signature)].filter (fun f : String × Json =>
        f.1 != "snapshot_id")).filter (fun f => f.1 != "signature") = [] := by simp
    have hhead : (("snapshot_id", Json.str snapshotId) ::
        snapshotCore config index createdAt stateDigest).filter (fun f => f.1 != "snapshot_id") =
        (snapshotCore config index createdAt stateDigest).filter (fun f => f.1 != "snapshot_id") :=
      List.filter_cons_of_neg (by simp)
    rw [snapshotDocument, ← snapshotCore, Json.pop_fields, Json.pop_fields, Json.pop_fields,
      Json.pop_fields, List.filter_append, List.filter_append, hhead, htail, List.append_nil]
  unfold discoveryIndexSnapshotIdentity
  rw [hpop]

theorem verifyDiscoveryIndexSnapshot_eq_ok {document : Json} {trustedKey : TrustedKey}
    {expectedSnapshotId expectedTenantId : Option Str} {snapshot : Snapshot}
    (h : verifyDiscoveryIndexSnapshot document trustedKey expectedSnapshotId expectedTenantId =
      .ok snapshot) :
    Schemas.discoveryIndexSnapshot.accepts document = true ∧
      checkSigned document trustedKey "discovery index snapshot signature rejected" = .ok () := by
  unfold verifyDiscoveryIndexSnapshot at h
  obtain ⟨haccepts, h⟩ := ensure_bind_eq_ok.1 h
  iterate 2 obtain ⟨_, _, h⟩ := bind_eq_ok.1 h
  obtain ⟨-, h⟩ := ensure_bind_eq_ok.1 h
  obtain ⟨⟨⟩, hsigned, -⟩ := bind_eq_ok.1 h
  exact ⟨haccepts, hsigned⟩

theorem Sound.verify {config : Config} {index : Index} (h : Sound config index)
    {createdAt stateDigest snapshotId : Str} {signature : Json} {trustedKey : TrustedKey}
    (hdigest : activeStateDigest (activeRecords index) = .ok stateDigest)
    (hidentity : discoveryIndexSnapshotIdentity
      (.fields (snapshotCore config index createdAt stateDigest)) = .ok snapshotId)
    (haccepts : Schemas.discoveryIndexSnapshot.accepts
      (snapshotDocument config index createdAt stateDigest snapshotId signature) = true)
    (hsigned : checkSigned
      (snapshotDocument config index createdAt stateDigest snapshotId signature) trustedKey
      "discovery index snapshot signature rejected" = .ok ())
    {expectedSnapshotId : Option Str}
    (hexpected : expectedSnapshotId = none ∨ expectedSnapshotId = some snapshotId) :
    verifyDiscoveryIndexSnapshot
        (snapshotDocument config index createdAt stateDigest snapshotId signature) trustedKey
        expectedSnapshotId (some config.tenantId) =
      .ok (snapshotContent config index
        (snapshotDocument config index createdAt stateDigest snapshotId signature)
        stateDigest snapshotId) := by
  have hboundary : (snapshotDocument config index createdAt stateDigest snapshotId signature).item
      (str "index_boundary") = .ok indexBoundary := Json.item_fields rfl
  have hchain : (index.nextSnapshotSequence : Int) = 0 ↔ index.previousSnapshotDigest = none := by
    rw [← h.chain]
    omega
  have hcontent := h.checkSnapshotContent hdigest
    (snapshotDocument config index createdAt stateDigest snapshotId signature) snapshotId
  unfold verifyDiscoveryIndexSnapshot
  refine ensure_bind_eq_ok.2 ⟨haccepts, ?_⟩
  refine bind_eq_ok.2 ⟨_, raising_eq_ok.2 (readSnapshot_snapshotDocument ..), ?_⟩
  refine bind_eq_ok.2 ⟨snapshotId, ?_, ?_⟩
  · rw [identity_snapshotDocument, hidentity, raising_ok]
  · refine ensure_bind_eq_ok.2 ⟨rfl, ?_⟩
    refine bind_eq_ok.2 ⟨(), hsigned, ?_⟩
    refine bind_eq_ok.2 ⟨(), ensure_of hexpected _, ?_⟩
    refine bind_eq_ok.2 ⟨(), ensureExpected_some.2 rfl, ?_⟩
    refine bind_eq_ok.2 ⟨_, raising_eq_ok.2 hboundary, ?_⟩
    refine ensure_bind_eq_ok.2 ⟨rfl, ?_⟩
    refine ensure_bind_eq_ok.2 ⟨hchain, ?_⟩
    exact bind_eq_ok.2 ⟨(), hcontent, rfl⟩

theorem Sound.exported (h : Sound config index)
    (hexport : exportSnapshot config createdAt index = .ok (snapshot, index')) :
    ∃ stateDigest snapshotId payload,
      snapshot = snapshotDocument config index createdAt stateDigest snapshotId
        (signatureObject config.receiptSigner.keyId (config.receiptSigner.signBytes payload)) ∧
      activeStateDigest (activeRecords index) = .ok stateDigest ∧
      discoveryIndexSnapshotIdentity
        (.fields (snapshotCore config index createdAt stateDigest)) = .ok snapshotId ∧
      Schemas.discoveryIndexSnapshot.accepts snapshot = true ∧
      checkSigned snapshot config.receiptSigner.trustedKey
        "discovery index snapshot signature rejected" = .ok () := by
  unfold exportSnapshot at hexport
  rw [h.exportTips, raising_ok, ok_bind] at hexport
  obtain ⟨stateDigest, hdigest, hexport⟩ := bind_eq_ok.1 hexport
  obtain ⟨snapshotId, hidentity, hexport⟩ := bind_eq_ok.1 hexport
  obtain ⟨snapshot', hsign, hexport⟩ := bind_eq_ok.1 hexport
  obtain ⟨content, hverify, hexport⟩ := bind_eq_ok.1 hexport
  obtain ⟨_, _, hexport⟩ := bind_eq_ok.1 hexport
  cases hexport
  rw [raising_eq_ok] at hdigest hidentity hsign
  unfold Ed25519Signer.sign at hsign
  obtain ⟨payload, _, hsign⟩ := bind_eq_ok.1 hsign
  have hfresh : "signature" ∉ (("snapshot_id", Json.str snapshotId) ::
      snapshotCore config index createdAt stateDigest).map Prod.fst := by
    simp only [List.map_cons, List.mem_cons, not_or]
    exact ⟨by decide, notMem_snapshotCore config index createdAt stateDigest⟩
  have hdocument := Except.ok.inj hsign
  rw [show Json.fields (("snapshot_id", Json.str snapshotId) :: snapshotFields config index createdAt
    stateDigest ((snapshotTips config index).map SnapshotTip.document)) =
      Json.fields (("snapshot_id", Json.str snapshotId) ::
        snapshotCore config index createdAt stateDigest) from rfl,
    Json.set_fields hfresh] at hdocument
  obtain ⟨haccepts, hsigned⟩ := verifyDiscoveryIndexSnapshot_eq_ok hverify
  exact ⟨stateDigest, snapshotId, payload, hdocument.symm, hdigest, hidentity, haccepts, hsigned⟩

/-! ## Restoring -/

theorem verifyStored_document (htrusted : config.trusted record.sourceKey = some source)
    (hverified : Verified config.tenantId source record) :
    verifyStored config record.sourceKey record.document = .ok record := by
  unfold verifyStored
  rw [htrusted]
  exact hverified.verify

theorem Sound.tipKeys (h : Sound config index) :
    index.sourceTips.toList.map Prod.fst = index.sourceTipRecords.toList.map Prod.fst := by
  apply Dict.keys_toList_eq
  intro key
  rcases h.tips key with ⟨htip, hrecord⟩ | ⟨record, digest, htip, hrecord, -⟩
  · rw [htip, hrecord]
    rfl
  · rw [htip, hrecord]
    rfl

theorem Sound.verifyTips (h : Sound config index) :
    verifyTips config (snapshotTips config index) = .ok index.sourceTipRecords.toList := by
  have hkeys : List.Forall₂ (fun item stored => item.1 = stored.1) index.sourceTips.toList
      index.sourceTipRecords.toList := by
    have hsame := List.forall₂_eq_eq_eq.symm ▸ h.tipKeys
    rwa [List.forall₂_map_left_iff, List.forall₂_map_right_iff] at hsame
  unfold Discovery.verifyTips snapshotTips
  rw [mapM_eq_ok, List.forall₂_map_left_iff, List.forall₂_iff_zip]
  refine ⟨hkeys.length_eq, ?_⟩
  intro item stored hzip
  obtain ⟨hitem, hstored⟩ := List.of_mem_zip hzip
  have hkey : item.1 = stored.1 := (List.forall₂_iff_zip.1 hkeys).2 hzip
  obtain ⟨source, record, hentry⟩ := h.tipEntry hitem
  have hrecord : stored.2 = record := by
    have hget := Dict.mem_toList.1 (show (stored.1, stored.2) ∈ _ from hstored)
    rw [← hkey, hentry.tipRecord] at hget
    exact (Option.some.inj hget).symm
  have hverify := verifyStored_document (hentry.sourceKey ▸ hentry.trusted) hentry.verified
  rw [hentry.sourceKey] at hverify
  rw [hentry.snapshotTip_eq, hverify, ok_bind, ← hrecord, hkey]

theorem Sound.verifyActive (h : Sound config index) :
    verifyActive config (activeRecords index) = .ok index.active.toList := by
  unfold Discovery.verifyActive activeRecords
  rw [mapM_eq_ok, List.forall₂_map_left_iff, List.forall₂_same]
  rintro ⟨key, record⟩ hitem
  obtain ⟨hkey, -, digest, tip, hstored, -⟩ := h.active key record (Dict.mem_toList.1 hitem)
  obtain ⟨source, htrusted, hverified⟩ := hstored.source
  rw [sourceKeyOf_document hverified.fields, raising_ok, ok_bind,
    verifyStored_document htrusted hverified, ok_bind, hkey]

theorem Sound.restoreHistory (h : Sound config index) :
    restoreHistory config.admissionPolicy index.active.toList
        (config.admissionPolicy.map fun policy => (policy.digest, index.semanticHistory.toList)) =
      .ok index.semanticHistory.toList := by
  cases hpolicy : config.admissionPolicy with
  | none =>
    rw [h.history.empty hpolicy]
    rfl
  | some policy =>
    have hcovered : index.active.toList.forM (fun item => do
        let identity ← discoverySemanticIdentity policy item.2
        ensure (index.semanticHistory.toList.lookup item.1 = some identity)
          (refuse "discovery admission active semantic history mismatch")) = .ok () := by
      rw [forM_eq_ok]
      intro item hitem
      obtain ⟨identity, hidentity, hentry⟩ :=
        h.covers policy hpolicy item.1 item.2 (Dict.mem_toList.1 hitem)
      rw [hidentity, ok_bind]
      apply ensure_of
      rw [Json.lookup_eq_some_iff_mem index.semanticHistory.keys_toList_nodup]
      exact Dict.mem_toList.2 hentry
    show (ensure (policy.digest = policy.digest) _ >>= fun _ => _) = _
    rw [ensure_of rfl, ok_bind, ensure_of index.semanticHistory.keys_toList_nodup, ok_bind,
      hcovered]
    rfl

theorem init_config (config : Config) :
    Config.init config.tenantId config.trustedSources config.receiptSigner
      config.admissionPolicy = .ok config := by
  unfold Config.init
  rw [dif_pos config.tenantId_valid, dif_pos config.count_le, dif_pos config.nodup]

omit [Ed25519Keys] in
theorem checkPolicyPin_digest (policy : Option DiscoveryAdmissionPolicy) :
    checkPolicyPin policy (policy.map DiscoveryAdmissionPolicy.digest) = .ok () := by
  cases policy with
  | none => rfl
  | some policy =>
    obtain ⟨payload, -, hdigest⟩ := digestObject_eq_ok policy.digest_eq
    have hvalid : Schemas.digestBody policy.digest = true := by
      rw [hdigest]
      exact Schemas.digestBody_sha256Digest _
    show (ensure (Schemas.digestBody policy.digest = true) _ >>= fun _ => _) = _
    rw [ensure_of hvalid, ok_bind]
    exact ensure_of rfl _

/-- Restoring an exported snapshot gives the index after the export, but for the
decisions of the last call. -/
theorem Sound.restore (h : Sound config index)
    (hexport : exportSnapshot config createdAt index = .ok (snapshot, index')) :
    ∃ snapshotId, snapshot.textItem (str "snapshot_id") = .ok snapshotId ∧
      restore snapshot snapshotId config.tenantId config.receiptSigner.trustedKey
          config.trustedSources config.receiptSigner config.admissionPolicy
          (config.admissionPolicy.map DiscoveryAdmissionPolicy.digest) =
        .ok (config, { index' with lastAdmissionDecisions := [] }) := by
  obtain ⟨stateDigest, snapshotId, payload, rfl, hdigest, hidentity, haccepts, hsigned⟩ :=
    h.exported hexport
  set signature := signatureObject config.receiptSigner.keyId
    (config.receiptSigner.signBytes payload)
  obtain ⟨chainDigest, hchain, rfl⟩ := exportSnapshot_eq_ok hexport
  refine ⟨snapshotId, Json.textItem_fields rfl, ?_⟩
  have hverify := @Sound.verify _ _ config index h createdAt stateDigest snapshotId signature
    config.receiptSigner.trustedKey hdigest hidentity haccepts hsigned (some snapshotId) (.inr rfl)
  have hsources : verifyDiscoveryIndexSnapshotSources
      (snapshotDocument config index createdAt stateDigest snapshotId signature)
      config.receiptSigner.trustedKey config snapshotId =
        .ok (snapshotContent config index
          (snapshotDocument config index createdAt stateDigest snapshotId signature)
          stateDigest snapshotId) := by
    unfold verifyDiscoveryIndexSnapshotSources
    refine bind_eq_ok.2 ⟨_, hverify, ?_⟩
    refine ensure_bind_eq_ok.2 ⟨rfl, ?_⟩
    refine bind_eq_ok.2 ⟨_, h.verifyTips, ?_⟩
    exact bind_eq_ok.2 ⟨_, h.verifyActive, rfl⟩
  have htips : (snapshotTips config index).map (fun tip =>
      (tip.key, tip.sequence, tip.recordDigest)) = index.sourceTips.toList := by
    unfold snapshotTips
    rw [List.map_map]
    exact List.map_id _
  unfold Discovery.restore
  refine bind_eq_ok.2 ⟨(), checkPolicyPin_digest _, ?_⟩
  refine bind_eq_ok.2 ⟨config, init_config config, ?_⟩
  refine bind_eq_ok.2 ⟨_, hsources, ?_⟩
  refine ensure_bind_eq_ok.2 ⟨⟨rfl, rfl⟩, ?_⟩
  refine bind_eq_ok.2 ⟨_, h.verifyTips, ?_⟩
  refine bind_eq_ok.2 ⟨_, h.verifyActive, ?_⟩
  refine bind_eq_ok.2 ⟨_, h.restoreHistory, ?_⟩
  refine bind_eq_ok.2 ⟨chainDigest, raising_eq_ok.2 hchain, ?_⟩
  simp only [snapshotContent, htips, Dict.ofList_toList, Int.toNat_natCast]

/-! ## Further calls -/

/-- Indexes that differ in the decisions of the last call only. -/
def Alike (index index' : Index) : Prop :=
  { index with lastAdmissionDecisions := [] } = { index' with lastAdmissionDecisions := [] }

/-- The document and the digest of an export, without the index. -/
def exportAnswer (config : Config) (createdAt : Str) (index : Index) :
    Except Error (Json × Str) := do
  let sourceTips ← raising (index.sourceTips.toList.mapM (exportTip config index))
  let stateDigest ← raising (activeStateDigest (activeRecords index))
  let core := snapshotFields config index createdAt stateDigest sourceTips
  let snapshotId ← raising (discoveryIndexSnapshotIdentity (.fields core))
  let snapshot ← raising (config.receiptSigner.sign
    (.fields (("snapshot_id", .str snapshotId) :: core)))
  let _ ← verifyDiscoveryIndexSnapshot snapshot config.receiptSigner.trustedKey none
    (some config.tenantId)
  let digest ← raising (discoveryIndexSnapshotDigest snapshot)
  .ok (snapshot, digest)

theorem exportSnapshot_eq (config : Config) (createdAt : Str) (index : Index) :
    exportSnapshot config createdAt index = (do
      let (snapshot, digest) ← exportAnswer config createdAt index
      .ok (snapshot, { index with
        nextSnapshotSequence := index.nextSnapshotSequence + 1
        previousSnapshotDigest := some digest })) := by
  unfold exportSnapshot exportAnswer
  simp only [bind_assoc, ok_bind]

theorem perform_alike (config : Config) (h : Alike index index') (call : Call) :
    (perform config index call).1 = (perform config index' call).1 ∧
      Alike (perform config index call).2 (perform config index' call).2 := by
  obtain ⟨tips, tipRecords, active, history, decisions, next, previous⟩ := index
  obtain ⟨tips', tipRecords', active', history', decisions', next', previous'⟩ := index'
  simp only [Alike, Index.mk.injEq] at h
  obtain ⟨rfl, rfl, rfl, rfl, -, rfl, rfl⟩ := h
  cases call with
  | apply records reviewPriority =>
    simp only [perform, Discovery.apply]
    split
    · rw [show Staged.start ⟨tips, tipRecords, active, history, decisions', next, previous⟩ =
        Staged.start ⟨tips, tipRecords, active, history, decisions, next, previous⟩ from rfl]
      cases stageEach config reviewPriority (records.map Document.value)
          (Staged.start ⟨tips, tipRecords, active, history, decisions, next, previous⟩) [] [] with
      | raised e => exact ⟨rfl, rfl⟩
      | quarantined s accepted record reason decisions => exact ⟨rfl, rfl⟩
      | staged s accepted decisions =>
        simp only
        cases issueReceipt config s accepted with
        | error e => exact ⟨rfl, rfl⟩
        | ok receipt => exact ⟨rfl, rfl⟩
    · exact ⟨rfl, rfl⟩
  | exportSnapshot createdAt =>
    simp only [perform, exportSnapshot_eq]
    rw [show exportAnswer config createdAt
        ⟨tips, tipRecords, active, history, decisions', next, previous⟩ =
      exportAnswer config createdAt
        ⟨tips, tipRecords, active, history, decisions, next, previous⟩ from rfl]
    cases exportAnswer config createdAt
        ⟨tips, tipRecords, active, history, decisions, next, previous⟩ with
    | error e => exact ⟨rfl, rfl⟩
    | ok p => exact ⟨rfl, rfl⟩

theorem answers_alike (config : Config) (h : Alike index index') (calls : List Call) :
    answers config index calls = answers config index' calls ∧
      Alike (performed config index calls) (performed config index' calls) := by
  induction calls generalizing index index' with
  | nil => exact ⟨rfl, h⟩
  | cons call calls ih =>
    obtain ⟨hanswer, halike⟩ := perform_alike config h call
    obtain ⟨hanswers, hrest⟩ := ih halike
    refine ⟨?_, hrest⟩
    rw [answers, answers, hanswer, hanswers]

end

end IntegrityGuardian.Discovery
