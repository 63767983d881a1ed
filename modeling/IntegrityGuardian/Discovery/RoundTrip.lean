import IntegrityGuardian.Discovery.Checkpoints

/-!
# The snapshot round trip

When an export of a reachable index returns, and what restoring it gives.
-/

namespace IntegrityGuardian.Discovery

open Python Library

section
variable [UnicodeData] [Ed25519Keys]

/-! ## Encodable documents -/

variable {payload : Bytes} {config : Config} {signer : Ed25519Signer} {index : Index}
  {tip : SnapshotTip} {createdAt : Str} {source : TrustedDiscoverySource}

theorem Stored.encodable {record : Record} {digest : Str}
    (h : Stored config record digest) : record.document.encodable = true := by
  obtain ⟨b, hb, -⟩ := digestObject_eq_ok h.digest
  exact encodable_of_canonicalBytes hb

theorem Sound.encodable_active (h : Sound config index) :
    (Json.arr (activeRecords index)).encodable = true := by
  rw [Json.encodable, Json.encodableItems_iff]
  intro document hdocument
  obtain ⟨⟨key, record⟩, hitem, rfl⟩ := List.mem_map.1 hdocument
  obtain ⟨-, -, digest, tip, hstored, -⟩ := h.active key record (Dict.mem_toList.1 hitem)
  exact hstored.encodable

/-- What a caller and a deployment must get right for an export to pass its schema. -/
structure Exportable (config : Config) (index : Index) (createdAt : Str) : Prop where
  createdAt : Schemas.timestamp.accepts (.str createdAt) = true
  signer : Schemas.id.accepts (.str config.receiptSigner.keyId) = true
  sources : ∀ source ∈ config.trustedSources,
    Schemas.id.accepts (.str source.trustedKey.keyId) = true
  history : index.semanticHistory.size ≤ 25000

omit [UnicodeData] in
theorem encodable_trustedSource (h : Schemas.id.accepts (.str source.trustedKey.keyId) = true) :
    (trustedSourceDocument source).encodable = true := by
  apply Json.encodable_fields
  simp only [List.forall_mem_cons, List.not_mem_nil, false_imp_iff, implies_true, and_true]
  exact ⟨Schemas.encodable_of_idBody source.sourceId_valid,
    Schemas.encodable_of_idBody source.sourceEpoch_valid,
    Schemas.encodable_of_digestBody source.sourceArtifactDigest_valid, Schemas.encodable_of_id h,
    Schemas.encodable_sha256Digest _⟩

theorem Sound.encodable_tip (h : Sound config index) (htip : tip ∈ snapshotTips config index) :
    tip.document.encodable = true := by
  obtain ⟨item, hitem, rfl⟩ := List.mem_map.1 htip
  obtain ⟨source, record, hentry⟩ := h.tipEntry hitem
  obtain ⟨b, -, hdigest⟩ := digestObject_eq_ok hentry.stored.digest
  have hkey : source.key = item.1 := (trusted_key hentry.trusted).2
  rw [hentry.snapshotTip_eq, ← hkey]
  apply Json.encodable_fields
  simp only [List.forall_mem_cons, List.not_mem_nil, false_imp_iff, implies_true, and_true]
  refine ⟨Schemas.encodable_of_idBody source.sourceId_valid,
    Schemas.encodable_of_idBody source.sourceEpoch_valid, rfl, ?_,
    Schemas.encodable_of_digestBody source.sourceArtifactDigest_valid, hentry.stored.encodable⟩
  rw [hdigest]
  exact Schemas.encodable_sha256Digest _

theorem HistorySound.encodable {history : Dict ActiveKey Str}
    (h : HistorySound config history) {item : ActiveKey × Str} (hitem : item ∈ history.toList) :
    (historyEntry item).encodable = true := by
  have hvalid := h.valid item.1 item.2 (Dict.mem_toList.1 hitem)
  obtain ⟨-, -, hproperties⟩ := Schema.accepts_closed_fields.1 hvalid
  have hsource := hproperties ("source_id", Schemas.id) (by simp) _ rfl
  have hkind := hproperties ("assertion_kind", .enum ["entity", "relation", "gap"]) (by simp) _ rfl
  have hassertion := hproperties ("assertion_id", Schemas.id) (by simp) _ rfl
  have hidentity := hproperties
    ("semantic_identity", Schemas.matching (Schemas.hashBody "discovery-semantic:")) (by simp) _ rfl
  apply Json.encodable_fields
  simp only [List.forall_mem_cons, List.not_mem_nil, false_imp_iff, implies_true, and_true]
  exact ⟨Schemas.encodable_of_id hsource, Schemas.encodable_of_enum hkind,
    Schemas.encodable_of_id hassertion, Schemas.encodable_of_matching
      (fun _ => Schemas.ascii_of_hashBody (by decide)) hidentity⟩

theorem Sound.encodable_admissionState (h : Sound config index) :
    ∀ f ∈ admissionStateFields config index, f.2.encodable = true := by
  unfold admissionStateFields
  cases config.admissionPolicy with
  | none => simp
  | some policy =>
    obtain ⟨b, -, hdigest⟩ := digestObject_eq_ok policy.digest_eq
    simp only [List.forall_mem_cons, List.not_mem_nil, false_imp_iff, implies_true, and_true]
    apply Json.encodable_fields
    simp only [List.forall_mem_cons, List.not_mem_nil, false_imp_iff, implies_true, and_true]
    constructor
    · rw [hdigest]
      exact Schemas.encodable_sha256Digest _
    · rw [Json.encodable, Json.encodableItems_iff]
      intro document hdocument
      obtain ⟨item, hitem, rfl⟩ := List.mem_map.1 hdocument
      exact h.history.encodable hitem

theorem Sound.encodable_core
    (h : Sound config index) (hexportable : Exportable config index createdAt) (payload : Bytes) :
    ∀ f ∈ snapshotCore config index createdAt (sha256Digest payload), f.2.encodable = true := by
  have hprevious : (Json.ofOptionalText index.previousSnapshotDigest).encodable = true := by
    cases hdigest : index.previousSnapshotDigest with
    | none => rfl
    | some digest =>
      obtain ⟨payload, rfl⟩ := h.digest digest hdigest
      exact Schemas.encodable_sha256Digest _
  have hsources : (Json.arr (sourceDocuments config.trustedSources)).encodable = true := by
    rw [Json.encodable, Json.encodableItems_iff]
    intro document hdocument
    obtain ⟨source, hsource, rfl⟩ := List.mem_map.1 hdocument
    exact encodable_trustedSource (hexportable.sources source ((List.mem_insertionSort _).1 hsource))
  have htips : (Json.arr ((snapshotTips config index).map SnapshotTip.document)).encodable =
      true := by
    rw [Json.encodable, Json.encodableItems_iff]
    intro document hdocument
    obtain ⟨tip, htip, rfl⟩ := List.mem_map.1 hdocument
    exact h.encodable_tip htip
  unfold snapshotCore snapshotFields
  simp only [List.forall_mem_append, List.forall_mem_cons, List.not_mem_nil, false_imp_iff,
    implies_true, and_true]
  exact ⟨⟨by decide, (Schemas.ascii_of_tenantBody config.tenantId_valid).encodable,
    Schemas.encodable_of_timestamp hexportable.createdAt, rfl, hprevious,
    Schemas.encodable_sha256Digest _, hsources, htips, h.encodable_active, by decide⟩,
    h.encodable_admissionState⟩

/-! ## Accepted documents -/

omit [UnicodeData] in
theorem accepts_trustedSource (h : Schemas.id.accepts (.str source.trustedKey.keyId) = true) :
    Schemas.trustedSource.accepts (trustedSourceDocument source) = true := by
  apply Schema.accepts_closed_fields.2
  refine ⟨by simp, by simp [List.lookup_cons], ?_⟩
  simp only [List.forall_mem_cons, List.not_mem_nil, false_imp_iff, implies_true, and_true]
  exact ⟨Schema.accepts_of_lookup rfl (Schemas.accepts_matching_of source.sourceId_valid),
    Schema.accepts_of_lookup rfl (Schemas.accepts_matching_of source.sourceEpoch_valid),
    Schema.accepts_of_lookup rfl (Schemas.accepts_matching_of source.sourceArtifactDigest_valid),
    Schema.accepts_of_lookup rfl h,
    Schema.accepts_of_lookup rfl (Schemas.accepts_sha256Digest _)⟩

theorem Sound.accepts_tip (h : Sound config index) (htip : tip ∈ snapshotTips config index) :
    Schemas.snapshotTip.accepts tip.document = true := by
  obtain ⟨item, hitem, rfl⟩ := List.mem_map.1 htip
  obtain ⟨source, record, hentry⟩ := h.tipEntry hitem
  obtain ⟨b, -, hdigest⟩ := digestObject_eq_ok hentry.stored.digest
  have hkey : source.key = item.1 := (trusted_key hentry.trusted).2
  have hsequence : Schemas.natural.accepts (.int item.2.1) = true := by
    have hnonneg := hentry.verified.sequence_nonneg
    rw [hentry.sequence] at hnonneg
    simpa [Schemas.natural, Schema.keywords, Schema.ofType, Schema.minimum, JsonType.of]
      using hnonneg
  have hrecord : (Schema.ofType .object).accepts record.document = true := by
    obtain ⟨members, hmembers⟩ := Schema.isObj_of_closed hentry.verified.accepts
    rw [hmembers]
    rfl
  have hdigest' : Schemas.digest.accepts (.str item.2.2) = true := by
    rw [hdigest]
    exact Schemas.accepts_sha256Digest _
  rw [hentry.snapshotTip_eq, ← hkey]
  apply Schema.accepts_closed_fields.2
  refine ⟨by simp, by simp [List.lookup_cons], ?_⟩
  simp only [List.forall_mem_cons, List.not_mem_nil, false_imp_iff, implies_true, and_true]
  exact ⟨Schema.accepts_of_lookup rfl (Schemas.accepts_matching_of source.sourceId_valid),
    Schema.accepts_of_lookup rfl (Schemas.accepts_matching_of source.sourceEpoch_valid),
    Schema.accepts_of_lookup rfl hsequence, Schema.accepts_of_lookup rfl hdigest',
    Schema.accepts_of_lookup rfl (Schemas.accepts_matching_of source.sourceArtifactDigest_valid),
    Schema.accepts_of_lookup rfl hrecord⟩

/-! ## Arrays -/

omit [UnicodeData] [Ed25519Keys] in
theorem sourceKeyOf_sortKeys {v : Json} (hwf : v.wf = true) :
    sourceKeyOf v.sortKeys = sourceKeyOf v := by
  unfold sourceKeyOf
  rw [Json.textItem_sortKeys hwf, Json.textItem_sortKeys hwf]

omit [UnicodeData] [Ed25519Keys] in
theorem nodup_sortKeys_of_sourceKeys {vs : List Json} (keys : List SourceKey)
    (hwf : ∀ v ∈ vs, v.wf = true) (hkeys : vs.map sourceKeyOf = keys.map .ok)
    (hnodup : keys.Nodup) : (vs.map Json.sortKeys).Nodup := by
  apply List.Nodup.of_map sourceKeyOf
  have hsame : (vs.map Json.sortKeys).map sourceKeyOf = keys.map .ok := by
    rw [← hkeys, List.map_map]
    apply List.map_congr_left
    intro v hv
    exact sourceKeyOf_sortKeys (hwf v hv)
  rw [hsame]
  exact hnodup.map fun _ _ heq => Except.ok.inj heq

theorem accepts_sources (hexportable : Exportable config index createdAt) :
    (Schemas.boundedSet 1000 Schemas.trustedSource).accepts
      (.arr (sourceDocuments config.trustedSources)) = true := by
  have hperm := List.perm_insertionSort (fun a b : TrustedDiscoverySource => a.key ≤ b.key)
    config.trustedSources
  apply Schemas.accepts_boundedSet
  · unfold sourceDocuments
    rw [List.length_map, hperm.length_eq]
    exact config.count_le
  · apply nodup_sortKeys_of_sourceKeys
      ((config.trustedSources.insertionSort fun a b => a.key ≤ b.key).map
        TrustedDiscoverySource.key)
    · intro document hdocument
      obtain ⟨source, -, rfl⟩ := List.mem_map.1 hdocument
      apply Json.wf_fields
      · simp
      · simp [Json.wf]
    · unfold sourceDocuments
      rw [List.map_map, List.map_map]
      apply List.map_congr_left
      intro source _
      show sourceKeyOf (trustedSourceDocument source) = _
      unfold sourceKeyOf trustedSourceDocument
      rw [Json.textItem_fields rfl, Json.textItem_fields rfl]
      rfl
    · exact ((hperm.map TrustedDiscoverySource.key).nodup_iff).2 config.nodup
  · intro document hdocument
    obtain ⟨source, hsource, rfl⟩ := List.mem_map.1 hdocument
    exact accepts_trustedSource (hexportable.sources source ((List.mem_insertionSort _).1 hsource))

theorem Sound.tips_length_le (h : Sound config index) :
    index.sourceTips.toList.length ≤ 1000 := by
  have hsubset : index.sourceTips.toList.map Prod.fst ⊆
      config.trustedSources.map TrustedDiscoverySource.key := by
    intro key hkey
    obtain ⟨item, hitem, rfl⟩ := List.mem_map.1 hkey
    obtain ⟨source, record, hentry⟩ := h.tipEntry hitem
    obtain ⟨hmem, hsame⟩ := trusted_key hentry.trusted
    exact List.mem_map.2 ⟨source, hmem, hsame⟩
  have hle := (index.sourceTips.keys_toList_nodup.subperm hsubset).length_le
  rw [List.length_map, List.length_map] at hle
  exact hle.trans config.count_le

theorem Sound.wf_tip (h : Sound config index)
    (htip : tip ∈ snapshotTips config index) : tip.document.wf = true := by
  obtain ⟨item, hitem, rfl⟩ := List.mem_map.1 htip
  obtain ⟨source, record, hentry⟩ := h.tipEntry hitem
  rw [hentry.snapshotTip_eq]
  apply Json.wf_fields
  · simp
  · simp [Json.wf, hentry.stored.wf]

theorem Sound.accepts_tips (h : Sound config index) :
    (Schemas.boundedSet 1000 Schemas.snapshotTip).accepts
      (.arr ((snapshotTips config index).map SnapshotTip.document)) = true := by
  apply Schemas.accepts_boundedSet
  · rw [List.length_map, snapshotTips, List.length_map]
    exact h.tips_length_le
  · apply nodup_sortKeys_of_sourceKeys ((snapshotTips config index).map SnapshotTip.key)
    · intro document hdocument
      obtain ⟨tip, htip, rfl⟩ := List.mem_map.1 hdocument
      exact h.wf_tip htip
    · rw [List.map_map, List.map_map]
      apply List.map_congr_left
      intro tip _
      show sourceKeyOf tip.document = .ok tip.key
      unfold sourceKeyOf SnapshotTip.document
      rw [Json.textItem_fields rfl, Json.textItem_fields rfl]
      rfl
    · rw [snapshotTips_keys]
      exact index.sourceTips.keys_toList_nodup
  · intro document hdocument
    obtain ⟨tip, htip, rfl⟩ := List.mem_map.1 hdocument
    exact h.accepts_tip htip

theorem Sound.accepts_active (h : Sound config index) :
    (Schemas.boundedArray 25000 (.ofType .object)).accepts (.arr (activeRecords index)) =
      true := by
  apply Schemas.accepts_boundedArray.2
  constructor
  · unfold activeRecords
    rw [List.length_map, Std.ExtTreeMap.length_toList]
    exact h.size_le
  · intro document hdocument
    obtain ⟨⟨key, record⟩, hitem, rfl⟩ := List.mem_map.1 hdocument
    obtain ⟨-, -, digest, tip, hstored, -⟩ := h.active key record (Dict.mem_toList.1 hitem)
    obtain ⟨source, -, hverified⟩ := hstored.source
    obtain ⟨members, hmembers⟩ := Schema.isObj_of_closed hverified.accepts
    simp only [hmembers]
    rfl

theorem accepts_history (h : Sound config index)
    (hsize : index.semanticHistory.size ≤ 25000) {policy : DiscoveryAdmissionPolicy} :
    (Schema.closed ["policy_digest", "semantic_history"]
      [("policy_digest", Schemas.digest),
        ("semantic_history", Schemas.boundedArray 25000 Schemas.semanticHistoryEntry)]).accepts
      (.fields [("policy_digest", .str policy.digest),
        ("semantic_history", .arr (index.semanticHistory.toList.map historyEntry))]) = true := by
  obtain ⟨b, -, hdigest⟩ := digestObject_eq_ok policy.digest_eq
  have hpolicy : Schemas.digest.accepts (.str policy.digest) = true := by
    rw [hdigest]
    exact Schemas.accepts_sha256Digest _
  have hentries : (Schemas.boundedArray 25000 Schemas.semanticHistoryEntry).accepts
      (.arr (index.semanticHistory.toList.map historyEntry)) = true := by
    apply Schemas.accepts_boundedArray.2
    constructor
    · rw [List.length_map, Std.ExtTreeMap.length_toList]
      exact hsize
    · intro document hdocument
      obtain ⟨item, hitem, rfl⟩ := List.mem_map.1 hdocument
      exact h.history.valid item.1 item.2 (Dict.mem_toList.1 hitem)
  apply Schema.accepts_closed_fields.2
  refine ⟨by simp, by simp [List.lookup_cons], ?_⟩
  simp only [List.forall_mem_cons, List.not_mem_nil, false_imp_iff, implies_true, and_true]
  exact ⟨Schema.accepts_of_lookup rfl hpolicy, Schema.accepts_of_lookup rfl hentries⟩

theorem Sound.accepts_previous (h : Sound config index) :
    Schemas.optionalDigest.accepts (.ofOptionalText index.previousSnapshotDigest) = true := by
  cases hdigest : index.previousSnapshotDigest with
  | none => rfl
  | some digest =>
    obtain ⟨payload, rfl⟩ := h.digest digest hdigest
    have haccepts := Schemas.accepts_sha256Digest payload
    simp [Schemas.optionalDigest, Schema.oneOf, Json.ofOptionalText, haccepts, Schema.ofType,
      JsonType.of]

theorem Sound.accepts_snapshot {snapshotId : Str} {signature : Json} (h : Sound config index)
    (hexportable : Exportable config index createdAt)
    (hid : Schemas.hashBody "discovery-index-snapshot:" snapshotId = true)
    (hsignature : Schemas.signature.accepts signature = true) :
    Schemas.discoveryIndexSnapshot.accepts
      (snapshotDocument config index createdAt (sha256Digest payload) snapshotId signature) =
        true := by
  have hsequence : Schemas.natural.accepts (.int index.nextSnapshotSequence) = true := by
    simp [Schemas.natural, Schema.keywords, Schema.ofType, Schema.minimum, JsonType.of]
  apply Schema.accepts_closed_fields.2
  refine ⟨?_, ?_, ?_⟩
  · unfold snapshotFields admissionStateFields
    cases config.admissionPolicy <;> simp
  · unfold snapshotFields admissionStateFields
    cases config.admissionPolicy <;> simp [List.lookup_cons]
  · simp only [List.forall_mem_cons, List.not_mem_nil, false_imp_iff, implies_true, and_true]
    refine ⟨Schema.accepts_of_lookup rfl (Schemas.accepts_const _),
      Schema.accepts_of_lookup rfl (Schemas.accepts_matching_of hid),
      Schema.accepts_of_lookup rfl (Schemas.accepts_matching_of config.tenantId_valid),
      Schema.accepts_of_lookup rfl hexportable.createdAt, Schema.accepts_of_lookup rfl hsequence,
      Schema.accepts_of_lookup rfl h.accepts_previous,
      Schema.accepts_of_lookup rfl (Schemas.accepts_sha256Digest _),
      Schema.accepts_of_lookup rfl (accepts_sources hexportable),
      Schema.accepts_of_lookup rfl h.accepts_tips, Schema.accepts_of_lookup rfl h.accepts_active,
      ?_, Schema.accepts_of_lookup rfl (by decide), ?_⟩
    · unfold snapshotFields admissionStateFields
      cases config.admissionPolicy with
      | none =>
        intro w hw
        cases hw
      | some policy => exact Schema.accepts_of_lookup rfl (accepts_history h hexportable.history)
    · unfold snapshotFields admissionStateFields
      cases config.admissionPolicy with
      | none => exact Schema.accepts_of_lookup rfl hsignature
      | some policy => exact Schema.accepts_of_lookup rfl hsignature

/-! ## Exports that return -/

omit [UnicodeData] in
theorem checkSigned_own (hsigner : signer.Lawful)
    {fs : List (String × Json)} (hfresh : "signature" ∉ fs.map Prod.fst)
    (hpayload : signaturePayload (.fields fs) = .ok payload) (message : String) :
    checkSigned (.fields (fs ++
      [("signature", signatureObject signer.keyId (signer.signBytes payload))]))
      signer.trustedKey message = .ok () := by
  have hitem : (Json.fields (fs ++ [("signature", signatureObject signer.keyId
      (signer.signBytes payload))])).item (str "signature") =
      .ok (signatureObject signer.keyId (signer.signBytes payload)) :=
    Json.item_fields (Json.lookup_snoc hfresh _)
  have hkeyId : (signatureObject signer.keyId (signer.signBytes payload)).textItem (str "key_id") =
      .ok signer.keyId := rfl
  unfold checkSigned
  refine bind_eq_ok.2 ⟨_, raising_eq_ok.2 hitem, ?_⟩
  refine bind_eq_ok.2 ⟨_, raising_eq_ok.2 hkeyId, ?_⟩
  refine ensure_bind_eq_ok.2 ⟨rfl, ?_⟩
  refine bind_eq_ok.2 ⟨true, raising_eq_ok.2 (hsigner.verifySignature hfresh hpayload), ?_⟩
  exact ensure_of rfl _

omit [Ed25519Keys] in
theorem exists_snapshotIdentity {core : Json} (h : core.encodable = true) :
    ∃ payload, discoveryIndexSnapshotIdentity core =
      .ok (str "discovery-index-snapshot:" ++ hex (sha256 payload)) := by
  have hpopped := Json.encodable_pop (Json.encodable_pop h (str "snapshot_id")) (str "signature")
  obtain ⟨payload, hdigest⟩ := Schemas.digestObject_of_encodable hpopped
    (@validateDomain_of_ascii _ (str "discovery-index-snapshot-identity-v1") (by decide)
      (by decide))
  exact ⟨payload, bind_eq_ok.2 ⟨_, hdigest, rfl⟩⟩

/-- With a lawful signer, the arguments and limits of the schema are all an export needs. -/
theorem Sound.exports (h : Sound config index) (hsigner : config.receiptSigner.Lawful)
    (hexportable : Exportable config index createdAt) :
    ∃ result, exportSnapshot config createdAt index = .ok result := by
  obtain ⟨statePayload, hstate⟩ := Schemas.digestObject_of_encodable h.encodable_active
    (@validateDomain_of_ascii _ (str "discovery-active-state-v1") (by decide) (by decide))
  have hcore := h.encodable_core hexportable statePayload
  obtain ⟨idPayload, hidentity⟩ := exists_snapshotIdentity (Json.encodable_fields hcore)
  let snapshotId := str "discovery-index-snapshot:" ++ hex (sha256 idPayload)
  let unsigned := ("snapshot_id", Json.str snapshotId) ::
    snapshotCore config index createdAt (sha256Digest statePayload)
  have hunsigned : ∀ f ∈ unsigned, f.2.encodable = true := by
    refine List.forall_mem_cons.2 ⟨?_, hcore⟩
    have hhead : Schemas.Ascii (str "discovery-index-snapshot:") := by decide
    exact (hhead.append (Schemas.ascii_of_hex _)).encodable
  have hfresh : "signature" ∉ unsigned.map Prod.fst := by
    simp only [unsigned, List.map_cons, List.mem_cons, not_or]
    exact ⟨by decide, notMem_snapshotCore config index createdAt _⟩
  obtain ⟨payload, hpayload⟩ := signaturePayload_of_encodable (Json.encodable_fields hunsigned)
  let signature := signatureObject config.receiptSigner.keyId
    (config.receiptSigner.signBytes payload)
  have haccepts : Schemas.discoveryIndexSnapshot.accepts (snapshotDocument config index createdAt
      (sha256Digest statePayload) snapshotId signature) = true :=
    h.accepts_snapshot hexportable (Schemas.hashBody_append_hex _ idPayload)
      (accepts_signature hsigner hexportable.signer payload)
  have hverify := h.verify hstate hidentity haccepts
    (checkSigned_own hsigner hfresh hpayload _) (.inl rfl)
  have hdocument : (snapshotDocument config index createdAt (sha256Digest statePayload)
      snapshotId signature).encodable = true := by
    apply Json.encodable_fields
    refine List.forall_mem_append.2 ⟨hunsigned, ?_⟩
    simp only [List.forall_mem_cons, List.not_mem_nil, false_imp_iff, implies_true, and_true]
    exact encodable_signature hexportable.signer payload
  obtain ⟨chainPayload, hchain⟩ := Schemas.digestObject_of_encodable hdocument
    (@validateDomain_of_ascii _ (str "discovery-index-snapshot-chain-v1") (by decide)
      (by decide))
  refine ⟨(snapshotDocument config index createdAt (sha256Digest statePayload) snapshotId signature,
    { index with
      nextSnapshotSequence := index.nextSnapshotSequence + 1
      previousSnapshotDigest := some (sha256Digest chainPayload) }), ?_⟩
  unfold exportSnapshot
  refine bind_eq_ok.2 ⟨_, raising_eq_ok.2 h.exportTips, ?_⟩
  refine bind_eq_ok.2 ⟨_, raising_eq_ok.2 hstate, ?_⟩
  refine bind_eq_ok.2 ⟨_, raising_eq_ok.2 hidentity, ?_⟩
  refine bind_eq_ok.2 ⟨_, raising_eq_ok.2 (sign_fields _ hfresh hpayload), ?_⟩
  refine bind_eq_ok.2 ⟨_, hverify, ?_⟩
  exact bind_eq_ok.2 ⟨_, raising_eq_ok.2 hchain, rfl⟩

/-- An export that returns has met the schema. -/
theorem Sound.exportable {index' : Index} {snapshot : Json} (h : Sound config index)
    (hexport : exportSnapshot config createdAt index = .ok (snapshot, index')) :
    Exportable config index createdAt := by
  obtain ⟨stateDigest, snapshotId, payload, rfl, -, -, haccepts, -⟩ := h.exported hexport
  obtain ⟨-, -, hproperties⟩ := Schema.accepts_closed_fields.1 haccepts
  refine ⟨?_, ?_, ?_, ?_⟩
  · exact hproperties ("created_at", Schemas.timestamp) (by simp) _ rfl
  · have hsignature := hproperties ("signature", Schemas.signature) (by simp)
      (signatureObject config.receiptSigner.keyId (config.receiptSigner.signBytes payload)) (by
        unfold snapshotFields admissionStateFields
        cases config.admissionPolicy <;> rfl)
    exact keyId_of_signatureObject hsignature
  · intro source hsource
    have hsources := hproperties
      ("trusted_sources", Schemas.boundedSet 1000 Schemas.trustedSource) (by simp) _ rfl
    have hitems : (Schema.items Schemas.trustedSource).accepts
        (.arr (sourceDocuments config.trustedSources)) = true :=
      Schema.accepts_keywords hsources (by simp)
    have hdocument := List.all_eq_true.1 hitems (trustedSourceDocument source)
      (List.mem_map.2 ⟨source, (List.mem_insertionSort _).2 hsource, rfl⟩)
    obtain ⟨-, -, hfields⟩ := Schema.accepts_closed_fields.1 hdocument
    exact hfields ("key_id", Schemas.id) (by simp) _ rfl
  · cases hpolicy : config.admissionPolicy with
    | none =>
      rw [h.history.empty hpolicy]
      simp
    | some policy =>
      have hstate := hproperties ("admission_state", .closed ["policy_digest", "semantic_history"]
        [("policy_digest", Schemas.digest),
          ("semantic_history", Schemas.boundedArray 25000 Schemas.semanticHistoryEntry)])
        (by simp)
        (.fields [("policy_digest", .str policy.digest),
          ("semantic_history", .arr (index.semanticHistory.toList.map historyEntry))])
        (by
          unfold snapshotFields admissionStateFields
          rw [hpolicy]
          rfl)
      obtain ⟨-, -, hfields⟩ := Schema.accepts_closed_fields.1 hstate
      have hentries := hfields
        ("semantic_history", Schemas.boundedArray 25000 Schemas.semanticHistoryEntry)
        (by simp) _ rfl
      have hlength := (Schemas.accepts_boundedArray.1 hentries).1
      rwa [List.length_map, Std.ExtTreeMap.length_toList] at hlength

/-! ## The round trip -/

/-- After any calls, every snapshot that an export returns restores to the index after
the export, which further calls cannot tell apart from the exported one; and with
a lawful signer an export returns exactly when its arguments and the arrays of the
index meet the schema. -/
theorem snapshot_round_trip (config : Config) (calls : List Call) (createdAt : Str) :
    (∀ snapshot index',
      exportSnapshot config createdAt (performed config Index.empty calls) =
        .ok (snapshot, index') →
      ∃ snapshotId restored,
        snapshot.textItem (str "snapshot_id") = .ok snapshotId ∧
        restore snapshot snapshotId config.tenantId config.receiptSigner.trustedKey
            config.trustedSources config.receiptSigner config.admissionPolicy
            (config.admissionPolicy.map DiscoveryAdmissionPolicy.digest) =
          .ok (config, restored) ∧
        restored.sourceTips = (performed config Index.empty calls).sourceTips ∧
        restored.sourceTipRecords = (performed config Index.empty calls).sourceTipRecords ∧
        restored.active = (performed config Index.empty calls).active ∧
        restored.semanticHistory = (performed config Index.empty calls).semanticHistory ∧
        restored.nextSnapshotSequence = index'.nextSnapshotSequence ∧
        restored.previousSnapshotDigest = index'.previousSnapshotDigest ∧
        ∀ more, answers config restored more = answers config index' more ∧
          Alike (performed config restored more) (performed config index' more)) ∧
    (config.receiptSigner.Lawful →
      ((∃ result, exportSnapshot config createdAt (performed config Index.empty calls) =
          .ok result) ↔
        Exportable config (performed config Index.empty calls) createdAt)) := by
  have hsound := (Sound.empty config).performed calls
  constructor
  · intro snapshot index' hexport
    obtain ⟨snapshotId, hid, hrestore⟩ := hsound.restore hexport
    obtain ⟨digest, -, rfl⟩ := exportSnapshot_eq_ok hexport
    refine ⟨snapshotId, _, hid, hrestore, rfl, rfl, rfl, rfl, rfl, rfl, ?_⟩
    intro more
    refine answers_alike config ?_ more
    rfl
  · intro hsigner
    constructor
    · rintro ⟨⟨snapshot, index'⟩, hexport⟩
      exact hsound.exportable hexport
    · exact hsound.exports hsigner

end

namespace Sample

attribute [local instance] asciiUnicodeData ed25519

theorem lawful (signer : Ed25519Signer) : signer.Lawful where
  length payload := by
    show (signatureOf payload).length = 64
    unfold signatureOf
    split <;> rfl
  verify payload := by
    show (signatureOf payload == signatureOf payload) = true
    exact beq_self_eq_true _

theorem exportable : Exportable (config (some policy)) Index.empty (str "2026-01-01T00:00:00Z") where
  createdAt := by decide
  signer := by decide
  sources := by
    intro source hsource
    simp only [config, List.mem_cons, List.not_mem_nil, or_false] at hsource
    rcases hsource with rfl | rfl <;> decide
  history := by decide

/-- The first snapshot of an index with a policy restores. -/
theorem first_snapshot_restores :
    ∃ snapshot index' snapshotId restored,
      exportSnapshot (config (some policy)) (str "2026-01-01T00:00:00Z") Index.empty =
        .ok (snapshot, index') ∧
      restore snapshot snapshotId (config (some policy)).tenantId
          (config (some policy)).receiptSigner.trustedKey (config (some policy)).trustedSources
          (config (some policy)).receiptSigner (some policy) (some policy.digest) =
        .ok (config (some policy), restored) := by
  obtain ⟨hrestores, hexports⟩ :=
    snapshot_round_trip (config (some policy)) [] (str "2026-01-01T00:00:00Z")
  obtain ⟨⟨snapshot, index'⟩, hexport⟩ := (hexports (lawful _)).2 exportable
  obtain ⟨snapshotId, restored, -, hrestore, -⟩ := hrestores snapshot index' hexport
  exact ⟨snapshot, index', snapshotId, restored, hexport, hrestore⟩

end Sample

end IntegrityGuardian.Discovery
