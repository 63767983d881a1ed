import IntegrityGuardian.Discovery.RoundTrip

/-!
# Receipts that return

Past the limits that `apply` checks itself, a batch of verified records always
gets its receipt: the document it signs passes the schema and its own verification.
-/

namespace IntegrityGuardian.Discovery

open Python Library

section
variable [UnicodeData] [Ed25519Keys]

/-- What a staged batch brings to its receipt. -/
structure Issuable (config : Config) (s : Staged) (accepted : List Record) : Prop where
  signer : Schemas.id.accepts (.str config.receiptSigner.keyId) = true
  active : s.active.size ≤ 25000
  history : s.semanticHistory.size ≤ 25000
  zones : s.changedZones.card ≤ 256
  relations : s.crossZoneRelationIds.card ≤ 1000
  length_le : accepted.length ≤ 1000
  touched : s.touchedSources.card ≤ 1000
  counts : accepted.length = s.inserted + s.updated + s.deleted + s.noOp
  documents : ∀ record ∈ accepted, record.document.encodable = true
  zoneIds : ∀ zone ∈ s.changedZones, Schemas.idBody zone = true
  relationIds : ∀ relation ∈ s.crossZoneRelationIds, Schemas.idBody relation = true
  tips : ∀ key ∈ s.touchedSources, ∀ tip, s.tips[key]? = some tip →
    0 ≤ tip.1 ∧ Schemas.digestBody tip.2 = true

variable {config : Config} {s : Staged} {accepted : List Record}

/-- The tips of a receipt, with the sources they name. -/
def tipSources (config : Config) (s : Staged) : List ((Int × Str) × TrustedDiscoverySource) :=
  (ascending s.touchedSources).filterMap fun key => do
    let tip ← s.tips[key]?
    let source ← config.trusted key
    some (tip, source)

theorem receiptTips_eq (config : Config) (s : Staged) :
    receiptTips config s =
      (tipSources config s).map fun entry => .fields (tipFields entry.2 entry.1) := by
  unfold receiptTips tipSources
  rw [List.map_filterMap]
  congr 1
  funext key
  cases s.tips[key]? with
  | none => rfl
  | some tip =>
    cases config.trusted key <;> rfl

theorem mem_tipSources {entry : (Int × Str) × TrustedDiscoverySource}
    (h : entry ∈ tipSources config s) :
    entry.2.key ∈ s.touchedSources ∧ s.tips[entry.2.key]? = some entry.1 := by
  obtain ⟨key, hkey, hentry⟩ := List.mem_filterMap.1 h
  cases htip : s.tips[key]? with
  | none => simp [htip] at hentry
  | some tip =>
    cases htrusted : config.trusted key with
    | none => simp [htip, htrusted] at hentry
    | some source =>
      simp only [htip, htrusted, Option.bind_eq_bind, Option.bind_some,
        Option.some.injEq] at hentry
      subst hentry
      rw [(trusted_key htrusted).2]
      exact ⟨mem_ascending.1 hkey, htip⟩

theorem tipSources_keys_sublist (config : Config) (s : Staged) :
    ((tipSources config s).map fun entry => entry.2.key).Sublist (ascending s.touchedSources) := by
  unfold tipSources
  generalize ascending s.touchedSources = keys
  induction keys with
  | nil => exact .slnil
  | cons key keys ih =>
    rw [List.filterMap_cons]
    cases htip : s.tips[key]? with
    | none => simpa [htip] using ih.cons key
    | some tip =>
      cases htrusted : config.trusted key with
      | none => simpa [htip, htrusted] using ih.cons key
      | some source =>
        have hkey := (trusted_key htrusted).2
        simp only [Option.bind_eq_bind, Option.bind_some, List.map_cons, hkey]
        exact ih.cons_cons key

/-! ## Arrays of a receipt -/

omit [UnicodeData] [Ed25519Keys] in
theorem textsItem_fields {fs : List (String × Json)} {key : String} {texts : List Str}
    (h : fs.lookup key = some (.arr (texts.map .str))) :
    textsItem (.fields fs) (str key) = .ok texts := by
  have hread : (texts.map Json.str).mapM Json.asText = .ok texts := by
    rw [mapM_eq_ok, List.forall₂_map_left_iff, List.forall₂_same]
    intro text _
    rfl
  unfold textsItem
  rw [Json.arrayItem_fields h, ok_bind, hread]

variable {ids : Finset Str}

omit [UnicodeData] [Ed25519Keys] in
theorem accepts_ids {most : Nat} (hcard : ids.card ≤ most)
    (hids : ∀ id ∈ ids, Schemas.idBody id = true) :
    (Schemas.boundedSet most Schemas.id).accepts (.arr ((ascending ids).map .str)) = true := by
  have hnodup : (ascending ids).Nodup := (ascending_pairwise ids).imp fun hlt => hlt.ne
  apply Schemas.accepts_boundedSet
  · rwa [List.length_map, length_ascending]
  · rw [List.map_map]
    exact hnodup.map fun _ _ heq => Json.str.inj heq
  · intro v hv
    obtain ⟨id, hid, rfl⟩ := List.mem_map.1 hv
    exact Schemas.accepts_matching_of (hids id (mem_ascending.1 hid))

omit [UnicodeData] [Ed25519Keys] in
theorem encodable_ids (hids : ∀ id ∈ ids, Schemas.idBody id = true) :
    (Json.arr ((ascending ids).map .str)).encodable = true := by
  rw [Json.encodable, Json.encodableItems_iff]
  intro v hv
  obtain ⟨id, hid, rfl⟩ := List.mem_map.1 hv
  exact Schemas.encodable_of_idBody (hids id (mem_ascending.1 hid))

omit [UnicodeData] in
theorem sourceKeyOf_tipFields (source : TrustedDiscoverySource) (tip : Int × Str) :
    sourceKeyOf (.fields (tipFields source tip)) = .ok source.key := by
  unfold sourceKeyOf tipFields
  rw [Json.textItem_fields rfl, Json.textItem_fields rfl]
  rfl

theorem tipKeys_pairwise (config : Config) (s : Staged) :
    ((tipSources config s).map fun entry => entry.2.key).Pairwise (· < ·) :=
  (ascending_pairwise s.touchedSources).sublist (tipSources_keys_sublist config s)

theorem sourceKeys_receiptTips (config : Config) (s : Staged) :
    (receiptTips config s).map sourceKeyOf =
      ((tipSources config s).map fun entry => entry.2.key).map .ok := by
  rw [receiptTips_eq, List.map_map, List.map_map]
  apply List.map_congr_left
  intro entry _
  exact sourceKeyOf_tipFields entry.2 entry.1

namespace Issuable

theorem accepts_tips (h : Issuable config s accepted) :
    (Schemas.boundedSet 1000 Schemas.receiptTip).accepts (.arr (receiptTips config s)) = true := by
  apply Schemas.accepts_boundedSet
  · have hle := (tipSources_keys_sublist config s).length_le
    rw [List.length_map, length_ascending] at hle
    rw [receiptTips_eq, List.length_map]
    exact hle.trans h.touched
  · apply nodup_sortKeys_of_sourceKeys _ _ (sourceKeys_receiptTips config s)
    · exact (tipKeys_pairwise config s).imp fun hlt => hlt.ne
    · rw [receiptTips_eq]
      intro document hdocument
      obtain ⟨entry, -, rfl⟩ := List.mem_map.1 hdocument
      apply Json.wf_fields
      · simp [tipFields]
      · simp [tipFields, Json.wf]
  · rw [receiptTips_eq]
    intro document hdocument
    obtain ⟨⟨⟨sequence, digest⟩, source⟩, hentry, rfl⟩ := List.mem_map.1 hdocument
    obtain ⟨htouched, htip⟩ := mem_tipSources hentry
    obtain ⟨hnonneg, hdigest⟩ := h.tips _ htouched _ htip
    have hsequence : Schemas.natural.accepts (.int sequence) = true := by
      simpa [Schemas.natural, Schema.keywords, Schema.ofType, Schema.minimum, JsonType.of]
        using hnonneg
    apply Schema.accepts_closed_fields.2
    refine ⟨by simp [tipFields], by simp [tipFields, List.lookup_cons], ?_⟩
    simp only [List.forall_mem_cons, List.not_mem_nil, false_imp_iff, implies_true, and_true]
    exact ⟨Schema.accepts_of_lookup rfl (Schemas.accepts_matching_of source.sourceId_valid),
      Schema.accepts_of_lookup rfl (Schemas.accepts_matching_of source.sourceEpoch_valid),
      Schema.accepts_of_lookup rfl hsequence,
      Schema.accepts_of_lookup rfl (Schemas.accepts_matching_of hdigest),
      Schema.accepts_of_lookup rfl
        (Schemas.accepts_matching_of source.sourceArtifactDigest_valid)⟩

theorem encodable_tips (h : Issuable config s accepted) :
    (Json.arr (receiptTips config s)).encodable = true := by
  rw [Json.encodable, Json.encodableItems_iff, receiptTips_eq]
  intro document hdocument
  obtain ⟨⟨⟨sequence, digest⟩, source⟩, hentry, rfl⟩ := List.mem_map.1 hdocument
  obtain ⟨htouched, htip⟩ := mem_tipSources hentry
  obtain ⟨-, hdigest⟩ := h.tips _ htouched _ htip
  apply Json.encodable_fields
  simp only [tipFields, List.forall_mem_cons, List.not_mem_nil, false_imp_iff, implies_true,
    and_true]
  exact ⟨Schemas.encodable_of_idBody source.sourceId_valid,
    Schemas.encodable_of_idBody source.sourceEpoch_valid, rfl,
    Schemas.encodable_of_digestBody hdigest,
    Schemas.encodable_of_digestBody source.sourceArtifactDigest_valid⟩

/-! ## The document -/

theorem encodable_core (h : Issuable config s accepted) (payload : Bytes) :
    ∀ f ∈ receiptFields config s accepted (sha256Digest payload), f.2.encodable = true := by
  simp only [receiptFields, List.forall_mem_cons, List.not_mem_nil, false_imp_iff, implies_true,
    and_true]
  exact ⟨by decide, (Schemas.ascii_of_tenantBody config.tenantId_valid).encodable,
    Schemas.encodable_sha256Digest payload, rfl, rfl, rfl, rfl, rfl, rfl, encodable_ids h.zoneIds,
    encodable_ids h.relationIds, h.encodable_tips, by decide⟩

theorem accepts_receipt (h : Issuable config s accepted) {receiptId : Str} {payload : Bytes}
    {signature : Json} (hid : Schemas.hashBody "discovery-delta-receipt:" receiptId = true)
    (hsignature : Schemas.signature.accepts signature = true) :
    Schemas.discoveryDeltaReceipt.accepts (.fields ((("receipt_id", .str receiptId) ::
      receiptFields config s accepted (sha256Digest payload)) ++ [("signature", signature)])) =
        true := by
  have hcount : ∀ (greatest n : Nat), n ≤ greatest →
      (Schemas.boundedNatural greatest).accepts (.int n) = true := by
    intro greatest n hle
    simp only [Schemas.boundedNatural, Schema.keywords, Schema.ofType, Schema.minimum,
      Schema.maximum, JsonType.of, List.all_cons, List.all_nil, beq_self_eq_true, Bool.and_true,
      Bool.true_and, Bool.and_eq_true, decide_eq_true_eq]
    omega
  have hcounts := h.counts
  have hlength := h.length_le
  apply Schema.accepts_closed_fields.2
  refine ⟨by simp [receiptFields], by simp [receiptFields, List.lookup_cons], ?_⟩
  simp only [List.forall_mem_cons, List.not_mem_nil, false_imp_iff, implies_true, and_true]
  exact ⟨Schema.accepts_of_lookup rfl (Schemas.accepts_const _),
    Schema.accepts_of_lookup rfl (Schemas.accepts_matching_of hid),
    Schema.accepts_of_lookup rfl (Schemas.accepts_matching_of config.tenantId_valid),
    Schema.accepts_of_lookup rfl (Schemas.accepts_sha256Digest payload),
    Schema.accepts_of_lookup rfl (hcount 1000 _ hlength),
    Schema.accepts_of_lookup rfl (hcount 1000 _ (by omega)),
    Schema.accepts_of_lookup rfl (hcount 1000 _ (by omega)),
    Schema.accepts_of_lookup rfl (hcount 1000 _ (by omega)),
    Schema.accepts_of_lookup rfl (hcount 1000 _ (by omega)),
    Schema.accepts_of_lookup rfl (hcount 25000 _ h.active),
    Schema.accepts_of_lookup rfl (accepts_ids h.zones h.zoneIds),
    Schema.accepts_of_lookup rfl (accepts_ids h.relations h.relationIds),
    Schema.accepts_of_lookup rfl h.accepts_tips, Schema.accepts_of_lookup rfl (by decide),
    Schema.accepts_of_lookup rfl hsignature⟩

end Issuable

theorem identity_receipt (config : Config) (s : Staged) (accepted : List Record)
    (batchDigest receiptId : Str) (signature : Json) :
    discoveryDeltaReceiptIdentity (.fields ((("receipt_id", .str receiptId) ::
        receiptFields config s accepted batchDigest) ++ [("signature", signature)])) =
      discoveryDeltaReceiptIdentity (.fields (receiptFields config s accepted batchDigest)) := by
  have htail : ([("signature", signature)].filter (fun f : String × Json =>
      f.1 != "receipt_id")).filter (fun f => f.1 != "signature") = [] := by simp
  have hhead : (("receipt_id", Json.str receiptId) ::
      receiptFields config s accepted batchDigest).filter (fun f => f.1 != "receipt_id") =
      (receiptFields config s accepted batchDigest).filter (fun f => f.1 != "receipt_id") :=
    List.filter_cons_of_neg (by simp)
  unfold discoveryDeltaReceiptIdentity
  rw [Json.pop_fields, Json.pop_fields, Json.pop_fields, Json.pop_fields, List.filter_append,
    List.filter_append, hhead, htail, List.append_nil]

/-- The limits are all that can keep a staged batch from its receipt. -/
theorem Issuable.returns (h : Issuable config s accepted)
    (hsigner : config.receiptSigner.Lawful) :
    ∃ receipt, issueReceipt config s accepted = .ok receipt := by
  have hdocuments : (Json.arr (accepted.map Record.document)).encodable = true := by
    rw [Json.encodable, Json.encodableItems_iff]
    intro document hdocument
    obtain ⟨record, hrecord, rfl⟩ := List.mem_map.1 hdocument
    exact h.documents record hrecord
  obtain ⟨batch, hbatch⟩ := Schemas.digestObject_of_encodable hdocuments
    (@validateDomain_of_ascii _ (str "discovery-delta-batch-v1") (by decide) (by decide))
  have hcore := h.encodable_core batch
  let core := receiptFields config s accepted (sha256Digest batch)
  obtain ⟨idPayload, hdigest⟩ := Schemas.digestObject_of_encodable
    (Json.encodable_pop (Json.encodable_pop (Json.encodable_fields hcore) (str "receipt_id"))
      (str "signature"))
    (@validateDomain_of_ascii _ (str "discovery-delta-receipt-identity-v1") (by decide)
      (by decide))
  let receiptId := str "discovery-delta-receipt:" ++ hex (sha256 idPayload)
  have hidentity : discoveryDeltaReceiptIdentity (.fields core) = .ok receiptId :=
    bind_eq_ok.2 ⟨_, hdigest, rfl⟩
  let unsigned := ("receipt_id", Json.str receiptId) :: core
  have hunsigned : ∀ f ∈ unsigned, f.2.encodable = true := by
    refine List.forall_mem_cons.2 ⟨?_, hcore⟩
    have hhead : Schemas.Ascii (str "discovery-delta-receipt:") := by decide
    exact (hhead.append (Schemas.ascii_of_hex _)).encodable
  have hfresh : "signature" ∉ unsigned.map Prod.fst := by simp [unsigned, core, receiptFields]
  obtain ⟨payload, hpayload⟩ := signaturePayload_of_encodable (Json.encodable_fields hunsigned)
  let signature := signatureObject config.receiptSigner.keyId
    (config.receiptSigner.signBytes payload)
  have haccepts : Schemas.discoveryDeltaReceipt.accepts
      (.fields (unsigned ++ [("signature", signature)])) = true :=
    h.accepts_receipt (Schemas.hashBody_append_hex _ idPayload)
      (accepts_signature hsigner h.signer payload)
  have hkeys : (receiptTips config s).mapM sourceKeyOf =
      .ok ((tipSources config s).map fun entry => entry.2.key) := by
    rw [receiptTips_eq, mapM_eq_ok, List.forall₂_map_left_iff, List.forall₂_map_right_iff,
      List.forall₂_same]
    intro entry _
    exact sourceKeyOf_tipFields entry.2 entry.1
  have hcounts := h.counts
  refine ⟨.fields (unsigned ++ [("signature", signature)]), ?_⟩
  unfold issueReceipt
  refine ensure_bind_eq_ok.2 ⟨h.active, ensure_bind_eq_ok.2 ⟨h.history,
    ensure_bind_eq_ok.2 ⟨h.zones, ?_⟩⟩⟩
  refine bind_eq_ok.2 ⟨_, raising_eq_ok.2 hbatch, ?_⟩
  refine bind_eq_ok.2 ⟨_, raising_eq_ok.2 hidentity, ?_⟩
  refine bind_eq_ok.2 ⟨_, raising_eq_ok.2 (sign_fields _ hfresh hpayload), ?_⟩
  refine bind_eq_ok.2 ⟨(), ?_, rfl⟩
  unfold verifyDiscoveryDeltaReceipt
  refine ensure_bind_eq_ok.2 ⟨haccepts, ?_⟩
  refine bind_eq_ok.2 ⟨receiptId, raising_eq_ok.2 (Json.textItem_fields rfl), ?_⟩
  refine bind_eq_ok.2 ⟨receiptId, ?_, ensure_bind_eq_ok.2 ⟨rfl, ?_⟩⟩
  · rw [identity_receipt, hidentity, raising_ok]
  refine bind_eq_ok.2 ⟨(), checkSigned_own hsigner hfresh hpayload _, ?_⟩
  refine bind_eq_ok.2 ⟨config.tenantId, raising_eq_ok.2 (Json.textItem_fields rfl), ?_⟩
  refine bind_eq_ok.2 ⟨(), ensureExpected_some.2 rfl, ?_⟩
  refine bind_eq_ok.2 ⟨indexBoundary, raising_eq_ok.2 (Json.item_fields rfl), ?_⟩
  refine ensure_bind_eq_ok.2 ⟨rfl, ?_⟩
  refine bind_eq_ok.2 ⟨_, raising_eq_ok.2 (textsItem_fields rfl), ?_⟩
  refine ensure_bind_eq_ok.2 ⟨ascending_pairwise _, ?_⟩
  refine bind_eq_ok.2 ⟨_, raising_eq_ok.2 (textsItem_fields rfl), ?_⟩
  refine ensure_bind_eq_ok.2 ⟨ascending_pairwise _, ?_⟩
  refine bind_eq_ok.2 ⟨receiptTips config s, raising_eq_ok.2 (Json.arrayItem_fields rfl), ?_⟩
  refine bind_eq_ok.2 ⟨_, raising_eq_ok.2 hkeys, ?_⟩
  refine ensure_bind_eq_ok.2 ⟨(tipKeys_pairwise config s).imp fun hlt => hlt.le, ?_⟩
  refine bind_eq_ok.2 ⟨(accepted.length : Int), raising_eq_ok.2 (Json.intItem_fields rfl), ?_⟩
  refine bind_eq_ok.2 ⟨(s.inserted : Int), raising_eq_ok.2 (Json.intItem_fields rfl), ?_⟩
  refine bind_eq_ok.2 ⟨(s.updated : Int), raising_eq_ok.2 (Json.intItem_fields rfl), ?_⟩
  refine bind_eq_ok.2 ⟨(s.deleted : Int), raising_eq_ok.2 (Json.intItem_fields rfl), ?_⟩
  refine bind_eq_ok.2 ⟨(s.noOp : Int), raising_eq_ok.2 (Json.intItem_fields rfl), ?_⟩
  exact ensure_of (by omega) _

end

end IntegrityGuardian.Discovery
