import IntegrityGuardian.Discovery.Receipts
import IntegrityGuardian.Library.Interleaving

/-!
# Batches of several sources

The records of one source read and write the tips of its epochs and the active
records and history under its own identifier.  Passes of the loop on records of
different sources can therefore be swapped, and the order in which a batch
interleaves its sources decides nothing but the digest of the batch.
-/

namespace IntegrityGuardian.Discovery

open Python Library

/-! ## One accepted record -/

/-- What an accepted record adds to a set, given the record it replaces. -/
def added (f : Record → Finset Str) (old : Option Record) (record : Record) : Finset Str :=
  match old with
  | none => f record
  | some old => f old ∪ f record

/-- The history after an accepted record. -/
def historyAfter (history : Dict ActiveKey Str) (record : Record) (identity : Option Str) :
    Dict ActiveKey Str :=
  match identity with
  | none => history
  | some identity => history.insert record.activeKey identity

/-- Whether a record counts for a combination of change and earlier record. -/
def counts (change : DiscoveryChange) (present : Bool) (old : Option Record) (record : Record) :
    Nat :=
  if record.change = change ∧ old.isSome = present then 1 else 0

/-- The staged state after an accepted record. -/
def Staged.next (s : Staged) (record : Record) (digest : Str) (identity : Option Str) : Staged :=
  let old := s.active[record.activeKey]?
  { tips := s.tips.insert record.sourceKey (record.sequence, digest)
    tipRecords := s.tipRecords.insert record.sourceKey record
    active := applyRecord s.active record
    semanticHistory := historyAfter s.semanticHistory record identity
    touchedSources := insert record.sourceKey s.touchedSources
    changedZones := s.changedZones ∪ added Record.zones old record
    crossZoneRelationIds := s.crossZoneRelationIds ∪ added Record.crossZoneRelations old record
    inserted := s.inserted + counts .upsert false old record
    updated := s.updated + counts .upsert true old record
    deleted := s.deleted + counts .delete true old record
    noOp := s.noOp + counts .delete false old record }

theorem Staged.settle_eq_next (s : Staged) (record : Record) (digest : Str)
    (identity : Option Str) :
    (s.advance record digest).settle record identity = s.next record digest identity := by
  unfold Staged.settle Staged.next
  cases hchange : record.change with
  | upsert =>
    cases hold : s.active[record.activeKey]? with
    | none =>
      cases identity <;>
        simp [Staged.remember, Staged.advance, Staged.touch, Staged.change, hold, hchange,
          added, historyAfter, counts, applyRecord]
    | some old =>
      cases identity <;>
        simp [Staged.remember, Staged.advance, Staged.touch, Staged.change, hold, hchange,
          added, historyAfter, counts, applyRecord, Finset.union_assoc]
  | delete =>
    cases hold : s.active[record.activeKey]? with
    | none =>
      cases identity <;>
        simp [Staged.remember, Staged.advance, Staged.touch, Staged.change, hold, hchange,
          added, historyAfter, counts, applyRecord, erase_of_get_none hold]
    | some old =>
      cases identity <;>
        simp [Staged.remember, Staged.advance, Staged.touch, Staged.change, hold, hchange,
          added, historyAfter, counts, applyRecord, Finset.union_assoc]

/-! ## Records of two sources -/

section Apart

variable {record record' : Record} (hsource : record.sourceId ≠ record'.sourceId)
include hsource

theorem sourceKey_ne : record.sourceKey ≠ record'.sourceKey := by
  intro h
  exact hsource (congrArg (fun k => (ofLex k).1) h)

theorem activeKey_ne : record.activeKey ≠ record'.activeKey := by
  intro h
  exact hsource (congrArg (fun k => (ofLex k).1) h)

theorem get_applyRecord_of_ne (active : Dict ActiveKey Record) :
    (applyRecord active record)[record'.activeKey]? = active[record'.activeKey]? := by
  have hne := activeKey_ne hsource
  unfold applyRecord
  cases record.change with
  | upsert => simp [Dict.get_insert, hne]
  | delete => simp [Dict.get_erase, hne]

theorem get_historyAfter_of_ne (history : Dict ActiveKey Str) (identity : Option Str) :
    (historyAfter history record identity)[record'.activeKey]? = history[record'.activeKey]? := by
  have hne := activeKey_ne hsource
  cases identity with
  | none => rfl
  | some identity => simp [historyAfter, Dict.get_insert, hne]

theorem applyRecord_comm (active : Dict ActiveKey Record) :
    applyRecord (applyRecord active record) record' =
      applyRecord (applyRecord active record') record := by
  have hne := activeKey_ne hsource
  unfold applyRecord
  cases record.change with
  | upsert =>
    cases record'.change with
    | upsert => exact Dict.insert_comm hne active record record'
    | delete => exact (Dict.erase_insert_comm hne.symm active record).symm
  | delete =>
    cases record'.change with
    | upsert => exact Dict.erase_insert_comm hne active record'
    | delete => exact Dict.erase_comm _ _ active

theorem historyAfter_comm (history : Dict ActiveKey Str) (identity identity' : Option Str) :
    historyAfter (historyAfter history record identity) record' identity' =
      historyAfter (historyAfter history record' identity') record identity := by
  cases identity with
  | none => rfl
  | some identity =>
    cases identity' with
    | none => rfl
    | some identity' => exact Dict.insert_comm (activeKey_ne hsource) history identity identity'

theorem Staged.next_comm (s : Staged) (digest digest' : Str) (identity identity' : Option Str) :
    (s.next record digest identity).next record' digest' identity' =
      (s.next record' digest' identity').next record digest identity := by
  have hkey := sourceKey_ne hsource
  simp only [Staged.next, Staged.mk.injEq, get_applyRecord_of_ne hsource,
    get_applyRecord_of_ne hsource.symm]
  refine ⟨Dict.insert_comm hkey _ _ _, Dict.insert_comm hkey _ _ _,
    applyRecord_comm hsource _, historyAfter_comm hsource _ _ _, Finset.insert_comm _ _ _,
    Finset.union_right_comm _ _ _, Finset.union_right_comm _ _ _, ?_, ?_, ?_, ?_⟩
  all_goals exact Nat.add_right_comm _ _ _

end Apart

section
variable [UnicodeData] [Ed25519Keys]

/-! ## Accepting passes -/

/-- The staged state moves on by an accepted record. -/
def Accepts (config : Config) (s : Staged) (raw : Json) (s' : Staged) : Prop :=
  ∃ record digest identity, receive config s.tips raw = .ok (record, digest) ∧
    Admits config s.active[record.activeKey]? s.semanticHistory[record.activeKey]? record
      identity ∧
    s' = s.next record digest identity

variable {config : Config} {tips : Dict SourceKey (Int × Str)} {raw receipt reviewPriority : Json}
  {accepted accepted' : List Record} {record : Record} {s : Staged} {digest : Str}

theorem accepts_of_stageOne {s' : Staged} {decision : Option DiscoveryAdmissionDecision}
    (h : stageOne config reviewPriority s raw = .ok (record, decision, s')) :
    Accepts config s raw s' := by
  obtain ⟨digest, hreceived, hadmission, haction, rfl⟩ := stageOne_eq_ok h
  exact ⟨record, digest, _, hreceived.receive, admits_of_admission hadmission haction,
    s.settle_eq_next record digest _⟩

theorem Admits.unique {old : Option Record} {historical : Option Str}
    {identity identity' : Option Str} (h : Admits config old historical record identity)
    (h' : Admits config old historical record identity') : identity = identity' := by
  unfold Admits at h h'
  cases hpolicy : config.admissionPolicy with
  | none =>
    simp only [hpolicy] at h h'
    rw [h, h']
  | some policy =>
    simp only [hpolicy] at h h'
    obtain ⟨-, reason, hjudge⟩ := h
    obtain ⟨-, reason', hjudge'⟩ := h'
    have hsame := Except.ok.inj (hjudge.symm.trans hjudge')
    simp only [Prod.mk.injEq] at hsame
    exact hsame.2.2

theorem Accepts.unique {t t' : Staged}
    (h : Accepts config s raw t) (h' : Accepts config s raw t') : t = t' := by
  obtain ⟨record, digest, identity, hreceive, hadmits, rfl⟩ := h
  obtain ⟨record', digest', identity', hreceive', hadmits', rfl⟩ := h'
  obtain ⟨rfl, rfl⟩ := Prod.mk.inj (Except.ok.inj (hreceive.symm.trans hreceive'))
  rw [hadmits.unique hadmits']

theorem receive_congr {tips' : Dict SourceKey (Int × Str)}
    (h : receive config tips raw = .ok (record, digest))
    (htips : tips'[record.sourceKey]? = tips[record.sourceKey]?) :
    receive config tips' raw = .ok (record, digest) := by
  have hreceive := h
  unfold receive at h
  obtain ⟨source, hsource, h⟩ := bind_eq_ok.1 h
  obtain ⟨record', hverify, h⟩ := bind_eq_ok.1 h
  have hrecord : record' = record := by
    obtain ⟨-, h⟩ := ensure_bind_eq_ok.1 h
    obtain ⟨-, h⟩ := ensure_bind_eq_ok.1 h
    obtain ⟨-, h⟩ := ensure_bind_eq_ok.1 h
    obtain ⟨_, _, h⟩ := bind_eq_ok.1 h
    cases h
    rfl
  subst hrecord
  rw [(verified_of_verify hverify).2.sourceKey] at htips
  rw [← hreceive]
  unfold receive
  rw [hsource, ok_bind, ok_bind, hverify, ok_bind, ok_bind, htips]

theorem sourceId_of_receive (h : receive config tips raw = .ok (record, digest)) :
    raw.get? (str "source_id") = some (.str record.sourceId) := by
  have hreceived := received_of_receive h
  obtain ⟨source, -, hverified⟩ := hreceived.source
  have hread := hverified.read
  rw [hreceived.document] at hread
  unfold readRecord at hread
  obtain ⟨_, _, hread⟩ := bind_eq_ok.1 hread
  obtain ⟨_, _, hread⟩ := bind_eq_ok.1 hread
  obtain ⟨sourceId, hsource, hread⟩ := bind_eq_ok.1 hread
  iterate 11 obtain ⟨_, _, hread⟩ := bind_eq_ok.1 hread
  cases hread
  unfold Json.textItem at hsource
  split at hsource
  · rename_i hitem
    cases hsource
    exact Json.item_eq_ok.1 hitem
  · cases hsource
  · cases hsource

theorem Accepts.swap {t u : Staged} {raw' : Json}
    (hsource : raw.get? (str "source_id") ≠ raw'.get? (str "source_id"))
    (h : Accepts config s raw t) (h' : Accepts config t raw' u) :
    ∃ t', Accepts config s raw' t' ∧ Accepts config t' raw u := by
  obtain ⟨record, digest, identity, hreceive, hadmits, rfl⟩ := h
  obtain ⟨record', digest', identity', hreceive', hadmits', rfl⟩ := h'
  have hne : record.sourceId ≠ record'.sourceId := by
    intro hsame
    rw [sourceId_of_receive hreceive, sourceId_of_receive hreceive', hsame] at hsource
    exact hsource rfl
  have hkey := sourceKey_ne hne
  refine ⟨s.next record' digest' identity', ?_, ?_⟩
  · refine ⟨record', digest', identity', ?_, ?_, rfl⟩
    · apply receive_congr hreceive'
      simp [Staged.next, Dict.get_insert, hkey]
    · simpa only [Staged.next, get_applyRecord_of_ne hne, get_historyAfter_of_ne hne] using hadmits'
  · refine ⟨record, digest, identity, ?_, ?_, s.next_comm hne digest digest' identity identity'⟩
    · apply receive_congr hreceive
      simp [Staged.next, Dict.get_insert, hkey.symm]
    · simpa only [Staged.next, get_applyRecord_of_ne hne.symm, get_historyAfter_of_ne hne.symm]
        using hadmits

theorem steps_of_stageEach {raws : List Json} {s' : Staged}
    {decisions decisions' : List DiscoveryAdmissionDecision}
    (h : stageEach config reviewPriority raws s accepted decisions =
      .staged s' accepted' decisions') :
    Steps (Accepts config) s raws s' ∧ accepted'.length = accepted.length + raws.length := by
  induction raws generalizing s accepted decisions with
  | nil =>
    cases h
    exact ⟨.nil _, rfl⟩
  | cons raw rest ih =>
    simp only [stageEach] at h
    split at h
    · cases h
    · cases h
    · rename_i record decision t hone
      obtain ⟨hsteps, hlength⟩ := ih h
      refine ⟨.cons (accepts_of_stageOne hone) hsteps, ?_⟩
      simp only [List.length_append, List.length_cons, List.length_nil] at hlength ⊢
      omega

/-! ## Receipts -/

theorem issueReceipt_eq_ok (h : issueReceipt config s accepted = .ok receipt) :
    ∃ batchDigest receiptId signature, receipt = .fields ((("receipt_id", .str receiptId) ::
      receiptFields config s accepted batchDigest) ++ [("signature", signature)]) := by
  unfold issueReceipt at h
  obtain ⟨-, h⟩ := ensure_bind_eq_ok.1 h
  obtain ⟨-, h⟩ := ensure_bind_eq_ok.1 h
  obtain ⟨-, h⟩ := ensure_bind_eq_ok.1 h
  obtain ⟨batchDigest, _, h⟩ := bind_eq_ok.1 h
  obtain ⟨receiptId, _, h⟩ := bind_eq_ok.1 h
  obtain ⟨receipt', hsign, h⟩ := bind_eq_ok.1 h
  obtain ⟨⟨⟩, _, h⟩ := bind_eq_ok.1 h
  cases h
  rw [raising_eq_ok] at hsign
  unfold Ed25519Signer.sign at hsign
  obtain ⟨payload, _, hsign⟩ := bind_eq_ok.1 hsign
  cases hsign
  exact ⟨batchDigest, receiptId, _, Json.set_fields (by simp [receiptFields]) _⟩

/-- Receipts for one staged state differ in the digest of the batch, and in the
identity and signature over it. -/
theorem receipts_agree {receipt' : Json} (hlength : accepted.length = accepted'.length)
    (h : issueReceipt config s accepted = .ok receipt)
    (h' : issueReceipt config s accepted' = .ok receipt') {key : Str}
    (hbatch : key ≠ str "batch_digest") (hreceipt : key ≠ str "receipt_id")
    (hsignature : key ≠ str "signature") : receipt.get? key = receipt'.get? key := by
  obtain ⟨batchDigest, receiptId, signature, rfl⟩ := issueReceipt_eq_ok h
  obtain ⟨batchDigest', receiptId', signature', rfl⟩ := issueReceipt_eq_ok h'
  have hb : (key == str "batch_digest") = false := by simpa using hbatch
  have hr : (key == str "receipt_id") = false := by simpa using hreceipt
  have hs : (key == str "signature") = false := by simpa using hsignature
  simp only [Json.fields, Json.get?, receiptFields, List.cons_append, List.nil_append,
    List.map_cons, List.map_nil, List.lookup_cons, hb, hr, hs, hlength]

/-- Two accepted batches that interleave the same records of each source leave the
same tips, active records and history, and receipts that differ in the digest of
the batch only. -/
theorem delta_application_confluent (config : Config) (index : Index)
    (batch batch' : List Json) (reviewPriority reviewPriority' : Json)
    (hsame : SameSequences (fun raw : Json => raw.get? (str "source_id")) batch batch')
    {receipt receipt' : Json} {index' index'' : Index}
    (h : apply config batch reviewPriority index = (.ok receipt, index'))
    (h' : apply config batch' reviewPriority' index = (.ok receipt', index'')) :
    index'.sourceTips = index''.sourceTips ∧ index'.sourceTipRecords = index''.sourceTipRecords ∧
      index'.active = index''.active ∧ index'.semanticHistory = index''.semanticHistory ∧
      ∀ key, key ≠ str "batch_digest" → key ≠ str "receipt_id" → key ≠ str "signature" →
        receipt.get? key = receipt'.get? key := by
  obtain ⟨s, accepted, decisions, hstage, hissue, rfl⟩ := apply_eq_ok h
  obtain ⟨s', accepted', decisions', hstage', hissue', rfl⟩ := apply_eq_ok h'
  obtain ⟨hsteps, hlength⟩ := steps_of_stageEach hstage
  obtain ⟨hsteps', hlength'⟩ := steps_of_stageEach hstage'
  have hinterleaved : Steps (Accepts config) (Staged.start index) batch' s :=
    hsteps.interleave (fun _ _ _ _ _ hne h h' => h.swap hne h') hsame
  obtain rfl : s = s' :=
    hinterleaved.unique (fun _ _ _ _ h h' => h.unique h') hsteps'
  refine ⟨rfl, rfl, rfl, rfl, ?_⟩
  intro key hbatch hreceipt hsignature
  apply receipts_agree _ hissue hissue' hbatch hreceipt hsignature
  rw [hlength, hlength', hsame.length_eq]

end

namespace Sample

attribute [local instance] asciiUnicodeData ed25519

/-- The variables of `apply` after two records. -/
def staged (first second : Record) (digest digest' : Str) : Staged :=
  (((((Staged.start Index.empty).advance first digest).settle first none).advance second
    digest').settle second none)

theorem accepted_of_received {raw raw' : Json} {first second : Record} {digest digest' : Str}
    (h : receive (config none) ∅ raw = .ok (first, digest))
    (h' : receive (config none) ((∅ : Dict SourceKey (Int × Str)).insert first.sourceKey
      (first.sequence, digest)) raw' = .ok (second, digest'))
    (hissuable : Issuable (config none) (staged first second digest digest') [first, second]) :
    ∃ receipt index,
      apply (config none) [raw, raw'] (.int 0) Index.empty = (.ok receipt, index) := by
  have hfirst : stageOne (config none) (.int 0) (Staged.start Index.empty) raw =
      .ok (first, none, ((Staged.start Index.empty).advance first digest).settle first none) := by
    unfold stageOne
    rw [show (Staged.start Index.empty).tips = ∅ from rfl, h]
    rfl
  have htips : (((Staged.start Index.empty).advance first digest).settle first none).tips =
      (∅ : Dict SourceKey (Int × Str)).insert first.sourceKey (first.sequence, digest) :=
    (Staged.settle_tips _ _ _).1
  have hsecond : stageOne (config none) (.int 0)
      (((Staged.start Index.empty).advance first digest).settle first none) raw' =
      .ok (second, none, staged first second digest digest') := by
    unfold stageOne
    rw [htips, h']
    rfl
  obtain ⟨receipt, hreceipt⟩ := hissuable.returns (lawful _)
  refine ⟨receipt, Index.empty.commit (staged first second digest digest') [], ?_⟩
  unfold apply
  rw [if_pos (by simp), stageEach, hfirst]
  simp only [stageEach, hsecond, List.nil_append, List.cons_append, Option.toList, hreceipt]

theorem issuable_bound_first : Issuable (config none)
    (staged bound unbound boundDigest unboundDigest) [bound, unbound] := by
  constructor <;> decide +kernel

theorem issuable_unbound_first : Issuable (config none)
    (staged unbound bound unboundDigest boundDigest) [unbound, bound] := by
  constructor <;> decide +kernel

theorem accepted_bound_first :
    ∃ receipt index, apply (config none) [boundRecord, unboundRecord] (.int 0) Index.empty =
      (.ok receipt, index) := by
  have hsource : trustedSourceOf (config none) unboundRecord =
      .ok (source "b" (by decide +kernel)) := rfl
  have hfresh : ((∅ : Dict SourceKey (Int × Str)).insert bound.sourceKey
      (bound.sequence, boundDigest))[(source "b" (by decide +kernel)).key]? = none := by
    decide +kernel
  exact accepted_of_received received.1 (receive_first hsource hfresh received.2)
    issuable_bound_first

theorem accepted_unbound_first :
    ∃ receipt index, apply (config none) [unboundRecord, boundRecord] (.int 0) Index.empty =
      (.ok receipt, index) := by
  have hsource : trustedSourceOf (config none) boundRecord =
      .ok (source "a" (by decide +kernel)) := rfl
  have hfresh : ((∅ : Dict SourceKey (Int × Str)).insert unbound.sourceKey
      (unbound.sequence, unboundDigest))[(source "a" (by decide +kernel)).key]? = none := by
    decide +kernel
  exact accepted_of_received received.2 (receive_first hsource hfresh received.1)
    issuable_unbound_first

theorem sameSequences_swapped :
    SameSequences (fun raw : Json => raw.get? (str "source_id")) [boundRecord, unboundRecord]
      [unboundRecord, boundRecord] := by
  have hne : boundRecord.get? (str "source_id") ≠ unboundRecord.get? (str "source_id") := by
    decide +kernel
  intro k
  by_cases hbound : boundRecord.get? (str "source_id") = k
  · have hunbound : unboundRecord.get? (str "source_id") ≠ k := by
      rw [← hbound]
      exact hne.symm
    simp [hbound, hunbound]
  · simp [hbound, List.filter_cons]

/-- The first records of two sources, in both orders. -/
theorem two_sources_confluent :
    ∃ receipt receipt' index index',
      apply (config none) [boundRecord, unboundRecord] (.int 0) Index.empty = (.ok receipt, index) ∧
      apply (config none) [unboundRecord, boundRecord] (.int 0) Index.empty =
        (.ok receipt', index') ∧
      index.active = index'.active ∧
      receipt.get? (str "source_tips") = receipt'.get? (str "source_tips") := by
  obtain ⟨receipt, index, h⟩ := accepted_bound_first
  obtain ⟨receipt', index', h'⟩ := accepted_unbound_first
  obtain ⟨-, -, hactive, -, hfields⟩ := delta_application_confluent (config none) Index.empty
    [boundRecord, unboundRecord] [unboundRecord, boundRecord] (.int 0) (.int 0)
    sameSequences_swapped h h'
  exact ⟨receipt, receipt', index, index', h, h', hactive,
    hfields _ (by decide) (by decide) (by decide)⟩

end Sample

end IntegrityGuardian.Discovery
