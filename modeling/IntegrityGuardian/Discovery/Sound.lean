import IntegrityGuardian.Discovery.Steps
import IntegrityGuardian.Discovery.Snapshot
import IntegrityGuardian.Schemas.Texts

/-!
# Sound indexes

What holds of the maps of an index after any calls: every stored record is
verified and bound to a tip of its source, and the semantic history covers the
active records.  A quarantine keeps the staged tips and history beside the old
active records, so the loop invariant also says how both have grown.
-/

namespace IntegrityGuardian.Discovery

open Python Library

section
variable [UnicodeData] [Ed25519Keys]

/-! ## Sound maps -/

/-- A record that the index verified, with its digest. -/
structure Stored (config : Config) (record : Record) (digest : Str) : Prop where
  source : ∃ source, config.trusted record.sourceKey = some source ∧
    Verified config.tenantId source record
  digest : discoveryRecordDigest record.document = .ok digest
  wf : record.document.wf = true

/-- Tips and tip records belong together. -/
def TipsSound (config : Config) (tips : Dict SourceKey (Int × Str))
    (tipRecords : Dict SourceKey Record) : Prop :=
  ∀ key : SourceKey, (tips[key]? = none ∧ tipRecords[key]? = none) ∨
    ∃ record digest, tips[key]? = some (record.sequence, digest) ∧
      tipRecords[key]? = some record ∧ record.sourceKey = key ∧ Stored config record digest

/-- Every active record is an upsert at or below the tip of its source. -/
def ActiveSound (config : Config) (tips : Dict SourceKey (Int × Str))
    (active : Dict ActiveKey Record) : Prop :=
  ∀ (key : ActiveKey) (record : Record), active[key]? = some record →
    record.activeKey = key ∧ record.change = .upsert ∧
      ∃ digest tip, Stored config record digest ∧ tips[record.sourceKey]? = some tip ∧
        record.sequence ≤ tip.1 ∧ (record.sequence = tip.1 → tip.2 = digest)

/-- The history has an entry for every active record, with its identity. -/
def Covers (config : Config) (history : Dict ActiveKey Str) (active : Dict ActiveKey Record) :
    Prop :=
  ∀ policy ∈ config.admissionPolicy, ∀ (key : ActiveKey) (record : Record),
    active[key]? = some record → ∃ identity,
      discoverySemanticIdentity policy record = .ok identity ∧ history[key]? = some identity

/-- The history is kept for a policy only, and its entries pass the schema. -/
structure HistorySound (config : Config) (history : Dict ActiveKey Str) : Prop where
  empty : config.admissionPolicy = none → history = ∅
  valid : ∀ (key : ActiveKey) (identity : Str), history[key]? = some identity →
    Schemas.semanticHistoryEntry.accepts (historyEntry (key, identity)) = true

/-- The invariant of the index. -/
structure Sound (config : Config) (index : Index) : Prop where
  tips : TipsSound config index.sourceTips index.sourceTipRecords
  active : ActiveSound config index.sourceTips index.active
  covers : Covers config index.semanticHistory index.active
  history : HistorySound config index.semanticHistory
  size_le : index.active.size ≤ 25000
  chain : index.nextSnapshotSequence = 0 ↔ index.previousSnapshotDigest = none
  digest : ∀ digest ∈ index.previousSnapshotDigest, ∃ payload, digest = sha256Digest payload

/-! ## Growth -/

/-- Every tip stays or moves on. -/
def TipsExtend (tips tips' : Dict SourceKey (Int × Str)) : Prop :=
  ∀ (key : SourceKey) (tip : Int × Str), tips[key]? = some tip →
    ∃ tip' : Int × Str, tips'[key]? = some tip' ∧ (tip' = tip ∨ tip.1 < tip'.1)

/-- Every entry stays. -/
def HistoryExtends (history history' : Dict ActiveKey Str) : Prop :=
  ∀ (key : ActiveKey) (identity : Str), history[key]? = some identity → history'[key]? = some identity

omit [UnicodeData] [Ed25519Keys] in
theorem TipsExtend.refl (tips : Dict SourceKey (Int × Str)) : TipsExtend tips tips :=
  fun _ tip h => ⟨tip, h, .inl rfl⟩

variable {config : Config} {active : Dict ActiveKey Record} {history : Dict ActiveKey Str}
  {tips tips' : Dict SourceKey (Int × Str)} {raw : Json} {record : Record} {digest : Str}

omit [UnicodeData] [Ed25519Keys] in
theorem TipsExtend.trans {tips'' : Dict SourceKey (Int × Str)}
    (h : TipsExtend tips tips') (h' : TipsExtend tips' tips'') : TipsExtend tips tips'' := by
  intro key tip htip
  obtain ⟨tip', htip', hstep⟩ := h key tip htip
  obtain ⟨tip'', htip'', hstep'⟩ := h' key tip' htip'
  refine ⟨tip'', htip'', ?_⟩
  rcases hstep with rfl | hlt
  · exact hstep'
  · rcases hstep' with rfl | hlt'
    · exact .inr hlt
    · exact .inr (hlt.trans hlt')

theorem ActiveSound.mono (h : ActiveSound config tips active)
    (htips : TipsExtend tips tips') : ActiveSound config tips' active := by
  intro key record hrecord
  obtain ⟨hkey, hchange, digest, tip, hstored, htip, hle, heq⟩ := h key record hrecord
  obtain ⟨tip', htip', hstep⟩ := htips _ _ htip
  refine ⟨hkey, hchange, digest, tip', hstored, htip', ?_⟩
  rcases hstep with rfl | hlt
  · exact ⟨hle, heq⟩
  · exact ⟨by omega, fun hsame => absurd hsame (by omega)⟩

theorem Covers.mono {history' : Dict ActiveKey Str} (h : Covers config history active)
    (hhistory : HistoryExtends history history') : Covers config history' active := by
  intro policy hpolicy key record hrecord
  obtain ⟨identity, hidentity, hentry⟩ := h policy hpolicy key record hrecord
  exact ⟨identity, hidentity, hhistory _ _ hentry⟩

/-! ## A received record -/

theorem Received.stored (h : Received config tips raw record digest)
    (hwf : raw.wf = true) : Stored config record digest :=
  ⟨h.source, h.digest, by rw [h.document]; exact hwf⟩

theorem Received.tipsExtend (h : Received config tips raw record digest) :
    TipsExtend tips (tips.insert record.sourceKey (record.sequence, digest)) := by
  intro key tip htip
  rw [Dict.get_insert]
  split
  · rename_i hkey
    subst hkey
    have hsequence := h.sequence
    rw [htip] at hsequence
    simp only [nextSequence] at hsequence
    exact ⟨_, rfl, .inr (by simp only; omega)⟩
  · exact ⟨tip, htip, .inl rfl⟩

theorem TipsSound.advance
    {tipRecords : Dict SourceKey Record} (h : TipsSound config tips tipRecords)
    (hstored : Stored config record digest) :
    TipsSound config (tips.insert record.sourceKey (record.sequence, digest))
      (tipRecords.insert record.sourceKey record) := by
  intro key
  rw [Dict.get_insert, Dict.get_insert]
  by_cases hkey : record.sourceKey = key
  · rw [if_pos hkey, if_pos hkey]
    exact .inr ⟨record, digest, rfl, rfl, hkey, hstored⟩
  · rw [if_neg hkey, if_neg hkey]
    exact h key

omit [UnicodeData] [Ed25519Keys] in
theorem get_applyRecord {found : Record}
    {key : ActiveKey} (h : (applyRecord active record)[key]? = some found) :
    (record.activeKey = key ∧ record.change = .upsert ∧ found = record) ∨
      (record.activeKey ≠ key ∧ active[key]? = some found) := by
  unfold applyRecord at h
  by_cases hkey : record.activeKey = key
  · split at h
    · rename_i hchange
      rw [Dict.get_insert, if_pos hkey] at h
      exact .inl ⟨hkey, hchange, (Option.some.inj h).symm⟩
    · rw [Dict.get_erase, if_pos hkey] at h
      cases h
  · right
    split at h
    · rw [Dict.get_insert, if_neg hkey] at h
      exact ⟨hkey, h⟩
    · rw [Dict.get_erase, if_neg hkey] at h
      exact ⟨hkey, h⟩

theorem ActiveSound.applyRecord (h : ActiveSound config tips active)
    (hstored : Stored config record digest)
    (htip : tips[record.sourceKey]? = some (record.sequence, digest)) :
    ActiveSound config tips (applyRecord active record) := by
  intro key found hfound
  rcases get_applyRecord hfound with ⟨hkey, hchange, rfl⟩ | ⟨-, hold⟩
  · exact ⟨hkey, hchange, digest, _, hstored, htip, le_rfl, fun _ => rfl⟩
  · exact h key found hold

theorem Covers.applyRecord {policy : DiscoveryAdmissionPolicy}
    {identity : Str} (h : Covers config history active)
    (hpolicy : config.admissionPolicy = some policy)
    (hidentity : discoverySemanticIdentity policy record = .ok identity)
    (hhistory : history[record.activeKey]? = some identity) :
    Covers config history (applyRecord active record) := by
  intro policy' hpolicy' key found hfound
  rcases get_applyRecord hfound with ⟨rfl, -, rfl⟩ | ⟨-, hold⟩
  · rw [hpolicy] at hpolicy'
    cases hpolicy'
    exact ⟨identity, hidentity, hhistory⟩
  · exact h policy' hpolicy' key found hold

end

/-! ## Read records -/

/-- The key of the identity inside an assertion. -/
def DiscoveryAssertionKind.identityKey : DiscoveryAssertionKind → String
  | .entity => "entity_id"
  | .relation => "relation_id"
  | .gap => "gap_id"

variable {assertion : Assertion} {v : Json}

theorem get?_of_readAssertion (h : readAssertion v = .ok assertion) :
    v.get? (str "kind") = some (.str (str assertion.kind.value)) ∧
      v.get? (str assertion.kind.identityKey) = some (.str assertion.identity) := by
  unfold readAssertion at h
  obtain ⟨kind, hkind, h⟩ := bind_eq_ok.1 h
  have hget := memberItem_eq_ok hkind
  cases kind with
  | entity =>
    obtain ⟨entityId, hid, h⟩ := bind_eq_ok.1 h
    obtain ⟨_, _, h⟩ := bind_eq_ok.1 h
    cases h
    exact ⟨hget, Json.textItem_eq_ok.1 hid⟩
  | relation =>
    obtain ⟨relationId, hid, h⟩ := bind_eq_ok.1 h
    iterate 5 obtain ⟨_, _, h⟩ := bind_eq_ok.1 h
    cases h
    exact ⟨hget, Json.textItem_eq_ok.1 hid⟩
  | gap =>
    obtain ⟨gapId, hid, h⟩ := bind_eq_ok.1 h
    iterate 2 obtain ⟨_, _, h⟩ := bind_eq_ok.1 h
    cases h
    exact ⟨hget, Json.textItem_eq_ok.1 hid⟩

/-- The fields of a record in its document. -/
structure Fields (record : Record) : Prop where
  tenantId : record.document.get? (str "tenant_id") = some (.str record.tenantId)
  sourceId : record.document.get? (str "source_id") = some (.str record.sourceId)
  sourceEpoch : record.document.get? (str "source_epoch") = some (.str record.sourceEpoch)
  sequence : record.document.get? (str "sequence") = some (.int record.sequence)
  assertion : ∃ v, record.document.get? (str "assertion") = some v ∧
    readAssertion v = .ok record.assertion

theorem fields_of_readRecord {document : Json} {record : Record}
    (h : readRecord document = .ok record) : Fields record := by
  have hdocument := document_of_readRecord h
  unfold readRecord at h
  obtain ⟨_, _, h⟩ := bind_eq_ok.1 h
  obtain ⟨_, htenant, h⟩ := bind_eq_ok.1 h
  obtain ⟨_, hsource, h⟩ := bind_eq_ok.1 h
  obtain ⟨_, hepoch, h⟩ := bind_eq_ok.1 h
  obtain ⟨_, hsequence, h⟩ := bind_eq_ok.1 h
  iterate 2 obtain ⟨_, _, h⟩ := bind_eq_ok.1 h
  obtain ⟨v, hv, h⟩ := bind_eq_ok.1 h
  obtain ⟨assertion, hassertion, h⟩ := bind_eq_ok.1 h
  iterate 5 obtain ⟨_, _, h⟩ := bind_eq_ok.1 h
  cases h
  exact ⟨Json.textItem_eq_ok.1 htenant, Json.textItem_eq_ok.1 hsource,
    Json.textItem_eq_ok.1 hepoch, Json.intItem_eq_ok.1 hsequence, v, Json.item_eq_ok.1 hv,
    hassertion⟩

/-! ## Validated records -/

theorem eq_str_of_const {text : String} {w : Json} (h : (Schema.const text).accepts w = true) :
    w = .str (str text) := by
  cases w with
  | str s =>
    have hs : str text = s := by simpa [Schema.const, Schema.enum] using h
    rw [hs]
  | _ => cases h

theorem accepts_identity_of_closed {v : Json} {assertion : Assertion}
    (h : readAssertion v = .ok assertion) {required : List String}
    {properties : List (String × Schema)} {kind : DiscoveryAssertionKind}
    (haccepts : (Schema.closed required properties).accepts v = true)
    (hkind : "kind" ∈ required) (hconst : ("kind", Schema.const kind.value) ∈ properties)
    (hkey : kind.identityKey ∈ required)
    (hid : (kind.identityKey, Schemas.id) ∈ properties) :
    Schemas.id.accepts (.str assertion.identity) = true := by
  obtain ⟨hgetKind, hgetId⟩ := get?_of_readAssertion h
  obtain ⟨w, hw, hwkind⟩ := Schema.get?_of_closed haccepts hkind hconst
  have hsame : str kind.value = str assertion.kind.value := by
    rw [eq_str_of_const hwkind, hgetKind] at hw
    simpa [eq_comm] using hw
  have heq : kind = assertion.kind := by
    have hvalue := str_injective hsame
    revert hvalue
    cases kind <;> cases assertion.kind <;> simp [DiscoveryAssertionKind.value]
  obtain ⟨u, hu, huid⟩ := Schema.get?_of_closed haccepts hkey hid
  rw [heq, hgetId] at hu
  cases hu
  exact huid

theorem accepts_identity (h : readAssertion v = .ok assertion)
    (haccepts : (Schema.oneOf [Schemas.entityAssertion, Schemas.relationAssertion,
      Schemas.gapAssertion]).accepts v = true) :
    Schemas.id.accepts (.str assertion.identity) = true := by
  have hpositive : 0 < ([Schemas.entityAssertion, Schemas.relationAssertion,
      Schemas.gapAssertion].filter fun s => s.accepts v).length := by
    rw [beq_iff_eq.1 haccepts]
    exact Nat.one_pos
  obtain ⟨schema, hschema⟩ := List.exists_mem_of_length_pos hpositive
  obtain ⟨hmem, hv⟩ := List.mem_filter.1 hschema
  simp only [List.mem_cons, List.not_mem_nil, or_false] at hmem
  rcases hmem with rfl | rfl | rfl
  · exact @accepts_identity_of_closed v assertion h _ _ .entity hv (by simp)
      (List.mem_cons_self ..) (by simp [DiscoveryAssertionKind.identityKey])
      (List.mem_cons_of_mem _ (List.mem_cons_self ..))
  · exact @accepts_identity_of_closed v assertion h _ _ .relation hv (by simp)
      (List.mem_cons_self ..) (by simp [DiscoveryAssertionKind.identityKey])
      (List.mem_cons_of_mem _ (List.mem_cons_self ..))
  · exact @accepts_identity_of_closed v assertion h _ _ .gap hv (by simp)
      (List.mem_cons_self ..) (by simp [DiscoveryAssertionKind.identityKey])
      (List.mem_cons_of_mem _ (List.mem_cons_self ..))

section
variable [UnicodeData] [Ed25519Keys]

variable {config : Config} {history : Dict ActiveKey Str} {policy : DiscoveryAdmissionPolicy}
  {index : Index} {raw snapshot : Json} {record : Record} {s : Staged}
  {createdAt digest identity tenantId : Str} {source : TrustedDiscoverySource}

theorem Verified.fields (h : Verified tenantId source record) : Fields record :=
  fields_of_readRecord h.read

theorem Verified.accepts_sourceId (h : Verified tenantId source record) :
    Schemas.id.accepts (.str record.sourceId) = true := by
  obtain ⟨w, hw, hid⟩ := @Schema.get?_of_closed _ _ _ h.accepts "source_id" Schemas.id (by simp)
    (by simp)
  rw [h.fields.sourceId] at hw
  cases hw
  exact hid

theorem Verified.accepts_identity (h : Verified tenantId source record) :
    Schemas.id.accepts (.str record.assertion.identity) = true := by
  obtain ⟨w, hw, haccepts⟩ := @Schema.get?_of_closed _ _ _ h.accepts "assertion"
    (.oneOf [Schemas.entityAssertion, Schemas.relationAssertion, Schemas.gapAssertion]) (by simp)
    (by simp)
  obtain ⟨v, hv, hread⟩ := h.fields.assertion
  rw [hv] at hw
  cases hw
  exact Discovery.accepts_identity hread haccepts

theorem Verified.sequence_nonneg (h : Verified tenantId source record) : 0 ≤ record.sequence := by
  obtain ⟨w, hw, haccepts⟩ := @Schema.get?_of_closed _ _ _ h.accepts "sequence" Schemas.natural
    (by simp) (by simp)
  rw [h.fields.sequence] at hw
  cases hw
  simpa [Schemas.natural, Schema.keywords, Schema.ofType, Schema.minimum, JsonType.of]
    using haccepts

/-! ## Semantic identities -/

/-- An admitted record has an identity, which an active record of its key shares,
and without one the history does. -/
theorem identity_of_admits (hpolicy : config.admissionPolicy = some policy) {old : Option Record}
    {historical : Option Str} {identity : Option Str}
    (h : Admits config old historical record identity) :
    ∃ found, identity = some found ∧ discoverySemanticIdentity policy record = .ok found ∧
      (∀ current ∈ old, discoverySemanticIdentity policy current = .ok found) ∧
      (old = none → ∀ past ∈ historical, past = found) := by
  unfold Admits at h
  rw [hpolicy] at h
  obtain ⟨-, reason, hjudge⟩ := h
  unfold judge at hjudge
  cases hbinding : policy.bindingFor record with
  | none =>
    rw [hbinding] at hjudge
    cases hjudge
  | some binding =>
    rw [hbinding] at hjudge
    obtain ⟨found, hfound, hjudge⟩ := bind_eq_ok.1 hjudge
    have hidentity : discoverySemanticIdentity policy record = .ok found := by
      rw [discoverySemanticIdentity, hbinding]
      exact hfound
    cases old with
    | none =>
      simp only [Except.ok.injEq] at hjudge
      unfold judgeNew at hjudge
      cases historical with
      | none =>
        simp only [Prod.mk.injEq] at hjudge
        exact ⟨found, hjudge.2.2.symm, hidentity, by simp, by simp⟩
      | some past =>
        simp only at hjudge
        split at hjudge
        · cases hjudge
        · rename_i hsame
          simp only [Prod.mk.injEq] at hjudge
          refine ⟨found, hjudge.2.2.symm, hidentity, by simp, ?_⟩
          rintro - _ ⟨⟩
          exact (not_not.1 hsame).symm
    | some current =>
      simp only at hjudge
      unfold judgeReplacement at hjudge
      cases hcurrent : policy.bindingFor current with
      | none =>
        rw [hcurrent] at hjudge
        cases hjudge
      | some currentBinding =>
        rw [hcurrent] at hjudge
        obtain ⟨-, hjudge⟩ := ensure_bind_eq_ok.1 hjudge
        split at hjudge
        · cases hjudge
        · obtain ⟨other, hother, hjudge⟩ := bind_eq_ok.1 hjudge
          split at hjudge
          · cases hjudge
          · rename_i hsame
            have hold : discoverySemanticIdentity policy current = .ok found := by
              rw [discoverySemanticIdentity, hcurrent, not_not.1 hsame]
              exact hother
            refine ⟨found, ?_, hidentity, ?_, by simp⟩
            · split at hjudge
              · cases hjudge
              · split at hjudge <;> cases hjudge <;> rfl
            · rintro _ ⟨⟩
              exact hold

omit [Ed25519Keys] in
theorem hashBody_of_identity (h : discoverySemanticIdentity policy record = .ok identity) :
    Schemas.hashBody "discovery-semantic:" identity = true := by
  unfold discoverySemanticIdentity at h
  split at h
  · cases h
  · rw [raising_eq_ok] at h
    unfold semanticIdentity at h
    obtain ⟨digest, hdigest, h⟩ := bind_eq_ok.1 h
    cases h
    obtain ⟨b, -, rfl⟩ := digestObject_eq_ok hdigest
    exact Schemas.hashBody_append_hex _ _

theorem accepts_historyEntry (hverified : Verified tenantId source record)
    (hidentity : discoverySemanticIdentity policy record = .ok identity) :
    Schemas.semanticHistoryEntry.accepts (historyEntry (record.activeKey, identity)) = true := by
  have hkind : (Schema.enum ["entity", "relation", "gap"]).accepts
      (.str (str record.assertion.kind.value)) = true := by
    cases record.assertion.kind <;> decide
  have hhash := Schemas.accepts_matching_of (hashBody_of_identity hidentity)
  apply Schema.accepts_closed_fields.2
  refine ⟨by simp, by simp [List.lookup_cons], ?_⟩
  simp only [List.forall_mem_cons, List.not_mem_nil, false_imp_iff, implies_true, and_true]
  exact ⟨Schema.accepts_of_lookup rfl hverified.accepts_sourceId,
    Schema.accepts_of_lookup rfl hkind, Schema.accepts_of_lookup rfl hverified.accepts_identity,
    Schema.accepts_of_lookup rfl hhash⟩

/-! ## Staging keeps the maps sound -/

/-- How far the loop of `apply` has come from an index. -/
structure Progress (config : Config) (index : Index) (s : Staged) : Prop where
  tips : TipsSound config s.tips s.tipRecords
  active : ActiveSound config s.tips s.active
  covers : Covers config s.semanticHistory s.active
  history : HistorySound config s.semanticHistory
  tipsExtend : TipsExtend index.sourceTips s.tips
  historyExtends : HistoryExtends index.semanticHistory s.semanticHistory

theorem Sound.start (h : Sound config index) : Progress config index (Staged.start index) where
  tips := h.tips
  active := h.active
  covers := h.covers
  history := h.history
  tipsExtend := TipsExtend.refl _
  historyExtends _ _ hentry := hentry

theorem Progress.advance (h : Progress config index s)
    (hreceived : Received config s.tips raw record digest) (hwf : raw.wf = true) :
    Progress config index (s.advance record digest) where
  tips := h.tips.advance (hreceived.stored hwf)
  active := h.active.mono hreceived.tipsExtend
  covers := h.covers
  history := h.history
  tipsExtend := h.tipsExtend.trans hreceived.tipsExtend
  historyExtends := h.historyExtends

theorem Progress.historical (h : Progress config index s)
    (hpolicy : config.admissionPolicy = some policy)
    (hcurrent : ∀ current ∈ s.active[record.activeKey]?,
      discoverySemanticIdentity policy current = .ok identity)
    (hnew : s.active[record.activeKey]? = none →
      ∀ past ∈ s.semanticHistory[record.activeKey]?, past = identity) :
    ∀ past ∈ s.semanticHistory[record.activeKey]?, past = identity := by
  cases hold : s.active[record.activeKey]? with
  | none => exact hnew hold
  | some current =>
    obtain ⟨identity', hidentity', hentry⟩ := h.covers policy hpolicy _ current hold
    rw [hcurrent current hold] at hidentity'
    cases hidentity'
    intro past hpast
    rw [hentry] at hpast
    exact (Option.some.inj hpast).symm

omit [UnicodeData] [Ed25519Keys] in
theorem historyExtends_insert {key : ActiveKey} (h : ∀ past ∈ history[key]?, past = identity) :
    HistoryExtends history (history.insert key identity) := by
  intro k found hfound
  rw [Dict.get_insert]
  split
  · rename_i hkey
    subst hkey
    rw [h found hfound]
  · exact hfound

theorem HistorySound.insert
    (h : HistorySound config history) (hpolicy : config.admissionPolicy = some policy)
    (hstored : Stored config record digest)
    (hidentity : discoverySemanticIdentity policy record = .ok identity) :
    HistorySound config (history.insert record.activeKey identity) := by
  obtain ⟨source, -, hverified⟩ := hstored.source
  constructor
  · intro hnone
    rw [hpolicy] at hnone
    cases hnone
  · intro key found hentry
    rw [Dict.get_insert] at hentry
    split at hentry
    · rename_i hkey
      cases hentry
      rw [← hkey]
      exact accepts_historyEntry hverified hidentity
    · exact h.valid key found hentry

theorem Progress.settle {config : Config} {index : Index} {s : Staged} {record : Record}
    {digest : Str} {identity : Option Str} (h : Progress config index s)
    (hstored : Stored config record digest)
    (htip : s.tips[record.sourceKey]? = some (record.sequence, digest))
    (hadmits : Admits config s.active[record.activeKey]? s.semanticHistory[record.activeKey]?
      record identity) :
    Progress config index (s.settle record identity) := by
  obtain ⟨htips, htipRecords⟩ := s.settle_tips record identity
  have hactive := h.active.applyRecord hstored htip
  have hrest : Covers config (s.settle record identity).semanticHistory
        (applyRecord s.active record) ∧
      HistorySound config (s.settle record identity).semanticHistory ∧
      HistoryExtends index.semanticHistory (s.settle record identity).semanticHistory := by
    rw [s.settle_semanticHistory]
    cases hpolicy : config.admissionPolicy with
    | none =>
      have hnone : identity = none := by
        unfold Admits at hadmits
        rwa [hpolicy] at hadmits
      rw [hnone]
      refine ⟨?_, h.history, h.historyExtends⟩
      intro policy hmem
      rw [hpolicy] at hmem
      cases hmem
    | some policy =>
      obtain ⟨found, rfl, hidentity, hcurrent, hnew⟩ := identity_of_admits hpolicy hadmits
      have hgrown := historyExtends_insert (h.historical hpolicy hcurrent hnew)
      refine ⟨?_, h.history.insert hpolicy hstored hidentity, ?_⟩
      · apply (h.covers.mono hgrown).applyRecord hpolicy hidentity
        rw [Dict.get_insert, if_pos rfl]
      · intro key past hpast
        exact hgrown key past (h.historyExtends key past hpast)
  refine ⟨?_, ?_, ?_, hrest.2.1, ?_, hrest.2.2⟩
  · rw [htips, htipRecords]
    exact h.tips
  · rw [htips, s.settle_active]
    exact hactive
  · rw [s.settle_active]
    exact hrest.1
  · rw [htips]
    exact h.tipsExtend

theorem Progress.pass {reviewPriority : Json}
    {s' : Staged} {decision : Option DiscoveryAdmissionDecision}
    (h : Progress config index s) (hwf : raw.wf = true)
    (hone : stageOne config reviewPriority s raw = .ok (record, decision, s')) :
    Progress config index s' := by
  obtain ⟨digest, hreceived, hadmission, haction, rfl⟩ := stageOne_eq_ok hone
  have hadmits := @admits_of_admission _ _ config reviewPriority s record digest decision hadmission
    haction
  apply (h.advance hreceived hwf).settle (hreceived.stored hwf) _ hadmits
  exact (Dict.get_insert _ _ _ _).trans (if_pos rfl)

/-! ## Calls -/

/-- A call on an index; a record is a `dict`, which has every key once. -/
inductive Call where
  | apply (records : List Document) (reviewPriority : Json)
  | exportSnapshot (createdAt : Str)

/-- What a call returns or raises, and the index it leaves. -/
def perform (config : Config) (index : Index) : Call → Except Error Json × Index
  | .apply records reviewPriority =>
    apply config (records.map Document.value) reviewPriority index
  | .exportSnapshot createdAt =>
    match exportSnapshot config createdAt index with
    | .ok (snapshot, index') => (.ok snapshot, index')
    | .error e => (.error e, index)

/-- The index after calls. -/
def performed (config : Config) (index : Index) (calls : List Call) : Index :=
  calls.foldl (fun index call => (perform config index call).2) index

/-- What the calls of a run return or raise. -/
def answers (config : Config) : Index → List Call → List (Except Error Json)
  | _, [] => []
  | index, call :: calls =>
    (perform config index call).1 :: answers config (perform config index call).2 calls

theorem Sound.empty (config : Config) : Sound config Index.empty where
  tips key := .inl ⟨Dict.get_empty key, Dict.get_empty key⟩
  active key record h := by
    rw [show Index.empty.active = ∅ from rfl, Dict.get_empty] at h
    cases h
  covers policy _ key record h := by
    rw [show Index.empty.active = ∅ from rfl, Dict.get_empty] at h
    cases h
  history := by
    refine ⟨fun _ => rfl, ?_⟩
    intro key identity h
    rw [show Index.empty.semanticHistory = ∅ from rfl, Dict.get_empty] at h
    cases h
  size_le := by simp [Index.empty]
  chain := by simp [Index.empty]
  digest := by simp [Index.empty]

theorem Sound.apply (h : Sound config index) (records : List Document) (reviewPriority : Json) :
    Sound config (apply config (records.map Document.value) reviewPriority index).2 := by
  have hwf : ∀ raw ∈ records.map Document.value, raw.wf = true := by
    intro raw hraw
    obtain ⟨document, -, rfl⟩ := List.mem_map.1 hraw
    exact document.wf
  have hpass := @stageEach_invariant _ _ config reviewPriority
    (fun s _ => Progress config index s) (records.map Document.value)
    (fun s accepted raw record decision s' hraw hs hone => hs.pass (hwf raw hraw) hone)
    (Staged.start index) [] [] h.start
  unfold Discovery.apply
  split
  · cases hcase : stageEach config reviewPriority (records.map Document.value)
        (Staged.start index) [] [] with
    | raised e => exact h
    | quarantined s accepted record reason decisions =>
      rw [hcase] at hpass
      obtain ⟨before, raw, decision, hraw, hbefore, hone⟩ := hpass
      obtain ⟨digest, hreceived, -, -, rfl⟩ := stageOne_eq_quarantined hone
      have hadvanced := hbefore.advance hreceived (hwf raw hraw)
      -- the old active records meet the grown tips and history
      exact ⟨hadvanced.tips, h.active.mono hadvanced.tipsExtend,
        h.covers.mono hadvanced.historyExtends, hadvanced.history, h.size_le, h.chain, h.digest⟩
    | staged s accepted decisions =>
      rw [hcase] at hpass
      cases hissue : issueReceipt config s accepted with
      | error e =>
        simp only [hissue]
        exact h
      | ok receipt =>
        simp only [hissue]
        unfold issueReceipt at hissue
        obtain ⟨hsize, -⟩ := ensure_bind_eq_ok.1 hissue
        exact ⟨hpass.tips, hpass.active, hpass.covers, hpass.history, hsize, h.chain, h.digest⟩
  · exact h

theorem exportSnapshot_eq_ok {index' : Index}
    (h : exportSnapshot config createdAt index = .ok (snapshot, index')) :
    ∃ digest, discoveryIndexSnapshotDigest snapshot = .ok digest ∧
      index' = { index with
        nextSnapshotSequence := index.nextSnapshotSequence + 1
        previousSnapshotDigest := some digest } := by
  unfold exportSnapshot at h
  iterate 5 obtain ⟨_, _, h⟩ := bind_eq_ok.1 h
  obtain ⟨digest, hdigest, h⟩ := bind_eq_ok.1 h
  cases h
  exact ⟨digest, raising_eq_ok.1 hdigest, rfl⟩

theorem Sound.export {index' : Index} (h : Sound config index)
    (hexport : exportSnapshot config createdAt index = .ok (snapshot, index')) :
    Sound config index' := by
  obtain ⟨digest, hdigest, rfl⟩ := exportSnapshot_eq_ok hexport
  obtain ⟨payload, -, hpayload⟩ := digestObject_eq_ok hdigest
  refine ⟨h.tips, h.active, h.covers, h.history, h.size_le, by simp, ?_⟩
  rintro _ ⟨⟩
  exact ⟨_, hpayload⟩

theorem Sound.perform (h : Sound config index) (call : Call) :
    Sound config (perform config index call).2 := by
  cases call with
  | apply records reviewPriority => exact h.apply records reviewPriority
  | exportSnapshot createdAt =>
    unfold Discovery.perform
    cases hexport : exportSnapshot config createdAt index with
    | error e =>
      simp only [hexport]
      exact h
    | ok p =>
      simp only [hexport]
      exact h.export hexport

theorem Sound.performed (h : Sound config index)
    (calls : List Call) : Sound config (performed config index calls) := by
  induction calls generalizing index with
  | nil => exact h
  | cons call calls ih => exact ih (h.perform call)

end

end IntegrityGuardian.Discovery
