import IntegrityGuardian.Discovery.Checkpoints

/-!
# Reachable indexes

An index that calls reach from a new or a restored one has its active records
under their keys, and a semantic history that covers them.
-/

namespace IntegrityGuardian.Discovery

open Python Library

section
variable [UnicodeData] [Ed25519Keys]

/-! ## Reachable indexes -/

/-- Indexes that calls reach from a new or a restored one. -/
inductive Reached (config : Config) : Index → Prop
  | fresh : Reached config Index.empty
  | restored {document : Json} {snapshotId tenantId : Str} {trustedKey : TrustedKey}
      {trustedSources : List TrustedDiscoverySource} {signer : Ed25519Signer}
      {admissionPolicy : Option DiscoveryAdmissionPolicy} {policyDigest : Option Str}
      {index : Index}
      (h : restore document snapshotId tenantId trustedKey trustedSources signer
        admissionPolicy policyDigest = .ok (config, index)) : Reached config index
  | called {index : Index} (h : Reached config index) (call : Call) :
      Reached config (perform config index call).2

/-- The active records lie under their keys, and the history covers them. -/
structure Known (config : Config) (active : Dict ActiveKey Record)
    (history : Dict ActiveKey Str) : Prop where
  keys : ∀ (key : ActiveKey) (record : Record), active[key]? = some record →
    record.activeKey = key
  covers : Covers config history active

theorem Known.empty (config : Config) : Known config ∅ ∅ := by
  constructor
  · intro key record h
    rw [Dict.get_empty] at h
    cases h
  · intro policy _ key record h
    rw [Dict.get_empty] at h
    cases h

theorem Known.settle {config : Config} {s : Staged} {record : Record} {identity : Option Str}
    (h : Known config s.active s.semanticHistory)
    (hadmits : Admits config s.active[record.activeKey]? s.semanticHistory[record.activeKey]?
      record identity) :
    Known config (s.settle record identity).active (s.settle record identity).semanticHistory ∧
      HistoryExtends s.semanticHistory (s.settle record identity).semanticHistory := by
  rw [s.settle_active, s.settle_semanticHistory]
  have hkeys : ∀ (key : ActiveKey) (found : Record),
      (applyRecord s.active record)[key]? = some found → found.activeKey = key := by
    intro key found hfound
    rcases get_applyRecord hfound with ⟨hkey, -, rfl⟩ | ⟨-, hold⟩
    · exact hkey
    · exact h.keys key found hold
  cases hpolicy : config.admissionPolicy with
  | none =>
    have hnone : identity = none := by
      unfold Admits at hadmits
      rwa [hpolicy] at hadmits
    subst hnone
    refine ⟨⟨hkeys, ?_⟩, fun _ _ hentry => hentry⟩
    intro policy hmem
    rw [hpolicy] at hmem
    cases hmem
  | some policy =>
    obtain ⟨found, rfl, hidentity, hcurrent, hnew⟩ := identity_of_admits hpolicy hadmits
    have hpast : ∀ past ∈ s.semanticHistory[record.activeKey]?, past = found := by
      cases hold : s.active[record.activeKey]? with
      | none => exact hnew hold
      | some current =>
        obtain ⟨found', hfound', hentry⟩ := h.covers policy hpolicy _ current hold
        rw [hcurrent current hold] at hfound'
        cases hfound'
        intro past hpast
        rw [hentry] at hpast
        exact (Option.some.inj hpast).symm
    have hgrown := historyExtends_insert hpast
    refine ⟨⟨hkeys, ?_⟩, hgrown⟩
    apply (h.covers.mono hgrown).applyRecord hpolicy hidentity
    rw [Dict.get_insert, if_pos rfl]

variable {config : Config} {signer : Ed25519Signer} {index : Index} {document : Json}
  {active : List (ActiveKey × Record)} {trustedSources : List TrustedDiscoverySource}
  {admissionPolicy : Option DiscoveryAdmissionPolicy} {tenantId : Str} {trustedKey : TrustedKey}

theorem Known.apply (h : Known config index.active index.semanticHistory) (records : List Json)
    (reviewPriority : Json) : Known config (apply config records reviewPriority index).2.active
      (apply config records reviewPriority index).2.semanticHistory := by
  have hpass := @stageEach_invariant _ _ config reviewPriority
    (fun s _ => Known config s.active s.semanticHistory ∧
      HistoryExtends index.semanticHistory s.semanticHistory) records ?_
    (Staged.start index) [] [] ⟨h, fun _ _ hentry => hentry⟩
  · unfold Discovery.apply
    split
    · cases hcase : stageEach config reviewPriority records (Staged.start index) [] [] with
      | raised e => exact h
      | quarantined s accepted record reason decisions =>
        rw [hcase] at hpass
        obtain ⟨before, raw, decision, -, hbefore, hone⟩ := hpass
        obtain ⟨digest, -, -, -, rfl⟩ := stageOne_eq_quarantined hone
        exact ⟨h.keys, h.covers.mono hbefore.2⟩
      | staged s accepted decisions =>
        rw [hcase] at hpass
        cases hissue : issueReceipt config s accepted with
        | error e =>
          simp only [hissue]
          exact h
        | ok receipt =>
          simp only [hissue]
          exact hpass.1
    · exact h
  · intro s accepted raw record decision s' _ hs hone
    obtain ⟨digest, -, hadmission, haction, rfl⟩ := stageOne_eq_ok hone
    have hadmits := admits_of_admission hadmission haction
    obtain ⟨hknown, hgrown⟩ :=
      @Known.settle _ _ config (s.advance record digest) record _ hs.1 hadmits
    exact ⟨hknown, fun key past hpast => hgrown key past (hs.2 key past hpast)⟩

/-! ## Restored indexes -/

theorem document_of_verifyStored {key : SourceKey}
    {record : Record} (h : verifyStored config key document = .ok record) :
    record.document = document ∧ rawActiveKey document = .ok record.activeKey := by
  unfold verifyStored at h
  split at h
  · cases h
  · obtain ⟨hdocument, hverified⟩ := verified_of_verify h
    refine ⟨hdocument, ?_⟩
    rw [← hdocument]
    exact rawActiveKey_document hverified.fields

theorem keys_of_verifyActive {documents : List Json} {keys : List ActiveKey}
    (h : verifyActive config documents = .ok active)
    (hkeys : documents.mapM rawActiveKey = .ok keys) :
    active.map Prod.fst = keys ∧ ∀ item ∈ active, item.2.activeKey = item.1 := by
  unfold verifyActive at h
  rw [mapM_eq_ok] at h hkeys
  induction h generalizing keys with
  | nil =>
    cases hkeys
    exact ⟨rfl, by simp⟩
  | cons hitem _ ih =>
    cases hkeys with
    | cons hkey hrest =>
      obtain ⟨hsame, hown⟩ := ih hrest
      obtain ⟨key, _, hitem⟩ := bind_eq_ok.1 hitem
      obtain ⟨record, hrecord, hitem⟩ := bind_eq_ok.1 hitem
      cases hitem
      have hraw := (document_of_verifyStored hrecord).2
      rw [hkey] at hraw
      cases hraw
      exact ⟨by rw [List.map_cons, hsame], List.forall_mem_cons.2 ⟨rfl, hown⟩⟩

/-- The history of a restored index has the identity of every active record. -/
theorem covers_of_restoreHistory
    {admissionState : Option (Str × List (ActiveKey × Str))} {history : List (ActiveKey × Str)}
    (hnodup : (active.map Prod.fst).Nodup)
    (h : restoreHistory config.admissionPolicy active admissionState = .ok history) :
    Covers config (.ofList history orderCmp) (.ofList active orderCmp) := by
  intro policy hpolicy key record hrecord
  rw [Option.mem_def] at hpolicy
  have hmem := (Dict.get_ofList hnodup).1 hrecord
  rw [hpolicy] at h
  unfold restoreHistory at h
  cases admissionState with
  | none =>
    simp only at h
    unfold derivedHistory at h
    rw [mapM_eq_ok] at h
    have hitems : List.Forall₂ (fun item entry => entry.1 = item.1 ∧
        discoverySemanticIdentity policy item.2 = .ok entry.2) active history := by
      refine h.imp ?_
      intro item entry hentry
      obtain ⟨identity, hidentity, hentry⟩ := bind_eq_ok.1 hentry
      cases hentry
      exact ⟨rfl, hidentity⟩
    have hkeys : history.map Prod.fst = active.map Prod.fst := by
      clear hrecord hmem h hnodup
      induction hitems with
      | nil => rfl
      | cons hitem _ ih => rw [List.map_cons, List.map_cons, ih, hitem.1]
    obtain ⟨entry, hentry, hkey, hidentity⟩ : ∃ entry ∈ history, entry.1 = key ∧
        discoverySemanticIdentity policy record = .ok entry.2 := by
      clear hrecord h hnodup hkeys
      induction hitems with
      | nil => cases hmem
      | cons hitem _ ih =>
        rcases List.mem_cons.1 hmem with heq | hmem
        · subst heq
          exact ⟨_, List.mem_cons_self .., hitem⟩
        · obtain ⟨entry, hentry, hrest⟩ := ih hmem
          exact ⟨entry, List.mem_cons_of_mem _ hentry, hrest⟩
    refine ⟨entry.2, hidentity, ?_⟩
    rw [Dict.get_ofList (by rwa [hkeys]), ← hkey]
    exact hentry
  | some state =>
    obtain ⟨policyDigest, entries⟩ := state
    obtain ⟨-, h⟩ := ensure_bind_eq_ok.1 h
    obtain ⟨hentries, h⟩ := ensure_bind_eq_ok.1 h
    obtain ⟨⟨⟩, hall, h⟩ := bind_eq_ok.1 h
    cases h
    have hitem := forM_eq_ok.1 hall _ hmem
    obtain ⟨identity, hidentity, hitem⟩ := bind_eq_ok.1 hitem
    have hlookup := ensure_eq_ok.1 hitem
    refine ⟨identity, hidentity, ?_⟩
    rw [Dict.get_ofList hentries]
    obtain ⟨before, after, rfl, -⟩ := List.lookup_eq_some_iff.1 hlookup
    simp

theorem nodup_of_verifySnapshot
    {expectedSnapshotId expectedTenantId : Option Str} {snapshot : Snapshot}
    (h : verifyDiscoveryIndexSnapshot document trustedKey expectedSnapshotId expectedTenantId =
      .ok snapshot) :
    ∃ keys, snapshot.activeRecords.mapM rawActiveKey = .ok keys ∧ keys.Nodup := by
  unfold verifyDiscoveryIndexSnapshot at h
  obtain ⟨-, h⟩ := ensure_bind_eq_ok.1 h
  obtain ⟨_, _, h⟩ := bind_eq_ok.1 h
  obtain ⟨_, _, h⟩ := bind_eq_ok.1 h
  obtain ⟨-, h⟩ := ensure_bind_eq_ok.1 h
  obtain ⟨⟨⟩, _, h⟩ := bind_eq_ok.1 h
  obtain ⟨⟨⟩, _, h⟩ := bind_eq_ok.1 h
  obtain ⟨⟨⟩, _, h⟩ := bind_eq_ok.1 h
  obtain ⟨_, _, h⟩ := bind_eq_ok.1 h
  obtain ⟨-, h⟩ := ensure_bind_eq_ok.1 h
  obtain ⟨-, h⟩ := ensure_bind_eq_ok.1 h
  obtain ⟨⟨⟩, hcontent, h⟩ := bind_eq_ok.1 h
  cases h
  unfold checkSnapshotContent at hcontent
  obtain ⟨_, _, hcontent⟩ := bind_eq_ok.1 hcontent
  obtain ⟨-, hcontent⟩ := ensure_bind_eq_ok.1 hcontent
  obtain ⟨-, hcontent⟩ := ensure_bind_eq_ok.1 hcontent
  obtain ⟨-, hcontent⟩ := ensure_bind_eq_ok.1 hcontent
  obtain ⟨⟨⟩, _, hcontent⟩ := bind_eq_ok.1 hcontent
  obtain ⟨keys, hkeys, hcontent⟩ := bind_eq_ok.1 hcontent
  obtain ⟨-, hcontent⟩ := ensure_bind_eq_ok.1 hcontent
  obtain ⟨hnodup, -⟩ := ensure_bind_eq_ok.1 hcontent
  exact ⟨keys, mapError_eq_ok.1 hkeys, hnodup⟩

theorem config_of_init
    (h : Config.init tenantId trustedSources signer admissionPolicy = .ok config) :
    config.admissionPolicy = admissionPolicy := by
  unfold Config.init at h
  split at h
  · split at h
    · split at h
      · cases h
        rfl
      · cases h
    · cases h
  · cases h

theorem Known.restored {snapshotId : Str} {policyDigest : Option Str}
    (h : restore document snapshotId tenantId trustedKey trustedSources signer admissionPolicy
      policyDigest = .ok (config, index)) : Known config index.active index.semanticHistory := by
  unfold restore at h
  obtain ⟨⟨⟩, _, h⟩ := bind_eq_ok.1 h
  obtain ⟨config', hinit, h⟩ := bind_eq_ok.1 h
  obtain ⟨snapshot, hsnapshot, h⟩ := bind_eq_ok.1 h
  obtain ⟨-, h⟩ := ensure_bind_eq_ok.1 h
  obtain ⟨_, _, h⟩ := bind_eq_ok.1 h
  obtain ⟨active, hactive, h⟩ := bind_eq_ok.1 h
  obtain ⟨history, hhistory, h⟩ := bind_eq_ok.1 h
  obtain ⟨_, _, h⟩ := bind_eq_ok.1 h
  cases h
  unfold verifyDiscoveryIndexSnapshotSources at hsnapshot
  obtain ⟨snapshot', hverify, hsnapshot⟩ := bind_eq_ok.1 hsnapshot
  obtain ⟨-, hsnapshot⟩ := ensure_bind_eq_ok.1 hsnapshot
  obtain ⟨_, _, hsnapshot⟩ := bind_eq_ok.1 hsnapshot
  obtain ⟨_, _, hsnapshot⟩ := bind_eq_ok.1 hsnapshot
  cases hsnapshot
  obtain ⟨keys, hkeys, hnodup⟩ := nodup_of_verifySnapshot hverify
  obtain ⟨hsame, hown⟩ := keys_of_verifyActive hactive hkeys
  rw [← hsame] at hnodup
  constructor
  · intro key record hrecord
    exact hown _ ((Dict.get_ofList hnodup).1 hrecord)
  · apply covers_of_restoreHistory hnodup
    rw [config_of_init hinit]
    exact hhistory

theorem Reached.known (h : Reached config index) :
    Known config index.active index.semanticHistory := by
  induction h with
  | fresh => exact Known.empty config
  | restored h => exact Known.restored h
  | called _ call ih =>
    cases call with
    | apply records reviewPriority => exact ih.apply _ _
    | exportSnapshot createdAt =>
      simp only [perform]
      cases hexport : exportSnapshot config createdAt _ with
      | error e => exact ih
      | ok exported =>
        obtain ⟨snapshot, index'⟩ := exported
        obtain ⟨digest, -, rfl⟩ := exportSnapshot_eq_ok hexport
        exact ih

end

end IntegrityGuardian.Discovery
