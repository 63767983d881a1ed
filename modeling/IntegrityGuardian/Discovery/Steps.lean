import IntegrityGuardian.Discovery.Index

/-!
# Steps of the discovery index

What a verified record, a received record and a pass of the loop of `apply` have
established, and the rule that carries a property of the staged state through
the loop.
-/

namespace IntegrityGuardian.Discovery

open Python Library

variable {record : Record} {α : Type}

theorem raising_eq_ok {x : Except Exc α} {a : α} : raising x = .ok a ↔ x = .ok a :=
  mapError_eq_ok

@[simp] theorem raising_ok (a : α) : raising (.ok a) = .ok a := rfl

/-! ## Verified records -/

theorem document_of_readRecord {document : Json}
    (h : readRecord document = .ok record) : record.document = document := by
  unfold readRecord at h
  iterate 14 obtain ⟨_, _, h⟩ := bind_eq_ok.1 h
  cases h
  rfl

theorem ensureExpected_some {expected actual : Str} {message : String} :
    ensureExpected (some expected) actual message = .ok () ↔ actual = expected := by
  unfold ensureExpected
  rw [ensure_eq_ok]
  simp [eq_comm]

theorem mapError_raised_ne {x : Except Error α} {s : Staged}
    {decision : DiscoveryAdmissionDecision} :
    x.mapError Halt.raised ≠ .error (.quarantined s record decision) := by
  cases x with
  | error e => simp [Except.mapError]
  | ok a => simp [Except.mapError]

/-! ## Staged fields -/

@[simp] theorem Staged.advance_active (s : Staged) (record : Record) (digest : Str) :
    (s.advance record digest).active = s.active := rfl

@[simp] theorem Staged.advance_semanticHistory (s : Staged) (record : Record) (digest : Str) :
    (s.advance record digest).semanticHistory = s.semanticHistory := rfl

/-- The active records after one upsert or delete. -/
def applyRecord (active : Dict ActiveKey Record) (record : Record) : Dict ActiveKey Record :=
  match record.change with
  | .upsert => active.insert record.activeKey record
  | .delete => active.erase record.activeKey

theorem erase_of_get_none {d : Dict ActiveKey Record} {key : ActiveKey} (h : d[key]? = none) :
    d.erase key = d := by
  apply Dict.ext
  intro k
  rw [Dict.get_erase]
  by_cases hk : key = k
  · rw [if_pos hk, ← hk, h]
  · rw [if_neg hk]

theorem Staged.remember_active (s : Staged) (record : Record) (identity : Option Str) :
    (s.remember record identity).active = s.active := by
  cases identity <;> rfl

theorem Staged.change_active (s : Staged) (record : Record) :
    (s.change record).active = applyRecord s.active record := by
  unfold Staged.change applyRecord
  cases hchange : record.change with
  | upsert => cases s.active[record.activeKey]? <;> rfl
  | delete =>
    cases hold : s.active[record.activeKey]? with
    | none => exact (erase_of_get_none hold).symm
    | some old => rfl

theorem Staged.change_semanticHistory (s : Staged) (record : Record) :
    (s.change record).semanticHistory = s.semanticHistory := by
  unfold Staged.change
  split <;> rfl

theorem Staged.change_tips (s : Staged) (record : Record) :
    (s.change record).tips = s.tips ∧ (s.change record).tipRecords = s.tipRecords := by
  unfold Staged.change
  split <;> exact ⟨rfl, rfl⟩

theorem Staged.remember_tips (s : Staged) (record : Record) (identity : Option Str) :
    (s.remember record identity).tips = s.tips ∧
      (s.remember record identity).tipRecords = s.tipRecords := by
  cases identity <;> exact ⟨rfl, rfl⟩

theorem Staged.settle_active (s : Staged) (record : Record) (identity : Option Str) :
    (s.settle record identity).active = applyRecord s.active record := by
  unfold Staged.settle
  simp only [change_active]
  split
  · exact congrArg (applyRecord · record) (s.remember_active record identity)
  · exact congrArg (applyRecord · record) (s.remember_active record identity)

theorem Staged.settle_semanticHistory (s : Staged) (record : Record) (identity : Option Str) :
    (s.settle record identity).semanticHistory =
      (s.remember record identity).semanticHistory := by
  unfold Staged.settle
  simp only [change_semanticHistory]
  split <;> rfl

theorem Staged.settle_tips (s : Staged) (record : Record) (identity : Option Str) :
    (s.settle record identity).tips = s.tips ∧
      (s.settle record identity).tipRecords = s.tipRecords := by
  unfold Staged.settle
  simp only [change_tips]
  split
  · exact s.remember_tips record identity
  · exact s.remember_tips record identity

section
variable [UnicodeData]

section
variable [Ed25519]

/-- What the index knows of a record it verified. -/
structure Verified (tenantId : Str) (source : TrustedDiscoverySource) (record : Record) :
    Prop where
  verify : verifyDiscoveryRecord record.document source.trustedKey (source.expects tenantId) =
    .ok record
  accepts : Schemas.discoveryRecord.accepts record.document = true
  read : readRecord record.document = .ok record
  tenantId : record.tenantId = tenantId
  sourceKey : record.sourceKey = source.key
  sourceArtifactDigest : record.sourceArtifactDigest = source.sourceArtifactDigest

theorem verified_of_verify {document : Json} {tenantId : Str} {source : TrustedDiscoverySource}
    {record : Record}
    (h : verifyDiscoveryRecord document source.trustedKey (source.expects tenantId) =
      .ok record) : record.document = document ∧ Verified tenantId source record := by
  have hverify := h
  unfold verifyDiscoveryRecord at h
  obtain ⟨haccepts, h⟩ := ensure_bind_eq_ok.1 h
  obtain ⟨_, _, h⟩ := bind_eq_ok.1 h
  obtain ⟨-, h⟩ := ensure_bind_eq_ok.1 h
  obtain ⟨record', hread, h⟩ := bind_eq_ok.1 h
  rw [raising_eq_ok] at hread
  obtain ⟨_, _, h⟩ := bind_eq_ok.1 h
  obtain ⟨-, h⟩ := ensure_bind_eq_ok.1 h
  obtain ⟨_, _, h⟩ := bind_eq_ok.1 h
  obtain ⟨_, _, h⟩ := bind_eq_ok.1 h
  obtain ⟨-, h⟩ := ensure_bind_eq_ok.1 h
  obtain ⟨_, _, h⟩ := bind_eq_ok.1 h
  obtain ⟨-, h⟩ := ensure_bind_eq_ok.1 h
  obtain ⟨⟨⟩, htenant, h⟩ := bind_eq_ok.1 h
  obtain ⟨⟨⟩, hsource, h⟩ := bind_eq_ok.1 h
  obtain ⟨⟨⟩, hepoch, h⟩ := bind_eq_ok.1 h
  obtain ⟨⟨⟩, hartifact, h⟩ := bind_eq_ok.1 h
  obtain ⟨⟨⟩, _, h⟩ := bind_eq_ok.1 h
  cases h
  have hdocument := document_of_readRecord hread
  refine ⟨hdocument, ?_⟩
  rw [← hdocument] at haccepts hread hverify
  refine ⟨hverify, haccepts, hread, ensureExpected_some.1 htenant, ?_,
    ensureExpected_some.1 hartifact⟩
  rw [Record.sourceKey, TrustedDiscoverySource.key, ensureExpected_some.1 hsource,
    ensureExpected_some.1 hepoch]

end

variable [Ed25519Keys]

/-! ## Received records -/

/-- What `apply` knows of a record that passed the checks before admission. -/
structure Received (config : Config) (tips : Dict SourceKey (Int × Str)) (raw : Json)
    (record : Record) (digest : Str) : Prop where
  receive : receive config tips raw = .ok (record, digest)
  document : record.document = raw
  source : ∃ source, config.trusted record.sourceKey = some source ∧
    Verified config.tenantId source record
  sequence : record.sequence = nextSequence tips[record.sourceKey]?
  previous : record.previousRecordDigest = tips[record.sourceKey]?.map Prod.snd
  digest : discoveryRecordDigest record.document = .ok digest

variable {config : Config} {raw reviewPriority : Json} {record : Record}
  {source : TrustedDiscoverySource}

theorem trusted_key {key : SourceKey}
    (h : config.trusted key = some source) : source ∈ config.trustedSources ∧ source.key = key :=
  ⟨List.mem_of_find?_eq_some h, by simpa using List.find?_some h⟩

theorem trusted_of_mem
    (h : source ∈ config.trustedSources) : config.trusted source.key = some source := by
  cases hfind : config.trusted source.key with
  | none =>
    have hnot := List.find?_eq_none.1 hfind source h
    simp at hnot
  | some found =>
    obtain ⟨hmem, hkey⟩ := trusted_key hfind
    rw [List.inj_on_of_nodup_map config.nodup hmem h hkey]

theorem trusted_of_trustedSourceOf (h : trustedSourceOf config raw = .ok source) :
    config.trusted source.key = some source := by
  unfold trustedSourceOf at h
  obtain ⟨key, _, h⟩ := bind_eq_ok.1 h
  split at h
  · rename_i found hfound
    cases h
    exact trusted_of_mem (trusted_key hfound).1
  · cases h

theorem received_of_receive {tips : Dict SourceKey (Int × Str)}
    {digest : Str} (h : receive config tips raw = .ok (record, digest)) :
    Received config tips raw record digest := by
  have hreceive := h
  unfold receive at h
  obtain ⟨source, hsource, h⟩ := bind_eq_ok.1 h
  obtain ⟨record', hverify, h⟩ := bind_eq_ok.1 h
  obtain ⟨hreplay, h⟩ := ensure_bind_eq_ok.1 h
  obtain ⟨hgap, h⟩ := ensure_bind_eq_ok.1 h
  obtain ⟨hchain, h⟩ := ensure_bind_eq_ok.1 h
  obtain ⟨digest', hdigest, h⟩ := bind_eq_ok.1 h
  cases h
  obtain ⟨hdocument, hverified⟩ := verified_of_verify hverify
  have hkey := hverified.sourceKey
  refine ⟨hreceive, hdocument, ⟨source, ?_, hverified⟩, ?_, ?_, ?_⟩
  · rw [hkey]
    exact trusted_of_trustedSourceOf hsource
  · rw [hkey]
    omega
  · rw [hkey]
    exact hchain
  · rw [hdocument]
    exact raising_eq_ok.1 hdigest

/-! ## Admission -/

/-- What admission of a record rests on beside the record. -/
def Admits (config : Config) (old : Option Record) (historical : Option Str) (record : Record)
    (identity : Option Str) : Prop :=
  match config.admissionPolicy with
  | none => identity = none
  | some policy =>
    historical.all (Schemas.hashBody "discovery-semantic:") = true ∧
      ∃ reason, judge policy record old historical = .ok (.admitted, reason, identity)

theorem admits_of_admission {config : Config} {reviewPriority : Json} {s : Staged}
    {record : Record} {digest : Str} {decision : Option DiscoveryAdmissionDecision}
    (h : admission config reviewPriority (s.advance record digest) record = .ok decision)
    (haction : ∀ d ∈ decision, d.action = .admitted) :
    Admits config s.active[record.activeKey]? s.semanticHistory[record.activeKey]? record
      (decision.bind DiscoveryAdmissionDecision.semanticIdentity) := by
  unfold admission at h
  unfold Admits
  cases hpolicy : config.admissionPolicy with
  | none =>
    rw [hpolicy] at h
    cases h
    rfl
  | some policy =>
    rw [hpolicy] at h
    obtain ⟨d, hd, h⟩ := bind_eq_ok.1 h
    cases h
    unfold evaluateDiscoveryAdmission at hd
    obtain ⟨_, _, hd⟩ := bind_eq_ok.1 hd
    obtain ⟨hhistorical, hd⟩ := ensure_bind_eq_ok.1 hd
    obtain ⟨⟨action, reason, identity⟩, hjudge, hd⟩ := bind_eq_ok.1 hd
    cases hd
    have hadmitted := haction _ rfl
    simp only at hadmitted
    subst hadmitted
    exact ⟨hhistorical, reason, hjudge⟩

/-! ## Passes of the loop -/

theorem stageOne_eq_ok {s s' : Staged} {decision : Option DiscoveryAdmissionDecision}
    (h : stageOne config reviewPriority s raw = .ok (record, decision, s')) :
    ∃ digest, Received config s.tips raw record digest ∧
      admission config reviewPriority (s.advance record digest) record = .ok decision ∧
      (∀ d ∈ decision, d.action = .admitted) ∧
      s' = (s.advance record digest).settle record
        (decision.bind DiscoveryAdmissionDecision.semanticIdentity) := by
  unfold stageOne at h
  obtain ⟨⟨record', digest⟩, hreceive, h⟩ := bind_eq_ok.1 h
  obtain ⟨decision', hadmission, h⟩ := bind_eq_ok.1 h
  rw [mapError_eq_ok] at hreceive hadmission
  cases decision' with
  | none =>
    cases h
    exact ⟨digest, received_of_receive hreceive, hadmission, by simp, rfl⟩
  | some d =>
    simp only at h
    split at h
    · cases h
    · rename_i haction
      cases h
      refine ⟨digest, received_of_receive hreceive, hadmission, ?_, rfl⟩
      rintro _ ⟨⟩
      cases hd : d.action with
      | admitted => rfl
      | quarantine => exact absurd hd haction

theorem stageOne_eq_quarantined {s s' : Staged} {decision : DiscoveryAdmissionDecision}
    (h : stageOne config reviewPriority s raw = .error (.quarantined s' record decision)) :
    ∃ digest, Received config s.tips raw record digest ∧
      admission config reviewPriority (s.advance record digest) record = .ok (some decision) ∧
      decision.action = .quarantine ∧ s' = s.advance record digest := by
  unfold stageOne at h
  rcases bind_eq_error.1 h with h | ⟨⟨record', digest⟩, hreceive, h⟩
  · exact absurd h mapError_raised_ne
  · rcases bind_eq_error.1 h with h | ⟨decision', hadmission, h⟩
    · exact absurd h mapError_raised_ne
    · rw [mapError_eq_ok] at hreceive hadmission
      cases decision' with
      | none => cases h
      | some d =>
        simp only at h
        split at h
        · rename_i haction
          cases h
          exact ⟨digest, received_of_receive hreceive, hadmission, haction, rfl⟩
        · cases h

/-- A property of the staged state and the accepted records that every accepting
pass keeps holds when the loop ends, and before a pass that quarantines. -/
theorem stageEach_invariant {config : Config} {reviewPriority : Json}
    {P : Staged → List Record → Prop}
    (raws : List Json)
    (hstep : ∀ s accepted raw record decision s', raw ∈ raws → P s accepted →
      stageOne config reviewPriority s raw = .ok (record, decision, s') →
      P s' (accepted ++ [record]))
    (s : Staged) (accepted : List Record)
    (decisions : List DiscoveryAdmissionDecision) (hP : P s accepted) :
    match stageEach config reviewPriority raws s accepted decisions with
    | .staged s' accepted' _ => P s' accepted'
    | .quarantined s' accepted' record _ _ =>
      ∃ before raw decision, raw ∈ raws ∧ P before accepted' ∧
        stageOne config reviewPriority before raw = .error (.quarantined s' record decision)
    | .raised _ => True := by
  induction raws generalizing s accepted decisions with
  | nil => exact hP
  | cons raw rest ih =>
    simp only [stageEach]
    cases hone : stageOne config reviewPriority s raw with
    | ok p =>
      obtain ⟨record, decision, s'⟩ := p
      simp only
      have hP' := hstep s accepted raw record decision s' (List.mem_cons_self ..) hP hone
      have hrest := ih (fun s accepted raw record decision s' hmem =>
        hstep s accepted raw record decision s' (List.mem_cons_of_mem _ hmem)) s'
        (accepted ++ [record]) (decisions ++ decision.toList) hP'
      cases hcase : stageEach config reviewPriority rest s' (accepted ++ [record])
          (decisions ++ decision.toList) with
      | staged s'' accepted' decisions' =>
        rw [hcase] at hrest
        exact hrest
      | quarantined s'' accepted' record' reason decisions' =>
        rw [hcase] at hrest
        obtain ⟨before, raw', decision', hmem, hbefore, hone'⟩ := hrest
        exact ⟨before, raw', decision', List.mem_cons_of_mem _ hmem, hbefore, hone'⟩
      | raised e => trivial
    | error halt =>
      cases halt with
      | raised e => trivial
      | quarantined s' record decision =>
        exact ⟨s, raw, decision, List.mem_cons_self .., hP, hone⟩

theorem apply_eq_ok {records : List Json} {receipt : Json} {index index' : Index}
    (h : apply config records reviewPriority index = (.ok receipt, index')) :
    ∃ s accepted decisions,
      stageEach config reviewPriority records (Staged.start index) [] [] =
        .staged s accepted decisions ∧
      issueReceipt config s accepted = .ok receipt ∧ index' = index.commit s decisions := by
  unfold apply at h
  split at h
  · split at h
    · cases h
    · cases h
    · rename_i s accepted decisions hstage
      split at h
      · cases h
      · rename_i receipt' hissue
        cases h
        exact ⟨s, accepted, decisions, hstage, hissue, rfl⟩
  · cases h

end

end IntegrityGuardian.Discovery
