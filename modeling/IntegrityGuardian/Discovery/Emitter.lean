import IntegrityGuardian.Discovery.Sound
import IntegrityGuardian.Signing.OwnSignatures

/-!
# The discovery emitter

`DiscoveryCursor` and `DiscoveryEmitter` of `discovery.py`, and the chain they
write as the index reads it: a batch of emitted records is staged exactly when it
is what comes next.
-/

namespace IntegrityGuardian.Discovery

open Python Library

/-! ## Cursors -/

/-- `_require_id`. -/
def requireId (value : Json) (field : String) :
    Except Error {s : Str // Schemas.idBody s = true} :=
  match value with
  | .str s =>
    if h : Schemas.idBody s = true then .ok ⟨s, h⟩ else .error (refuse (field ++ " rejected"))
  | _ => .error (refuse (field ++ " rejected"))

/-- `_require_digest` of a value that may be `None`. -/
def requireDigest (value : Json) (field : String) :
    Except Error {d : Option Str // ∀ s ∈ d, Schemas.digestBody s = true} :=
  match value with
  | .null => .ok ⟨none, by simp⟩
  | .str s =>
    if h : Schemas.digestBody s = true then .ok ⟨some s, by simpa using h⟩
    else .error (refuse (field ++ " rejected"))
  | _ => .error (refuse (field ++ " rejected"))

def requireSequence : Json → Except Error Nat
  | .int (.ofNat n) => .ok n
  | _ => .error (refuse "next_sequence rejected")

/-- `DiscoveryCursor`, with what its constructor checks. -/
structure DiscoveryCursor where
  sourceId : Str
  sourceEpoch : Str
  nextSequence : Nat
  previousRecordDigest : Option Str
  sourceId_valid : Schemas.idBody sourceId = true
  sourceEpoch_valid : Schemas.idBody sourceEpoch = true
  digest_valid : ∀ s ∈ previousRecordDigest, Schemas.digestBody s = true
  continuity : nextSequence = 0 ↔ previousRecordDigest = none

namespace DiscoveryCursor

/-- `__post_init__`. -/
def init (sourceId sourceEpoch nextSequence previousRecordDigest : Json) :
    Except Error DiscoveryCursor := do
  let source ← requireId sourceId "source_id"
  let epoch ← requireId sourceEpoch "source_epoch"
  let sequence ← requireSequence nextSequence
  let digest ← requireDigest previousRecordDigest "previous_record_digest"
  if h : sequence = 0 ↔ digest.1 = none then
    .ok ⟨source.1, epoch.1, sequence, digest.1, source.2, epoch.2, digest.2, h⟩
  else .error (refuse "discovery cursor continuity rejected")

def toDocument (cursor : DiscoveryCursor) : Json :=
  .fields [("source_id", .str cursor.sourceId), ("source_epoch", .str cursor.sourceEpoch),
    ("next_sequence", .int cursor.nextSequence),
    ("previous_record_digest", .ofOptionalText cursor.previousRecordDigest)]

/-- The field set of a stored cursor. -/
def fieldSet : Schema :=
  .closed ["source_id", "source_epoch", "next_sequence", "previous_record_digest"]
    [("source_id", .keywords []), ("source_epoch", .keywords []), ("next_sequence", .keywords []),
      ("previous_record_digest", .keywords [])]

/-- `from_document`. -/
def fromDocument (document : Json) : Except Error DiscoveryCursor := do
  ensure (fieldSet.accepts document = true) (refuse "discovery cursor field set rejected")
  let sourceId ← raising (document.item (str "source_id"))
  let sourceEpoch ← raising (document.item (str "source_epoch"))
  let nextSequence ← raising (document.item (str "next_sequence"))
  let previousRecordDigest ← raising (document.item (str "previous_record_digest"))
  init sourceId sourceEpoch nextSequence previousRecordDigest

/-- The tip of the source in an index that received everything before the cursor. -/
def tip (cursor : DiscoveryCursor) : Option (Int × Str) :=
  cursor.previousRecordDigest.map fun digest => (cursor.nextSequence - 1, digest)

end DiscoveryCursor

/-! ## Emitting -/

inductive DiscoveryProvenance where
  | observed
  | derived
  | learned
  | proposed

def DiscoveryProvenance.value : DiscoveryProvenance → String
  | .observed => "OBSERVED"
  | .derived => "DERIVED"
  | .learned => "LEARNED"
  | .proposed => "PROPOSED"

inductive CoverageState where
  | complete
  | partly
  | denied
  | unknown

def CoverageState.value : CoverageState → String
  | .complete => "complete"
  | .partly => "partial"
  | .denied => "denied"
  | .unknown => "unknown"

/-- The arguments of `emit`. -/
structure Emission where
  assertion : Json
  observedAt : Str
  zoneId : Str
  sourceArtifactDigest : Str
  coverageDigest : Str
  change : DiscoveryChange
  provenance : DiscoveryProvenance
  state : DiscoveryState
  coverage : CoverageState
  confidencePpm : Int
  contentDigest : Option Str

/-- The `evidence` of a record. -/
def Emission.evidence (e : Emission) : Json :=
  .fields [("state", .str (str e.state.value)), ("provenance", .str (str e.provenance.value)),
    ("confidence_ppm", .int e.confidencePpm), ("content_digest", .ofOptionalText e.contentDigest),
    ("source_artifact_digest", .str e.sourceArtifactDigest),
    ("coverage", .fields [("state", .str (str e.coverage.value)),
      ("scope_digest", .str e.coverageDigest)])]

/-- The `core` of `emit`. -/
def Emission.core (e : Emission) (tenantId : Str) (cursor : DiscoveryCursor) :
    List (String × Json) :=
  [("protocol", .str (str "integrity-guardian/discovery-record/v1")), ("tenant_id", .str tenantId),
    ("source_id", .str cursor.sourceId), ("source_epoch", .str cursor.sourceEpoch),
    ("sequence", .int cursor.nextSequence), ("observed_at", .str e.observedAt),
    ("zone_id", .str e.zoneId), ("change", .str (str e.change.value)), ("assertion", e.assertion),
    ("evidence", e.evidence),
    ("previous_record_digest", .ofOptionalText cursor.previousRecordDigest),
    ("collector_boundary", discoveryBoundary)]

section
variable [UnicodeData] [Ed25519Keys]

/-- `emit`: the record, and the cursor behind it. -/
def emit (tenantId : Str) (signer : Ed25519Signer) (e : Emission) (cursor : DiscoveryCursor) :
    Except Error (Json × DiscoveryCursor) := do
  ensure (0 ≤ e.confidencePpm ∧ e.confidencePpm ≤ 1000000) (refuse "confidence_ppm rejected")
  ensure (Schemas.idBody e.zoneId = true) (refuse "zone_id rejected")
  ensure (Schemas.digestBody e.sourceArtifactDigest = true)
    (refuse "source_artifact_digest rejected")
  ensure (Schemas.digestBody e.coverageDigest = true) (refuse "coverage_digest rejected")
  ensure (∀ s ∈ e.contentDigest, Schemas.digestBody s = true) (refuse "content_digest rejected")
  let core := e.core tenantId cursor
  let recordId ← raising (discoveryRecordIdentity (.fields core))
  let signed ← raising (signer.sign (.fields (("record_id", .str recordId) :: core)))
  let _ ← verifyDiscoveryRecord signed signer.trustedKey
    ⟨some tenantId, some cursor.sourceId, some cursor.sourceEpoch, none⟩
  let digest ← raising (discoveryRecordDigest signed)
  let next ← DiscoveryCursor.init (.str cursor.sourceId) (.str cursor.sourceEpoch)
    (.int (cursor.nextSequence + 1 : Nat)) (.str digest)
  .ok (signed, next)

/-- What happens to an emitter: it emits, or one is built again from the stored cursor. -/
inductive EmitterStep where
  | emit (e : Emission)
  | restart

/-- The records an emitter writes, and its cursor at the end; a refused emission
leaves both as they are. -/
def emitEach (tenantId : Str) (signer : Ed25519Signer) :
    List EmitterStep → DiscoveryCursor → List Json × DiscoveryCursor
  | [], cursor => ([], cursor)
  | .restart :: steps, cursor =>
    match DiscoveryCursor.fromDocument cursor.toDocument with
    | .ok cursor => emitEach tenantId signer steps cursor
    | .error _ => ([], cursor)
  | .emit e :: steps, cursor =>
    match emit tenantId signer e cursor with
    | .ok (record, cursor) =>
      let (records, last) := emitEach tenantId signer steps cursor
      (record :: records, last)
    | .error _ => emitEach tenantId signer steps cursor

end

/-! ## Cursors and their documents -/

variable {cursor cursor' : DiscoveryCursor} {sourceId sourceEpoch : Str} {n : Nat}
  {digest : Option Str}

theorem requireId_eq_ok {field : String} {s : {s : Str // Schemas.idBody s = true}} :
    requireId (.str sourceId) field = .ok s ↔ s.1 = sourceId := by
  unfold requireId
  constructor
  · intro h
    simp only at h
    split at h
    · cases h
      rfl
    · cases h
  · rintro rfl
    exact dif_pos s.2

theorem requireDigest_eq_ok {field : String}
    {d : {d : Option Str // ∀ s ∈ d, Schemas.digestBody s = true}} :
    requireDigest (.ofOptionalText digest) field = .ok d ↔ d.1 = digest := by
  obtain ⟨d, hd⟩ := d
  cases digest with
  | none =>
    simp only [requireDigest, Json.ofOptionalText, Except.ok.injEq, Subtype.mk.injEq]
    exact eq_comm
  | some s =>
    simp only [requireDigest, Json.ofOptionalText]
    constructor
    · intro h
      split at h
      · cases h
        rfl
      · cases h
    · rintro rfl
      exact dif_pos (hd s rfl)

/-- The constructor gives the cursor of its arguments or nothing. -/
theorem init_eq_ok : DiscoveryCursor.init (.str sourceId) (.str sourceEpoch) (.int n)
      (.ofOptionalText digest) = .ok cursor ↔
    cursor.sourceId = sourceId ∧ cursor.sourceEpoch = sourceEpoch ∧ cursor.nextSequence = n ∧
      cursor.previousRecordDigest = digest := by
  unfold DiscoveryCursor.init
  have hsequence : requireSequence (.int n) = .ok n := rfl
  simp only [hsequence, ok_bind, bind_eq_ok, requireId_eq_ok, requireDigest_eq_ok]
  constructor
  · rintro ⟨source, rfl, epoch, rfl, d, rfl, h⟩
    split at h
    · cases h
      exact ⟨rfl, rfl, rfl, rfl⟩
    · cases h
  · rintro ⟨rfl, rfl, rfl, rfl⟩
    exact ⟨⟨_, cursor.sourceId_valid⟩, rfl, ⟨_, cursor.sourceEpoch_valid⟩, rfl,
      ⟨_, cursor.digest_valid⟩, rfl, dif_pos cursor.continuity⟩

/-- A stored cursor is read back as it was. -/
theorem fromDocument_toDocument (cursor : DiscoveryCursor) :
    DiscoveryCursor.fromDocument cursor.toDocument = .ok cursor := by
  have hfields : DiscoveryCursor.fieldSet.accepts cursor.toDocument = true := by
    apply Schema.accepts_closed_fields.2
    refine ⟨by simp, by simp [List.lookup_cons], ?_⟩
    simp [Schema.keywords]
  refine ensure_bind_eq_ok.2 ⟨hfields, bind_eq_ok.2 ⟨.str cursor.sourceId,
    raising_eq_ok.2 (Json.item_fields rfl), bind_eq_ok.2 ⟨.str cursor.sourceEpoch,
    raising_eq_ok.2 (Json.item_fields rfl), bind_eq_ok.2 ⟨.int cursor.nextSequence,
    raising_eq_ok.2 (Json.item_fields rfl), bind_eq_ok.2
      ⟨.ofOptionalText cursor.previousRecordDigest, raising_eq_ok.2 (Json.item_fields rfl), ?_⟩⟩⟩⟩⟩
  exact init_eq_ok.2 ⟨rfl, rfl, rfl, rfl⟩

theorem nextSequence_tip (cursor : DiscoveryCursor) :
    nextSequence cursor.tip = cursor.nextSequence := by
  unfold DiscoveryCursor.tip
  cases hdigest : cursor.previousRecordDigest with
  | none =>
    rw [cursor.continuity.2 hdigest]
    rfl
  | some digest =>
    simp [nextSequence]

theorem tip_digest (cursor : DiscoveryCursor) :
    cursor.tip.map Prod.snd = cursor.previousRecordDigest := by
  unfold DiscoveryCursor.tip
  cases cursor.previousRecordDigest <;> rfl

/-! ## Emitted records -/

/-- The collector artifact the evidence of a record names. -/
def FromArtifact (sourceArtifactDigest : Str) (raw : Json) : Prop :=
  ∃ evidence, raw.get? (str "evidence") = some evidence ∧
    evidence.get? (str "source_artifact_digest") = some (.str sourceArtifactDigest)

theorem ofOptionalText_injective : Function.Injective Json.ofOptionalText := by
  intro a b h
  cases a <;> cases b <;> simp_all [Json.ofOptionalText]

theorem links_of_readRecord {document : Json} {record : Record}
    (h : readRecord document = .ok record) :
    FromArtifact record.sourceArtifactDigest document ∧
      document.get? (str "previous_record_digest")
        = some (.ofOptionalText record.previousRecordDigest) := by
  unfold readRecord at h
  iterate 9 obtain ⟨_, _, h⟩ := bind_eq_ok.1 h
  obtain ⟨evidence, hevidence, h⟩ := bind_eq_ok.1 h
  iterate 2 obtain ⟨_, _, h⟩ := bind_eq_ok.1 h
  obtain ⟨artifact, hartifact, h⟩ := bind_eq_ok.1 h
  obtain ⟨previous, hprevious, h⟩ := bind_eq_ok.1 h
  cases h
  exact ⟨⟨evidence, Json.item_eq_ok.1 hevidence, Json.textItem_eq_ok.1 hartifact⟩,
    Json.optionalTextItem_eq_ok.1 hprevious⟩

section
variable [UnicodeData]

theorem verify_expecting [Ed25519] {document : Json} {key : TrustedKey} {expected : Expected}
    {record : Record} (h : verifyDiscoveryRecord document key expected = .ok record) :
    readRecord document = .ok record ∧ verifyDiscoveryRecord document key
      { expected with sourceArtifactDigest := some record.sourceArtifactDigest } = .ok record := by
  unfold verifyDiscoveryRecord at h ⊢
  simp only [bind_eq_ok] at h ⊢
  obtain ⟨⟨⟩, haccepts, boundary, hboundary, ⟨⟩, hsame, _, hread, identity, hidentity, ⟨⟩, hid,
    signature, hsignature, keyId, hkeyId, ⟨⟩, hkey, verified, hverified, ⟨⟩, htrue, ⟨⟩, htenant,
    ⟨⟩, hsource, ⟨⟩, hepoch, ⟨⟩, -, ⟨⟩, hevidence, h⟩ := h
  cases h
  exact ⟨raising_eq_ok.1 hread, (), haccepts, boundary, hboundary, (), hsame, _, hread, identity,
    hidentity, (), hid, signature, hsignature, keyId, hkeyId, (), hkey, verified, hverified, (),
    htrue, (), htenant, (), hsource, (), hepoch, (), ensureExpected_some.2 rfl, (), hevidence,
    rfl⟩

variable [Ed25519Keys]

/-! ## An emitter and an index that trusts it -/

/-- An emitter whose source the index trusts, and whose cursor stands at the
index's tip of that source. -/
structure Feed where
  config : Config
  source : TrustedDiscoverySource
  signer : Ed25519Signer
  cursor : DiscoveryCursor
  index : Index
  trusted : source ∈ config.trustedSources
  trustedKey : source.trustedKey = signer.trustedKey
  admits : config.admissionPolicy = none
  sourceId : cursor.sourceId = source.sourceId
  sourceEpoch : cursor.sourceEpoch = source.sourceEpoch
  aligned : index.sourceTips[source.key]? = cursor.tip

/-- An emitter with a new cursor and an empty index. -/
def Feed.fresh (tenantId : {s : Str // Schemas.tenantBody s = true})
    (source : TrustedDiscoverySource) (signer receiptSigner : Ed25519Signer)
    (trustedKey : source.trustedKey = signer.trustedKey) : Feed where
  config := ⟨tenantId.1, [source], receiptSigner, none, tenantId.2, by simp, by simp⟩
  source := source
  signer := signer
  cursor := ⟨source.sourceId, source.sourceEpoch, 0, none, source.sourceId_valid,
    source.sourceEpoch_valid, by simp, by simp⟩
  index := Index.empty
  trusted := List.mem_singleton_self source
  trustedKey := trustedKey
  admits := rfl
  sourceId := rfl
  sourceEpoch := rfl
  aligned := rfl

variable {feed : Feed} {cursor cursor' last : DiscoveryCursor} {raw : Json}

/-- One emission of the feed's source, as the index sees it. -/
structure Emitted (feed : Feed) (cursor : DiscoveryCursor) (raw : Json)
    (cursor' : DiscoveryCursor) : Prop where
  sourceId : raw.get? (str "source_id") = some (.str feed.source.sourceId)
  sourceEpoch : raw.get? (str "source_epoch") = some (.str feed.source.sourceEpoch)
  sequence : raw.get? (str "sequence") = some (.int cursor.nextSequence)
  next : cursor'.nextSequence = cursor.nextSequence + 1
  receive : FromArtifact feed.source.sourceArtifactDigest raw →
    ∀ tips : Dict SourceKey (Int × Str), tips[feed.source.key]? = cursor.tip →
      ∃ record digest, receive feed.config tips raw = .ok (record, digest) ∧
        cursor'.tip = some (record.sequence, digest)

theorem trustedSourceOf_eq_ok
    (hsource : raw.get? (str "source_id") = some (.str feed.source.sourceId))
    (hepoch : raw.get? (str "source_epoch") = some (.str feed.source.sourceEpoch)) :
    trustedSourceOf feed.config raw = .ok feed.source := by
  have hkey : rawSourceKey raw = .ok feed.source.key := by
    unfold rawSourceKey displayedItem
    rw [Json.item_eq_ok.2 hsource, Json.item_eq_ok.2 hepoch]
    rfl
  unfold trustedSourceOf
  rw [hkey]
  simp only [Except.mapError, ok_bind, trusted_of_mem feed.trusted]

/-- What `emit` returns is the next record of its source. -/
theorem emitted_of_emit {e : Emission} (hsource : cursor.sourceId = feed.source.sourceId)
    (hepoch : cursor.sourceEpoch = feed.source.sourceEpoch)
    (h : emit feed.config.tenantId feed.signer e cursor = .ok (raw, cursor')) :
    Emitted feed cursor raw cursor' ∧ cursor'.sourceId = feed.source.sourceId ∧
      cursor'.sourceEpoch = feed.source.sourceEpoch := by
  unfold emit at h
  iterate 5 obtain ⟨-, h⟩ := ensure_bind_eq_ok.1 h
  obtain ⟨recordId, -, h⟩ := bind_eq_ok.1 h
  obtain ⟨signed, hsign, h⟩ := bind_eq_ok.1 h
  obtain ⟨record, hverify, h⟩ := bind_eq_ok.1 h
  obtain ⟨digest, hdigest, h⟩ := bind_eq_ok.1 h
  obtain ⟨next, hnext, h⟩ := bind_eq_ok.1 h
  cases h
  change DiscoveryCursor.init _ _ _ (.ofOptionalText (some digest)) = _ at hnext
  obtain ⟨hid, hep, hsequence, hprevious⟩ := init_eq_ok.1 hnext
  -- the document that was signed
  rw [raising_eq_ok] at hsign hdigest
  obtain ⟨payload, hpayload, -⟩ := bind_eq_ok.1 hsign
  rw [sign_fields _ (by simp [Emission.core]) hpayload, Except.ok.injEq] at hsign
  have hget : ∀ key, raw.get? (str key) = List.lookup key (("record_id", .str recordId) ::
      e.core feed.config.tenantId cursor ++ [("signature",
        signatureObject feed.signer.keyId (feed.signer.signBytes payload))]) := by
    intro key
    rw [← hsign, Json.get?_fields]
  have hrawSource : raw.get? (str "source_id") = some (.str feed.source.sourceId) := by
    rw [hget, ← hsource]
    rfl
  have hrawEpoch : raw.get? (str "source_epoch") = some (.str feed.source.sourceEpoch) := by
    rw [hget, ← hepoch]
    rfl
  have hrawSequence : raw.get? (str "sequence") = some (.int cursor.nextSequence) := by
    rw [hget]
    rfl
  refine ⟨⟨hrawSource, hrawEpoch, hrawSequence, hsequence, ?_⟩, hid.trans hsource,
    hep.trans hepoch⟩
  rintro ⟨evidence, hevidence, hartifact⟩ tips htip
  obtain ⟨hread, hverify⟩ := verify_expecting hverify
  obtain ⟨⟨evidence', hevidence', hartifact'⟩, hlink⟩ := links_of_readRecord hread
  rw [hevidence, Option.some.injEq] at hevidence'
  rw [← hevidence', hartifact, Option.some.injEq, Json.str.injEq] at hartifact'
  rw [← feed.trustedKey, hsource, hepoch, ← hartifact'] at hverify
  have hfields := fields_of_readRecord hread
  have hrecordSequence : record.sequence = cursor.nextSequence := by
    have hsame := hfields.sequence
    rw [document_of_readRecord hread, hrawSequence, Option.some.injEq, Json.int.injEq] at hsame
    exact hsame.symm
  have hrecordLink : record.previousRecordDigest = cursor.previousRecordDigest := by
    have hraw : raw.get? (str "previous_record_digest")
        = some (.ofOptionalText cursor.previousRecordDigest) := by
      rw [hget]
      rfl
    rw [hraw, Option.some.injEq] at hlink
    exact (ofOptionalText_injective hlink).symm
  refine ⟨record, digest, ?_, ?_⟩
  · unfold receive
    rw [trustedSourceOf_eq_ok hrawSource hrawEpoch, ok_bind]
    refine bind_eq_ok.2 ⟨record, hverify, ?_⟩
    simp only [htip, nextSequence_tip, tip_digest]
    exact ensure_bind_eq_ok.2 ⟨by omega, ensure_bind_eq_ok.2 ⟨by omega,
      ensure_bind_eq_ok.2 ⟨hrecordLink, bind_eq_ok.2 ⟨digest, raising_eq_ok.2 hdigest, rfl⟩⟩⟩⟩
  · rw [DiscoveryCursor.tip, hprevious, hsequence, hrecordSequence]
    simp

/-- The records of a run, between its first cursor and its last. -/
inductive Chain (feed : Feed) : DiscoveryCursor → List Json → DiscoveryCursor → Prop where
  | nil (cursor : DiscoveryCursor) : Chain feed cursor [] cursor
  | cons {cursor cursor' last : DiscoveryCursor} {raw : Json} {raws : List Json} :
      Emitted feed cursor raw cursor' → Chain feed cursor' raws last →
      Chain feed cursor (raw :: raws) last

theorem chain_of_emitEach (steps : List EmitterStep)
    (hsource : cursor.sourceId = feed.source.sourceId)
    (hepoch : cursor.sourceEpoch = feed.source.sourceEpoch) :
    Chain feed cursor (emitEach feed.config.tenantId feed.signer steps cursor).1
      (emitEach feed.config.tenantId feed.signer steps cursor).2 := by
  induction steps generalizing cursor with
  | nil => exact Chain.nil cursor
  | cons step steps ih =>
    cases step with
    | restart =>
      unfold emitEach
      rw [fromDocument_toDocument]
      exact ih hsource hepoch
    | emit e =>
      unfold emitEach
      cases hemit : emit feed.config.tenantId feed.signer e cursor with
      | error _ => exact ih hsource hepoch
      | ok p =>
        obtain ⟨hemitted, hsource', hepoch'⟩ := emitted_of_emit hsource hepoch hemit
        exact Chain.cons hemitted (ih hsource' hepoch')

/-- The record names the source of the feed. -/
def Named (feed : Feed) (raw : Json) : Prop :=
  raw.get? (str "source_id") = some (.str feed.source.sourceId) ∧
    raw.get? (str "source_epoch") = some (.str feed.source.sourceEpoch)

/-- The records of a chain are numbered from its cursor on. -/
theorem Chain.numbered {raws : List Json} (h : Chain feed cursor raws last) :
    ∀ raw ∈ raws, Named feed raw ∧ ∃ n : Nat, raw.get? (str "sequence") = some (.int n) ∧
      cursor.nextSequence ≤ n := by
  induction h with
  | nil cursor => simp
  | cons hemitted _ ih =>
    have hnext := hemitted.next
    refine List.forall_mem_cons.2
      ⟨⟨⟨hemitted.sourceId, hemitted.sourceEpoch⟩, _, hemitted.sequence, le_refl _⟩, ?_⟩
    intro raw hraw
    obtain ⟨hnamed, n, hn, hle⟩ := ih raw hraw
    exact ⟨hnamed, n, hn, by omega⟩

/-! ## What the index stages -/

/-- A record of the source is received at its own number only. -/
theorem sequence_of_receive {tips : Dict SourceKey (Int × Str)} {record : Record} {digest : Str}
    (htips : tips[feed.source.key]? = cursor.tip) (hnamed : Named feed raw)
    (h : receive feed.config tips raw = .ok (record, digest)) :
    record.sourceKey = feed.source.key ∧
      raw.get? (str "sequence") = some (.int cursor.nextSequence) ∧
      FromArtifact feed.source.sourceArtifactDigest raw := by
  have hreceived := received_of_receive h
  obtain ⟨source, hsource, hverified⟩ := hreceived.source
  have hdocument := hreceived.document
  have hid := hverified.fields.sourceId
  have hepoch := hverified.fields.sourceEpoch
  have hsequence := hverified.fields.sequence
  rw [hdocument, hnamed.1, Option.some.injEq, Json.str.injEq] at hid
  rw [hdocument, hnamed.2, Option.some.injEq, Json.str.injEq] at hepoch
  have hkey : record.sourceKey = feed.source.key := by
    rw [Record.sourceKey, TrustedDiscoverySource.key, ← hid, ← hepoch]
  rw [hkey, trusted_of_mem feed.trusted, Option.some.injEq] at hsource
  have hartifact := (links_of_readRecord hverified.read).1
  rw [hdocument, hverified.sourceArtifactDigest, ← hsource] at hartifact
  rw [hdocument, hreceived.sequence, hkey, htips, nextSequence_tip] at hsequence
  exact ⟨hkey, hsequence, hartifact⟩

theorem stageOne_of_receive {reviewPriority : Json} {s : Staged} {record : Record} {digest : Str}
    (h : receive feed.config s.tips raw = .ok (record, digest)) :
    stageOne feed.config reviewPriority s raw =
      .ok (record, none, (s.advance record digest).settle record none) := by
  unfold stageOne admission
  rw [h, feed.admits]
  rfl

/-- A record of the chain, or of before it, is received at the front of the chain only. -/
theorem front_of_receive {records : List Json} (hchain : Chain feed cursor records last)
    (hsequence : raw.get? (str "sequence") = some (.int cursor.nextSequence))
    (hplace : raw ∈ records ∨ ∃ n : Nat,
      raw.get? (str "sequence") = some (.int n) ∧ n < cursor.nextSequence) :
    ∃ cursor' rest, records = raw :: rest ∧ Emitted feed cursor raw cursor' ∧
      Chain feed cursor' rest last := by
  have hmem : raw ∈ records := by
    rcases hplace with hmem | ⟨n, hn, hlt⟩
    · exact hmem
    · rw [hsequence, Option.some.injEq, Json.int.injEq] at hn
      omega
  cases hchain with
  | nil => cases hmem
  | @cons _ cursor' _ next rest hemitted hchain =>
    have hnext := hemitted.next
    have hsame : raw = next := by
      rcases List.mem_cons.1 hmem with hhead | htail
      · exact hhead
      · obtain ⟨-, n, hn, hle⟩ := hchain.numbered raw htail
        rw [hsequence, Option.some.injEq, Json.int.injEq] at hn
        omega
    subst hsame
    exact ⟨cursor', rest, rfl, hemitted, hchain⟩

theorem staged_iff {reviewPriority : Json} (raws : List Json) {records : List Json} {s : Staged}
    {accepted : List Record} {decisions : List DiscoveryAdmissionDecision}
    (hchain : Chain feed cursor records last) (htips : s.tips[feed.source.key]? = cursor.tip)
    (hraws : ∀ raw ∈ raws, Named feed raw ∧ (raw ∈ records ∨ ∃ n : Nat,
      raw.get? (str "sequence") = some (.int n) ∧ n < cursor.nextSequence)) :
    (∃ s' accepted' decisions',
      stageEach feed.config reviewPriority raws s accepted decisions
        = .staged s' accepted' decisions') ↔
      raws <+: records ∧ ∀ raw ∈ raws, FromArtifact feed.source.sourceArtifactDigest raw := by
  induction raws generalizing cursor records s accepted decisions with
  | nil => exact iff_of_true ⟨s, accepted, decisions, rfl⟩ ⟨List.nil_prefix, by simp⟩
  | cons raw raws ih =>
    obtain ⟨⟨hnamed, hplace⟩, hrest⟩ := List.forall_mem_cons.1 hraws
    rw [stageEach]
    cases hreceive : receive feed.config s.tips raw with
    | error e =>
      have hone : stageOne feed.config reviewPriority s raw = .error (.raised e) := by
        unfold stageOne
        rw [hreceive]
        rfl
      rw [hone]
      refine iff_of_false (by simp) ?_
      rintro ⟨hfront, hartifacts⟩
      cases hchain with
      | nil => simp at hfront
      | cons hemitted _ =>
        obtain ⟨rfl, -⟩ := List.cons_prefix_cons.1 hfront
        obtain ⟨record, digest, hok, -⟩ :=
          hemitted.receive (hartifacts raw List.mem_cons_self) s.tips htips
        rw [hreceive] at hok
        cases hok
    | ok p =>
      obtain ⟨record, digest⟩ := p
      obtain ⟨hkey, hsequence, hartifact⟩ := sequence_of_receive htips hnamed hreceive
      obtain ⟨cursor', rest, rfl, hemitted, hchain⟩ := front_of_receive hchain hsequence hplace
      obtain ⟨record', digest', hok, htip⟩ := hemitted.receive hartifact s.tips htips
      rw [hreceive, Except.ok.injEq, Prod.mk.injEq] at hok
      obtain ⟨rfl, rfl⟩ := hok
      rw [stageOne_of_receive hreceive, List.cons_prefix_cons, List.forall_mem_cons,
        and_iff_right rfl, and_iff_right hartifact]
      have hnext := hemitted.next
      apply ih hchain
      · rw [(Staged.settle_tips _ record none).1, htip, ← hkey]
        simp [Staged.advance]
      · intro other hother
        obtain ⟨hnamed', hplace'⟩ := hrest other hother
        refine ⟨hnamed', ?_⟩
        rcases hplace' with hmem' | ⟨n, hn, hlt⟩
        · rcases List.mem_cons.1 hmem' with rfl | htail
          · exact Or.inr ⟨_, hsequence, by omega⟩
          · exact Or.inl htail
        · exact Or.inr ⟨n, hn, by omega⟩

/-- Of the records an emitter writes, restarts and refused emissions included, the
index stages exactly what comes next: a batch made of them is staged when it is a
beginning of the chain, from the trusted artifact, and not when a record is left
out, repeated, exchanged or from another artifact. -/
theorem emitted_batch_staged (feed : Feed) (steps : List EmitterStep) (reviewPriority : Json) :
    DiscoveryCursor.fromDocument feed.cursor.toDocument = .ok feed.cursor ∧
    ∀ raws, (∀ raw ∈ raws,
        raw ∈ (emitEach feed.config.tenantId feed.signer steps feed.cursor).1) →
      ((∃ s accepted decisions, stageEach feed.config reviewPriority raws
          (Staged.start feed.index) [] [] = .staged s accepted decisions) ↔
        raws <+: (emitEach feed.config.tenantId feed.signer steps feed.cursor).1 ∧
          ∀ raw ∈ raws, FromArtifact feed.source.sourceArtifactDigest raw) := by
  refine ⟨fromDocument_toDocument feed.cursor, fun raws hraws => ?_⟩
  have hchain := chain_of_emitEach steps feed.sourceId feed.sourceEpoch
  refine staged_iff raws hchain feed.aligned ?_
  intro raw hraw
  have hmem := hraws raw hraw
  exact ⟨(hchain.numbered raw hmem).1, Or.inl hmem⟩

end

end IntegrityGuardian.Discovery
