import IntegrityGuardian.Ledger.Store

/-!
# Runs of appends

A table written by appends alone is sound: its rows are in ledger order, each
row records a valid event of the tenant, and the rows of every source form one
chain.  `verify` replays such a table without finding anything, up to the
signatures, which no append looks at.
-/

namespace IntegrityGuardian.Ledger

open Python Library
open KeyedChain (Placement Chained tip nextNumber)

/-! ## Sound tables -/

/-- How a row stands in the chain of its source. -/
def placement : Placement Row Str Str where
  key := Row.sourceId
  number := Row.sourceSequence
  link := Row.previousEventDigest
  digest := Row.eventDigest

section
variable [UnicodeData]

/-- The row records the event. -/
structure Records (ledger : Identity) (event : Json) (row : Row) : Prop where
  wf : event.wf = true
  valid : Schemas.ledgerEvent.accepts event = true
  fields : ∃ eventId, ledgerEventIdentity event = .ok eventId ∧
    readFields event = .ok ⟨eventId, row.tenantId, row.sourceId, row.sourceSequence,
      row.previousEventDigest⟩
  tenant : row.tenantId = ledger.tenantId
  digest : eventDigest event = .ok row.eventDigest
  bytes : canonicalBytes event = .ok row.eventJson

/-- What appends keep true of the table. -/
structure Sound (ledger : Identity) (rows : List Row) : Prop where
  ordered : rows.Pairwise fun a b => a.ledgerSequence < b.ledgerSequence
  recorded : ∀ row ∈ rows, ∃ event, Records ledger event row
  chained : Chained placement rows

theorem sound_nil (ledger : Identity) : Sound ledger [] :=
  ⟨List.Pairwise.nil, by simp, Chained.nil⟩

variable {ledger : Identity} {event : Json} {rows rows' : List Row} {s : Replay} {row : Row}
  {digest : Str}

omit [UnicodeData] in
theorem lt_nextLedgerSequence (h : row ∈ rows) :
    row.ledgerSequence < nextLedgerSequence rows := by
  have hle : ∀ (ns : List Int) (start n : Int), n ∈ start :: ns → n ≤ ns.foldl max start := by
    intro ns
    induction ns with
    | nil => simp
    | cons m ns ih =>
      intro start n hn
      rw [List.foldl_cons]
      have hmax := ih (max start m) (max start m) (List.mem_cons_self ..)
      rcases List.mem_cons.1 hn with rfl | hn
      · exact le_trans (le_max_left ..) hmax
      · rcases List.mem_cons.1 hn with rfl | hn
        · exact le_trans (le_max_right ..) hmax
        · exact ih _ n (List.mem_cons_of_mem _ hn)
  have hmem := hle (rows.map Row.ledgerSequence) 0 row.ledgerSequence
    (List.mem_cons_of_mem _ (List.mem_map_of_mem h))
  unfold nextLedgerSequence
  omega

omit [UnicodeData] in
theorem ledgerOrder_eq (h : rows.Pairwise fun a b => a.ledgerSequence < b.ledgerSequence) :
    ledgerOrder rows = rows :=
  (h.imp fun hlt => le_of_lt hlt).insertionSort_eq

theorem sourceTip_eq_tip (h : Sound ledger rows) (sourceId : Str) :
    sourceTip rows ledger.tenantId sourceId = tip placement sourceId rows := by
  rw [← KeyedChain.highest_chain h.chained]
  unfold sourceTip KeyedChain.chain
  congr 1
  apply List.filter_congr
  intro row hrow
  obtain ⟨event, hevent⟩ := h.recorded row hrow
  apply decide_eq_decide.2
  rw [hevent.tenant]
  exact and_iff_right rfl

/-! ## Appends -/

theorem appendOne_eq_ok
    (hwf : event.wf = true) (h : appendOne ledger event rows = .ok (digest, rows')) :
    ∃ row, rows' = rows ++ [row] ∧ Records ledger event row ∧ row.eventDigest = digest ∧
      row.ledgerSequence = nextLedgerSequence rows ∧
      row.sourceSequence
        = nextNumber placement (sourceTip rows ledger.tenantId row.sourceId) ∧
      row.previousEventDigest
        = (sourceTip rows ledger.tenantId row.sourceId).map Row.eventDigest := by
  unfold appendOne raising at h
  obtain ⟨⟨⟩, hvalid, h⟩ := bind_eq_ok.1 h
  obtain ⟨fields, hfields, h⟩ := bind_eq_ok.1 h
  obtain ⟨identity, hidentity, h⟩ := bind_eq_ok.1 h
  obtain ⟨hid, h⟩ := ensure_bind_eq_ok.1 h
  obtain ⟨htenant, h⟩ := ensure_bind_eq_ok.1 h
  obtain ⟨hsequence, h⟩ := ensure_bind_eq_ok.1 h
  obtain ⟨hprevious, h⟩ := ensure_bind_eq_ok.1 h
  obtain ⟨digest', hdigest, h⟩ := bind_eq_ok.1 h
  obtain ⟨eventJson, hbytes, h⟩ := bind_eq_ok.1 h
  obtain ⟨inserted, hinsert, h⟩ := bind_eq_ok.1 h
  cases h
  rw [mapError_eq_ok] at hvalid hfields hidentity hdigest hbytes hinsert
  unfold insertRow at hinsert
  obtain ⟨-, hinsert⟩ := ensure_bind_eq_ok.1 hinsert
  obtain ⟨-, hinsert⟩ := ensure_bind_eq_ok.1 hinsert
  obtain ⟨-, hinsert⟩ := ensure_bind_eq_ok.1 hinsert
  cases hinsert
  refine ⟨_, rfl, ⟨hwf, Schemas.validate_eq_ok.1 hvalid, ⟨identity, hidentity, ?_⟩, htenant,
    hdigest, hbytes⟩, rfl, rfl, ?_, ?_⟩
  · rw [hfields, ← hid]
  · rw [← htenant]
    show fields.sourceSequence = _
    rw [hsequence]
    cases sourceTip rows fields.tenantId fields.sourceId <;> rfl
  · rw [← htenant]
    exact hprevious

theorem appendOne_sound (hs : Sound ledger rows) (hwf : event.wf = true)
    (h : appendOne ledger event rows = .ok (digest, rows')) : Sound ledger rows' := by
  obtain ⟨row, rfl, hrecords, -, hledger, hsequence, hprevious⟩ := appendOne_eq_ok hwf h
  rw [sourceTip_eq_tip hs] at hsequence hprevious
  constructor
  · apply List.pairwise_append.2
    refine ⟨hs.ordered, List.pairwise_singleton .., ?_⟩
    intro a ha b hb
    obtain rfl := List.mem_singleton.1 hb
    rw [hledger]
    exact lt_nextLedgerSequence ha
  · intro r hr
    rcases List.mem_append.1 hr with hr | hr
    · exact hs.recorded r hr
    · obtain rfl := List.mem_singleton.1 hr
      exact ⟨event, hrecords⟩
  · exact Chained.snoc hs.chained hsequence hprevious

/-- The rows added are those of the events, in their order, with the digests returned. -/
def Appended (ledger : Identity) (events : List Json) (digests : List Str)
    (rows rows' : List Row) : Prop :=
  ∃ new, rows' = rows ++ new ∧ List.Forall₂ (Records ledger) events new ∧
    new.map Row.eventDigest = digests

theorem appendEach_eq_ok {failure : Option Exc} {events : List Json}
    (hwf : ∀ event ∈ events, event.wf = true) {digests : List Str} (hs : Sound ledger rows)
    (h : appendEach ledger failure events rows = .ok (digests, rows')) :
    Sound ledger rows' ∧ Appended ledger events digests rows rows' := by
  induction events generalizing rows digests with
  | nil =>
    unfold appendEach at h
    split at h
    · cases h
      exact ⟨hs, [], by simp, List.Forall₂.nil, rfl⟩
    · cases h
  | cons event events ih =>
    unfold appendEach at h
    obtain ⟨⟨digest, mid⟩, hone, h⟩ := bind_eq_ok.1 h
    obtain ⟨⟨digests', last⟩, heach, h⟩ := bind_eq_ok.1 h
    cases h
    have hwf' := List.forall_mem_cons.1 hwf
    have hmid := appendOne_sound hs hwf'.1 hone
    obtain ⟨row, rfl, hrecords, hdigest, -⟩ := appendOne_eq_ok hwf'.1 hone
    obtain ⟨hlast, new, rfl, hnew, hdigests⟩ := ih hwf'.2 hmid heach
    refine ⟨hlast, row :: new, by simp, List.Forall₂.cons hrecords hnew, ?_⟩
    rw [List.map_cons, hdigest, hdigests]

/-! ## Replaying a sound table -/

omit [UnicodeData] in
@[simp] theorem raising_ok {α : Type} (a : α) : raising (.ok a) = .ok a := rfl

/-- The loop of `verify` remembers the digests so far and the tip of every source. -/
structure Agrees (s : Replay) (rows : List Row) : Prop where
  reconstructed : s.reconstructed = rows.map Row.eventDigest
  tips : ∀ k, s.sourceTips.lookup k
    = (tip placement k rows).map fun r => (r.sourceSequence, r.eventDigest)

omit [UnicodeData] in
theorem lookup_filter_ne {β : Type} (tips : List (Str × β)) (key k : Str) :
    (tips.filter fun t => t.1 != key).lookup k = if k = key then none else tips.lookup k := by
  induction tips with
  | nil => simp
  | cons t tips ih =>
    obtain ⟨l, b⟩ := t
    rw [List.filter_cons]
    by_cases hl : l = key
    · subst hl
      by_cases hk : k = l
      · subst hk
        simpa using ih
      · simp [ih, hk, List.lookup_cons, beq_eq_false_iff_ne.2 hk]
    · by_cases hk : k = l
      · subst hk
        simp [hl]
      · simp [hl, List.lookup_cons, beq_eq_false_iff_ne.2 hk, ih]

omit [UnicodeData] in
theorem agrees_advance (h : Agrees s rows) (row : Row) :
    Agrees (s.advance row.sourceId row.sourceSequence row.eventDigest) (rows ++ [row]) := by
  constructor
  · simp [Replay.advance, h.reconstructed]
  · intro k
    rw [KeyedChain.tip_snoc, Replay.advance, List.lookup_cons]
    show _ = (if row.sourceId = k then some row else tip placement k rows).map _
    by_cases hk : k = row.sourceId
    · simp [hk]
    · rw [beq_eq_false_iff_ne.2 hk, if_neg (Ne.symm hk)]
      simp only [lookup_filter_ne, if_neg hk]
      exact h.tips k

theorem Records.isObj (h : Records ledger event row) : event.IsObj :=
  Schema.isObj_of_closed h.valid

theorem readEvent_stored
    (h : Records ledger event row) : readEvent row.stored = .ok event.sortKeys := by
  have hparse : parseColumn row.stored.eventJson = some event.sortKeys := by
    show (parseJsonStrict row.eventJson).toOption = _
    rw [parseJsonStrict_canonicalBytes h.wf h.bytes]
    rfl
  have hvalid : Schemas.ledgerEvent.accepts event.sortKeys = true := by
    rw [Schemas.ledgerEvent.accepts_sortKeys h.wf, h.valid]
  unfold readEvent
  rw [hparse]
  simp only [ensure_of hvalid, ok_bind]

theorem replayRow_stored (h : Records ledger event row) (ha : Agrees s rows)
    (hnumber : row.sourceSequence = nextNumber placement (tip placement row.sourceId rows))
    (hlink : row.previousEventDigest
      = (tip placement row.sourceId rows).map Row.eventDigest) :
    replayRow ledger.tenantId s row.stored
      = .ok (event.sortKeys, s.advance row.sourceId row.sourceSequence row.eventDigest) := by
  obtain ⟨eventId, hidentity, hfields⟩ := h.fields
  have hdigest : eventDigest event.sortKeys = .ok row.eventDigest := by
    rw [eventDigest_sortKeys, h.digest]
  have hidentity' : ledgerEventIdentity event.sortKeys = .ok eventId := by
    rw [ledgerEventIdentity_sortKeys h.isObj h.wf, hidentity]
  have htip := ha.tips row.sourceId
  unfold replayRow
  simp only [readEvent_stored h, ok_bind, hdigest, raising_ok, readFields_sortKeys h.wf, hfields,
    hidentity', htip, checkIndexed]
  -- the columns are the event's own fields
  refine ensure_bind_eq_ok.2 ⟨rfl, ensure_bind_eq_ok.2 ⟨decide_eq_true rfl,
    ensure_bind_eq_ok.2 ⟨decide_eq_true rfl, ensure_bind_eq_ok.2 ⟨decide_eq_true rfl,
      ensure_bind_eq_ok.2 ⟨decide_eq_true rfl, ?_⟩⟩⟩⟩⟩
  refine ensure_bind_eq_ok.2 ⟨h.tenant, ensure_bind_eq_ok.2 ⟨trivial, ?_⟩⟩
  -- the remembered tip is the one the append saw
  refine ensure_bind_eq_ok.2 ⟨?_, ensure_bind_eq_ok.2 ⟨?_, rfl⟩⟩
  · rw [hnumber]
    cases tip placement row.sourceId rows <;> rfl
  · rw [hlink]
    cases tip placement row.sourceId rows <;> rfl

/-- The checks of `verify` before the signatures, over a table in ledger order. -/
def replay (ledger : Identity) (rows : List StoredRow) : Except Error Replay :=
  rows.foldlM (fun s row => (replayRow ledger.tenantId s row).map Prod.snd) Replay.empty

theorem Sound.of_snoc (h : Sound ledger (rows ++ [row])) : Sound ledger rows :=
  ⟨(List.pairwise_append.1 h.ordered).1, fun r hr => h.recorded r (List.mem_append_left _ hr),
    h.chained.snoc_inv.1⟩

theorem Sound.replayRow_last (h : Sound ledger (rows ++ [row])) (ha : Agrees s rows) :
    ∃ event, Records ledger event row ∧ replayRow ledger.tenantId s row.stored
      = .ok (event.sortKeys, s.advance row.sourceId row.sourceSequence row.eventDigest) := by
  obtain ⟨event, hevent⟩ := h.recorded row (List.mem_append_right _ (List.mem_singleton_self row))
  obtain ⟨-, hnumber, hlink⟩ := h.chained.snoc_inv
  exact ⟨event, hevent, replayRow_stored hevent ha hnumber hlink⟩

theorem Sound.replay_eq_ok (h : Sound ledger rows) :
    ∃ s, Agrees s rows ∧ replay ledger (rows.map Row.stored) = .ok s := by
  induction rows using List.reverseRecOn with
  | nil => exact ⟨Replay.empty, ⟨rfl, fun k => rfl⟩, rfl⟩
  | append_singleton rows row ih =>
    obtain ⟨s, hagrees, hreplay⟩ := ih h.of_snoc
    obtain ⟨event, -, hrow⟩ := h.replayRow_last hagrees
    refine ⟨_, agrees_advance hagrees row, ?_⟩
    unfold replay at hreplay ⊢
    rw [List.map_append, List.foldlM_append, hreplay, ok_bind, List.map_singleton,
      List.foldlM_cons, hrow]
    rfl

/-! ## Signatures -/

variable [Ed25519]

/-- The event's signature verifies under the key mapped to its source. -/
def SignatureVerifies (sourcePublicKeys : Str → Option TrustedKey) (event : Json) : Prop :=
  ∃ sourceId key signature, event.textItem (str "source_id") = .ok sourceId ∧
    sourcePublicKeys sourceId = some key ∧ event.item (str "signature") = .ok signature ∧
    signature.textItem (str "key_id") = .ok key.keyId ∧
    verifySignature event key.publicKey = .ok true

variable {db : Database} {event : Document} {ledger : Identity} {rows : List Row}
  {sourcePublicKeys : Str → Option TrustedKey}

omit [UnicodeData] in
theorem checkSignature_eq_ok {event : Json} : checkSignature sourcePublicKeys event = .ok () ↔
      SignatureVerifies sourcePublicKeys event := by
  unfold checkSignature raising
  constructor
  · intro h
    obtain ⟨sourceId, hsource, h⟩ := bind_eq_ok.1 h
    cases hkey : sourcePublicKeys sourceId with
    | none => simp [hkey] at h
    | some key =>
      simp only [hkey] at h
      obtain ⟨signature, hsignature, h⟩ := bind_eq_ok.1 h
      obtain ⟨keyId, hkeyId, h⟩ := bind_eq_ok.1 h
      obtain ⟨hname, h⟩ := ensure_bind_eq_ok.1 h
      obtain ⟨verified, hverified, h⟩ := bind_eq_ok.1 h
      have htrue := ensure_eq_ok.1 h
      rw [mapError_eq_ok] at hsource hsignature hkeyId hverified
      exact ⟨sourceId, key, signature, hsource, hkey, hsignature, hname ▸ hkeyId,
        htrue ▸ hverified⟩
  · rintro ⟨sourceId, key, signature, hsource, hkey, hsignature, hkeyId, hverified⟩
    refine bind_eq_ok.2 ⟨sourceId, mapError_eq_ok.2 hsource, ?_⟩
    simp only [hkey]
    refine bind_eq_ok.2 ⟨signature, mapError_eq_ok.2 hsignature,
      bind_eq_ok.2 ⟨key.keyId, mapError_eq_ok.2 hkeyId, ensure_bind_eq_ok.2 ⟨rfl,
        bind_eq_ok.2 ⟨true, mapError_eq_ok.2 hverified, ensure_of rfl _⟩⟩⟩⟩

theorem checkSignature_stored {event : Json} {row : Row}
    (h : Records ledger event row) (sourcePublicKeys : Str → Option TrustedKey) :
    checkSignature sourcePublicKeys event.sortKeys = .ok () ∨
      checkSignature sourcePublicKeys event.sortKeys
        = .error (distrust "source signature verification failed") := by
  have hvalid : Schemas.ledgerEvent.accepts event.sortKeys = true := by
    rw [Schemas.ledgerEvent.accepts_sortKeys h.wf, h.valid]
  obtain ⟨source, hsource, hid⟩ :=
    @Schema.get?_of_closed _ _ _ hvalid "source_id" Schemas.id (by simp) (by simp)
  obtain ⟨sourceId, hsourceId⟩ := Schemas.textItem_of_string hsource hid
  obtain ⟨signature, hget, hsignature⟩ :=
    @Schema.get?_of_closed _ _ _ hvalid "signature" Schemas.signature (by simp) (by simp)
  obtain ⟨keyId, hitem, hkeyId⟩ := Schemas.keyId_of_signature hget hsignature
  have hencodable : event.sortKeys.encodable = true := by
    rw [Json.encodable_sortKeys]
    exact encodable_of_canonicalBytes h.bytes
  unfold checkSignature
  simp only [hsourceId, raising_ok, ok_bind]
  cases sourcePublicKeys sourceId with
  | none => exact Or.inr rfl
  | some key =>
    obtain ⟨answer, hanswer⟩ :=
      verifySignature_of_encodable h.isObj.sortKeys hencodable key.publicKey
    simp only [hitem, hkeyId, hanswer, raising_ok, ok_bind]
    by_cases hname : keyId = key.keyId
    · rw [ensure_of hname, ok_bind]
      cases answer with
      | true => exact Or.inl rfl
      | false => exact Or.inr rfl
    · right
      rw [ensure, if_neg hname]
      rfl

/-- The event of the row, as it is read back, is signed by its source. -/
def SignedBy (sourcePublicKeys : Str → Option TrustedKey) (row : Row) : Prop :=
  ∃ event, parseJsonStrict row.eventJson = .ok event ∧ SignatureVerifies sourcePublicKeys event

omit [UnicodeData] in
theorem signedBy_iff {sourcePublicKeys : Str → Option TrustedKey} {event : Json} {row : Row}
    (hwf : event.wf = true) (hbytes : canonicalBytes event = .ok row.eventJson) :
    SignedBy sourcePublicKeys row ↔ checkSignature sourcePublicKeys event.sortKeys = .ok () := by
  rw [checkSignature_eq_ok, SignedBy, parseJsonStrict_canonicalBytes hwf hbytes]
  simp

/-- The loop of `verify` over a sound table: it ends in the replayed state, or the
first signature that does not verify stops it. -/
theorem Sound.verify_loop (h : Sound ledger rows) (sourcePublicKeys : Str → Option TrustedKey) :
    ((∀ row ∈ rows, SignedBy sourcePublicKeys row) ∧ ∃ s, Agrees s rows ∧
      (rows.map Row.stored).foldlM (verifyRow ledger.tenantId sourcePublicKeys) Replay.empty
        = .ok s) ∨ ((¬∀ row ∈ rows, SignedBy sourcePublicKeys row) ∧
      (rows.map Row.stored).foldlM (verifyRow ledger.tenantId sourcePublicKeys) Replay.empty
        = .error (distrust "source signature verification failed")) := by
  induction rows using List.reverseRecOn with
  | nil => exact Or.inl ⟨by simp, Replay.empty, ⟨rfl, fun k => rfl⟩, rfl⟩
  | append_singleton rows row ih =>
    rw [List.map_append, List.foldlM_append]
    rcases ih h.of_snoc with ⟨hall, s, hagrees, hloop⟩ | ⟨hnot, hloop⟩
    · obtain ⟨event, hevent, hrow⟩ := h.replayRow_last hagrees
      have hstep : verifyRow ledger.tenantId sourcePublicKeys s row.stored
          = checkSignature sourcePublicKeys event.sortKeys >>= fun _ =>
            .ok (s.advance row.sourceId row.sourceSequence row.eventDigest) := by
        rw [verifyRow, hrow, ok_bind]
      have hsigned := @signedBy_iff _ sourcePublicKeys _ _ hevent.wf hevent.bytes
      rw [hloop, ok_bind, List.map_singleton, List.foldlM_cons, hstep]
      rcases checkSignature_stored hevent sourcePublicKeys with hok | herror
      · left
        refine ⟨?_, _, agrees_advance hagrees row, by rw [hok]; rfl⟩
        intro r hr
        rcases List.mem_append.1 hr with hr | hr
        · exact hall r hr
        · obtain rfl := List.mem_singleton.1 hr
          exact hsigned.2 hok
      · right
        refine ⟨fun hevery => ?_, by rw [herror]; rfl⟩
        have hlast := hsigned.1 (hevery row (by simp))
        rw [herror] at hlast
        cases hlast
    · right
      refine ⟨fun hevery => hnot fun r hr => hevery r (List.mem_append_left _ hr), ?_⟩
      rw [hloop]
      rfl

/-! ## Whole runs -/

/-- What a call does to the table: it raises and leaves it, or it appends its events. -/
def Outcome (ledger : Identity) (events : List Json) (rows : List Row)
    (result : Except Error (List Str)) (rows' : List Row) : Prop :=
  match result with
  | .ok digests => Sound ledger rows' ∧ Appended ledger events digests rows rows'
  | .error _ => rows' = rows

omit [Ed25519] in
theorem commitOrRollback_outcome {α : Type} {events : List Json}
    {body : List Row → Except Error (α × List Row)} {digests : α → List Str}
    (hbody : ∀ a rows', body db.rows = .ok (a, rows') →
      Sound ledger rows' ∧ Appended ledger events (digests a) db.rows rows') :
    Outcome ledger events db.rows ((commitOrRollback body db).1.map digests)
      (commitOrRollback body db).2.rows := by
  unfold commitOrRollback
  cases hrun : body db.rows with
  | error e => rfl
  | ok p =>
    obtain ⟨a, rows'⟩ := p
    exact hbody a rows' hrun

omit [Ed25519] in
theorem writeTransaction_outcome {α : Type} {ledger : Identity} {events : List Json}
    {connection : Nat} {body : List Row → Except Error (α × List Row)} {digests : α → List Str}
    {db : Database}
    (hbody : ∀ a rows', body db.rows = .ok (a, rows') →
      Sound ledger rows' ∧ Appended ledger events (digests a) db.rows rows') :
    Outcome ledger events db.rows ((writeTransaction connection body db).1.map digests)
      (writeTransaction connection body db).2.rows := by
  unfold writeTransaction
  cases db.writer with
  | none => exact commitOrRollback_outcome hbody
  | some owner =>
    by_cases howner : owner = connection
    · simp only [howner, if_true]
      exact commitOrRollback_outcome hbody
    · simp only [howner, if_false]
      rfl

omit [Ed25519] in
theorem appendOne_outcome {rows' : List Row} {digest : Str} (hs : Sound ledger rows)
    (h : appendOne ledger event.value rows = .ok (digest, rows')) :
    Sound ledger rows' ∧ Appended ledger [event.value] [digest] rows rows' := by
  refine ⟨appendOne_sound hs event.wf h, ?_⟩
  obtain ⟨row, hrows, hrecords, hdigest, -⟩ := appendOne_eq_ok event.wf h
  exact ⟨[row], hrows, List.Forall₂.cons hrecords List.Forall₂.nil, by rw [← hdigest]; rfl⟩

theorem appendAtCheckpoint_outcome {connection : Nat}
    {checkpoint : Json} {checkpointKey : TrustedKey}
    {precommitValidator : Option (List Json → Verdict)} (hs : Sound ledger db.rows) :
    Outcome ledger [event.value] db.rows
      ((appendAtCheckpoint ledger connection event.value sourcePublicKeys checkpoint checkpointKey
        precommitValidator db).1.map fun digest => [digest])
      (appendAtCheckpoint ledger connection event.value sourcePublicKeys checkpoint checkpointKey
        precommitValidator db).2.rows := by
  unfold appendAtCheckpoint
  cases db.writer with
  | some owner =>
    by_cases howner : owner = connection
    · simp only [howner, if_true]
      rfl
    · simp only [howner, if_false]
      rfl
  | none =>
    cases admission ledger event.value sourcePublicKeys checkpoint checkpointKey
      precommitValidator db with
    | error e => rfl
    | ok verdict =>
      cases verdict with
      | passes => exact commitOrRollback_outcome fun a rows' h => appendOne_outcome hs h
      | raises e => rfl
      | interrupts => rfl

theorem step_outcome (call : Call) (hs : Sound ledger db.rows) :
    Outcome ledger (call.operation.events.map Document.value) db.rows (step ledger call db).1
      (step ledger call db).2.rows := by
  unfold step
  cases call.operation with
  | append event =>
    exact writeTransaction_outcome fun a rows' h => appendOne_outcome hs h
  | appendMany events failure =>
    have hwf : ∀ event ∈ events.map Document.value, event.wf = true := by
      intro event hevent
      obtain ⟨document, -, rfl⟩ := List.mem_map.1 hevent
      exact document.wf
    have hresult := @writeTransaction_outcome _ (List Str) ledger (events.map Document.value)
      call.connection (appendEach ledger failure (events.map Document.value)) (fun ds => ds) db
      (fun a rows' h => appendEach_eq_ok hwf hs h)
    have hmap : ∀ x : Except Error (List Str), x.map (fun ds => ds) = x := by
      intro x
      cases x <;> rfl
    rw [hmap] at hresult
    exact hresult
  | appendAtCheckpoint event keys checkpoint key validator =>
    exact appendAtCheckpoint_outcome hs

theorem reached_sound (ledger : Identity) (calls : List Call) :
    Sound ledger (reached ledger calls).rows := by
  refine run_invariant (I := fun db : Database => Sound ledger db.rows) ?_ (sound_nil ledger) calls
  intro db call result db' hs h
  have hstep := step_outcome call hs
  rw [Except.ok.inj h] at hstep
  cases result with
  | ok digests => exact hstep.1
  | error e =>
    have hrows : db'.rows = db.rows := hstep
    rw [hrows]
    exact hs

omit [UnicodeData] [Ed25519] in
theorem storedOrder_table (h : rows.Pairwise fun a b => a.ledgerSequence < b.ledgerSequence) :
    storedOrder (rows.map Row.stored) = rows.map Row.stored := by
  apply List.Pairwise.insertionSort_eq
  rw [List.pairwise_map]
  exact h.imp fun hlt => le_of_lt hlt

theorem Sound.verify_cases (h : Sound ledger rows)
    (sourcePublicKeys : Str → Option TrustedKey) (checkpointKey : Option TrustedKey) :
    ((∀ row ∈ rows, SignedBy sourcePublicKeys row) ∧ ∃ report,
      verify ledger (rows.map Row.stored) sourcePublicKeys none checkpointKey = .ok report) ∨
    ((¬∀ row ∈ rows, SignedBy sourcePublicKeys row) ∧
      verify ledger (rows.map Row.stored) sourcePublicKeys none checkpointKey
        = .error (distrust "source signature verification failed")) := by
  unfold verify
  rw [storedOrder_table h.ordered]
  rcases h.verify_loop sourcePublicKeys with ⟨hall, s, -, hloop⟩ | ⟨hnot, hloop⟩
  · exact Or.inl ⟨hall, _, by rw [hloop]; rfl⟩
  · exact Or.inr ⟨hnot, by rw [hloop]; rfl⟩

/-- Whatever calls were made, and on whatever connections, the stored table
passes the replay of `verify`; only signatures decide whether `verify` returns,
and they are its only failure.  Any further call appends exactly its events at
the end of the ledger order or leaves the table as it was. -/
theorem append_runs_verify (ledger : Identity) (calls : List Call) :
    (∃ s, replay ledger (storedOrder (reached ledger calls).table) = .ok s) ∧
    (∀ sourcePublicKeys checkpointKey,
      ((∃ report, verify ledger (reached ledger calls).table sourcePublicKeys none checkpointKey
          = .ok report) ↔
        ∀ row ∈ (reached ledger calls).rows, SignedBy sourcePublicKeys row) ∧
      ((∃ report, verify ledger (reached ledger calls).table sourcePublicKeys none checkpointKey
          = .ok report) ∨
        verify ledger (reached ledger calls).table sourcePublicKeys none checkpointKey
          = .error (distrust "source signature verification failed"))) ∧
    ∀ call,
      (∃ digests new, (step ledger call (reached ledger calls)).1 = .ok digests ∧
        ledgerOrder (step ledger call (reached ledger calls)).2.rows
          = ledgerOrder (reached ledger calls).rows ++ new ∧
        List.Forall₂ (Records ledger) (call.operation.events.map Document.value) new ∧
        new.map Row.eventDigest = digests) ∨
      (∃ e, (step ledger call (reached ledger calls)).1 = .error e) ∧
        (step ledger call (reached ledger calls)).2.rows = (reached ledger calls).rows := by
  have hs := reached_sound ledger calls
  refine ⟨?_, ?_, ?_⟩
  · obtain ⟨s, -, hreplay⟩ := hs.replay_eq_ok
    refine ⟨s, ?_⟩
    rw [Database.table, storedOrder_table hs.ordered, hreplay]
  · intro sourcePublicKeys checkpointKey
    unfold Database.table
    rcases hs.verify_cases sourcePublicKeys checkpointKey with ⟨hall, report, hok⟩ | ⟨hnot, herror⟩
    · rw [hok]
      exact ⟨⟨fun _ => hall, fun _ => ⟨report, rfl⟩⟩, Or.inl ⟨report, rfl⟩⟩
    · rw [herror]
      refine ⟨⟨?_, fun hall => absurd hall hnot⟩, Or.inr rfl⟩
      rintro ⟨report, hreport⟩
      cases hreport
  · intro call
    have hstep := step_outcome call hs
    generalize step ledger call (reached ledger calls) = after at hstep ⊢
    obtain ⟨result, db'⟩ := after
    cases result with
    | error e => exact Or.inr ⟨⟨e, rfl⟩, hstep⟩
    | ok digests =>
      obtain ⟨hs', new, hnew, hrecords, hdigests⟩ := hstep
      refine Or.inl ⟨digests, new, rfl, ?_, hrecords, hdigests⟩
      rw [ledgerOrder_eq hs'.ordered, ledgerOrder_eq hs.ordered]
      exact hnew

end

end IntegrityGuardian.Ledger
