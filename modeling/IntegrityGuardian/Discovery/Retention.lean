import IntegrityGuardian.Discovery.Steps
import IntegrityGuardian.Library.KeyedChain

/-!
# Retention of accepted records

Every record that moved the tip of its source is an entry of a log, which the
stored tips account for: each source chain runs from its first record to the
tip.  The active records are the effect of the entries that were not
quarantined, as long as no call quarantines a record after other records of the
same batch have changed them; the index keeps the tips of such records and
drops their changes.
-/

namespace IntegrityGuardian.Discovery

open Python Library
open Library.KeyedChain (Placement Chained)

/-- A call of `apply`. -/
structure Delivery where
  records : List Json
  reviewPriority : Json

/-- A record that moved the tip of its source. -/
structure Entry where
  record : Record
  quarantined : Bool

def Entry.accept (record : Record) : Entry := ⟨record, false⟩

/-- The active record that the entries of a key leave. -/
def effect (key : ActiveKey) (log : List Entry) : Option Record :=
  match (log.filter fun e => !e.quarantined && e.record.activeKey = key).getLast? with
  | some e => if e.record.change = .upsert then some e.record else none
  | none => none

/-- The active records after the upserts and deletes of a batch. -/
def applyRecords (active : Dict ActiveKey Record) (records : List Record) :
    Dict ActiveKey Record :=
  records.foldl applyRecord active

/-! ## Effects of a log -/

/-- The active records are those the log leaves. -/
def Reflects (active : Dict ActiveKey Record) (log : List Entry) : Prop :=
  ∀ key, active[key]? = effect key log

theorem Reflects.eq {active active' : Dict ActiveKey Record} {log : List Entry}
    (h : Reflects active log) (h' : Reflects active' log) : active = active' :=
  Dict.ext fun key => (h key).trans (h' key).symm

theorem effect_snoc (key : ActiveKey) (log : List Entry) (record : Record) :
    effect key (log ++ [Entry.accept record]) =
      if record.activeKey = key then (if record.change = .upsert then some record else none)
      else effect key log := by
  unfold effect
  rw [List.filter_append]
  by_cases hkey : record.activeKey = key
  · simp [Entry.accept, hkey]
  · simp [Entry.accept, hkey]

theorem effect_quarantined (key : ActiveKey) (log : List Entry) (record : Record) :
    effect key (log ++ [⟨record, true⟩]) = effect key log := by
  unfold effect
  rw [List.filter_append]
  simp

theorem reflects_applyRecord {active : Dict ActiveKey Record} {log : List Entry}
    (h : Reflects active log) (record : Record) :
    Reflects (applyRecord active record) (log ++ [Entry.accept record]) := by
  intro key
  rw [effect_snoc]
  unfold applyRecord
  cases hchange : record.change with
  | upsert =>
    simp only [Dict.get_insert, h key]
    rfl
  | delete =>
    simp only [Dict.get_erase, h key]
    rfl

theorem reflects_applyRecords {active : Dict ActiveKey Record} {log : List Entry}
    (h : Reflects active log) (records : List Record) :
    Reflects (applyRecords active records) (log ++ records.map Entry.accept) := by
  induction records generalizing active log with
  | nil =>
    rw [List.map_nil, List.append_nil]
    exact h
  | cons record records ih =>
    have hrest := ih (reflects_applyRecord h record)
    rw [List.append_assoc] at hrest
    exact hrest

section
variable [UnicodeData]

/-! ## Source chains -/

/-- The place of a record in the chain of its source epoch. -/
def sourceChain : Placement Record SourceKey (Except Exc Str) where
  key := Record.sourceKey
  number := Record.sequence
  link record := record.previousRecordDigest.map .ok
  digest record := discoveryRecordDigest record.document

/-- The log holds the records at or below the tips: every source chain from its
first record on, and nothing after the record of the tip. -/
structure Accounted (tips : Dict SourceKey (Int × Str)) (log : List Record) : Prop where
  chained : Chained sourceChain log
  tip : ∀ key,
    match KeyedChain.tip sourceChain key log with
    | none => tips[key]? = none
    | some record => ∃ digest, discoveryRecordDigest record.document = .ok digest ∧
        tips[key]? = some (record.sequence, digest)

theorem Accounted.next {tips : Dict SourceKey (Int × Str)} {log : List Record}
    (h : Accounted tips log) (key : SourceKey) :
    nextSequence tips[key]? =
        KeyedChain.nextNumber sourceChain (KeyedChain.tip sourceChain key log) ∧
      (tips[key]?.map Prod.snd).map .ok =
        (KeyedChain.tip sourceChain key log).map sourceChain.digest := by
  have htip := h.tip key
  cases hrecord : KeyedChain.tip sourceChain key log with
  | none =>
    rw [hrecord] at htip
    rw [htip]
    exact ⟨rfl, rfl⟩
  | some record =>
    rw [hrecord] at htip
    obtain ⟨digest, hdigest, htip⟩ := htip
    rw [htip]
    refine ⟨rfl, ?_⟩
    show some (Except.ok digest) = some (discoveryRecordDigest record.document)
    rw [hdigest]

variable [Ed25519Keys]

theorem Accounted.snoc {config : Config} {tips : Dict SourceKey (Int × Str)} {raw : Json}
    {record : Record} {digest : Str} {log : List Record} (h : Accounted tips log)
    (hreceived : Received config tips raw record digest) :
    Accounted (tips.insert record.sourceKey (record.sequence, digest)) (log ++ [record]) := by
  obtain ⟨hnumber, hlink⟩ := h.next record.sourceKey
  constructor
  · apply Chained.snoc h.chained
    · exact hreceived.sequence.trans hnumber
    · show record.previousRecordDigest.map Except.ok = _
      rw [hreceived.previous]
      exact hlink
  · intro key
    rw [KeyedChain.tip_snoc, Dict.get_insert]
    by_cases hkey : record.sourceKey = key
    · rw [if_pos (show sourceChain.key record = key from hkey), if_pos hkey]
      exact ⟨digest, hreceived.digest, rfl⟩
    · rw [if_neg (show ¬sourceChain.key record = key from hkey), if_neg hkey]
      exact h.tip key

/-! ## Calls -/

/-- The loop of a call. -/
def Delivery.pass (delivery : Delivery) (config : Config) (index : Index) : Pass :=
  stageEach config delivery.reviewPriority delivery.records (Staged.start index) [] []

/-- The index after a call. -/
def deliver (config : Config) (index : Index) (delivery : Delivery) : Index :=
  (apply config delivery.records delivery.reviewPriority index).2

/-- The records by which a call moves the stored tips. -/
def taken (config : Config) (index : Index) (delivery : Delivery) : List Entry :=
  if 1 ≤ delivery.records.length ∧ delivery.records.length ≤ 1000 then
    match delivery.pass config index with
    | .raised _ => []
    | .quarantined _ accepted record _ _ => accepted.map Entry.accept ++ [⟨record, true⟩]
    | .staged s accepted _ =>
      match issueReceipt config s accepted with
      | .error _ => []
      | .ok _ => accepted.map Entry.accept
  else []

/-- The index and the log after a run of calls. -/
def history (config : Config) (deliveries : List Delivery) : Index × List Entry :=
  deliveries.foldl (fun p d => (deliver config p.1 d, p.2 ++ taken config p.1 d))
    (Index.empty, [])

def reached (config : Config) (deliveries : List Delivery) : Index :=
  (history config deliveries).1

/-- The records at or below the stored tips, in the order they came. -/
def log (config : Config) (deliveries : List Delivery) : List Entry :=
  (history config deliveries).2

/-- The records a batch has before the one that admission quarantines. -/
def beforeQuarantine (config : Config) (index : Index) (delivery : Delivery) :
    Option (List Record) :=
  if 1 ≤ delivery.records.length ∧ delivery.records.length ≤ 1000 then
    match delivery.pass config index with
    | .quarantined _ accepted _ _ _ => some accepted
    | _ => none
  else none

/-- The records of the batch before a quarantined one leave the active records as
they were. -/
def Undisturbed (config : Config) (index : Index) (delivery : Delivery) : Prop :=
  ∀ accepted ∈ beforeQuarantine config index delivery,
    applyRecords index.active accepted = index.active

theorem pass_spec (config : Config) (index : Index) (delivery : Delivery) {past : List Record}
    (h : Accounted index.sourceTips past) :
    match delivery.pass config index with
    | .staged s accepted _ =>
      s.active = applyRecords index.active accepted ∧ Accounted s.tips (past ++ accepted)
    | .quarantined s accepted record _ _ => Accounted s.tips (past ++ accepted ++ [record])
    | .raised _ => True := by
  have hinv := @stageEach_invariant _ _ config delivery.reviewPriority
    (fun s accepted => s.active = applyRecords index.active accepted ∧
      Accounted s.tips (past ++ accepted))
    delivery.records
    (by
      rintro s accepted raw record decision s' - ⟨hactive, haccounted⟩ hone
      obtain ⟨digest, hreceived, -, -, rfl⟩ := stageOne_eq_ok hone
      constructor
      · rw [Staged.settle_active, Staged.advance_active, hactive, applyRecords, applyRecords,
          List.foldl_append]
        rfl
      · rw [(Staged.settle_tips _ _ _).1, ← List.append_assoc]
        exact haccounted.snoc hreceived)
    (Staged.start index) [] [] ⟨rfl, by rw [List.append_nil]; exact h⟩
  rw [show stageEach config delivery.reviewPriority delivery.records (Staged.start index) [] []
    = delivery.pass config index from rfl] at hinv
  cases hcase : delivery.pass config index with
  | staged s accepted decisions =>
    rw [hcase] at hinv
    exact hinv
  | quarantined s accepted record reason decisions =>
    rw [hcase] at hinv
    obtain ⟨before, raw, decision, -, ⟨-, haccounted⟩, hone⟩ := hinv
    obtain ⟨digest, hreceived, -, -, rfl⟩ := stageOne_eq_quarantined hone
    exact haccounted.snoc hreceived
  | raised e => trivial

/-- What a call does to the active records, the tips and the log. -/
theorem deliver_spec (config : Config) (index : Index) (delivery : Delivery)
    {past : List Record} (h : Accounted index.sourceTips past) :
    Accounted (deliver config index delivery).sourceTips
        (past ++ (taken config index delivery).map Entry.record) ∧
      ((∃ accepted, taken config index delivery = accepted.map Entry.accept ∧
          beforeQuarantine config index delivery = none ∧
          (deliver config index delivery).active = applyRecords index.active accepted) ∨
        ∃ accepted record,
          taken config index delivery = accepted.map Entry.accept ++ [⟨record, true⟩] ∧
          beforeQuarantine config index delivery = some accepted ∧
          (deliver config index delivery).active = index.active) := by
  have hrecords : ∀ accepted : List Record,
      (accepted.map Entry.accept).map Entry.record = accepted := by
    intro accepted
    rw [List.map_map]
    exact List.map_id accepted
  have hpass := pass_spec config index delivery h
  unfold taken beforeQuarantine deliver apply
  split
  · rw [show stageEach config delivery.reviewPriority delivery.records (Staged.start index) [] []
      = delivery.pass config index from rfl]
    cases hcase : delivery.pass config index with
    | raised e =>
      exact ⟨by simpa using h, Or.inl ⟨[], rfl, rfl, rfl⟩⟩
    | quarantined s accepted record reason decisions =>
      rw [hcase] at hpass
      refine ⟨?_, Or.inr ⟨accepted, record, rfl, rfl, rfl⟩⟩
      simp only [List.map_append, hrecords, List.map_cons, List.map_nil]
      rw [← List.append_assoc]
      exact hpass
    | staged s accepted decisions =>
      rw [hcase] at hpass
      cases hreceipt : issueReceipt config s accepted with
      | error e =>
        refine ⟨by simpa [hreceipt] using h, Or.inl ⟨[], ?_, rfl, ?_⟩⟩
        · simp only [hreceipt]
          rfl
        · simp only [hreceipt]
          rfl
      | ok receipt =>
        refine ⟨?_, Or.inl ⟨accepted, ?_, rfl, ?_⟩⟩
        · simp only [hreceipt, hrecords]
          exact hpass.2
        · simp only [hreceipt]
        · simp only [hreceipt]
          exact hpass.1
  · exact ⟨by simpa using h, Or.inl ⟨[], rfl, rfl, rfl⟩⟩

/-! ## Runs -/

theorem history_snoc (config : Config) (deliveries : List Delivery) (delivery : Delivery) :
    reached config (deliveries ++ [delivery]) =
        deliver config (reached config deliveries) delivery ∧
      log config (deliveries ++ [delivery]) =
        log config deliveries ++ taken config (reached config deliveries) delivery := by
  unfold reached log history
  rw [List.foldl_append]
  exact ⟨rfl, rfl⟩

theorem reached_accounted (config : Config) (deliveries : List Delivery) :
    Accounted (reached config deliveries).sourceTips
      ((log config deliveries).map Entry.record) := by
  induction deliveries using List.reverseRecOn with
  | nil => exact ⟨Chained.nil, fun key => Dict.get_empty key⟩
  | append_singleton deliveries delivery ih =>
    obtain ⟨hreached, hlog⟩ := history_snoc config deliveries delivery
    rw [hreached, hlog, List.map_append]
    exact (deliver_spec config _ delivery ih).1

/-- The active map is the fold of the entries that were not quarantined. -/
def Retained (config : Config) (deliveries : List Delivery) : Prop :=
  Reflects (reached config deliveries).active (log config deliveries)

theorem retained_snoc_iff {config : Config} {deliveries : List Delivery}
    (h : Retained config deliveries) (delivery : Delivery) :
    Retained config (deliveries ++ [delivery]) ↔
      Undisturbed config (reached config deliveries) delivery := by
  obtain ⟨hreached, hlog⟩ := history_snoc config deliveries delivery
  unfold Retained
  rw [hreached, hlog]
  obtain ⟨-, hspec⟩ := deliver_spec config _ delivery (reached_accounted config deliveries)
  rcases hspec with ⟨accepted, htaken, hbefore, hactive⟩ | ⟨accepted, record, htaken, hbefore, hactive⟩
  · rw [htaken, hactive]
    refine iff_of_true (reflects_applyRecords h accepted) ?_
    intro accepted' hmem
    rw [hbefore] at hmem
    cases hmem
  · have heffect : Reflects (applyRecords (reached config deliveries).active accepted)
        (log config deliveries ++ (accepted.map Entry.accept ++ [⟨record, true⟩])) := by
      intro key
      rw [← List.append_assoc, effect_quarantined]
      exact reflects_applyRecords h accepted key
    rw [htaken, hactive]
    constructor
    · intro hretained accepted' hmem
      rw [hbefore] at hmem
      cases hmem
      exact heffect.eq hretained
    · intro hundisturbed
      rw [hundisturbed accepted hbefore] at heffect
      exact heffect

/-- After every run the log is what the stored tips account for, and the active
map is its fold throughout the run exactly when no call quarantines a record
after records of the same batch that change the active map. -/
theorem active_retained_iff (config : Config) (deliveries : List Delivery) :
    Accounted (reached config deliveries).sourceTips
        ((log config deliveries).map Entry.record) ∧
      ((∀ before after, deliveries = before ++ after → Retained config before) ↔
        ∀ before delivery after, deliveries = before ++ delivery :: after →
          Undisturbed config (reached config before) delivery) := by
  refine ⟨reached_accounted config deliveries, ?_, ?_⟩
  · rintro hretained before delivery after rfl
    apply (retained_snoc_iff (hretained before _ rfl) delivery).1
    exact hretained (before ++ [delivery]) after (by simp)
  · rintro hundisturbed before after rfl
    induction before using List.reverseRecOn generalizing after with
    | nil => exact fun key => Dict.get_empty key
    | append_singleton before delivery ih =>
      have hbefore : Retained config before := by
        apply ih ([delivery] ++ after)
        rw [← List.append_assoc]
        exact hundisturbed
      apply (retained_snoc_iff hbefore delivery).2
      exact hundisturbed before delivery after (by simp)

/-! ## Decisions -/

omit [Ed25519Keys] in
theorem evaluate_eq_ok {policy : DiscoveryAdmissionPolicy} {candidate : Record}
    {current : Option Record} {historical : Option Str} {reviewPriority : Json}
    {decision : DiscoveryAdmissionDecision} :
    evaluateDiscoveryAdmission policy candidate current historical reviewPriority =
        .ok decision ↔
      historical.all (Schemas.hashBody "discovery-semantic:") = true ∧
        ∃ priority verdict, checkReviewPriority reviewPriority = .ok priority ∧
          judge policy candidate current historical = .ok verdict ∧
          decision = { action := verdict.1, reason := verdict.2.1
                       candidateRecordId := candidate.recordId
                       currentRecordId := current.map Record.recordId
                       policyDigest := policy.digest
                       semanticIdentity := verdict.2.2
                       reviewPriority := priority } := by
  unfold evaluateDiscoveryAdmission
  constructor
  · intro h
    obtain ⟨priority, hpriority, h⟩ := bind_eq_ok.1 h
    obtain ⟨hvalid, h⟩ := ensure_bind_eq_ok.1 h
    obtain ⟨verdict, hverdict, h⟩ := bind_eq_ok.1 h
    cases h
    exact ⟨hvalid, priority, verdict, hpriority, hverdict, rfl⟩
  · rintro ⟨hvalid, priority, verdict, hpriority, hverdict, rfl⟩
    refine bind_eq_ok.2 ⟨priority, hpriority, ensure_bind_eq_ok.2 ⟨hvalid, ?_⟩⟩
    exact bind_eq_ok.2 ⟨verdict, hverdict, rfl⟩

omit [Ed25519Keys] in
theorem judge_of_unbound {policy : DiscoveryAdmissionPolicy} {candidate : Record}
    (h : policy.bindingFor candidate = none) (current : Option Record)
    (historical : Option Str) :
    judge policy candidate current historical =
      .ok (.quarantine, "unbound-candidate-source", none) := by
  unfold judge
  rw [h]

theorem beforeQuarantine_second {config : Config} {reviewPriority : Json} {index : Index}
    {raw raw' : Json} {record record' : Record} {decision decision' : DiscoveryAdmissionDecision}
    {s t : Staged}
    (hfirst : stageOne config reviewPriority (Staged.start index) raw =
      .ok (record, some decision, s))
    (hsecond : stageOne config reviewPriority s raw' =
      .error (.quarantined t record' decision')) :
    beforeQuarantine config index ⟨[raw, raw'], reviewPriority⟩ = some [record] := by
  unfold beforeQuarantine Delivery.pass
  rw [if_pos (by simp), stageEach, hfirst]
  simp only [stageEach, hsecond, List.nil_append]

end

/-! ## A lost record -/

namespace Sample

def publicKey : Bytes :=
  [3, 161, 7, 191, 243, 206, 16, 190, 29, 112, 221, 24, 231, 75, 192, 153, 103, 228, 214, 48,
    155, 165, 13, 95, 29, 220, 134, 100, 18, 85, 49, 184]

def boundHash : Bytes :=
  [37, 217, 175, 161, 140, 6, 103, 78, 159, 192, 31, 183, 212, 119, 125, 240, 61, 41, 14, 96, 3,
    195, 240, 173, 162, 64, 162, 175, 105, 53, 177, 206]

def boundSignature : Bytes :=
  [246, 60, 208, 43, 179, 107, 103, 226, 253, 188, 253, 223, 216, 188, 18, 206, 184, 90, 202, 30,
    44, 212, 236, 40, 50, 159, 56, 177, 125, 84, 231, 24, 170, 41, 27, 190, 80, 118, 129, 239, 9,
    18, 78, 46, 171, 220, 239, 170, 156, 67, 216, 129, 90, 118, 211, 11, 166, 112, 175, 196, 243,
    132, 101, 4]

def unboundHash : Bytes :=
  [93, 124, 84, 72, 31, 48, 142, 25, 63, 113, 49, 154, 165, 81, 10, 159, 118, 6, 65, 177, 72,
    166, 139, 103, 95, 205, 106, 92, 186, 25, 240, 45]

def unboundSignature : Bytes :=
  [113, 29, 154, 144, 98, 196, 122, 239, 208, 111, 119, 88, 143, 33, 222, 210, 44, 0, 13, 83, 99,
    78, 48, 56, 83, 46, 30, 78, 212, 30, 126, 179, 94, 153, 201, 245, 136, 37, 221, 198, 78, 44,
    22, 6, 123, 185, 217, 219, 77, 103, 178, 34, 253, 106, 253, 236, 88, 89, 180, 0, 42, 211, 144,
    7]

def policyHash : Bytes :=
  [247, 113, 128, 129, 241, 29, 63, 144, 93, 226, 29, 71, 30, 183, 105, 177, 60, 145, 189, 55,
    46, 200, 147, 94, 61, 68, 128, 16, 69, 33, 178, 196]

def receiptSignature : Bytes :=
  [19, 214, 147, 195, 241, 208, 187, 11, 35, 134, 71, 250, 193, 114, 169, 124, 217, 11, 23, 73,
    209, 51, 192, 216, 134, 77, 222, 97, 232, 134, 137, 244, 153, 254, 106, 84, 224, 206, 93, 13,
    189, 199, 238, 126, 80, 125, 233, 76, 98, 173, 254, 179, 231, 194, 201, 78, 255, 221, 91, 76,
    169, 225, 161, 6]

def swappedReceiptSignature : Bytes :=
  [33, 65, 122, 74, 143, 53, 156, 190, 98, 87, 40, 218, 32, 87, 134, 75, 151, 72, 109, 34, 141,
    126, 182, 95, 209, 204, 219, 138, 189, 145, 10, 31, 45, 213, 165, 129, 120, 75, 235, 112, 36,
    245, 20, 45, 241, 124, 238, 225, 216, 216, 237, 75, 245, 199, 230, 104, 31, 246, 143, 96, 55,
    165, 37, 5]

/-- The signatures of one key on the sample documents, which the sums of their
payloads tell apart. -/
def signatureOf (payload : Bytes) : Bytes :=
  match payload.foldl (fun n b => n + b.toNat) 0 with
  | 69992 => boundSignature
  | 69771 => unboundSignature
  | 88943 => receiptSignature
  | 89103 => swappedReceiptSignature
  | _ => List.replicate 64 0

/-- Ed25519 with a single key, on the sample documents. -/
@[reducible] def ed25519 : Ed25519Keys where
  PrivateKey := Unit
  PublicKey := Unit
  sign _ payload := signatureOf payload
  verify _ signature payload := signature == signatureOf payload
  publicKey key := key
  publicBytes _ := publicKey

attribute [local instance] asciiUnicodeData ed25519

def artifact : Str := str "sha256:" ++ List.replicate 64 (Json.ch '0')

/-- An entity of a source, upserted by its first record. -/
def entityRecord (sourceId : String) (hash signature : Bytes) : Json := .fields [
  ("record_id", .str (str "discovery-record:" ++ hex hash)),
  ("protocol", .str (str "integrity-guardian/discovery-record/v1")),
  ("tenant_id", .str (str "tenant:t")),
  ("source_id", .str (str sourceId)),
  ("source_epoch", .str (str "e")),
  ("sequence", .int 0),
  ("observed_at", .str (str "2026-01-01T00:00:00Z")),
  ("zone_id", .str (str "z")),
  ("change", .str (str "upsert")),
  ("assertion", .fields [("kind", .str (str "entity")), ("entity_id", .str (str "x")),
    ("entity_type", .str (str "y"))]),
  ("evidence", .fields [("state", .str (str "present")), ("provenance", .str (str "OBSERVED")),
    ("confidence_ppm", .int 0), ("content_digest", .null),
    ("source_artifact_digest", .str artifact),
    ("coverage", .fields [("state", .str (str "partial")), ("scope_digest", .str artifact)])]),
  ("previous_record_digest", .null),
  ("collector_boundary", discoveryBoundary),
  ("signature", signatureObject (str "k") (base64url signature))]

def source (sourceId : String) (h : Schemas.idBody (str sourceId) = true) :
    TrustedDiscoverySource where
  sourceId := str sourceId
  sourceEpoch := str "e"
  sourceArtifactDigest := artifact
  trustedKey := ⟨str "k", ()⟩
  sourceId_valid := h
  sourceEpoch_valid := by decide +kernel
  sourceArtifactDigest_valid := by decide +kernel

/-- A policy that binds the first source only. -/
def policy : DiscoveryAdmissionPolicy where
  policyId := str "p"
  sourceBindings := [⟨str "a", str "e", .static, .persistent, by decide +kernel, by decide +kernel⟩]
  digest := str "sha256:" ++ hex policyHash
  policyId_valid := by decide +kernel
  nonempty := by simp
  length_le := by simp
  ordered := by simp
  digest_eq := by decide +kernel

def config (admissionPolicy : Option DiscoveryAdmissionPolicy) : Config where
  tenantId := str "tenant:t"
  trustedSources := [source "a" (by decide +kernel), source "b" (by decide +kernel)]
  receiptSigner := ⟨str "k", ()⟩
  admissionPolicy := admissionPolicy
  tenantId_valid := by decide +kernel
  count_le := by simp
  nodup := by decide +kernel

def boundRecord : Json := entityRecord "a" boundHash boundSignature

def unboundRecord : Json := entityRecord "b" unboundHash unboundSignature

/-- One batch: a record of the bound source, then one of the unbound source. -/
def delivery : Delivery := ⟨[boundRecord, unboundRecord], .int 0⟩

def lostKey : ActiveKey := toLex (str "a", toLex (str "entity", str "x"))

/-- What the index reads of a first record. -/
def entityOf (document : Json) (hash : Bytes) (sourceId : String) : Record where
  document
  recordId := str "discovery-record:" ++ hex hash
  tenantId := str "tenant:t"
  sourceId := str sourceId
  sourceEpoch := str "e"
  sequence := 0
  zoneId := str "z"
  change := .upsert
  assertion := .entity (str "x") (str "y")
  state := .present
  contentDigest := none
  sourceArtifactDigest := artifact
  previousRecordDigest := none

def bound : Record := entityOf boundRecord boundHash "a"

def unbound : Record := entityOf unboundRecord unboundHash "b"

def boundDigest : Str := str "sha256:" ++ hex
  [62, 221, 232, 3, 163, 74, 50, 66, 91, 214, 110, 231, 218, 47, 133, 207, 69, 185, 212,
    5, 47, 144, 185, 214, 75, 61, 212, 15, 126, 190, 76, 169]

def unboundDigest : Str := str "sha256:" ++ hex
  [165, 250, 108, 222, 8, 50, 32, 157, 44, 97, 38, 18, 224, 209, 101, 12, 132, 245, 4,
    235, 193, 124, 239, 210, 211, 178, 43, 126, 79, 109, 89, 156]

theorem received :
    receive (config none) ∅ boundRecord = .ok (bound, boundDigest) ∧
      receive (config none) ∅ unboundRecord = .ok (unbound, unboundDigest) := by
  decide +kernel

theorem receive_first {tips : Dict SourceKey (Int × Str)} {source : TrustedDiscoverySource}
    {raw : Json} {result : Record × Str}
    (hsource : trustedSourceOf (config none) raw = .ok source)
    (hfresh : tips[source.key]? = none) (h : receive (config none) ∅ raw = .ok result) :
    receive (config none) tips raw = .ok result := by
  unfold receive at h ⊢
  rw [hsource, ok_bind] at h ⊢
  rw [Dict.get_empty] at h
  rw [hfresh]
  exact h

/-- The identity of the entity. -/
def semantic : Str := str "discovery-semantic:" ++ hex
  [72, 232, 74, 242, 154, 16, 151, 107, 129, 140, 36, 185, 125, 24, 137, 159, 209, 162, 247, 249,
    7, 179, 180, 147, 253, 32, 110, 155, 179, 149, 151, 137]

def admitted (record : Record) (reason : String) : DiscoveryAdmissionDecision :=
  ⟨.admitted, reason, record.recordId, none, policy.digest, some semantic, 0⟩

def refused : DiscoveryAdmissionDecision :=
  ⟨.quarantine, "unbound-candidate-source", unbound.recordId, none, policy.digest, none, 0⟩

/-- The bound entity is admitted. -/
def first : Staged :=
  ((Staged.start Index.empty).advance bound boundDigest).settle bound (some semantic)

theorem decided_bound : evaluateDiscoveryAdmission policy bound none none (.int 0) =
    .ok (admitted bound "new-source-owned-assertion") := by
  decide +kernel

theorem receive_config (p q : Option DiscoveryAdmissionPolicy)
    (tips : Dict SourceKey (Int × Str)) (raw : Json) :
    receive (config p) tips raw = receive (config q) tips raw := rfl

theorem stage_admitted {s : Staged} {raw : Json} {record : Record} {digest : Str}
    {reason : String} {historical : Option Str}
    (hreceive : receive (config none) s.tips raw = .ok (record, digest))
    (hcurrent : s.active[record.activeKey]? = none)
    (hhistorical : s.semanticHistory[record.activeKey]? = historical)
    (hdecision : evaluateDiscoveryAdmission policy record none historical (.int 0) =
      .ok (admitted record reason)) :
    stageOne (config (some policy)) (.int 0) s raw =
      .ok (record, some (admitted record reason),
        (s.advance record digest).settle record (some semantic)) := by
  have hadmission : admission (config (some policy)) (.int 0) (s.advance record digest) record =
      .ok (some (admitted record reason)) := by
    show (evaluateDiscoveryAdmission policy record s.active[record.activeKey]?
      s.semanticHistory[record.activeKey]? (.int 0) >>= fun decision => .ok (some decision)) = _
    rw [hcurrent, hhistorical, hdecision]
    rfl
  unfold stageOne
  rw [receive_config (some policy) none, hreceive]
  exact bind_eq_ok.2 ⟨_, rfl, bind_eq_ok.2 ⟨_, mapError_eq_ok.2 hadmission, rfl⟩⟩

theorem stage_bound :
    stageOne (config (some policy)) (.int 0) (Staged.start Index.empty) boundRecord =
      .ok (bound, some (admitted bound "new-source-owned-assertion"), first) :=
  stage_admitted received.1 (Dict.get_empty _) (Dict.get_empty _) decided_bound

theorem stage_unbound :
    stageOne (config (some policy)) (.int 0) first unboundRecord =
      .error (.quarantined (first.advance unbound unboundDigest) unbound refused) := by
  have htips : first.tips = (∅ : Dict SourceKey (Int × Str)).insert bound.sourceKey
      (bound.sequence, boundDigest) := (Staged.settle_tips _ _ _).1
  have hsource : trustedSourceOf (config none) unboundRecord =
      .ok (source "b" (by decide +kernel)) := rfl
  have hfresh : first.tips[(source "b" (by decide +kernel)).key]? = none := by
    rw [htips]
    decide +kernel
  have hcurrent : first.active[unbound.activeKey]? = none := by decide +kernel
  have hhistorical : first.semanticHistory[unbound.activeKey]? = none := by decide +kernel
  have hjudged : judge policy unbound none none =
      .ok (.quarantine, "unbound-candidate-source", none) := judge_of_unbound rfl none none
  have hdecision : evaluateDiscoveryAdmission policy unbound first.active[unbound.activeKey]?
      first.semanticHistory[unbound.activeKey]? (.int 0) = .ok refused := by
    rw [hcurrent, hhistorical]
    exact evaluate_eq_ok.2 ⟨rfl, 0, _, rfl, hjudged, rfl⟩
  have hadmission : admission (config (some policy)) (.int 0)
      (first.advance unbound unboundDigest) unbound = .ok (some refused) := by
    show (evaluateDiscoveryAdmission policy unbound first.active[unbound.activeKey]?
      first.semanticHistory[unbound.activeKey]? (.int 0) >>= fun decision =>
        .ok (some decision)) = _
    rw [hdecision]
    rfl
  unfold stageOne
  rw [receive_config (some policy) none, receive_first hsource hfresh received.2]
  refine bind_eq_error.2 (.inr ⟨_, rfl, ?_⟩)
  exact bind_eq_error.2 (.inr ⟨_, mapError_eq_ok.2 hadmission, rfl⟩)

/-- The quarantine of the second record drops the first one, whose tip is kept. -/
theorem quarantine_drops_accepted_record :
    (config (some policy)).admissionPolicy.isSome ∧
      ¬Retained (config (some policy)) [delivery] := by
  refine ⟨rfl, ?_⟩
  intro h
  have hnothing : Retained (config (some policy)) [] := fun key => Dict.get_empty key
  have hundisturbed := (retained_snoc_iff hnothing delivery).1 h
  have hsame : applyRecord ∅ bound = ∅ := hundisturbed [bound] (beforeQuarantine_second stage_bound stage_unbound)
  have hactive : (applyRecord ∅ bound)[bound.activeKey]?.isSome = true := by decide +kernel
  rw [hsame, Dict.get_empty] at hactive
  cases hactive

end Sample

end IntegrityGuardian.Discovery
