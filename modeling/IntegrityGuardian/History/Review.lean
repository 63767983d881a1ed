import IntegrityGuardian.History.Build
import IntegrityGuardian.Library.Keyset
import IntegrityGuardian.Python.StrictJson

/-!
# Readers and review artifacts

`HistorySidecarReader` as far as an application of a review uses it, and the requests and
results of `history/decisions.py`.
-/

namespace IntegrityGuardian.History

open Python Library
open Json (ch)

/-! ## The reader -/

/-- An open reader: what it compares at every read, and the summary it was opened with. -/
structure Reader where
  corpusPath : Path
  sidecarPath : Path
  corpusIdentity : FileIdentity
  sidecarIdentity : FileIdentity
  summary : Summary

section
variable [CatalogData]

/-- `HistorySidecarReader.__init__`. -/
def openReader (o : Observed) (m : Moment) (corpusPath sidecarPath : Path) :
    Except Error Reader := do
  let files ← o.look m
  let (corpusIdentity, corpus) ← inspectCorpus files corpusPath
  ensure (files corpus.ledgerPath).isSome
    (malformed "authoritative deletion ledger does not exist")
  ensure (sidecarPath ≠ corpusPath ∧ sidecarPath ≠ corpus.ledgerPath)
    (malformed "sidecar path must differ from the corpus and deletion ledger")
  match files sidecarPath with
  | some ⟨sidecarIdentity, .sidecar s⟩ => do
    let summary ← s.validate corpus
    .ok ⟨corpusPath, sidecarPath, corpusIdentity, sidecarIdentity, summary⟩
  | _ => .error (malformed "sidecar does not exist")

end

/-- `_operate`: the tables that the operation reads. -/
def Reader.operate (reader : Reader) (o : Observed) (m : Moment) : Except Error Sidecar := do
  let files ← o.look m
  ensure ((files reader.corpusPath).map File.identity = some reader.corpusIdentity
    ∧ (files reader.sidecarPath).map File.identity = some reader.sidecarIdentity)
    (outdated "corpus or sidecar identity changed")
  match files reader.sidecarPath with
  | some ⟨_, .sidecar s⟩ => .ok s
  | _ => .error (.failed (str "history sidecar read failed"))

/-! ## Pages of decisions -/

abbrev Cursor := Str ×ₗ Str

structure DecisionPage where
  decisions : List ScopeDecision
  hasMore : Bool
  nextCursor : Option Cursor

/-- The operation of `scan_scope_decisions`. -/
def Sidecar.scanScopeDecisions (s : Sidecar) (cursor : Option Cursor) (limit : Nat) :
    DecisionPage :=
  let rows := (rowsBehind ScopeDecision.key cursor s.decisions).take (limit + 1)
  let hasMore := decide (limit < rows.length)
  let page := rows.take limit
  { decisions := page
    hasMore := hasMore
    nextCursor := if hasMore then page.getLast?.map ScopeDecision.key else none }

/-- The loop of `_iter_scope_decisions`, from a page on. -/
def Reader.iterScopeDecisions (reader : Reader) (o : Observed) :
    Nat → Nat → Option Cursor → Except Error (List ScopeDecision)
  | 0, _, _ => .error (malformed "sidecar decision pages do not end")
  | fuel + 1, index, cursor => do
    let s ← reader.operate o (.page index)
    let page := s.scanScopeDecisions cursor maxDecisionPageSize
    if page.hasMore = false then .ok page.decisions
    else match page.nextCursor with
      | none => .error (malformed "sidecar decision cursor is invalid")
      | some next => do
        let rest ← reader.iterScopeDecisions o fuel (index + 1) (some next)
        .ok (page.decisions ++ rest)

/-! ## Fields of an artifact -/

/-- `_exact_object`. -/
def exactObject (v : Json) (names : List String) (label : String) : Except Error Unit :=
  match v with
  | .obj members =>
    ensure ((∀ key ∈ members.map Prod.fst, key ∈ names.map str)
        ∧ ∀ name ∈ names, str name ∈ members.map Prod.fst)
      (malformed (label ++ " fields do not match schema v1"))
  | _ => .error (malformed (label ++ " fields do not match schema v1"))

/-- `_hex_digest` of a field. -/
def hexField (v : Json) (name : String) : Except Error {s : Str // isHex256 s = true} :=
  match v.get? (str name) with
  | some (.str s) =>
    if h : isHex256 s = true then .ok ⟨s, h⟩
    else .error (malformed (name ++ " must be a lowercase SHA-256 digest"))
  | _ => .error (malformed (name ++ " must be a lowercase SHA-256 digest"))

/-- `_stable_id` of a value. -/
def stableId (v : Option Json) (name : String) : Except Error {s : Str // isStableId s = true} :=
  match v with
  | some (.str s) =>
    if h : isStableId s = true then .ok ⟨s, h⟩
    else .error (malformed (name ++ " must be a stable lowercase identifier"))
  | _ => .error (malformed (name ++ " must be a stable lowercase identifier"))

/-- `_bounded_count` of a field. -/
def countField (v : Json) (name : String) (maximum : Nat) : Except Error Nat :=
  match v.get? (str name) with
  | some (.int n) => do
    ensure (0 ≤ n ∧ n ≤ maximum) (malformed (name ++ " is outside its budget"))
    .ok n.toNat
  | _ => .error (malformed (name ++ " is outside its budget"))

/-- A field that must be one text. -/
def constantField (v : Json) (name expected message : String) : Except Error Unit :=
  ensure (v.get? (str name) = some (.str (str expected))) (malformed message)

def maxArtifactBytes : Nat := 1048576

/-- `_parse_payload` of octets. -/
def parsePayload (data : Bytes) (label : String) : Except Error Json := do
  ensure (0 < data.length ∧ data.length ≤ maxArtifactBytes)
    (malformed (label ++ " exceeds its byte budget"))
  match decodeUtf8Strict data with
  | none => .error (malformed (label ++ " is not UTF-8 JSON"))
  | some text =>
    match Json.loads text with
    | .ok (.obj members) => .ok (.obj members)
    | .ok _ => .error (malformed (label ++ " must be a JSON object"))
    | .error _ => .error (malformed (label ++ " is not strict JSON"))

/-- `_artifact_digest` of a document without its digest. -/
def artifactDigest (unsigned : Json) (domain : String) : Except Error Str := do
  let frame ← rowFrameOf unsigned
  .ok (hex (sha256 (nulTerminated domain ++ frame)))
where
  rowFrameOf (document : Json) : Except Error Bytes :=
    match encodeUtf8 document.dumps with
    | none => .error .raised
    | some encoded => do
      ensure (encoded.length < 256 ^ 8) .raised
      .ok (lengthFrame 8 encoded)

/-- `history_review_…_json_bytes` of a valid document. -/
def artifactBytes (document : Json) (label : String) : Except Error Bytes :=
  match encodeUtf8 (document.dumps ++ [ch '\n']) with
  | none => .error .raised
  | some encoded => do
    ensure (encoded.length ≤ maxArtifactBytes) (malformed (label ++ " exceeds byte budget"))
    .ok encoded

/-! ## Requests -/

/-- `binding` of a request; `sidecar_schema_version` is the one there is. -/
structure ReviewBinding where
  sidecarGeneration : Str
  corpus : Binding
  deriving DecidableEq

def ReviewBinding.document (binding : ReviewBinding) : Json :=
  Json.fields
    [("base_record_count", .int binding.corpus.baseRecordCount),
      ("base_record_digest", .str binding.corpus.baseRecordDigest),
      ("corpus_deletion_ledger_digest", .str binding.corpus.corpusDeletionLedgerDigest),
      ("corpus_id", .str binding.corpus.corpusId),
      ("corpus_logical_index_sha256", .str binding.corpus.corpusLogicalIndexSha256),
      ("index_generation", .str binding.corpus.indexGeneration),
      ("sidecar_generation", .str binding.sidecarGeneration),
      ("sidecar_schema_version", .str schemaVersion)]

/-- `_validate_binding`. -/
def readBinding (raw : Json) : Except Error ReviewBinding := do
  exactObject raw ["base_record_count", "base_record_digest", "corpus_deletion_ledger_digest",
    "corpus_id", "corpus_logical_index_sha256", "index_generation", "sidecar_generation",
    "sidecar_schema_version"] "review binding"
  let generation ← hexField raw "sidecar_generation"
  let corpusId ← hexField raw "corpus_id"
  let indexGeneration ← hexField raw "index_generation"
  let ledgerDigest ← hexField raw "corpus_deletion_ledger_digest"
  let logicalIndex ← hexField raw "corpus_logical_index_sha256"
  let baseDigest ← hexField raw "base_record_digest"
  let baseCount ← countField raw "base_record_count" maxRecords
  constantField raw "sidecar_schema_version" "integrity-home-history-sidecar/2"
    "review binding sidecar schema is unsupported"
  .ok ⟨generation, ⟨baseCount, baseDigest, ledgerDigest, corpusId, logicalIndex, indexGeneration⟩⟩

/-- One record of a request. -/
structure ReviewRecord where
  contentSha256 : Str
  recordId : Str
  deriving DecidableEq

structure Request where
  binding : ReviewBinding
  scopeIds : List Str
  records : List ReviewRecord
  artifactSha256 : Str

def personalScopeId : Str := str "personal:core"

def Request.members (request : Request) : List (String × Json) :=
  [("schema_version", .str (str "integrity-home-history-review-request/1")),
    ("content_policy", .str (str "content-free-record-identities/1")),
    ("review_policy", .str (str "explicit-scopes-complete/1")),
    ("binding", request.binding.document),
    ("scope_ids", .arr (request.scopeIds.map .str)),
    ("records", .arr (request.records.map fun record => Json.fields
      [("content_sha256", .str record.contentSha256), ("record_id", .str record.recordId)])),
    ("record_count", .int request.records.length)]

def Request.document (request : Request) : Json :=
  Json.fields (request.members ++ [("artifact_sha256", .str request.artifactSha256)])

/-- `_normalize_scope_ids`. -/
def readScopeIds (v : Option Json) : Except Error (List Str) :=
  match v with
  | some (.arr items) => do
    ensure (1 ≤ items.length ∧ items.length ≤ maxLogicalScopes)
      (malformed "History review scope set is invalid")
    let ids ← items.mapM fun item => stableId (some item) "scope_id"
    ensure ((ids.map Subtype.val).Pairwise (· < ·) ∧ personalScopeId ∈ ids.map Subtype.val)
      (malformed "History review scope set is invalid")
    .ok (ids.map Subtype.val)
  | _ => .error (malformed "History review scope set is invalid")

def readReviewRecord (item : Json) : Except Error ReviewRecord := do
  exactObject item ["content_sha256", "record_id"] "History review record"
  let contentSha256 ← hexField item "content_sha256"
  let recordId ← hexField item "record_id"
  .ok ⟨contentSha256, recordId⟩

def readReviewRecords (v : Option Json) : Except Error (List ReviewRecord) :=
  match v with
  | some (.arr items) => do
    ensure (1 ≤ items.length ∧ items.length ≤ maxPageSize)
      (malformed "History review request records are outside budget")
    let records ← items.mapM readReviewRecord
    ensure ((records.map ReviewRecord.recordId).Pairwise (· < ·))
      (malformed "History review request records are not canonical and unique")
    .ok records
  | _ => .error (malformed "History review request records are outside budget")

/-- `validate_history_review_request` without a reader. -/
def readRequest (raw : Json) : Except Error Request := do
  exactObject raw ["artifact_sha256", "binding", "content_policy", "record_count", "records",
    "review_policy", "schema_version", "scope_ids"] "History review request"
  constantField raw "schema_version" "integrity-home-history-review-request/1"
    "History review request schema is unsupported"
  constantField raw "content_policy" "content-free-record-identities/1"
    "History review request content policy is invalid"
  constantField raw "review_policy" "explicit-scopes-complete/1"
    "History review request policy is invalid"
  let binding ← readBinding ((raw.get? (str "binding")).getD .null)
  let scopeIds ← readScopeIds (raw.get? (str "scope_ids"))
  let records ← readReviewRecords (raw.get? (str "records"))
  let recordCount ← countField raw "record_count" maxPageSize
  ensure (recordCount = records.length) (malformed "History review request record count mismatch")
  let artifactSha256 ← hexField raw "artifact_sha256"
  let request : Request := ⟨binding, scopeIds, records, artifactSha256⟩
  let digest ← artifactDigest (Json.fields request.members)
    "integrity-home-history-review-request/1"
  ensure (request.artifactSha256 = digest) (malformed "History review request digest mismatch")
  .ok request

/-! ## Requests against the reader -/

/-- The scope of `HISTORY_REVIEW_SCOPE_IDS` as `DEFAULT_LOGICAL_SCOPES` has it. -/
def LogicalScope.isDefaultPersonal (scope : LogicalScope) : Prop :=
  scope.scopeId = personalScopeId ∧ scope.displayName = str "Personal"
    ∧ scope.scopeKind = .personalKind ∧ scope.realm = .personalRealm ∧ scope.projectId = none

instance (scope : LogicalScope) : Decidable scope.isDefaultPersonal := by
  unfold LogicalScope.isDefaultPersonal
  infer_instance

/-- `_review_scope_ids`. -/
def reviewScopeIds (scopes : List LogicalScope) : Except Error (List Str) := do
  ensure ((scopes.filter fun scope => scope.scopeId = personalScopeId).length = 1
      ∧ ∀ scope ∈ scopes, scope.scopeId = personalScopeId → scope.isDefaultPersonal)
    (malformed "History review requires canonical Personal scope descriptor")
  ensure (scopes.length ≤ maxLogicalScopes) (malformed "History review scope set is invalid")
  .ok (scopes.map LogicalScope.scopeId)

/-- `get_records`, as far as a request reads it. -/
def Sidecar.getRecords (s : Sidecar) (recordIds : List Str) : Except Error (List ReviewRecord) := do
  let rows := s.records.filter fun record => recordIds.contains record.recordId
  ensure (rows.length = recordIds.length) (malformed "record_ids contain an unknown record")
  .ok (rows.map fun record => ⟨record.base.contentSha256, record.recordId⟩)

/-- `_binding_from_reader`. -/
def Reader.binding (reader : Reader) : ReviewBinding where
  sidecarGeneration := reader.summary.sidecarGeneration
  corpus :=
    { baseRecordCount := reader.summary.recordCount
      baseRecordDigest := reader.summary.baseRecordDigest
      corpusDeletionLedgerDigest := reader.summary.corpusDeletionLedgerDigest
      corpusId := reader.summary.corpusId
      corpusLogicalIndexSha256 := reader.summary.corpusLogicalIndexSha256
      indexGeneration := reader.summary.indexGeneration }

/-- `validate_history_review_request` of a valid request with the reader: three reads. -/
def Request.against (request : Request) (reader : Reader) (o : Observed) (m : Nat → Moment) :
    Except Error Unit := do
  let _ ← reader.operate o (m 0)
  ensure (reader.binding = request.binding)
    (outdated "History review request sidecar binding is stale")
  let described ← reader.operate o (m 1)
  let scopeIds ← reviewScopeIds described.scopes
  ensure (scopeIds = request.scopeIds) (outdated "History review scope set is stale")
  let recorded ← reader.operate o (m 2)
  let current ← recorded.getRecords (request.records.map ReviewRecord.recordId)
  ensure (current = request.records) (outdated "History review request records are stale")

/-! ## Results -/

structure ReviewChoice where
  recordId : Str
  scopeId : Str
  membership : ScopeMembership
  valid : (isHex256 recordId && isStableId scopeId) = true

/-- A result, with the digest it was sealed with. -/
structure ReviewResult where
  requestSha256 : Str
  decisions : List ReviewChoice
  artifactSha256 : Str
  sealed : isHex256 artifactSha256 = true

def ReviewChoice.key (choice : ReviewChoice) : Str ×ₗ Str := toLex (choice.recordId, choice.scopeId)

def ReviewResult.members (result : ReviewResult) : List (String × Json) :=
  [("schema_version", .str (str "integrity-home-history-review-result/1")),
    ("content_policy", .str (str "content-free-record-identities/1")),
    ("review_policy", .str (str "explicit-scopes-complete/1")),
    ("request_sha256", .str result.requestSha256),
    ("coverage", .str (str "complete-cartesian/1")),
    ("decisions", .arr (result.decisions.map fun choice => Json.fields
      [("membership", .str choice.membership.text), ("record_id", .str choice.recordId),
        ("scope_id", .str choice.scopeId)])),
    ("decision_count", .int result.decisions.length)]

def ReviewResult.document (result : ReviewResult) : Json :=
  Json.fields (result.members ++ [("artifact_sha256", .str result.artifactSha256)])

def readMembership (v : Option Json) : Except Error ScopeMembership :=
  if v = some (.str (str "exclude")) then .ok .exclude
  else if v = some (.str (str "include")) then .ok .include
  else if v = some (.str (str "unknown")) then .ok .unknown
  else .error (malformed "membership is invalid")

def readChoice (item : Json) : Except Error ReviewChoice := do
  exactObject item ["membership", "record_id", "scope_id"] "History review choice"
  let recordId ← hexField item "record_id"
  let scopeId ← stableId (item.get? (str "scope_id")) "scope_id"
  let membership ← readMembership (item.get? (str "membership"))
  .ok ⟨recordId, scopeId, membership, by rw [recordId.2, scopeId.2]; rfl⟩

/-- Every record with every scope, in order. -/
def Request.expectedPairs (request : Request) : List (Str ×ₗ Str) :=
  ranked id (request.records.flatMap fun record =>
    request.scopeIds.map fun scopeId => toLex (record.recordId, scopeId))

def readChoices (v : Option Json) (request : Request) : Except Error (List ReviewChoice) :=
  match v with
  | some (.arr items) => do
    ensure (items ≠ []) (malformed "History review result decisions are required")
    ensure (items.length ≤ maxPageSize * maxLogicalScopes)
      (malformed "History review decision budget exceeded")
    let choices ← items.mapM readChoice
    ensure (choices.map ReviewChoice.key = request.expectedPairs)
      (malformed "History review result must cover each record/scope pair exactly once")
    .ok choices
  | _ => .error (malformed "History review result decisions are required")

/-- `validate_history_review_result` against a valid request. -/
def readResult (raw : Json) (request : Request) : Except Error ReviewResult := do
  exactObject raw ["artifact_sha256", "content_policy", "coverage", "decision_count", "decisions",
    "request_sha256", "review_policy", "schema_version"] "History review result"
  constantField raw "schema_version" "integrity-home-history-review-result/1"
    "History review result schema is unsupported"
  constantField raw "content_policy" "content-free-record-identities/1"
    "History review result content policy is invalid"
  constantField raw "review_policy" "explicit-scopes-complete/1"
    "History review result policy is invalid"
  constantField raw "coverage" "complete-cartesian/1" "History review result coverage is incomplete"
  let requestSha256 ← hexField raw "request_sha256"
  ensure (requestSha256.1 = request.artifactSha256)
    (outdated "History review result targets another request")
  let decisions ← readChoices (raw.get? (str "decisions")) request
  let decisionCount ← countField raw "decision_count" (maxPageSize * maxLogicalScopes)
  ensure (decisionCount = decisions.length)
    (malformed "History review result decision count mismatch")
  let artifactSha256 ← hexField raw "artifact_sha256"
  let result : ReviewResult := ⟨requestSha256, decisions, artifactSha256.1, artifactSha256.2⟩
  let digest ← artifactDigest (Json.fields result.members) "integrity-home-history-review-result/1"
  ensure (result.artifactSha256 = digest) (malformed "History review result digest mismatch")
  .ok result

end IntegrityGuardian.History
