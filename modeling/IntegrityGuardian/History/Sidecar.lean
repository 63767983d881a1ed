import IntegrityGuardian.Library.TopRanked
import IntegrityGuardian.Python.ByteFrames
import IntegrityGuardian.Python.JsonFields
import Mathlib.Data.Prod.Lex

/-!
# History sidecars

The data of `history/sidecar.py`: scopes, decisions and catalog records with what seals them.
The classifier is a parameter.
-/

namespace IntegrityGuardian.History

open Python Library
open Json (ch)

inductive Error where
  /-- `HistorySidecarSchemaError`. -/
  | schema (message : Str)
  /-- `HistorySidecarStaleError`. -/
  | stale (message : Str)
  /-- `HistorySidecarError`. -/
  | failed (message : Str)
  /-- An error of the standard library. -/
  | raised

def malformed (message : String) : Error := .schema (str message)

def outdated (message : String) : Error := .stale (str message)

def maxLogicalScopes : Nat := 64
def maxRecords : Nat := 1000000
def maxScopeDecisions : Nat := 4000000
def maxIdentifierChars : Nat := 1024
def maxPageSize : Nat := 100
def maxDecisionPageSize : Nat := 1000

def schemaVersion : Str := str "integrity-home-history-sidecar/2"
def classifierId : Str := str "integrity-home.history.catalog.exact-lexicon"
def classifierVersion : Str := str "1.0.0"

/-! ## Texts -/

/-- `_HEX_256`. -/
def isHex256 (s : Str) : Bool := s.length == 64 && s.all CodePoint.isLowerHex

/-- `_bounded_text`. -/
def isBoundedText (maximum : Nat) (s : Str) : Bool :=
  s != [] && s.length ≤ maximum && s.all fun c => 32 ≤ c.val && c.val != 127 && !c.isSurrogate

def isLowerAlnum (c : CodePoint) : Bool :=
  (48 ≤ c.val && c.val ≤ 57) || (97 ≤ c.val && c.val ≤ 122)

/-- One part of `_STABLE_ID`. -/
def isStablePart (part : Str) : Bool :=
  part.head?.any isLowerAlnum && part.length ≤ 64
    && part.all fun c => isLowerAlnum c || [ch '.', ch '_', ch '-'].contains c

/-- `_stable_id`. -/
def isStableId (s : Str) : Bool := isBoundedText 128 s && (s.splitOn (ch ':')).all isStablePart

/-! ## Scopes and decisions -/

inductive ScopeKind where
  | personalKind
  | projectKind
  | publicKind
  deriving DecidableEq

inductive Realm where
  | personalRealm
  | workRealm
  | publicRealm
  deriving DecidableEq

def ScopeKind.text : ScopeKind → Str
  | .personalKind => str "personal"
  | .projectKind => str "project"
  | .publicKind => str "public"

def Realm.text : Realm → Str
  | .personalRealm => str "personal"
  | .workRealm => str "work"
  | .publicRealm => str "public"

/-- `LogicalScope.__post_init__`. -/
def scopeValid (scopeId displayName : Str) (scopeKind : ScopeKind) (realm : Realm)
    (projectId : Option Str) : Bool :=
  isStableId scopeId && isBoundedText 128 displayName && projectId.all isStableId
    && ((scopeKind == .projectKind) == projectId.isSome)
    && (scopeKind != .personalKind || realm == .personalRealm)
    && (scopeKind != .publicKind || realm == .publicRealm)

structure LogicalScope where
  scopeId : Str
  displayName : Str
  scopeKind : ScopeKind
  realm : Realm
  projectId : Option Str
  valid : scopeValid scopeId displayName scopeKind realm projectId = true

inductive ScopeMembership where
  | exclude
  | include
  | unknown
  deriving DecidableEq

inductive ReviewState where
  | inferred
  | reviewed
  deriving DecidableEq

def ScopeMembership.text : ScopeMembership → Str
  | .exclude => str "exclude"
  | .include => str "include"
  | .unknown => str "unknown"

def ReviewState.text : ReviewState → Str
  | .inferred => str "inferred"
  | .reviewed => str "reviewed"

/-- A decision; its `reason_code` is the one `__post_init__` expects. -/
structure ScopeDecision where
  recordId : Str
  scopeId : Str
  membership : ScopeMembership
  reviewState : ReviewState
  artifactSha256 : Str
  valid : (isHex256 recordId && isStableId scopeId && isHex256 artifactSha256) = true

def ScopeDecision.reasonCode (decision : ScopeDecision) : Str :=
  match decision.reviewState with
  | .reviewed => str "owner.review"
  | .inferred => str "classifier.scope-hint"

/-- The primary key of `scope_decisions`. -/
def ScopeDecision.key (decision : ScopeDecision) : Str ×ₗ Str :=
  toLex (decision.recordId, decision.scopeId)

def ScopeDecision.columns (decision : ScopeDecision) : List Json :=
  [decision.recordId, decision.scopeId, decision.membership.text, decision.reviewState.text,
    decision.artifactSha256, decision.reasonCode].map .str

def LogicalScope.columns (scope : LogicalScope) : List Json :=
  [.str scope.scopeId, .str scope.displayName, .str scope.scopeKind.text, .str scope.realm.text,
    Json.ofOptionalText scope.projectId]

/-! ## Catalog records -/

inductive ClassificationState where
  | classified
  | unclassifiedBudget
  deriving DecidableEq

def ClassificationState.text : ClassificationState → Str
  | .classified => str "classified"
  | .unclassifiedBudget => str "unclassified_budget"

/-- What the classifier makes of a content and a role, and `_validate_catalog_json`. -/
class CatalogData where
  projection : Str → Str → ClassificationState × Bytes
  valid : ClassificationState → Bytes → Bool

/-- The columns that come from the corpus. -/
structure BaseRow where
  recordId : Str
  sourceId : Str
  provider : Str
  conversationId : Str
  messageId : Str
  role : Str
  contentType : Str
  contentSha256 : Str
  deriving DecidableEq

def BaseRow.texts (row : BaseRow) : List Str :=
  [row.recordId, row.sourceId, row.provider, row.conversationId, row.messageId, row.role,
    row.contentType, row.contentSha256]

def BaseRow.valid (row : BaseRow) : Bool :=
  row.texts.all (isBoundedText maxIdentifierChars) && isHex256 row.recordId
    && isHex256 row.contentSha256

/-- What `catalog_records` keeps unique. -/
def BaseRow.location (row : BaseRow) : Str × Str × Str :=
  (row.sourceId, row.conversationId, row.messageId)

structure CatalogRecord where
  base : BaseRow
  state : ClassificationState
  catalogJson : Bytes
  deriving DecidableEq

def CatalogRecord.recordId (record : CatalogRecord) : Str := record.base.recordId

/-- `hex` of SQLite. -/
def upperHex (data : Bytes) : Str :=
  (hex data).map fun c => if 97 ≤ c.val then c - 32 else c

def CatalogRecord.columns (record : CatalogRecord) : List Json :=
  (record.base.texts ++ [record.state.text, upperHex record.catalogJson]).map .str

/-! ## Digests -/

/-- What `digest.update` gets of one row. -/
def rowFrame (row : List Json) : Except Error Bytes :=
  match encodeUtf8 (Json.dumps (.arr row)) with
  | none => .error .raised
  | some encoded => do
    ensure (encoded.length < 256 ^ 8) .raised
    .ok (lengthFrame 8 encoded)

def nulTerminated (name : String) : Bytes := (str name).flatMap utf8Octets ++ [0]

/-- What `_base_record_digest` hashes. -/
def baseRecordMessage (records : List CatalogRecord) : Except Error Bytes := do
  let frames ← records.mapM fun record => rowFrame (record.base.texts.map .str)
  .ok (nulTerminated "integrity-home-history-base-records/1" ++ frames.flatten)

/-- `_base_record_digest`. -/
def baseRecordDigest (records : List CatalogRecord) : Except Error Str := do
  let message ← baseRecordMessage records
  .ok (hex (sha256 message))

/-- `history_meta`, without the seal. -/
structure SidecarMeta where
  baseRecordCount : Nat
  baseRecordDigest : Str
  corpusDeletionLedgerDigest : Str
  corpusId : Str
  corpusLogicalIndexSha256 : Str
  decisionCount : Nat
  indexGeneration : Str
  scopeCount : Nat
  deriving DecidableEq

def SidecarMeta.rows (info : SidecarMeta) : List (List Json) :=
  [("base_record_count", Json.decimal info.baseRecordCount),
    ("base_record_digest", info.baseRecordDigest),
    ("classifier_id", classifierId),
    ("classifier_version", classifierVersion),
    ("corpus_deletion_ledger_digest", info.corpusDeletionLedgerDigest),
    ("corpus_id", info.corpusId),
    ("corpus_logical_index_sha256", info.corpusLogicalIndexSha256),
    ("decision_count", Json.decimal info.decisionCount),
    ("index_generation", info.indexGeneration),
    ("schema_version", schemaVersion),
    ("scope_count", Json.decimal info.scopeCount)].map fun entry =>
      [.str (str entry.1), .str entry.2]

/-- One section of `_sidecar_generation`. -/
def sectionBytes (name : String) (rows : List (List Json)) : Except Error Bytes := do
  let frames ← rows.mapM rowFrame
  .ok (nulTerminated name ++ frames.flatten)

/-- `_sidecar_generation`. -/
def sidecarGeneration (info : SidecarMeta) (scopes : List LogicalScope)
    (records : List CatalogRecord) (decisions : List ScopeDecision) : Except Error Str := do
  let first ← sectionBytes "meta" info.rows
  let second ← sectionBytes "scopes" (scopes.map LogicalScope.columns)
  let third ← sectionBytes "records" (records.map CatalogRecord.columns)
  let fourth ← sectionBytes "decisions" (decisions.map ScopeDecision.columns)
  let domain := nulTerminated "integrity-home-history-sidecar-generation/1"
  .ok (hex (sha256 (domain ++ first ++ second ++ third ++ fourth)))

/-! ## The file -/

/-- A sidecar file with the tables of the schema, each in the order of its key. -/
structure Sidecar where
  info : SidecarMeta
  generation : Str
  scopes : List LogicalScope
  records : List CatalogRecord
  decisions : List ScopeDecision
  scopesAscending : scopes.Pairwise fun a b => a.scopeId < b.scopeId
  recordsAscending : records.Pairwise fun a b => a.recordId < b.recordId
  decisionsAscending : decisions.Pairwise fun a b => a.key < b.key
  references : ∀ decision ∈ decisions,
    decision.recordId ∈ records.map CatalogRecord.recordId
      ∧ decision.scopeId ∈ scopes.map LogicalScope.scopeId

/-- One message of a corpus. -/
structure CorpusRecord where
  base : BaseRow
  content : Str

/-- A corpus index that passes its own checks. -/
structure Corpus where
  corpusId : Str
  indexGeneration : Str
  deletionLedgerDigest : Str
  logicalIndexSha256 : Str
  messageCount : Nat
  ledgerPath : Str
  records : List CorpusRecord

/-- What `_validate_sidecar_connection` returns. -/
structure Summary where
  sidecarGeneration : Str
  corpusId : Str
  indexGeneration : Str
  corpusDeletionLedgerDigest : Str
  corpusLogicalIndexSha256 : Str
  baseRecordDigest : Str
  recordCount : Nat
  scopeCount : Nat
  decisionCount : Nat
  classifiedCount : Nat
  unclassifiedBudgetCount : Nat
  decisionlessCount : Nat
  unassignedCount : Nat
  reviewedIncludeCount : Nat
  inferredCandidateCount : Nat
  deriving DecidableEq

def ScopeDecision.isReviewedInclude (decision : ScopeDecision) : Bool :=
  decision.membership == .include && decision.reviewState == .reviewed

def Sidecar.summary (s : Sidecar) : Summary where
  sidecarGeneration := s.generation
  corpusId := s.info.corpusId
  indexGeneration := s.info.indexGeneration
  corpusDeletionLedgerDigest := s.info.corpusDeletionLedgerDigest
  corpusLogicalIndexSha256 := s.info.corpusLogicalIndexSha256
  baseRecordDigest := s.info.baseRecordDigest
  recordCount := s.info.baseRecordCount
  scopeCount := s.info.scopeCount
  decisionCount := s.info.decisionCount
  classifiedCount := s.records.countP fun record => record.state == .classified
  unclassifiedBudgetCount := s.records.countP fun record => record.state == .unclassifiedBudget
  decisionlessCount := s.records.countP fun record =>
    !s.decisions.any fun decision => decision.recordId == record.recordId
  unassignedCount := s.records.countP fun record =>
    !s.decisions.any fun decision =>
      decision.recordId == record.recordId && decision.isReviewedInclude
  reviewedIncludeCount := s.decisions.countP ScopeDecision.isReviewedInclude
  inferredCandidateCount := s.decisions.countP fun decision => decision.reviewState == .inferred

section
variable [CatalogData]

def CatalogRecord.valid (record : CatalogRecord) : Bool :=
  record.base.valid && CatalogData.valid record.state record.catalogJson

/-- `_validate_sidecar_connection`, against the corpus. -/
def Sidecar.validate (s : Sidecar) (corpus : Corpus) : Except Error Summary := do
  let info := s.info
  ensure ([info.corpusId, info.indexGeneration, info.corpusDeletionLedgerDigest,
    info.corpusLogicalIndexSha256, info.baseRecordDigest, s.generation].all isHex256)
    (malformed "stored digest must be a lowercase SHA-256 digest")
  ensure (info.baseRecordCount ≤ maxRecords ∧ info.scopeCount ≤ maxLogicalScopes
    ∧ info.decisionCount ≤ maxScopeDecisions) (malformed "stored count is outside its budget")
  ensure (s.records.all CatalogRecord.valid) (malformed "catalog record is invalid")
  ensure (s.scopes.length = info.scopeCount ∧ s.records.length = info.baseRecordCount
    ∧ s.decisions.length = info.decisionCount)
    (malformed "sidecar stored counts do not match metadata")
  let digest ← baseRecordDigest s.records
  ensure (digest = info.baseRecordDigest) (malformed "sidecar base-record digest mismatch")
  let generation ← sidecarGeneration info s.scopes s.records s.decisions
  ensure (generation = s.generation) (malformed "sidecar generation seal mismatch")
  ensure (info.corpusId = corpus.corpusId ∧ info.indexGeneration = corpus.indexGeneration
    ∧ info.corpusDeletionLedgerDigest = corpus.deletionLedgerDigest
    ∧ info.corpusLogicalIndexSha256 = corpus.logicalIndexSha256
    ∧ info.baseRecordCount = corpus.messageCount) (outdated "sidecar corpus binding mismatch")
  .ok s.summary

end

end IntegrityGuardian.History
