import IntegrityGuardian.History.Sidecar

/-!
# Building a sidecar

`_build_history_sidecar` of `history/sidecar.py`.  A build looks at the files at several
moments; what other programs do between them is part of what it sees.
-/

namespace IntegrityGuardian.History

open Python Library

/-! ## Files -/

abbrev Path := Str

/-- `st_dev`, `st_ino`, `st_size`, `st_mtime_ns` and `st_ctime_ns`. -/
abbrev FileIdentity := List Int

/-- A file by the program that can read it. -/
inductive Content where
  | sidecar (s : Sidecar)
  | corpus (corpus : Corpus)
  | artifact (data : Bytes)
  | other

structure File where
  identity : FileIdentity
  content : Content

abbrev Files := Path → Option File

/-- The moments at which a call looks at the files. -/
inductive Moment where
  | start
  | opening
  | check (call part : Nat)
  | scopes
  | build
  | page (index : Nat)
  | rescan
  | recheck (call part : Nat)
  | publication
  | published

/-- What a call sees of the files, and the errors of the system and of SQLite that it meets.  A
file that keeps its identity keeps its content. -/
structure Observed where
  seen : Moment → Files
  fault : Moment → Option Error
  faithful : ∀ m m' path file file', seen m path = some file → seen m' path = some file' →
    file.identity = file'.identity → file.content = file'.content

def Observed.look (o : Observed) (m : Moment) : Except Error Files :=
  match o.fault m with
  | some error => .error error
  | none => .ok (o.seen m)

/-- `inspect_corpus_integrity`, and the corpus it is about. -/
def inspectCorpus (files : Files) (path : Path) : Except Error (FileIdentity × Corpus) :=
  match files path with
  | some ⟨identity, .corpus corpus⟩ => .ok (identity, corpus)
  | _ => .error (.failed (str "history sidecar build failed"))

/-- The fields that are compared. -/
def Corpus.sameIntegrity (corpus corpus' : Corpus) : Prop :=
  corpus.corpusId = corpus'.corpusId ∧ corpus.indexGeneration = corpus'.indexGeneration
    ∧ corpus.deletionLedgerDigest = corpus'.deletionLedgerDigest
    ∧ corpus.logicalIndexSha256 = corpus'.logicalIndexSha256
    ∧ corpus.messageCount = corpus'.messageCount

instance (corpus corpus' : Corpus) : Decidable (corpus.sameIntegrity corpus') := by
  unfold Corpus.sameIntegrity
  infer_instance

section
variable [CatalogData]

/-! ## Scans of the corpus -/

/-- The rows of `scan_history_records`, page after page. -/
def scanCorpus (corpus : Corpus) : Except Error (List CorpusRecord) := do
  ensure (corpus.messageCount ≤ maxRecords)
    (malformed "corpus message count exceeds sidecar budget")
  if corpus.messageCount = 0 then .ok []
  else do
    ensure (corpus.records.length = corpus.messageCount)
      (outdated "corpus scan contains more rows than declared")
    .ok corpus.records

/-- `_corpus_base_row`. -/
def corpusBaseRow (record : CorpusRecord) : Except Error BaseRow := do
  ensure (record.base.valid = true) (malformed "corpus row must be bounded printable text")
  match encodeUtf8 record.content with
  | none => .error (malformed "corpus content is not valid UTF-8")
  | some data => do
    ensure (hex (sha256 data) = record.base.contentSha256)
      (outdated "corpus content digest mismatch")
    .ok record.base

/-- The row of `catalog_records` that a message gets. -/
def catalogRecord (record : CorpusRecord) : Except Error CatalogRecord := do
  let base ← corpusBaseRow record
  let projection := CatalogData.projection record.content base.role
  .ok ⟨base, projection.1, projection.2⟩

/-- The records in the order of the primary key. -/
structure Catalog where
  records : List CatalogRecord
  ascending : records.Pairwise fun a b => a.recordId < b.recordId

/-- `_scan_into_sidecar`. -/
def scanIntoSidecar (corpus : Corpus) : Except Error Catalog := do
  let rows ← scanCorpus corpus
  let records ← rows.mapM catalogRecord
  ensure (records.map fun record => record.base.location).Nodup
    (malformed "corpus scan contains duplicate record identity")
  if h : (records.map CatalogRecord.recordId).Nodup then
    .ok ⟨ranked CatalogRecord.recordId records, ranked_ascending h⟩
  else .error (malformed "corpus scan contains duplicate record identity")

/-- `_scan_into_sidecar` with `verify_existing`. -/
def verifyExisting (corpus : Corpus) (records : List CatalogRecord) : Except Error Unit := do
  let rows ← scanCorpus corpus
  let seen ← rows.mapM corpusBaseRow
  ensure (∀ row ∈ seen, row ∈ records.map CatalogRecord.base)
    (outdated "corpus record set differs from staged sidecar")
  ensure (seen.map BaseRow.recordId).Nodup (outdated "corpus scan returned a duplicate record_id")
  ensure (seen.length = corpus.messageCount ∧ records.length = corpus.messageCount)
    (outdated "sidecar does not exactly cover corpus records")

/-! ## Scopes and decisions -/

/-- The scopes in the order of the primary key. -/
structure ScopeTable where
  scopes : List LogicalScope
  ascending : scopes.Pairwise fun a b => a.scopeId < b.scopeId

/-- `_coerce_scopes`. -/
def coerceScopes (scopes : List LogicalScope) : Except Error ScopeTable := do
  ensure (scopes.length ≤ maxLogicalScopes) (malformed "logical scope budget exceeded")
  ensure (scopes ≠ []) (malformed "at least one logical scope is required")
  if h : (scopes.map LogicalScope.scopeId).Nodup then
    .ok ⟨ranked LogicalScope.scopeId scopes, ranked_ascending h⟩
  else .error (malformed "logical scope IDs must be unique")

/-- The table `scope_decisions` with its constraints. -/
structure DecisionTable (records : List CatalogRecord) (scopes : List LogicalScope) where
  rows : List ScopeDecision
  distinct : (rows.map ScopeDecision.key).Nodup
  references : ∀ decision ∈ rows, decision.recordId ∈ records.map CatalogRecord.recordId
    ∧ decision.scopeId ∈ scopes.map LogicalScope.scopeId

section
variable {records : List CatalogRecord} {scopes : List LogicalScope}

def DecisionTable.empty : DecisionTable records scopes where
  rows := []
  distinct := List.nodup_nil
  references := by simp

def DecisionTable.insert (table : DecisionTable records scopes) (decision : ScopeDecision)
    (hkey : decision.key ∉ table.rows.map ScopeDecision.key)
    (hrefers : decision.recordId ∈ records.map CatalogRecord.recordId
      ∧ decision.scopeId ∈ scopes.map LogicalScope.scopeId) : DecisionTable records scopes where
  rows := table.rows ++ [decision]
  distinct := by
    rw [List.map_append, List.map_singleton, List.nodup_append]
    refine ⟨table.distinct, List.nodup_singleton _, ?_⟩
    intro a ha b hb heq
    rw [List.mem_singleton.1 hb] at heq
    exact hkey (heq ▸ ha)
  references := by
    intro d hd
    rcases List.mem_append.1 hd with hd | hd
    · exact table.references d hd
    · rw [List.mem_singleton.1 hd]
      exact hrefers

/-- One turn of `_insert_decisions`. -/
def insertDecision (allowReviewed : Bool) (table : DecisionTable records scopes)
    (decision : ScopeDecision) : Except Error (DecisionTable records scopes) := do
  ensure (decision.reviewState = .reviewed → allowReviewed = true)
    (malformed "reviewed decisions require validated History review apply")
  ensure (table.rows.length < maxScopeDecisions) (malformed "scope decision budget exceeded")
  if hscope : decision.scopeId ∈ scopes.map LogicalScope.scopeId then
    if hrow : decision.key ∉ table.rows.map ScopeDecision.key
        ∧ decision.recordId ∈ records.map CatalogRecord.recordId then
      .ok (table.insert decision hrow.1 ⟨hrow.2, hscope⟩)
    else .error (malformed "decision is duplicate or references an unknown record")
  else .error (malformed "decision references an unknown scope")

/-- `_insert_decisions`. -/
def insertDecisions (allowReviewed : Bool) (decisions : List ScopeDecision) :
    Except Error (DecisionTable records scopes) :=
  decisions.foldlM (insertDecision allowReviewed) DecisionTable.empty

end

/-! ## The build -/

/-- `expected_corpus_binding`. -/
structure Binding where
  baseRecordCount : Nat
  baseRecordDigest : Str
  corpusDeletionLedgerDigest : Str
  corpusId : Str
  corpusLogicalIndexSha256 : Str
  indexGeneration : Str
  deriving DecidableEq

/-- What the binding says of the corpus. -/
def Binding.holds (binding : Binding) (corpus : Corpus) : Prop :=
  binding.baseRecordCount = corpus.messageCount
    ∧ binding.corpusDeletionLedgerDigest = corpus.deletionLedgerDigest
    ∧ binding.corpusId = corpus.corpusId
    ∧ binding.corpusLogicalIndexSha256 = corpus.logicalIndexSha256
    ∧ binding.indexGeneration = corpus.indexGeneration

instance (binding : Binding) (corpus : Corpus) : Decidable (binding.holds corpus) := by
  unfold Binding.holds
  infer_instance

/-- The sidecar that is sealed from its tables. -/
def sealSidecar (corpus : Corpus) (catalog : Catalog) (scopes : ScopeTable)
    (table : DecisionTable catalog.records scopes.scopes) (digest : Str) :
    Except Error Sidecar := do
  let decisions := ranked ScopeDecision.key table.rows
  let info : SidecarMeta :=
    { baseRecordCount := catalog.records.length
      baseRecordDigest := digest
      corpusDeletionLedgerDigest := corpus.deletionLedgerDigest
      corpusId := corpus.corpusId
      corpusLogicalIndexSha256 := corpus.logicalIndexSha256
      decisionCount := table.rows.length
      indexGeneration := corpus.indexGeneration
      scopeCount := scopes.scopes.length }
  let generation ← sidecarGeneration info scopes.scopes catalog.records decisions
  .ok
    { info := info
      generation := generation
      scopes := scopes.scopes
      records := catalog.records
      decisions := decisions
      scopesAscending := scopes.ascending
      recordsAscending := catalog.ascending
      decisionsAscending := ranked_ascending table.distinct
      references := fun decision hdecision => table.references decision (mem_ranked.1 hdecision) }

/-- What `_build_history_sidecar` is called with. -/
structure BuildCall where
  corpusPath : Path
  sidecarPath : Path
  scopes : List LogicalScope
  allowReviewed : Bool
  expected : Option Binding

/-- `_build_history_sidecar` up to `os.replace`. -/
def stageSidecar (o : Observed) (call : BuildCall) (decisions : Except Error (List ScopeDecision))
    (prepublishCheck : Except Error Unit) : Except Error Sidecar := do
  let files ← o.look .build
  let (_, corpus) ← inspectCorpus files call.corpusPath
  ensure (files corpus.ledgerPath).isSome
    (malformed "authoritative deletion ledger does not exist")
  ensure (call.sidecarPath ≠ call.corpusPath ∧ call.sidecarPath ≠ corpus.ledgerPath)
    (malformed "sidecar path must differ from the corpus and deletion ledger")
  let scopes ← coerceScopes call.scopes
  ensure (∀ binding ∈ call.expected, binding.holds corpus)
    (outdated "review corpus binding mismatch")
  let catalog ← scanIntoSidecar corpus
  let digest ← baseRecordDigest catalog.records
  let decisions ← decisions
  let table ← insertDecisions call.allowReviewed decisions
  let later ← o.look .rescan
  let (_, final) ← inspectCorpus later call.corpusPath
  ensure (corpus.sameIntegrity final) (outdated "corpus changed during sidecar build")
  verifyExisting final catalog.records
  ensure (∀ binding ∈ call.expected, binding.baseRecordDigest = digest)
    (outdated "review corpus binding mismatch: base_record_digest")
  let sidecar ← sealSidecar final catalog scopes table digest
  let _ ← sidecar.validate final
  prepublishCheck
  let current ← o.look .publication
  ensure ((current call.sidecarPath).map File.identity = (files call.sidecarPath).map File.identity)
    (outdated "sidecar target changed during projection build")
  .ok sidecar

/-- How a call ends; an error can also come when the file is there. -/
inductive Outcome (α : Type) where
  | raised (error : Error)
  | published (sidecar : Sidecar) (reply : Except Error α)

/-- `os.replace`, and what comes behind it. -/
def publish {α : Type} (o : Observed) (staged : Except Error (Sidecar × α)) : Outcome α :=
  match staged with
  | .error error => .raised error
  | .ok (sidecar, reply) =>
    .published sidecar (match o.fault .published with
      | some error => .error error
      | none => .ok reply)

/-- `build_history_sidecar`. -/
def buildHistorySidecar (o : Observed) (corpusPath sidecarPath : Path)
    (scopes : List LogicalScope) (decisions : List ScopeDecision) : Outcome Summary :=
  publish o do
    let sidecar ← stageSidecar o ⟨corpusPath, sidecarPath, scopes, false, none⟩ (.ok decisions)
      (.ok ())
    .ok (sidecar, sidecar.summary)

/-- `build_history_sidecar_successor`. -/
def buildHistorySidecarSuccessor (o : Observed) (corpusPath sidecarPath : Path)
    (scopes : List LogicalScope) (decisions : List ScopeDecision) (authoritySha256 : Str) :
    Outcome Summary :=
  publish o do
    ensure (isHex256 authoritySha256 = true)
      (malformed "authority_sha256 must be a lowercase SHA-256 digest")
    ensure (decisions.any (fun decision => decision.reviewState == .reviewed
        && decision.artifactSha256 == authoritySha256) = true)
      (malformed "successor requires a reviewed decision bound to current authority")
    let sidecar ← stageSidecar o ⟨corpusPath, sidecarPath, scopes, true, none⟩ (.ok decisions)
      (.ok ())
    .ok (sidecar, sidecar.summary)

end

end IntegrityGuardian.History
