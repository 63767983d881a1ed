import IntegrityGuardian.Chronicle.SearchQuery
import IntegrityGuardian.Library.TopRanked
import IntegrityGuardian.Python.StrictJson
import Mathlib.Data.Prod.Lex

/-!
# Search with and without an index

`search_projection` of `search.py` and the index of `search_index.py`.  Claims are held as
`_coerce_claims` accepts them; a provenance is a dictionary that is only read by key, and is
held in key order.
-/

namespace IntegrityGuardian.Chronicle

open Python Library
open Json (ch)

inductive Speaker where
  | user
  | assistant
  | other
  deriving DecidableEq

section
variable [FloatData]

/-- A value that is a text, or none. -/
def textOrNone (value : Option Value) : Option Str :=
  match value with
  | some (.str text) => some text
  | _ => none

/-! ## Projections -/

/-- A claim; `model` tells a missing one from `null`. -/
structure Claim where
  claimId : Str
  claimType : Str
  claimText : Str
  temporalState : Str
  conversationId : Str
  messageId : Str
  isUserAssertion : Bool
  provenance : Value
  model : Option (Option Str)
  createdAt : Option Str
  speaker : Option Speaker
  contentType : Option Str
  sourceId : Value
  claimId_ne : claimId ≠ []
  isDict : ∃ members, provenance = .obj members
  plain : provenance.plain = true

/-- A projection; `signature` is its `projection_sha256` or else the digest of the document, if
that can be encoded. -/
structure Projection where
  sourceId : Str
  provider : Str
  signature : Option Str
  claims : List Claim
  distinct : (claims.map Claim.claimId).Nodup

/-- The dictionary that `matches` reads. -/
structure ClaimDict where
  claimId : Str
  claimType : Str
  claimText : Str
  temporalState : Str
  conversationId : Str
  messageId : Str
  isUserAssertion : Bool
  provenance : Value
  model : Option Str
  createdAt : Option Str
  speaker : Option Speaker
  contentType : Option Str
  sourceId : Value

def Claim.dict (claim : Claim) : ClaimDict where
  claimId := claim.claimId
  claimType := claim.claimType
  claimText := claim.claimText
  temporalState := claim.temporalState
  conversationId := claim.conversationId
  messageId := claim.messageId
  isUserAssertion := claim.isUserAssertion
  provenance := claim.provenance
  model := claim.model.join
  createdAt := claim.createdAt
  speaker := claim.speaker
  contentType := claim.contentType
  sourceId := claim.sourceId

def speakerOf (isUserAssertion : Bool) (speaker : Option Speaker) : Speaker :=
  match speaker with
  | some speaker => speaker
  | none => if isUserAssertion then .user else .assistant

/-- `_claim_speaker` of `search.py`. -/
def ClaimDict.claimSpeaker (claim : ClaimDict) : Speaker :=
  if claim.claimType = str "other_statement" then .other
  else speakerOf claim.isUserAssertion claim.speaker

/-- `_coerce_content_type` of `search.py`. -/
def ClaimDict.coerceContentType (claim : ClaimDict) : Option Str :=
  match claim.contentType with
  | some contentType => some contentType
  | none => textOrNone (claim.provenance.get? (str "content_type"))

/-! ## Requests -/

structure SearchRequest where
  query : Option Str
  provider : Option Str
  conversationIds : Option (List Str)
  claimTypes : Option (List Str)
  temporalStates : Option (List Str)
  speakers : Option (List Speaker)
  models : Option (List Str)
  contentTypes : Option (List Str)
  minTimestamp : Option Str
  maxTimestamp : Option Str
  maxResults : Option Nat

structure ProjectionMatch where
  claimId : Str
  score : Nat
  claimType : Str
  createdAt : Option Str
  temporalState : Str
  conversationId : Str
  messageId : Str
  isUserAssertion : Bool
  claimText : Str
  model : Option Str
  provenance : Value
  speaker : Speaker
  sourceId : Value
  contentType : Option Str

section
variable [UnicodeData] [TextData]

def SearchRequest.terms (request : SearchRequest) : List SearchTerm := queryTerms request.query

def latestTimestamp : Str := str "9999-12-31T23:59:59Z"

/-- `_timestamp_value`. -/
def timestampValue (createdAt : Option Str) : Str :=
  match normalizeText (createdAt.getD []) with
  | [] => latestTimestamp
  | text => text

/-- The filters of `SearchRequest.matches`. -/
def SearchRequest.admits (request : SearchRequest) (claim : ClaimDict) (sourceProvider : Str) :
    Bool :=
  request.provider.all (· == sourceProvider)
    && request.conversationIds.all (·.contains claim.conversationId)
    && request.claimTypes.all (·.contains claim.claimType)
    && request.temporalStates.all (·.contains claim.temporalState)
    && request.speakers.all (·.contains claim.claimSpeaker)
    && request.models.all (·.contains (claim.model.getD []))
    && request.contentTypes.all
      (·.contains ((textOrNone (claim.provenance.get? (str "content_type"))).getD []))
    && request.minTimestamp.all (fun bound => !decide (timestampValue claim.createdAt < bound))
    && request.maxTimestamp.all (fun bound => !decide (bound < timestampValue claim.createdAt))

/-- The score of a claim. -/
def SearchRequest.score (request : SearchRequest) (claimText : Str) : Nat :=
  let text := normalizeText claimText
  termScore text (tokenizeText text) request.terms

/-- The dictionary `matches` returns. -/
def ClaimDict.result (claim : ClaimDict) (score : Nat) : ProjectionMatch where
  claimId := claim.claimId
  score := score
  claimType := claim.claimType
  createdAt := claim.createdAt
  temporalState := claim.temporalState
  conversationId := claim.conversationId
  messageId := claim.messageId
  isUserAssertion := claim.isUserAssertion
  claimText := claim.claimText
  model := claim.model
  provenance := claim.provenance
  speaker := claim.claimSpeaker
  sourceId := claim.sourceId
  contentType := claim.coerceContentType

/-- `SearchRequest.matches`. -/
def SearchRequest.matches (request : SearchRequest) (sourceProvider : Str) (claim : ClaimDict) :
    Option ProjectionMatch :=
  let score := request.score claim.claimText
  if request.admits claim sourceProvider = false then none
  else if request.terms ≠ [] ∧ score = 0 then none
  else some (claim.result score)

/-- `_invert_iso_timestamp`; none where `chr` refuses. -/
def invertIsoTimestamp (createdAt : Option Str) : Option Str :=
  (timestampValue createdAt).mapM fun c =>
    if h : c.val ≤ 255 then some ⟨255 - c.val, by omega⟩ else none

/-- The key of `matches.sort`. -/
def ProjectionMatch.sortKey (result : ProjectionMatch) : Int ×ₗ Str ×ₗ Str :=
  toLex (-(result.score : Int),
    toLex ((invertIsoTimestamp result.createdAt).getD [], result.claimId))

def chrRefused : Exc := .valueError (str "chr() arg not in range(0x110000)")

/-- From the matches to the results. -/
def SearchRequest.results (request : SearchRequest) (found : List ProjectionMatch) :
    Except Exc (List ProjectionMatch) := do
  ensure (found.all fun result => (invertIsoTimestamp result.createdAt).isSome) chrRefused
  let sorted := ranked ProjectionMatch.sortKey found
  match request.maxResults with
  | none => .ok sorted
  | some maxResults => .ok (sorted.take maxResults)

/-- A row of `claim_records`. -/
structure ClaimRecord where
  claimId : Str
  claimType : Str
  temporalState : Str
  speaker : Speaker
  model : Str
  contentType : Str
  conversationId : Str
  createdAt : Str
  claimText : Str
  claimTextNorm : Str
  messageId : Str
  provenanceJson : Str
  isUserAssertion : Bool

/-- An index file that can be read. -/
structure Index where
  sourceId : Str
  provider : Str
  projectionSignature : Str
  claimCount : Nat
  records : List ClaimRecord
  distinct : (records.map ClaimRecord.claimId).Nodup

/-- A `SearchIndexError`, or an error that `search_projection` lets through. -/
inductive IndexFailure where
  | searchIndexError
  | raised (error : Exc)

/-- `content_type or ""` of `_coerce_content_type`. -/
def Claim.storedContentType (claim : Claim) : Str := claim.dict.coerceContentType.getD []

/-- `created_at or "9999-12-31T23:59:59Z"`. -/
def Claim.storedCreatedAt (claim : Claim) : Str :=
  match claim.createdAt with
  | none | some [] => latestTimestamp
  | some createdAt => createdAt

/-- The columns of a claim with this model. -/
def Claim.record (claim : Claim) (model : Str) : ClaimRecord where
  claimId := claim.claimId
  claimType := claim.claimType
  temporalState := claim.temporalState
  speaker := speakerOf claim.isUserAssertion claim.speaker
  model := model
  contentType := claim.storedContentType
  conversationId := claim.conversationId
  createdAt := claim.storedCreatedAt
  claimText := claim.claimText
  claimTextNorm := normalizeText claim.claimText
  messageId := claim.messageId
  provenanceJson := Value.encode (str ", ") (str ": ") claim.provenance.sortKeys
  isUserAssertion := claim.isUserAssertion

/-- The texts that are bound. -/
def ClaimRecord.texts (record : ClaimRecord) : List Str :=
  [record.claimId, record.claimType, record.temporalState, record.model, record.contentType,
    record.conversationId, record.createdAt, record.claimText, record.claimTextNorm,
    record.messageId, record.provenanceJson]

/-- The `INSERT` of a claim: a `null` model violates a constraint of the table. -/
def Claim.insert (claim : Claim) : Except IndexFailure ClaimRecord := do
  let record := claim.record (claim.model.join.getD [])
  ensure (record.texts.all fun text => (encodeUtf8 text).isSome) (.raised .unicodeEncodeError)
  ensure (claim.model ≠ some none) .searchIndexError
  .ok record

theorem insert_eq_ok {claim : Claim} {record : ClaimRecord} :
    claim.insert = .ok record
      ↔ ((claim.record (claim.model.join.getD [])).texts.all fun text =>
          (encodeUtf8 text).isSome) = true
        ∧ claim.model ≠ some none ∧ record = claim.record (claim.model.join.getD []) := by
  unfold Claim.insert
  rw [ensure_bind_eq_ok, ensure_bind_eq_ok, Except.ok.injEq, eq_comm (a := record)]

/-- What SQLite promises: `MATCH` on the normalised text, none where the expression is malformed,
and the number of variables a statement can have. -/
class FtsData where
  matchText : Str → Option (Str → Bool)
  variableLimit : Nat

variable [FtsData]

/-- The `SELECT` of the records. -/
def Index.select (index : Index) (candidateIds : List Str) :
    Except IndexFailure (List ClaimRecord) := do
  if candidateIds = [] then .ok index.records
  else do
    ensure (candidateIds.length + 2 ≤ FtsData.variableLimit) .searchIndexError
    .ok (index.records.filter fun record => candidateIds.contains record.claimId)

/-- The provenance of a record; a text that is no JSON counts as empty, a duplicate key is not
caught. -/
def ClaimRecord.provenance (record : ClaimRecord) : Except IndexFailure Value :=
  match Value.loadsJsonStrict record.provenanceJson with
  | .ok (.obj members) => .ok (Value.obj members).sortKeys
  | .ok _ => .ok (.obj [])
  | .error error => if error = Value.invalid then .ok (.obj []) else .error (.raised error)

/-- The dictionary that is made of a record. -/
def ClaimRecord.dict (record : ClaimRecord) : ClaimDict where
  claimId := record.claimId
  claimType := record.claimType
  claimText := record.claimText
  temporalState := record.temporalState
  conversationId := record.conversationId
  messageId := record.messageId
  isUserAssertion := record.isUserAssertion
  provenance :=
    match record.provenance with
    | .ok provenance => provenance
    | .error _ => .obj []
  model := some record.model
  createdAt := some record.createdAt
  speaker := some record.speaker
  contentType := some record.contentType
  sourceId := .null

end

end

end IntegrityGuardian.Chronicle
