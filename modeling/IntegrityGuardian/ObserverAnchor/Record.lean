import IntegrityGuardian.Schemas.ObserverAnchor

/-!
# Observer-anchor records

`observer_anchor.py` up to `_new_record`: cursors, the subjects an anchor can have,
and the building and verification of one record.
-/

namespace IntegrityGuardian.ObserverAnchor

open Python Library

/-! ## Errors -/

inductive Error where
  /-- `ObserverAnchorError`. -/
  | observerAnchor (message : Str)
  /-- `ToolzRouteStoreError`. -/
  | toolzRouteStore (message : Str)
  /-- `LocalLockError`. -/
  | localLock
  /-- `CanonicalizationError` of the reader, a `ValueError`. -/
  | canonicalization (e : Json.DecodeError)
  | exc (e : Exc)

def raising {α : Type} (x : Except Exc α) : Except Error α := x.mapError .exc

/-- An `ObserverAnchorError` with the message `observer anchor … rejected`. -/
def rejected (field : String) : Error :=
  .observerAnchor (str "observer anchor " ++ str field ++ str " rejected")

/-- `except` of `verify_observer_anchor_record`, around the schema. -/
def Error.ofSchema : Error → Error
  | .exc (.keyError _) | .exc .validationError | .exc .typeError | .exc (.valueError _)
  | .exc .unicodeEncodeError | .canonicalization _ => rejected "record schema"
  | e => e

/-- `except` of `_subject_document`. -/
def Error.ofSubject : Error → Error
  | .exc (.keyError _) | .exc .validationError | .exc (.valueError _) | .exc .unicodeEncodeError
  | .canonicalization _ | .toolzRouteStore _ => rejected "subject"
  | e => e

/-! ## Checks of single values -/

def maxObserverAnchorBytes : Nat := 4 * 1024 * 1024

def maxObserverAnchorSequence : Nat := 1000000

/-- `"synthetic" in value`. -/
def mentionsSynthetic (value : Str) : Bool :=
  value.tails.any fun tail => (str "synthetic").isPrefixOf tail

/-- `_require_id` with `synthetic=True`. -/
def requireSyntheticId (value : Str) (field : String) : Except Error Unit :=
  ensure (Schemas.idBody value = true ∧ mentionsSynthetic value = true) (rejected field)

/-- `_require_digest` of a value that is not `None`. -/
def requireDigest (value : Option Str) (field : String) : Except Error Unit :=
  ensure (∀ digest ∈ value, Schemas.digestBody digest = true) (rejected field)

/-- `_parse_time`, as the instant that is compared. -/
def parseTime (value : Str) (field : String) : Except Error Int :=
  match Datetime.fromisoformat value with
  | some ⟨reading, some offset⟩ => .ok (Datetime.moment ⟨reading, some offset⟩ offset)
  | _ => .error (rejected field)

/-- `_freeze_mapping`. -/
def freezeMapping (value : Json) (field : String) : Except Error Json :=
  match canonicalBytes value with
  | .error _ => .error (rejected field)
  | .ok payload =>
    match parseJsonStrict payload with
    | .ok (.obj members) => .ok (.obj members)
    | _ => .error (rejected field)

/-- `set(document) == fields` for a `dict`. -/
def hasFields (document : Json) (fields : List String) : Bool :=
  match document with
  | .obj members =>
    members.all (fun m => (fields.map str).contains m.1)
      && fields.all fun field => (members.map Prod.fst).contains (str field)
  | _ => false

/-! ## Subjects -/

/-- `ObserverAnchorSubjectKind`. -/
inductive SubjectKind where
  | toolzRouteStoreCursor
  | toolzAuthorityCheckpoint
  | toolzActionOutcomeObservation
  deriving DecidableEq

namespace SubjectKind

def all : List SubjectKind :=
  [toolzRouteStoreCursor, toolzAuthorityCheckpoint, toolzActionOutcomeObservation]

def value : SubjectKind → String
  | toolzRouteStoreCursor => "toolz-route-store-cursor"
  | toolzAuthorityCheckpoint => "toolz-authority-checkpoint"
  | toolzActionOutcomeObservation => "toolz-action-outcome-observation"

/-- `ObserverAnchorSubjectKind(subject_kind)`. -/
def ofText (text : Str) : Except Error SubjectKind :=
  match all.find? fun kind => str kind.value = text with
  | some kind => .ok kind
  | none => .error (rejected "subject kind")

end SubjectKind

/-- `toolz-store:`, one of `[A-Za-z0-9]`, then up to 242 characters of an identifier. -/
def toolzStoreIdBody (value : Str) : Bool :=
  (str "toolz-store:").isPrefixOf value
    && match value.drop 12 with
      | [] => false
      | c :: rest => Schemas.isAlphanumeric c && Schemas.between 0 242 Schemas.isIdCharacter rest

structure ToolzStoreCursor where
  storeId : Str
  tenantId : Str
  sequence : Nat
  manifestId : Str
  manifestDigest : Str
  storeId_valid : toolzStoreIdBody storeId = true ∧ mentionsSynthetic storeId = true
  tenantId_valid : tenantId = str "tenant:public-6e3cdbebaafc8efa"
  sequence_valid : sequence ≤ 2 ^ 63 - 1
  manifest_valid : Schemas.hashBody "toolz-route-store-manifest:" manifestId = true ∧
    Schemas.digestBody manifestDigest = true

namespace ToolzStoreCursor

/-- `ToolzStoreCursor.from_document`. -/
def fromDocument (document : Json) : Except Error ToolzStoreCursor :=
  let fail (message : String) : Except Error ToolzStoreCursor :=
    .error (.toolzRouteStore (str message))
  if hasFields document ["store_id", "tenant_id", "sequence", "manifest_id", "manifest_digest"] then
    let value (key : String) := (document.get? (str key)).getD .null
    match value "store_id", value "tenant_id", value "sequence", value "manifest_id",
      value "manifest_digest" with
    | .str storeId, tenant, sequence, manifestId, manifestDigest =>
      if hstore : toolzStoreIdBody storeId = true ∧ mentionsSynthetic storeId = true then
        match tenant with
        | .str tenantId =>
          if htenant : tenantId = str "tenant:public-6e3cdbebaafc8efa" then
            match sequence with
            | .int (.ofNat sequence) =>
              if hsequence : sequence ≤ 2 ^ 63 - 1 then
                match manifestId, manifestDigest with
                | .str manifestId, .str manifestDigest =>
                  if hmanifest : Schemas.hashBody "toolz-route-store-manifest:" manifestId = true ∧
                      Schemas.digestBody manifestDigest = true then
                    .ok ⟨storeId, tenantId, sequence, manifestId, manifestDigest, hstore, htenant,
                      hsequence, hmanifest⟩
                  else fail "Toolz store cursor head rejected"
                | _, _ => fail "Toolz store cursor head rejected"
              else fail "Toolz store cursor sequence rejected"
            | _ => fail "Toolz store cursor sequence rejected"
          else fail "Toolz store tenant rejected"
        | _ => fail "Toolz store tenant rejected"
      else fail "Toolz store identity rejected"
    | _, _, _, _, _ => fail "Toolz store identity rejected"
  else fail "Toolz store cursor document rejected"

/-- `to_document`. -/
def toDocument (cursor : ToolzStoreCursor) : Json :=
  .fields
    [("store_id", .str cursor.storeId),
      ("tenant_id", .str cursor.tenantId),
      ("sequence", .int cursor.sequence),
      ("manifest_id", .str cursor.manifestId),
      ("manifest_digest", .str cursor.manifestDigest)]

end ToolzStoreCursor

section
variable [UnicodeData]

/-- `toolz_action_outcome_identity`. -/
def toolzActionOutcomeIdentity (observation : Json) : Except Exc Str := do
  let digest ← digestObject ((observation.pop (str "observation_id")).pop (str "signature"))
    (str "toolz-action-outcome-observation-identity-v1")
  .ok (str "toolz-action-outcome-observation:" ++ digest.afterColon)

/-- `toolz_action_outcome_digest`. -/
def toolzActionOutcomeDigest (observation : Json) : Except Exc Str :=
  digestObject observation (str "toolz-action-outcome-signed-observation-v1")

/-- `_subject_document`. -/
def subjectDocument (kind : SubjectKind) (subject : Json) : Except Error (Json × Str) := do
  let candidate ← freezeMapping subject "subject"
  let checked : Except Error (Json × Str) :=
    match kind with
    | .toolzRouteStoreCursor => do
      let cursor ← ToolzStoreCursor.fromDocument candidate
      let digest ← raising (digestObject cursor.toDocument
        (str "observer-anchor-toolz-route-store-cursor-v1"))
      .ok (cursor.toDocument, digest)
    | .toolzAuthorityCheckpoint => do
      raising (Schemas.validate Schemas.checkpoint candidate)
      let digest ← raising (digestObject candidate
        (str "observer-anchor-toolz-authority-checkpoint-v1"))
      .ok (candidate, digest)
    | .toolzActionOutcomeObservation => do
      raising (Schemas.validate Schemas.toolzActionOutcomeObservation candidate)
      let observationId ← raising (candidate.textItem (str "observation_id"))
      let identity ← raising (toolzActionOutcomeIdentity candidate)
      ensure (observationId = identity) (rejected "outcome identity")
      let digest ← raising (toolzActionOutcomeDigest candidate)
      .ok (candidate, digest)
  checked.mapError .ofSubject

/-! ## Records -/

/-- `observer_anchor_record_identity`. -/
def observerAnchorRecordIdentity (record : Json) : Except Exc Str := do
  let digest ← digestObject (record.pop (str "anchor_id"))
    (str "observer-anchor-record-identity-v1")
  .ok (str "observer-anchor:" ++ digest.afterColon)

/-- `observer_anchor_record_digest`. -/
def observerAnchorRecordDigest (record : Json) : Except Exc Str :=
  digestObject record (str "observer-anchor-record-v1")

/-- `_STORAGE_BOUNDARY`. -/
def storageBoundary : Json := .fields (Schemas.storageBoundary.map fun f => (f.1, .bool f.2))

/-- `verify_observer_anchor_record`; two `dict`s are equal when they differ in key
order only, and the schema has told flags and integers apart. -/
def verifyObserverAnchorRecord (record : Json) (expectedStoreId : Str)
    (expectedPreviousDigest : Option Str) : Except Error Json := do
  requireSyntheticId expectedStoreId "expected store id"
  let parsed : Except Error (Json × SubjectKind) := do
    let candidate ← freezeMapping record "record"
    raising (Schemas.validate Schemas.observerAnchorRecord candidate)
    let kind ← raising (memberItem SubjectKind.all SubjectKind.value candidate
      (str "subject_kind"))
    .ok (candidate, kind)
  let (candidate, kind) ← parsed.mapError .ofSchema
  let anchorId ← raising (candidate.textItem (str "anchor_id"))
  let identity ← raising (observerAnchorRecordIdentity candidate)
  ensure (anchorId = identity) (.observerAnchor (str "observer anchor record identity mismatch"))
  let storeId ← raising (candidate.textItem (str "store_id"))
  ensure (storeId = expectedStoreId) (.observerAnchor (str "observer anchor store mismatch"))
  let boundary ← raising (candidate.item (str "storage_boundary"))
  ensure (boundary.sortKeys = storageBoundary.sortKeys)
    (.observerAnchor (str "observer anchor storage boundary mismatch"))
  let carried ← raising (candidate.item (str "subject"))
  let (subject, subjectDigest) ← subjectDocument kind carried
  let carriedDigest ← raising (candidate.textItem (str "subject_digest"))
  ensure (carried.sortKeys = subject.sortKeys ∧ carriedDigest = subjectDigest)
    (.observerAnchor (str "observer anchor subject digest mismatch"))
  let sequence ← raising (candidate.intItem (str "sequence"))
  let previous ← raising (candidate.optionalTextItem (str "previous_anchor_digest"))
  if sequence = 0 then
    ensure (previous = none) (rejected "initial chain")
  else
    ensure (expectedPreviousDigest = none ∨ previous = expectedPreviousDigest)
      (.observerAnchor (str "observer anchor previous digest mismatch"))
  let createdAt ← raising (candidate.textItem (str "created_at"))
  let _ ← parseTime createdAt "creation time"
  .ok candidate

/-- `core` of `_new_record`. -/
def recordCore (storeId : Str) (sequence : Int) (previousAnchorDigest : Option Str)
    (subjectKind : SubjectKind) (subjectDigest : Str) (subject : Json) (createdAt : Str) :
    List (String × Json) :=
  [("protocol", .str (str "integrity-guardian/observer-anchor-record/v1")),
    ("store_id", .str storeId),
    ("sequence", .int sequence),
    ("previous_anchor_digest", .ofOptionalText previousAnchorDigest),
    ("subject_kind", .str (str subjectKind.value)),
    ("subject_digest", .str subjectDigest),
    ("subject", subject),
    ("created_at", .str createdAt),
    ("storage_boundary", storageBoundary)]

/-- `_new_record`. -/
def newRecord (storeId : Str) (sequence : Int) (previousAnchorDigest : Option Str)
    (subjectKind : SubjectKind) (subject : Json) (createdAt : Str) : Except Error Json := do
  requireSyntheticId storeId "store id"
  ensure (0 ≤ sequence ∧ sequence ≤ maxObserverAnchorSequence) (rejected "sequence")
  requireDigest previousAnchorDigest "previous digest"
  let _ ← parseTime createdAt "creation time"
  let (subjectDocument, subjectDigest) ← subjectDocument subjectKind subject
  let core := recordCore storeId sequence previousAnchorDigest subjectKind subjectDigest
    subjectDocument createdAt
  let identity ← raising (observerAnchorRecordIdentity (.fields core))
  verifyObserverAnchorRecord (.fields (("anchor_id", .str identity) :: core)) storeId
    previousAnchorDigest

end

/-! ## Cursors -/

/-- `ObserverAnchorCursor`, with the checks of its `__post_init__`. -/
structure Cursor where
  storeId : Str
  sequence : Nat
  anchorId : Str
  anchorDigest : Str
  storeId_valid : Schemas.idBody storeId = true ∧ mentionsSynthetic storeId = true
  sequence_valid : sequence ≤ maxObserverAnchorSequence
  anchorId_valid : Schemas.hashBody "observer-anchor:" anchorId = true
  anchorDigest_valid : Schemas.digestBody anchorDigest = true
  deriving DecidableEq

/-- The constructor. -/
def Cursor.build (storeId : Str) (sequence : Int) (anchorId anchorDigest : Str) :
    Except Error Cursor :=
  if hstore : Schemas.idBody storeId = true ∧ mentionsSynthetic storeId = true then
    match sequence with
    | .ofNat n =>
      if hsequence : n ≤ maxObserverAnchorSequence then
        if hid : Schemas.hashBody "observer-anchor:" anchorId = true then
          if hdigest : Schemas.digestBody anchorDigest = true then
            .ok ⟨storeId, n, anchorId, anchorDigest, hstore, hsequence, hid, hdigest⟩
          else .error (rejected "cursor digest")
        else .error (.observerAnchor (str "observer anchor cursor identity rejected"))
      else .error (.observerAnchor (str "observer anchor cursor sequence rejected"))
    | .negSucc _ => .error (.observerAnchor (str "observer anchor cursor sequence rejected"))
  else .error (rejected "store id")

/-- `_cursor`. -/
def cursorOf [UnicodeData] (record : Json) : Except Error Cursor := do
  let storeId ← raising (record.textItem (str "store_id"))
  let sequence ← raising (record.intItem (str "sequence"))
  let anchorId ← raising (record.textItem (str "anchor_id"))
  let digest ← raising (observerAnchorRecordDigest record)
  Cursor.build storeId sequence anchorId digest

end IntegrityGuardian.ObserverAnchor
