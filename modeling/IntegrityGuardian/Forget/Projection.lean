import IntegrityGuardian.Library.Transaction
import IntegrityGuardian.Python.Value

/-!
# Forgetting

`forget.py` and `canonical_projection_sha256` of `projection_integrity.py`: claims and
conversations are removed from a projection, and what refers to them is rebuilt from the
claims that survive.
-/

namespace IntegrityGuardian.Forget

open Python Library

inductive ForgetError where
  | typeError (message : Str)
  | valueError (message : Str)
  /-- `ValueError(f"projection is not stable JSON: {err}")`. -/
  | notStable (cause : Exc)
  /-- What the encoder raises where it is not caught. -/
  | encoding (cause : Exc)
  deriving DecidableEq

/-- A set of texts as a list of JSON. -/
def textList [FloatData] (xs : List Str) : Value := .arr (xs.map .str)

def isText [FloatData] : Value → Bool
  | .str _ => true
  | _ => false

def text? [FloatData] : Value → Option Str
  | .str s => some s
  | _ => none

section
variable [FloatData]

/-! ## Objects -/

/-- A `dict` with texts as keys.  The encoder sorts it and nothing else lists it. -/
abbrev Object := Dict Str Value

def objectOf (members : List (Str × Value)) : Object := Std.ExtTreeMap.ofList members orderCmp

def valueOf (o : Object) : Value := .obj o.toList

/-- `o[key]` where it is known to be a text. -/
def textAt (o : Object) (key : String) : Str :=
  match o[str key]? with
  | some (.str s) => s
  | _ => []

/-- `o[key]` where it is known to be a list of texts. -/
def linksAt (o : Object) (key : String) : List Str :=
  match o[str key]? with
  | some (.arr items) => items.filterMap text?
  | _ => []

def claimId (claim : Object) : Str := textAt claim "claim_id"

def conversationId (o : Object) : Str := textAt o "conversation_id"

def createdAt (claim : Object) : Option Str := claim[str "created_at"]?.bind text?

/-! ## Digests -/

/-- The digest that `canonical_projection_sha256` computes. -/
def stableDigest (unsigned : Object) : Except ForgetError Str :=
  match (valueOf unsigned).dumps with
  | .error cause => .error (.notStable cause)
  | .ok text =>
    match encodeUtf8 text with
    | none => .error (.valueError (str "projection contains text that is not valid UTF-8"))
    | some bytes => .ok (hex (sha256 bytes))

/-- `canonical_projection_sha256`. -/
def canonicalProjectionSha256 (projection : Object) : Except ForgetError Str := do
  let computed ← stableDigest (projection.erase (str "projection_sha256"))
  match projection[str "projection_sha256"]? with
  | none | some .null => .ok computed
  | some (.str explicit) => do
    ensure (explicit ≠ []) (.valueError (str "projection_sha256 must be a non-empty string"))
    ensure (explicit = computed)
      (.valueError (str "projection_sha256 does not match canonical projection"))
    .ok computed
  | some _ => .error (.valueError (str "projection_sha256 must be a non-empty string"))

/-- `_projection_digest`.  It would let pass a float that is not finite; the digest of the
projection it was rebuilt from has refused one. -/
def projectionDigest (payload : Object) : Except ForgetError Str :=
  match (valueOf (payload.erase (str "projection_sha256"))).dumpsBytes with
  | .error cause => .error (.encoding cause)
  | .ok bytes => .ok (hex (sha256 bytes))

/-! ## Validation -/

/-- `_coerce_projection_id`. -/
def coerceProjectionId (projection : Object) : Except ForgetError Str :=
  match projection[str "source_id"]? with
  | some (.str sourceId) => do
    ensure (sourceId ≠ []) (.valueError (str "projection missing source_id"))
    .ok sourceId
  | _ => .error (.valueError (str "projection missing source_id"))

/-- `_coerce_ids`; selectors of another type are not modelled. -/
def coerceIds : Option (Finset Str) → Except ForgetError (Finset Str)
  | none => .ok ∅
  | some values => do
    ensure ([] ∉ values.image Str.strip)
      (.valueError (str "forget selector values must be non-empty strings"))
    .ok (values.image Str.strip)

def claimAt (index : Nat) (problem : Str) : Str :=
  str "projection claim at index " ++ Json.decimal index ++ problem

/-- `_FORGET_REQUIRED_STRING_FIELDS`. -/
def requiredStringFields : List String :=
  ["claim_id", "claim_type", "claim_text", "temporal_state", "conversation_id"]

/-- `_FORGET_REQUIRED_LIST_FIELDS`. -/
def requiredListFields : List String := ["supersedes", "superseded_by", "contradicts"]

/-- `_FORGET_ALLOWED_CLAIM_TYPES`. -/
def allowedClaimTypes : List Str :=
  [str "user_assertion", str "assistant_inference", str "other_statement"]

/-- `_FORGET_ALLOWED_TEMPORAL_STATES`. -/
def allowedTemporalStates : List Str := [str "active", str "contradicted", str "superseded"]

def checkStringField (index : Nat) (claim : Object) (key : String) : Except ForgetError Unit :=
  match claim[str key]? with
  | some (.str value) =>
    ensure (key = "claim_id" → value ≠ [])
      (.valueError (claimAt index (str (" has empty required string field: " ++ key))))
  | _ => .error (.typeError (claimAt index (str (" missing required string field: " ++ key))))

/-- `value is None or isinstance(value, str)` of `claim.get(key)`. -/
def isOptionalText : Option Value → Bool
  | none | some .null | some (.str _) => true
  | _ => false

/-- `isinstance(value, bool)` of `claim.get(key)`. -/
def isBool : Option Value → Bool
  | some (.bool _) => true
  | _ => false

/-- `isinstance(value, dict)` of `claim.get(key)`. -/
def isDict : Option Value → Bool
  | some (.obj _) => true
  | some (.foreign isDict _) => isDict
  | _ => false

def checkLinks (index : Nat) (claim : Object) (key : String) : Except ForgetError Unit :=
  match claim[str key]? with
  | some (.arr links) =>
    ensure (links.all isText = true)
      (.valueError (claimAt index (str (" has non-string " ++ key ++ " item"))))
  | _ => .error (.valueError (claimAt index (str (" missing required list field: " ++ key))))

/-- `_coerce_label_list`. -/
def checkLabels (index : Nat) (claim : Object) (key : String) : Except ForgetError Unit :=
  match claim[str key]? with
  | none | some .null => .ok ()
  | some (.arr items) => items.forM fun item =>
    match item with
    | .str label =>
      ensure (label.strip ≠ [])
        (.valueError (claimAt index (str (" has invalid " ++ key ++ " value"))))
    | _ => .error (.typeError (claimAt index (str (" has invalid " ++ key ++ " value"))))
  | some _ =>
    .error (.typeError (claimAt index (str (" has invalid " ++ key ++ "; expected a list"))))

/-- One pass of the loop of `_coerce_claims_for_forget`. -/
def checkClaim (index : Nat) (seen : List Str) (claim : Object) : Except ForgetError Unit := do
  requiredStringFields.forM (checkStringField index claim)
  ensure (claimId claim ∉ seen) (.valueError
    (str "duplicate claim_id in projection at index " ++ Json.decimal index ++ str ": "
      ++ claimId claim))
  ensure (textAt claim "claim_type" ∈ allowedClaimTypes)
    (.valueError (claimAt index (str " has invalid claim_type: ") ++ textAt claim "claim_type"))
  ensure (textAt claim "temporal_state" ∈ allowedTemporalStates)
    (.valueError
      (claimAt index (str " has invalid temporal_state: ") ++ textAt claim "temporal_state"))
  ensure (isBool claim[str "is_user_assertion"]? = true)
    (.valueError (claimAt index (str " missing required bool field: is_user_assertion")))
  ensure (isDict claim[str "provenance"]? = true)
    (.valueError (claimAt index (str " missing required dict field: provenance")))
  ensure (claim[str "created_at"]?.isSome = true)
    (.valueError (claimAt index (str " missing required string field: created_at")))
  ensure (isOptionalText claim[str "created_at"]? = true)
    (.valueError (claimAt index (str " has invalid created_at")))
  ensure (isOptionalText claim[str "model"]? = true)
    (.valueError (claimAt index (str " has invalid model")))
  ensure (isOptionalText claim[str "content_type"]? = true)
    (.valueError (claimAt index (str " has invalid content_type")))
  requiredListFields.forM (checkLinks index claim)
  checkLabels index claim "sensitivity_labels"
  checkLabels index claim "scope_labels"

/-- The loop of `_coerce_claims_for_forget`, from an index on. -/
def coerceClaims (index : Nat) (seen : List Str) : List Value → Except ForgetError (List Object)
  | [] => .ok []
  | .obj members :: rest => do
    let claim := objectOf members
    checkClaim index seen claim
    let claims ← coerceClaims (index + 1) (seen ++ [claimId claim]) rest
    .ok (claim :: claims)
  | .foreign true _ :: _ =>
    .error (.typeError (claimAt index (str " missing required string field: claim_id")))
  | _ :: _ => .error (.typeError (claimAt index (str " must be an object")))

/-- `_coerce_claims_for_forget`. -/
def coerceClaimsForForget (payload : Object) : Except ForgetError (List Object) :=
  match payload[str "claims"]? with
  | some (.arr rawClaims) => coerceClaims 0 [] rawClaims
  | _ => .error (.typeError (str "projection claims must be a list"))

/-! ## Claims -/

/-- The claims after the first loop of `apply_forget`, and what it removed. -/
structure Separated where
  survivors : List Object
  removedClaimIds : List Str
  removedByClaim : List Str
  removedByConversation : List Str

/-- The first loop of `apply_forget`. -/
def separate (claimFilters conversationFilters : Finset Str) : List Object → Separated
  | [] => ⟨[], [], [], []⟩
  | claim :: claims =>
    let rest := separate claimFilters conversationFilters claims
    if claimId claim ∈ claimFilters then
      { rest with
        removedClaimIds := claimId claim :: rest.removedClaimIds
        removedByClaim := claimId claim :: rest.removedByClaim }
    else if conversationId claim ∈ conversationFilters then
      { rest with
        removedClaimIds := claimId claim :: rest.removedClaimIds
        removedByConversation := conversationId claim :: rest.removedByConversation }
    else { rest with survivors := claim :: rest.survivors }

/-- `sorted(set(links))`. -/
def sortedLinks (links : List Str) : List Str := ascending links.toFinset

/-- The links of one field to claims that survive. -/
def pruneField (survivorIds : List Str) (claim : Object) (field : String) : Object :=
  claim.insert (str field)
    (textList (sortedLinks ((linksAt claim field).filter (· ∈ survivorIds))))

/-- One pass of the loop that normalises the links. -/
def pruneLinks (survivorIds : List Str) (claim : Object) : Object :=
  requiredListFields.foldl (pruneField survivorIds) claim

/-- `id_to_timestamp`. -/
def idToTimestamp (survivors : List Object) : List (Str × Str) :=
  survivors.filterMap fun claim => (createdAt claim).map (claimId claim, ·)

/-- The state that the links of a claim give it. -/
def temporalState (supersededBy contradicts : List Str) : Str :=
  if supersededBy ≠ [] then str "superseded"
  else if contradicts ≠ [] then str "contradicted"
  else str "active"

/-- `min(candidate_timestamps) if candidate_timestamps else None`. -/
def earliest (timestamps : List (Str × Str)) (supersededBy : List Str) : Value :=
  match (supersededBy.filterMap fun link => timestamps.lookup link).min? with
  | none => .null
  | some timestamp => .str timestamp

/-- One pass of the loop that rebuilds the temporal state. -/
def rebuildTemporal (survivorIds : List Str) (timestamps : List (Str × Str)) (claim : Object) :
    Object :=
  let supersededBy := linksAt claim "superseded_by"
  let contradicts := linksAt claim "contradicts"
  let claim := claim.insert (str "valid_to") (earliest timestamps supersededBy)
  let claim := claim.insert (str "superseded_by") (textList supersededBy)
  let claim := if supersededBy = [] ∧ contradicts ≠ [] then
      pruneField survivorIds claim "contradicts" else claim
  claim.insert (str "temporal_state") (.str (temporalState supersededBy contradicts))

/-- The survivors with their links and states. -/
def relink (survivors : List Object) : List Object :=
  let survivorIds := survivors.map claimId
  survivors.map fun claim =>
    rebuildTemporal survivorIds (idToTimestamp survivors) (pruneLinks survivorIds claim)

/-! ## Conversations -/

structure SeparatedConversations where
  surviving : List Object
  removedIds : List Str
  removedMessageCount : Nat

/-- `len(conversation.get("messages", []))`. -/
def messageCount (conversation : Object) : Nat :=
  match conversation[str "messages"]? with
  | some (.arr messages) => messages.length
  | _ => 0

def conversationAt (index : Nat) (problem : Str) : Str :=
  str "projection conversation at index " ++ Json.decimal index ++ problem

/-- What one pass of the loop over the conversations checks. -/
def checkConversation (index : Nat) (seen : List Str) (conversation : Object) :
    Except ForgetError Unit := do
  ensure (conversationId conversation ≠ [])
    (.valueError (conversationAt index (str " has invalid conversation_id")))
  ensure (conversationId conversation ∉ seen) (.valueError
    (str "duplicate conversation_id in projection at index " ++ Json.decimal index ++ str ": "
      ++ conversationId conversation))
  match conversation[str "messages"]? with
  | none | some (.arr _) => .ok ()
  | some _ => .error (.typeError (conversationAt index (str " messages must be a list")))

/-- The loop over the conversations, from an index on. -/
def separateConversations (conversationFilters : Finset Str) (index : Nat) (seen : List Str) :
    List Value → Except ForgetError SeparatedConversations
  | [] => .ok ⟨[], [], 0⟩
  | .obj members :: rest => do
    let conversation := objectOf members
    checkConversation index seen conversation
    let rest ← separateConversations conversationFilters (index + 1)
      (seen ++ [conversationId conversation]) rest
    if conversationId conversation ∈ conversationFilters then
      .ok ⟨rest.surviving, conversationId conversation :: rest.removedIds,
        messageCount conversation + rest.removedMessageCount⟩
    else .ok { rest with surviving := conversation :: rest.surviving }
  | .foreign true _ :: _ =>
    .error (.valueError (conversationAt index (str " has invalid conversation_id")))
  | _ :: _ => .error (.typeError (conversationAt index (str " must be an object")))

/-- The part of `apply_forget` about conversations; a projection may have none. -/
def forgetConversations (conversationFilters : Finset Str) (projection : Object) :
    Except ForgetError (Option SeparatedConversations) :=
  match projection[str "conversations"]? with
  | none => .ok none
  | some (.arr rawConversations) => do
    let separated ← separateConversations conversationFilters 0 [] rawConversations
    .ok (some separated)
  | some _ => .error (.typeError (str "projection conversations must be a list"))

/-! ## The rebuilt projection -/

/-- The projection with what survives and its counts. -/
def rebuild (projection : Object) (survivors : List Object)
    (conversations : Option (List Object)) : Object :=
  let rebuilt := projection.insert (str "claims") (.arr (survivors.map valueOf))
  let rebuilt := rebuilt.insert (str "claim_count") (.int survivors.length)
  match conversations with
  | none => rebuilt
  | some surviving =>
    let rebuilt := rebuilt.insert (str "conversations") (.arr (surviving.map valueOf))
    let rebuilt := rebuilt.insert (str "conversation_count") (.int surviving.length)
    rebuilt.insert (str "message_count") (.int (surviving.map messageCount).sum)

/-- `rebuilt.get("revoked_conversation_ids", [])`. -/
def previousRevocations (rebuilt : Object) : Except ForgetError (List Str) :=
  match rebuilt[str "revoked_conversation_ids"]? with
  | none => .ok []
  | some (.arr items) => do
    ensure (items.all isText = true)
      (.typeError (str "revoked_conversation_ids must be a list of strings"))
    .ok (items.filterMap text?)
  | some _ => .error (.typeError (str "revoked_conversation_ids must be a list of strings"))

/-- The coverage after conversations were revoked.  A `dict` with other keys than texts has
no canonical form once texts are among them. -/
def revokeCoverage (conversationFilters : Finset Str) (rebuilt : Object) :
    Except ForgetError Object :=
  match rebuilt[str "adapter_coverage"]? with
  | some (.obj members) =>
    let coverage := objectOf members
    let coverage := coverage.insert (str "status") (.str (str "post_forget_rebuild_required"))
    let coverage := coverage.insert (str "revoked_conversation_ids")
      (textList (ascending conversationFilters))
    .ok (rebuilt.insert (str "adapter_coverage") (valueOf coverage))
  | some (.foreign true _) => .error (.encoding .typeError)
  | _ => .ok rebuilt

/-- The block `if conversation_filters:`. -/
def revoke (conversationFilters : Finset Str) (rebuilt : Object) : Except ForgetError Object :=
  if conversationFilters = ∅ then .ok rebuilt
  else do
    let rebuilt := if rebuilt[str "message_duplicate_candidates"]?.isSome then
        rebuilt.insert (str "message_duplicate_candidates") (.arr []) else rebuilt
    let previous ← previousRevocations rebuilt
    let rebuilt := rebuilt.insert (str "revoked_conversation_ids")
      (textList (ascending (previous.toFinset ∪ conversationFilters)))
    let rebuilt := rebuilt.insert (str "corpus_rebuild_required") (.bool true)
    revokeCoverage conversationFilters rebuilt

/-! ## The receipt -/

def forgetActionSchemaVersion : Str := str "integrity-home-forget-action/2"
def forgetReceiptSchemaVersion : Str := str "integrity-home-forget-receipt/2"

/-- `operation_id`. -/
def operationIdOf (sourceId before after : Str) (claimFilters conversationFilters : Finset Str) :
    Except ForgetError Str :=
  let operationMaterial : Value := .obj [
    (str "source_id", .str sourceId),
    (str "source_projection_sha256_before", .str before),
    (str "source_projection_sha256_after", .str after),
    (str "forget_claim_ids", textList (ascending claimFilters)),
    (str "forget_conversation_ids", textList (ascending conversationFilters))]
  match operationMaterial.dumpsBytes with
  | .error cause => .error (.encoding cause)
  | .ok bytes => .ok (str "integrity-home-forget-" ++ (hex (sha256 bytes)).take 24)

/-- The receipt; its `receipt_id` is its `operation_id`. -/
structure Receipt where
  schemaVersion : Str := forgetReceiptSchemaVersion
  operationId : Str
  operationState : Str := str "prepared"
  issuedAtUtc : Str
  sourceId : Str
  sourceProjectionSha256Before : Str
  sourceProjectionSha256After : Str
  actionSchemaVersion : Str := forgetActionSchemaVersion
  reason : Option Str
  removedClaimIds : List Str
  removedCount : Nat
  removedConversationIds : List Str
  revokedConversationIds : List Str
  removedMessageCount : Nat
  corpusRebuildRequired : Bool
  removedClaimIdCountFromSelector : Nat

/-! ## `apply_forget` -/

/-- `apply_forget`, at a reading of the clock. -/
def applyForget (projection : Object) (forgetClaimIds forgetConversationIds : Option (Finset Str))
    (reason : Str) (issuedAt : Option Str) (now : Str) : Except ForgetError (Object × Receipt) := do
  let sourceId ← coerceProjectionId projection
  let before ← canonicalProjectionSha256 projection
  let claimFilters ← coerceIds forgetClaimIds
  let conversationFilters ← coerceIds forgetConversationIds
  ensure (claimFilters ≠ ∅ ∨ conversationFilters ≠ ∅)
    (.valueError (str "must provide at least one forget selector"))
  let claims ← coerceClaimsForForget projection
  let separated := separate claimFilters conversationFilters claims
  let survivors := relink separated.survivors
  let conversations ← forgetConversations conversationFilters projection
  let rebuilt ← revoke conversationFilters
    (rebuild projection survivors (conversations.map SeparatedConversations.surviving))
  let after ← projectionDigest rebuilt
  let rebuilt := rebuilt.insert (str "projection_sha256") (.str after)
  let operationId ← operationIdOf sourceId before after claimFilters conversationFilters
  let removedIds := (conversations.map SeparatedConversations.removedIds).getD []
  .ok (rebuilt, {
    operationId := operationId
    issuedAtUtc := if issuedAt.getD [] = [] then now else issuedAt.getD []
    sourceId := sourceId
    sourceProjectionSha256Before := before
    sourceProjectionSha256After := after
    reason := if reason = [] then none else some reason
    removedClaimIds := sortedLinks separated.removedClaimIds
    removedCount := separated.removedClaimIds.length
    removedConversationIds :=
      ascending (separated.removedByConversation.toFinset ∪ removedIds.toFinset)
    revokedConversationIds := ascending conversationFilters
    removedMessageCount :=
      (conversations.map SeparatedConversations.removedMessageCount).getD 0
    corpusRebuildRequired := decide (conversationFilters ≠ ∅)
    removedClaimIdCountFromSelector := separated.removedByClaim.toFinset.card })

end

end IntegrityGuardian.Forget
