import IntegrityGuardian.History.Review

/-!
# Applying a review

`history/decision_apply.py`: a reviewed result replaces decisions of a sidecar, and the sidecar
is built again from the corpus.
-/

namespace IntegrityGuardian.History

open Python Library

section
variable [CatalogData]

/-! ## The application -/

/-- `_scope_values`. -/
def scopeValues (reader : Reader) (o : Observed) : Except Error (List LogicalScope) := do
  let s ← reader.operate o .scopes
  ensure (1 ≤ s.scopes.length ∧ s.scopes.length ≤ maxLogicalScopes)
    (malformed "sidecar scope inventory is invalid")
  .ok s.scopes

/-- The reviewed decision of a choice. -/
def ReviewResult.decisionOf (result : ReviewResult) (choice : ReviewChoice) : ScopeDecision where
  recordId := choice.recordId
  scopeId := choice.scopeId
  membership := choice.membership
  reviewState := .reviewed
  artifactSha256 := result.artifactSha256
  valid := by rw [choice.valid, result.sealed]; rfl

/-- `_reviewed_decisions`. -/
def ReviewResult.reviewedDecisions (result : ReviewResult) : List ScopeDecision :=
  result.decisions.map result.decisionOf

/-- `_merged_decisions`. -/
def mergedDecisions (reader : Reader) (o : Observed) (replacements : List ScopeDecision) :
    Except Error (List ScopeDecision) := do
  let current ← reader.iterScopeDecisions o (reader.summary.decisionCount + 1) 0 none
  .ok ((current.filter fun decision =>
    decision.key ∉ replacements.map ScopeDecision.key) ++ replacements)

/-- `_read_bounded_artifact`. -/
def readArtifact (files : Files) (path : Path) (label : String) :
    Except Error (FileIdentity × Bytes) :=
  match files path with
  | some ⟨identity, .artifact data⟩ => do
    ensure (0 < data.length ∧ data.length ≤ maxArtifactBytes)
      (malformed (label ++ " exceeds its byte budget"))
    .ok (identity, data)
  | _ => .error (malformed (label ++ " does not exist"))

/-- The arguments of `apply_history_review_result`. -/
structure ApplyCall where
  corpusPath : Path
  sidecarPath : Path
  requestPath : Path
  resultPath : Path
  outputSidecarPath : Option Path

/-- `output_sidecar_path or sidecar_path`. -/
def ApplyCall.output (call : ApplyCall) : Path :=
  match call.outputSidecarPath with
  | none | some [] => call.sidecarPath
  | some path => path

/-- The artifacts with what was read of them, and the identity of the baseline. -/
structure Reviewed where
  baselineIdentity : FileIdentity
  requestFile : FileIdentity × Bytes
  resultFile : FileIdentity × Bytes
  reader : Reader
  request : Request
  result : ReviewResult

/-- `apply_history_review_result` up to the scopes. -/
def validateArtifacts (o : Observed) (call : ApplyCall) : Except Error Reviewed := do
  let files ← o.look .start
  let (_, corpus) ← inspectCorpus files call.corpusPath
  ensure ((files corpus.ledgerPath).isSome ∧ (files call.sidecarPath).isSome)
    (malformed "History sidecar does not exist")
  let inputs := [call.corpusPath, corpus.ledgerPath, call.requestPath, call.resultPath]
  ensure inputs.Nodup (malformed "History review apply input paths must differ")
  ensure (call.sidecarPath ∉ inputs ∧ call.output ∉ inputs)
    (malformed "History sidecar paths must differ from corpus and review artifacts")
  let baselineIdentity ← ((files call.sidecarPath).map File.identity).elim
    (.error (outdated "cannot stat History sidecar")) .ok
  let requestFile ← readArtifact files call.requestPath "History review request"
  let resultFile ← readArtifact files call.resultPath "History review result"
  let reader ← openReader o .opening call.corpusPath call.sidecarPath
  let requestPayload ← parsePayload requestFile.2 "History review request"
  let request ← readRequest requestPayload
  request.against reader o (.check 0)
  request.against reader o (.check 1)
  let requestBytes ← artifactBytes request.document "History review request"
  ensure (requestBytes = requestFile.2)
    (malformed "History review request bytes are not canonical")
  request.against reader o (.check 2)
  let resultPayload ← parsePayload resultFile.2 "History review result"
  let result ← readResult resultPayload request
  request.against reader o (.check 3)
  let resultBytes ← artifactBytes result.document "History review result"
  ensure (resultBytes = resultFile.2)
    (malformed "History review result bytes are not canonical")
  .ok ⟨baselineIdentity, requestFile, resultFile, reader, request, result⟩

/-- `prepublish_check`. -/
def prepublishCheck (o : Observed) (call : ApplyCall) (reviewed : Reviewed) :
    Except Error Unit := do
  let files ← o.look (.recheck 0 0)
  ensure ((files call.sidecarPath).map File.identity = some reviewed.baselineIdentity)
    (outdated "History sidecar changed during reviewed apply")
  let requestFile ← readArtifact files call.requestPath "History review request"
  let resultFile ← readArtifact files call.resultPath "History review result"
  ensure (requestFile = reviewed.requestFile ∧ resultFile = reviewed.resultFile)
    (outdated "History review artifacts changed during apply")
  reviewed.request.against reviewed.reader o (.recheck 1)
  reviewed.request.against reviewed.reader o (.recheck 2)

/-- What `apply_history_review_result` returns. -/
structure Receipt where
  summary : Summary
  reviewRequestSha256 : Str
  reviewResultSha256 : Str
  appliedDecisionCount : Nat

/-- `apply_history_review_result` up to `os.replace`. -/
def stageReview (o : Observed) (call : ApplyCall) : Except Error (Sidecar × Receipt) := do
  let reviewed ← validateArtifacts o call
  let scopes ← scopeValues reviewed.reader o
  let replacements := reviewed.result.reviewedDecisions
  let sidecar ← stageSidecar o
    ⟨call.corpusPath, call.output, scopes, true, some reviewed.request.binding.corpus⟩
    (mergedDecisions reviewed.reader o replacements) (prepublishCheck o call reviewed)
  .ok (sidecar, ⟨sidecar.summary, reviewed.request.artifactSha256, reviewed.result.artifactSha256,
    replacements.length⟩)

/-- `apply_history_review_result`. -/
def applyHistoryReviewResult (o : Observed) (call : ApplyCall) : Outcome Receipt :=
  publish o (stageReview o call)

end

end IntegrityGuardian.History
