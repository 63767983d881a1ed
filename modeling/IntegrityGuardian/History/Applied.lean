import IntegrityGuardian.History.Exact

/-!
# Applications in runs of the builders

Whatever happens to the files while a review is applied, what is published is the baseline with
the reviewed pairs replaced.  In a run of the builders every catalog comes from the classifier,
so the catalog stays as it was, and a reviewed decision comes from a successor or a review.
-/

namespace IntegrityGuardian.History

open Python Library

/-! ## The digest of the base records -/

theorem texts_of_encoded {texts texts' : List Str} {encoded : Bytes}
    (h : encodeUtf8 (Json.dumps (.arr (texts.map .str))) = some encoded)
    (h' : encodeUtf8 (Json.dumps (.arr (texts'.map .str))) = some encoded) : texts = texts' := by
  have hdumps : Json.dumps (.arr (texts.map .str)) = Json.dumps (.arr (texts'.map .str)) :=
    Option.some.inj ((decodeUtf8_encodeUtf8 h).symm.trans (decodeUtf8_encodeUtf8 h'))
  have hwf (ts : List Str) : (Json.arr (ts.map .str)).wf = true := by
    show Json.wfItems (ts.map .str) = true
    rw [Json.wfItems_iff]
    intro v hv
    obtain ⟨t, -, rfl⟩ := List.mem_map.1 hv
    rfl
  have hsorted (ts : List Str) : (Json.arr (ts.map .str)).sortKeys = .arr (ts.map .str) := by
    show Json.arr (Json.sortItems (ts.map .str)) = _
    rw [Schema.sortItems_eq_map, List.map_map]
    rfl
  have hsame := Json.sortKeys_eq_of_dumps_eq (hwf texts) (hwf texts') hdumps
  rw [hsorted, hsorted] at hsame
  injection hsame with hsame
  exact List.map_injective_iff.2 (fun _ _ => Json.str.inj) hsame

theorem rowFrame_eq_ok {row : List Json} {frame : Bytes} (h : rowFrame row = .ok frame) :
    ∃ encoded, encodeUtf8 (Json.dumps (.arr row)) = some encoded ∧ encoded.length < 256 ^ 8
      ∧ frame = lengthFrame 8 encoded := by
  unfold rowFrame at h
  split at h
  · cases h
  · rename_i encoded hencoded
    obtain ⟨hlength, h⟩ := ensure_bind_eq_ok.1 h
    exact ⟨encoded, hencoded, hlength, (Except.ok.inj h).symm⟩

variable {records records' : List CatalogRecord}

theorem frames_of_records {frames : List Bytes}
    (h : records.mapM (fun record => rowFrame (record.base.texts.map .str)) = .ok frames) :
    ∃ items : List Bytes, frames = items.map (lengthFrame 8)
      ∧ (∀ item ∈ items, item.length < 256 ^ 8)
      ∧ List.Forall₂ (fun record item =>
        encodeUtf8 (Json.dumps (.arr (record.base.texts.map .str))) = some item) records items := by
  have hrows := mapM_eq_ok.1 h
  clear h
  induction hrows with
  | nil => exact ⟨[], rfl, by simp, .nil⟩
  | cons hrow _ ih =>
    obtain ⟨items, hframes, hlengths, hitems⟩ := ih
    obtain ⟨encoded, hencoded, hlength, hframe⟩ := rowFrame_eq_ok hrow
    refine ⟨encoded :: items, ?_, ?_, .cons hencoded hitems⟩
    · rw [hframe, hframes, List.map_cons]
    · exact List.forall_mem_cons.2 ⟨hlength, hlengths⟩

theorem base_eq_of_texts {row row' : BaseRow} (h : row.texts = row'.texts) : row = row' := by
  unfold BaseRow.texts at h
  cases row
  cases row'
  simp only [List.cons.injEq] at h
  obtain ⟨rfl, rfl, rfl, rfl, rfl, rfl, rfl, rfl, -⟩ := h
  rfl

theorem bases_of_items {items : List Bytes} (h : List.Forall₂ (fun record item =>
      encodeUtf8 (Json.dumps (.arr (record.base.texts.map .str))) = some item) records items)
    (h' : List.Forall₂ (fun record item =>
      encodeUtf8 (Json.dumps (.arr (record.base.texts.map .str))) = some item) records' items) :
    records.map CatalogRecord.base = records'.map CatalogRecord.base := by
  induction h generalizing records' with
  | nil =>
    cases h'
    rfl
  | cons hrecord _ ih =>
    cases h' with
    | cons hrecord' hrest =>
      rw [List.map_cons, List.map_cons, base_eq_of_texts (texts_of_encoded hrecord hrecord'),
        ih hrest]

theorem bases_of_message {message : Bytes}
    (h : baseRecordMessage records = .ok message) (h' : baseRecordMessage records' = .ok message) :
    records.map CatalogRecord.base = records'.map CatalogRecord.base := by
  obtain ⟨frames, hframes, h⟩ := bind_eq_ok.1 h
  obtain ⟨frames', hframes', h'⟩ := bind_eq_ok.1 h'
  have hflat := List.append_cancel_left (Except.ok.inj (h.trans h'.symm))
  obtain ⟨items, rfl, hlengths, hitems⟩ := frames_of_records hframes
  obtain ⟨items', rfl, hlengths', hitems'⟩ := frames_of_records hframes'
  rw [← List.flatMap_def, ← List.flatMap_def] at hflat
  obtain rfl := flatMap_lengthFrame_inj (by decide) hlengths hlengths' hflat
  exact bases_of_items hitems hitems'

/-- Different base records whose messages have one digest. -/
def CollidingRows (records records' : List CatalogRecord) : Prop :=
  ∃ message message', baseRecordMessage records = .ok message
    ∧ baseRecordMessage records' = .ok message' ∧ message ≠ message'
    ∧ sha256 message = sha256 message'

theorem bases_of_digest {digest : Str}
    (h : baseRecordDigest records = .ok digest) (h' : baseRecordDigest records' = .ok digest) :
    records.map CatalogRecord.base = records'.map CatalogRecord.base
      ∨ CollidingRows records records' := by
  obtain ⟨message, hmessage, h⟩ := bind_eq_ok.1 h
  obtain ⟨message', hmessage', h'⟩ := bind_eq_ok.1 h'
  have hdigest := hex_injective (Except.ok.inj (h.trans h'.symm))
  by_cases hsame : message = message'
  · exact .inl (bases_of_message hmessage (hsame ▸ hmessage'))
  · exact .inr ⟨message, message', hmessage, hmessage', hsame, hdigest⟩

/-! ## One application -/

section
variable [CatalogData]

/-- The result that an artifact holds. -/
def HoldsResult (data : Bytes) (result : ReviewResult) : Prop :=
  ∃ payload request, parsePayload data "History review result" = .ok payload
    ∧ readResult payload request = .ok result

/-- The baseline with the pairs of the result replaced. -/
structure Applied (baseline : Sidecar) (result : ReviewResult) (s : Sidecar) : Prop where
  replaced : ∀ choice ∈ result.decisions, ∃ decision ∈ s.decisions, decision.key = choice.key
    ∧ decision.membership = choice.membership ∧ decision.reviewState = .reviewed
    ∧ decision.artifactSha256 = result.artifactSha256
  kept : ∀ decision : ScopeDecision, decision.key ∉ result.decisions.map ReviewChoice.key →
    (decision ∈ s.decisions ↔ decision ∈ baseline.decisions)
  distinct : (s.decisions.map ScopeDecision.key).Nodup
  scopes : s.scopes = baseline.scopes
  bases : s.records.map CatalogRecord.base = baseline.records.map CatalogRecord.base
    ∨ CollidingRows s.records baseline.records

variable {call : ApplyCall} {o : Observed} {reader : Reader} {s : Sidecar}

omit [CatalogData] in
theorem against_eq_ok {request : Request} {m : Nat → Moment}
    (h : request.against reader o m = .ok ()) : reader.binding = request.binding := by
  obtain ⟨-, -, h⟩ := bind_eq_ok.1 h
  exact (ensure_bind_eq_ok.1 h).1

/-- What the artifacts and the reader of a validated call have to do with the files. -/
structure Validated (o : Observed) (call : ApplyCall) (reviewed : Reviewed) : Prop where
  path : reviewed.reader.sidecarPath = call.sidecarPath
  opened : ∃ corpus baseline, Opened o .opening reviewed.reader corpus baseline
  binding : reviewed.reader.binding = reviewed.request.binding
  result : ∃ identity data, o.seen .start call.resultPath = some ⟨identity, .artifact data⟩
    ∧ HoldsResult data reviewed.result

omit [CatalogData] in
theorem readArtifact_eq_ok {files : Files} {path : Path} {label : String}
    {file : FileIdentity × Bytes} (h : readArtifact files path label = .ok file) :
    files path = some ⟨file.1, .artifact file.2⟩ := by
  unfold readArtifact at h
  split at h
  · rename_i hfile
    obtain ⟨-, h⟩ := ensure_bind_eq_ok.1 h
    rw [hfile, ← Except.ok.inj h]
  · cases h

theorem validateArtifacts_eq_ok {reviewed : Reviewed}
    (h : validateArtifacts o call = .ok reviewed) : Validated o call reviewed := by
  obtain ⟨files, hlook, h⟩ := bind_eq_ok.1 h
  obtain ⟨⟨identity, corpus⟩, -, h⟩ := bind_eq_ok.1 h
  obtain ⟨-, h⟩ := ensure_bind_eq_ok.1 h
  obtain ⟨-, h⟩ := ensure_bind_eq_ok.1 h
  obtain ⟨-, h⟩ := ensure_bind_eq_ok.1 h
  obtain ⟨baselineIdentity, -, h⟩ := bind_eq_ok.1 h
  obtain ⟨requestFile, -, h⟩ := bind_eq_ok.1 h
  obtain ⟨resultFile, hresultFile, h⟩ := bind_eq_ok.1 h
  obtain ⟨reader, hreader, h⟩ := bind_eq_ok.1 h
  obtain ⟨requestPayload, -, h⟩ := bind_eq_ok.1 h
  obtain ⟨request, -, h⟩ := bind_eq_ok.1 h
  obtain ⟨_, hagainst, h⟩ := bind_eq_ok.1 h
  obtain ⟨-, -, h⟩ := bind_eq_ok.1 h
  obtain ⟨requestBytes, -, h⟩ := bind_eq_ok.1 h
  obtain ⟨-, h⟩ := ensure_bind_eq_ok.1 h
  obtain ⟨-, -, h⟩ := bind_eq_ok.1 h
  obtain ⟨resultPayload, hpayload, h⟩ := bind_eq_ok.1 h
  obtain ⟨result, hresult, h⟩ := bind_eq_ok.1 h
  obtain ⟨-, -, h⟩ := bind_eq_ok.1 h
  obtain ⟨resultBytes, -, h⟩ := bind_eq_ok.1 h
  obtain ⟨-, h⟩ := ensure_bind_eq_ok.1 h
  cases h
  obtain ⟨hpath, -, hopened⟩ := openReader_eq_ok hreader
  rw [look_eq_ok hlook] at hresultFile
  exact ⟨hpath, hopened, against_eq_ok hagainst, resultFile.1, resultFile.2,
    readArtifact_eq_ok hresultFile, resultPayload, request, hpayload, hresult⟩

theorem digest_of_validate {corpus : Corpus} {summary : Summary}
    (h : s.validate corpus = .ok summary) :
    baseRecordDigest s.records = .ok summary.baseRecordDigest := by
  obtain ⟨-, h⟩ := ensure_bind_eq_ok.1 h
  obtain ⟨-, h⟩ := ensure_bind_eq_ok.1 h
  obtain ⟨-, h⟩ := ensure_bind_eq_ok.1 h
  obtain ⟨-, h⟩ := ensure_bind_eq_ok.1 h
  obtain ⟨digest, hdigest, h⟩ := bind_eq_ok.1 h
  obtain ⟨hsame, h⟩ := ensure_bind_eq_ok.1 h
  obtain ⟨generation, -, h⟩ := bind_eq_ok.1 h
  obtain ⟨-, h⟩ := ensure_bind_eq_ok.1 h
  obtain ⟨-, h⟩ := ensure_bind_eq_ok.1 h
  cases h
  rw [hdigest, hsame]
  rfl

omit [CatalogData] in
theorem key_of_mem_reviewed {result : ReviewResult} :
    result.reviewedDecisions.map ScopeDecision.key = result.decisions.map ReviewChoice.key := by
  unfold ReviewResult.reviewedDecisions
  rw [List.map_map]
  rfl

omit [CatalogData] in
theorem mergedDecisions_eq {m : Moment} {baseline : Sidecar}
    {replacements given : List ScopeDecision}
    (hfile : o.seen m reader.sidecarPath = some ⟨reader.sidecarIdentity, .sidecar baseline⟩)
    (h : mergedDecisions reader o replacements = .ok given) :
    given = (baseline.decisions.filter fun decision =>
      decision.key ∉ replacements.map ScopeDecision.key) ++ replacements := by
  obtain ⟨current, hcurrent, h⟩ := bind_eq_ok.1 h
  have hall := iterScopeDecisions_eq (fun _ _ => operate_eq hfile) hcurrent
  have hnone : rowsBehind ScopeDecision.key none baseline.decisions = baseline.decisions :=
    List.filter_eq_self.2 fun _ _ => rfl
  rw [← Except.ok.inj h, hall, hnone]

theorem stageReview_eq_ok {receipt : Receipt} (h : stageReview o call = .ok (s, receipt)) :
    ∃ identity baseline identity' data result,
      o.seen .opening call.sidecarPath = some ⟨identity, .sidecar baseline⟩
        ∧ o.seen .start call.resultPath = some ⟨identity', .artifact data⟩
        ∧ HoldsResult data result ∧ Applied baseline result s := by
  obtain ⟨reviewed, hreviewed, h⟩ := bind_eq_ok.1 h
  obtain ⟨scopes, hscopes, h⟩ := bind_eq_ok.1 h
  obtain ⟨sidecar, hstage, h⟩ := bind_eq_ok.1 h
  cases h
  obtain ⟨hpath, ⟨corpus, baseline, hopened⟩, hbinding, identity', data, hdata, hholds⟩ :=
    validateArtifacts_eq_ok hreviewed
  have hstaged := stageSidecar_eq_ok hstage
  obtain ⟨given, hgiven, hdecisions, hnodup, -⟩ := hstaged.decisions
  have hmerged := mergedDecisions_eq hopened.file hgiven
  have hmem (decision : ScopeDecision) : decision ∈ s.decisions ↔ decision ∈ given := by
    rw [hdecisions, mem_ranked]
  refine ⟨_, baseline, identity', data, reviewed.result, hpath ▸ hopened.file, hdata, hholds, ?_⟩
  refine ⟨?_, ?_, ?_, ?_, ?_⟩
  · intro choice hchoice
    refine ⟨reviewed.result.decisionOf choice, (hmem _).2 ?_, rfl, rfl, rfl, rfl⟩
    rw [hmerged]
    exact List.mem_append_right _ (List.mem_map_of_mem hchoice)
  · intro decision hkey
    rw [← key_of_mem_reviewed] at hkey
    rw [hmem, hmerged, List.mem_append, List.mem_filter]
    constructor
    · rintro (⟨hdecision, -⟩ | hdecision)
      · exact hdecision
      · exact absurd (List.mem_map_of_mem hdecision) hkey
    · intro hdecision
      exact .inl ⟨hdecision, decide_eq_true hkey⟩
  · rw [hdecisions]
    exact ((ranked_perm _ given).map _).nodup_iff.2 hnodup
  · obtain ⟨t, hread, hscopes⟩ := bind_eq_ok.1 hscopes
    obtain ⟨-, hscopes⟩ := ensure_bind_eq_ok.1 hscopes
    rw [operate_eq hopened.file hread] at hscopes
    rw [hstaged.scopes, ← Except.ok.inj hscopes]
    exact ranked_of_ascending baseline.scopesAscending
  · have hdigest := hstaged.digest _ rfl
    rw [← hbinding] at hdigest
    exact bases_of_digest hdigest (digest_of_validate hopened.validated)

end

end IntegrityGuardian.History
