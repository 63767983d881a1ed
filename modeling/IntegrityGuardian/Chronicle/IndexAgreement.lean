import IntegrityGuardian.Chronicle.SearchIndex

/-!
# When the index and the scan agree

A record of the index stands for a claim when both show the same.  The two searches give one
result exactly when every match that only one of them meets is outranked, as far as the
request looks, by matches that both meet.
-/

namespace IntegrityGuardian.Chronicle

open Python Library
open Json (ch)

section
variable [FloatData]

/-! ## What a dictionary shows -/

/-- The dictionary with what is derived from it in its place. -/
def ClaimDict.shown (claim : ClaimDict) : ClaimDict :=
  { claim with speaker := some claim.claimSpeaker, contentType := claim.coerceContentType }

variable [UnicodeData] [TextData]

variable {claim claim' : ClaimDict} {claims : List ClaimDict} {result : ProjectionMatch}
  {request : SearchRequest} {sourceProvider : Str}

/-- The matches of some dictionaries. -/
def matched (request : SearchRequest) (sourceProvider : Str) (claims : List ClaimDict) :
    List ProjectionMatch :=
  claims.filterMap (request.matches sourceProvider)

/-- A record that is selected shows what the claim shows. -/
def Seen (records : List ClaimRecord) (claim : Claim) : Prop :=
  ∃ record ∈ records, record.dict.shown = claim.dict.shown

/-- The request does not look as far as this result: enough claims that are seen come before. -/
def PastLimit (projection : Projection) (request : SearchRequest) (records : List ClaimRecord)
    (result : ProjectionMatch) : Prop :=
  ∃ maxResults, request.maxResults = some maxResults ∧ ∃ better : List Claim, better.Nodup
    ∧ maxResults ≤ better.length ∧ ∀ claim ∈ better, claim ∈ projection.claims ∧ Seen records claim
      ∧ ∃ ahead, request.matches projection.provider claim.dict = some ahead
        ∧ ahead.sortKey < result.sortKey

/-- What only one of the searches meets lies past the limit of the request. -/
structure Agrees (projection : Projection) (request : SearchRequest)
    (records : List ClaimRecord) : Prop where
  claims : ∀ claim ∈ projection.claims, ¬Seen records claim → ∀ result,
    request.matches projection.provider claim.dict = some result →
      PastLimit projection request records result
  records : ∀ record ∈ records,
    (∀ claim ∈ projection.claims, record.dict.shown ≠ claim.dict.shown) → ∀ result,
      request.matches projection.provider record.dict = some result →
        PastLimit projection request records result

section
variable {projection : Projection} {request : SearchRequest} {records : List ClaimRecord}

variable {result : ProjectionMatch}

end

variable [FtsData]

/-! ## Selected records -/

/-- The records an FTS expression leaves, or all where it leaves none. -/
def Index.selected (index : Index) (terms : List SearchTerm) : List ClaimRecord :=
  match (buildFtsQuery terms).bind FtsData.matchText with
  | none => index.records
  | some matched =>
    if index.records.any (fun record => matched record.claimTextNorm) then
      index.records.filter fun record => matched record.claimTextNorm
    else index.records

/-- The expression is well formed, and the records it leaves can be named in one statement. -/
def Index.Usable (index : Index) (terms : List SearchTerm) : Prop :=
  ∀ expression, buildFtsQuery terms = some expression → ∃ matched,
    FtsData.matchText expression = some matched
      ∧ (index.records.any (fun record => matched record.claimTextNorm) = true →
        (index.records.filter fun record => matched record.claimTextNorm).length + 2
          ≤ FtsData.variableLimit)

variable {index : Index} {records : List ClaimRecord} {terms : List SearchTerm}
  {candidateIds : List Str}

omit [FloatData] [UnicodeData] [TextData] in
theorem select_sublist
    (h : index.select candidateIds = .ok records) : records.Sublist index.records := by
  unfold Index.select at h
  split at h
  · injection h with h
    rw [h]
  · obtain ⟨-, h⟩ := ensure_bind_eq_ok.1 h
    injection h with h
    rw [← h]
    exact List.filter_sublist

end

namespace Sample

/-- The one float `0.0`. -/
@[reducible] def zeroFloatData : FloatData where
  Float := Unit
  isfinite _ := true
  repr _ := str "0.0"
  ofText _ := ()
  nan := ()
  infinity := ()
  negInfinity := ()
  eq _ _ := true
  eqInt _ n := n = 0

def isAsciiAlnum (c : CodePoint) : Bool :=
  (48 ≤ c.val && c.val ≤ 57) || (65 ≤ c.val && c.val ≤ 90) || (97 ≤ c.val && c.val ≤ 122)

/-- Texts of ASCII are normal. -/
@[reducible] def asciiTextData : TextData where
  nfkc text := text
  nfd text := text
  isMn _ := false
  isalnum := isAsciiAlnum
  isWord c := isAsciiAlnum c || c == ch '_'

/-- The words between `AND`s, if there is nothing else. -/
def conjuncts (expression : Str) : Option (List Str) :=
  match splitWords expression with
  | [] => none
  | words => go words
where
  go : List Str → Option (List Str)
    | [word] => if word.all isAsciiAlnum then some [word] else none
    | word :: operator :: words =>
      if operator = str "AND" ∧ word.all isAsciiAlnum then (go words).map (word :: ·) else none
    | [] => none

/-- `MATCH` of conjunctions of words. -/
@[reducible] def wordFtsData : FtsData where
  matchText expression :=
    (conjuncts expression).map fun words text => words.all (splitWords text).contains
  variableLimit := 32766

attribute [local instance] zeroFloatData asciiUnicodeData asciiTextData wordFtsData

/-- The results of a search that does not fail. -/
def found (results : Except Exc (List ProjectionMatch)) : List ProjectionMatch :=
  results.toOption.getD []

end Sample

end IntegrityGuardian.Chronicle
