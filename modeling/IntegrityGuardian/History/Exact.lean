import IntegrityGuardian.History.Apply
import IntegrityGuardian.Library.SnapshotLoop

/-!
# What an application leaves

The pages of the reader give the decisions of the baseline, whatever is done to the files in
between, or they give nothing.  So what is published is the baseline with the reviewed pairs
replaced.
-/

namespace IntegrityGuardian.History

open Python Library

/-! ## Reads -/

section
variable [CatalogData]

/-- An open reader has read a sidecar that passes its checks. -/
structure Opened (o : Observed) (m : Moment) (reader : Reader) (corpus : Corpus)
    (baseline : Sidecar) : Prop where
  file : o.seen m reader.sidecarPath = some ⟨reader.sidecarIdentity, .sidecar baseline⟩
  source : o.seen m reader.corpusPath = some ⟨reader.corpusIdentity, .corpus corpus⟩
  validated : baseline.validate corpus = .ok reader.summary

variable {files : Files} {m : Moment} {o : Observed} {reader : Reader}

omit [CatalogData] in
theorem inspectCorpus_eq_ok {path : Path} {identity : FileIdentity}
    {corpus : Corpus} (h : inspectCorpus files path = .ok (identity, corpus)) :
    files path = some ⟨identity, .corpus corpus⟩ := by
  unfold inspectCorpus at h
  split at h
  · rename_i hfile
    injection h with h
    injection h with hidentity hcorpus
    rw [hfile, hidentity, hcorpus]
  · cases h

omit [CatalogData] in
theorem look_eq_ok (h : o.look m = .ok files) : files = o.seen m := by
  unfold Observed.look at h
  split at h
  · cases h
  · exact (Except.ok.inj h).symm

theorem openReader_eq_ok {corpusPath sidecarPath : Path}
    (h : openReader o m corpusPath sidecarPath = .ok reader) :
    reader.sidecarPath = sidecarPath ∧ reader.corpusPath = corpusPath
      ∧ ∃ corpus baseline, Opened o m reader corpus baseline := by
  obtain ⟨files, hlook, h⟩ := bind_eq_ok.1 h
  obtain ⟨⟨corpusIdentity, corpus⟩, hcorpus, h⟩ := bind_eq_ok.1 h
  obtain ⟨-, h⟩ := ensure_bind_eq_ok.1 h
  obtain ⟨-, h⟩ := ensure_bind_eq_ok.1 h
  rw [look_eq_ok hlook] at hcorpus h
  split at h
  · rename_i sidecarIdentity s hfile
    obtain ⟨summary, hvalid, h⟩ := bind_eq_ok.1 h
    cases h
    exact ⟨rfl, rfl, corpus, s, hfile, inspectCorpus_eq_ok hcorpus, hvalid⟩
  · cases h

omit [CatalogData] in
theorem operate_eq {m' : Moment} {baseline s : Sidecar}
    (hfile : o.seen m reader.sidecarPath = some ⟨reader.sidecarIdentity, .sidecar baseline⟩)
    (h : reader.operate o m' = .ok s) : s = baseline := by
  obtain ⟨files, hlook, h⟩ := bind_eq_ok.1 h
  obtain ⟨⟨-, hidentity⟩, h⟩ := ensure_bind_eq_ok.1 h
  rw [look_eq_ok hlook] at hidentity h
  split at h
  · rename_i identity t hseen
    cases h
    rw [hseen] at hidentity
    have hsame : identity = reader.sidecarIdentity := Option.some.inj hidentity
    have hcontent := o.faithful m' m reader.sidecarPath _ _ hseen hfile hsame
    injection hcontent
  · cases h

end

/-! ## Pages -/

variable {limit : Nat} {cursor : Option Cursor} {s : Sidecar}

theorem hasMore_iff : (s.scanScopeDecisions cursor limit).hasMore = false
      ↔ (rowsBehind ScopeDecision.key cursor s.decisions).length ≤ limit := by
  unfold Sidecar.scanScopeDecisions
  dsimp only
  rw [decide_eq_false_iff_not, List.length_take]
  omega

theorem decisions_scan (s : Sidecar) (cursor : Option Cursor) (limit : Nat) :
    (s.scanScopeDecisions cursor limit).decisions
      = (rowsBehind ScopeDecision.key cursor s.decisions).take limit := by
  show (List.take (limit + 1) _).take limit = _
  rw [List.take_take, min_eq_left (Nat.le_succ limit)]

theorem nextCursor_scan (hlimit : 0 < limit)
    (h : ¬(s.scanScopeDecisions cursor limit).hasMore = false) :
    ∃ tip, ((rowsBehind ScopeDecision.key cursor s.decisions).take limit).getLast? = some tip
      ∧ (s.scanScopeDecisions cursor limit).nextCursor = some tip.key := by
  have hmore : (s.scanScopeDecisions cursor limit).hasMore = true := by
    cases hcase : (s.scanScopeDecisions cursor limit).hasMore with
    | true => rfl
    | false => exact absurd hcase h
  have hlong := hasMore_iff.not.1 h
  have hne : (rowsBehind ScopeDecision.key cursor s.decisions).take limit ≠ [] := by
    intro hnil
    have hlength := congrArg List.length hnil
    rw [List.length_take, List.length_nil] at hlength
    omega
  refine ⟨_, List.getLast?_eq_getLast_of_ne_nil hne, ?_⟩
  have hpage := decisions_scan s cursor limit
  unfold Sidecar.scanScopeDecisions at hmore hpage ⊢
  dsimp only at hmore hpage ⊢
  rw [if_pos hmore, hpage, List.getLast?_eq_getLast_of_ne_nil hne]
  rfl

theorem iterScopeDecisions_eq {reader : Reader} {o : Observed}
    (hsame : ∀ index t, reader.operate o (.page index) = .ok t → t = s) {fuel index : Nat}
    {decisions : List ScopeDecision}
    (h : reader.iterScopeDecisions o fuel index cursor = .ok decisions) :
    decisions = rowsBehind ScopeDecision.key cursor s.decisions := by
  induction fuel generalizing index cursor decisions with
  | zero => cases h
  | succ fuel ih =>
    obtain ⟨t, hread, h⟩ := bind_eq_ok.1 h
    obtain rfl := hsame index t hread
    dsimp only at h
    split at h
    · rename_i hlast
      rw [← Except.ok.inj h, decisions_scan, List.take_of_length_le (hasMore_iff.1 hlast)]
    · rename_i hmore
      obtain ⟨tip, htip, hnext⟩ := nextCursor_scan (by decide) hmore
      rw [hnext] at h
      obtain ⟨rest, hrest, h⟩ := bind_eq_ok.1 h
      rw [← Except.ok.inj h, ih hrest, rowsBehind_tip t.decisionsAscending htip, decisions_scan,
        List.take_append_drop]

/-! ## Tables -/

theorem coerceScopes_eq_ok {scopes : List LogicalScope} {table : ScopeTable}
    (h : coerceScopes scopes = .ok table) :
    table.scopes = ranked LogicalScope.scopeId scopes := by
  obtain ⟨-, h⟩ := ensure_bind_eq_ok.1 h
  obtain ⟨-, h⟩ := ensure_bind_eq_ok.1 h
  split at h
  · cases h
    rfl
  · cases h

section
variable {records : List CatalogRecord} {scopes : List LogicalScope}

variable {allowReviewed : Bool} {table table' : DecisionTable records scopes}
  {decisions : List ScopeDecision}

theorem insertDecision_eq_ok
    {decision : ScopeDecision} (h : insertDecision allowReviewed table decision = .ok table') :
    table'.rows = table.rows ++ [decision]
      ∧ (decision.reviewState = .reviewed → allowReviewed = true) := by
  obtain ⟨hallowed, h⟩ := ensure_bind_eq_ok.1 h
  obtain ⟨-, h⟩ := ensure_bind_eq_ok.1 h
  split at h
  · split at h
    · cases h
      exact ⟨rfl, hallowed⟩
    · cases h
  · cases h

theorem foldlM_insertDecision
    (h : decisions.foldlM (insertDecision allowReviewed) table = .ok table') :
    table'.rows = table.rows ++ decisions
      ∧ ∀ decision ∈ decisions, decision.reviewState = .reviewed → allowReviewed = true := by
  induction decisions generalizing table with
  | nil =>
    cases h
    simp
  | cons decision decisions ih =>
    obtain ⟨next, hinsert, h⟩ := bind_eq_ok.1 h
    obtain ⟨hrow, hallowed⟩ := insertDecision_eq_ok hinsert
    obtain ⟨hrows, hall⟩ := ih h
    constructor
    · rw [hrows, hrow, List.append_assoc, List.singleton_append]
    · intro d hd
      rcases List.mem_cons.1 hd with rfl | hd
      · exact hallowed
      · exact hall d hd

theorem insertDecisions_eq_ok (h : insertDecisions allowReviewed decisions = .ok table) :
    table.rows = decisions
      ∧ ∀ decision ∈ decisions, decision.reviewState = .reviewed → allowReviewed = true :=
  foldlM_insertDecision h

end

/-! ## What is staged -/

section
variable [CatalogData]

/-- A record is what the classifier makes of a message. -/
def DerivedFrom (message : CorpusRecord) (record : CatalogRecord) : Prop :=
  record.base = message.base
    ∧ (record.state, record.catalogJson) = CatalogData.projection message.content message.base.role
    ∧ ∃ data, encodeUtf8 message.content = some data
      ∧ hex (sha256 data) = message.base.contentSha256

theorem catalogRecord_eq_ok {message : CorpusRecord} {record : CatalogRecord}
    (h : catalogRecord message = .ok record) : DerivedFrom message record := by
  obtain ⟨base, hbase, h⟩ := bind_eq_ok.1 h
  obtain ⟨-, hbase⟩ := ensure_bind_eq_ok.1 hbase
  cases h
  split at hbase
  · cases hbase
  · rename_i data hdata
    obtain ⟨hdigest, hbase⟩ := ensure_bind_eq_ok.1 hbase
    cases hbase
    exact ⟨rfl, rfl, data, hdata, hdigest⟩

variable {corpus : Corpus}

omit [CatalogData] in
theorem scanCorpus_subset {rows : List CorpusRecord}
    (h : scanCorpus corpus = .ok rows) : rows ⊆ corpus.records := by
  obtain ⟨-, h⟩ := ensure_bind_eq_ok.1 h
  split at h
  · cases h
    exact List.nil_subset _
  · obtain ⟨-, h⟩ := ensure_bind_eq_ok.1 h
    cases h
    exact List.Subset.refl _

theorem scanIntoSidecar_eq_ok {catalog : Catalog} (h : scanIntoSidecar corpus = .ok catalog) :
    ∀ record ∈ catalog.records, ∃ message ∈ corpus.records, DerivedFrom message record := by
  obtain ⟨rows, hrows, h⟩ := bind_eq_ok.1 h
  obtain ⟨records, hrecords, h⟩ := bind_eq_ok.1 h
  obtain ⟨-, h⟩ := ensure_bind_eq_ok.1 h
  split at h
  · cases h
    intro record hrecord
    obtain ⟨message, hmessage, hmade⟩ :=
      exists_of_mem_right (mapM_eq_ok.1 hrecords) (mem_ranked.1 hrecord)
    exact ⟨message, scanCorpus_subset hrows hmessage, catalogRecord_eq_ok hmade⟩
  · cases h

/-- What is staged: the scopes of the call, the records of the corpus, the decisions given. -/
structure Staged (o : Observed) (call : BuildCall) (decisions : Except Error (List ScopeDecision))
    (s : Sidecar) : Prop where
  scopes : s.scopes = ranked LogicalScope.scopeId call.scopes
  decisions : ∃ given, decisions = .ok given ∧ s.decisions = ranked ScopeDecision.key given
    ∧ (given.map ScopeDecision.key).Nodup
    ∧ ∀ decision ∈ given, decision.reviewState = .reviewed → call.allowReviewed = true
  records : ∃ identity corpus, o.seen .build call.corpusPath = some ⟨identity, .corpus corpus⟩
    ∧ ∀ record ∈ s.records, ∃ message ∈ corpus.records, DerivedFrom message record
  digest : ∀ binding ∈ call.expected, baseRecordDigest s.records = .ok binding.baseRecordDigest

theorem stageSidecar_eq_ok {o : Observed} {call : BuildCall}
    {decisions : Except Error (List ScopeDecision)} {check : Except Error Unit} {s : Sidecar}
    (h : stageSidecar o call decisions check = .ok s) : Staged o call decisions s := by
  obtain ⟨files, hlook, h⟩ := bind_eq_ok.1 h
  obtain ⟨⟨identity, corpus⟩, hcorpus, h⟩ := bind_eq_ok.1 h
  obtain ⟨-, h⟩ := ensure_bind_eq_ok.1 h
  obtain ⟨-, h⟩ := ensure_bind_eq_ok.1 h
  obtain ⟨scopes, hscopes, h⟩ := bind_eq_ok.1 h
  obtain ⟨-, h⟩ := ensure_bind_eq_ok.1 h
  obtain ⟨catalog, hcatalog, h⟩ := bind_eq_ok.1 h
  obtain ⟨digest, hdigest, h⟩ := bind_eq_ok.1 h
  obtain ⟨given, hgiven, h⟩ := bind_eq_ok.1 h
  obtain ⟨table, htable, h⟩ := bind_eq_ok.1 h
  obtain ⟨later, -, h⟩ := bind_eq_ok.1 h
  obtain ⟨⟨identity', final⟩, -, h⟩ := bind_eq_ok.1 h
  obtain ⟨-, h⟩ := ensure_bind_eq_ok.1 h
  obtain ⟨-, -, h⟩ := bind_eq_ok.1 h
  obtain ⟨hexpected, h⟩ := ensure_bind_eq_ok.1 h
  obtain ⟨sidecar, hseal, h⟩ := bind_eq_ok.1 h
  obtain ⟨summary, -, h⟩ := bind_eq_ok.1 h
  obtain ⟨-, -, h⟩ := bind_eq_ok.1 h
  obtain ⟨current, -, h⟩ := bind_eq_ok.1 h
  obtain ⟨-, h⟩ := ensure_bind_eq_ok.1 h
  cases h
  obtain ⟨generation, -, hseal⟩ := bind_eq_ok.1 hseal
  cases hseal
  obtain ⟨hrows, hallowed⟩ := insertDecisions_eq_ok htable
  rw [look_eq_ok hlook] at hcorpus
  refine ⟨coerceScopes_eq_ok hscopes, ⟨given, hgiven, ?_, ?_, hallowed⟩,
    ⟨identity, corpus, inspectCorpus_eq_ok hcorpus, scanIntoSidecar_eq_ok hcatalog⟩, ?_⟩
  · rw [← hrows]
  · rw [← hrows]
    exact table.distinct
  · intro binding hbinding
    rw [hexpected binding hbinding]
    exact hdigest

end

end IntegrityGuardian.History
