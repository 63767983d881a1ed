import IntegrityGuardian.History.Applied
import Mathlib.Data.List.Induction

/-!
# Runs of the builders

Each call holds the locks of the files it reads and writes, so it sees them as they are between
two calls.  Other programs write corpora and artifacts; sidecars come from the builders alone.
-/

namespace IntegrityGuardian.History

open Python Library

/-- Files that do not change during a call. -/
def Observed.still (files : Files) (fault : Moment → Option Error) : Observed where
  seen _ := files
  fault := fault
  faithful := by
    intro _ _ path file file' hfile hfile' _
    rw [hfile] at hfile'
    rw [Option.some.inj hfile']

def Outcome.sidecar? {α : Type} : Outcome α → Option Sidecar
  | .raised _ => none
  | .published s _ => some s

inductive Call where
  | build (corpusPath sidecarPath : Path) (scopes : List LogicalScope)
      (decisions : List ScopeDecision)
  | successor (corpusPath sidecarPath : Path) (scopes : List LogicalScope)
      (decisions : List ScopeDecision) (authoritySha256 : Str)
  | review (call : ApplyCall)

/-- The path at which a call publishes. -/
def Call.target : Call → Path
  | .build _ sidecarPath _ _ => sidecarPath
  | .successor _ sidecarPath _ _ _ => sidecarPath
  | .review call => call.output

/-- A successor or a review. -/
def Call.reviews : Call → Bool
  | .build .. => false
  | _ => true

/-- A call, with the faults it meets and the identity its file would get, or another program
that writes or removes a file. -/
inductive Step where
  | invoke (call : Call) (fault : Moment → Option Error) (identity : FileIdentity)
  | other (path : Path) (file : Option File)
      (plain : ∀ identity s, file ≠ some ⟨identity, .sidecar s⟩)

/-- The messages of the corpora that other programs write. -/
def messagesOf (steps : List Step) : List CorpusRecord :=
  steps.flatMap fun
    | .other _ (some ⟨_, .corpus corpus⟩) _ => corpus.records
    | _ => []

section
variable [CatalogData]

/-- What a call publishes, if it does. -/
def Call.sidecar? (o : Observed) : Call → Option Sidecar
  | .build corpusPath sidecarPath scopes decisions =>
    (buildHistorySidecar o corpusPath sidecarPath scopes decisions).sidecar?
  | .successor corpusPath sidecarPath scopes decisions authoritySha256 =>
    (buildHistorySidecarSuccessor o corpusPath sidecarPath scopes decisions
      authoritySha256).sidecar?
  | .review call => (applyHistoryReviewResult o call).sidecar?

def Step.exec (files : Files) : Step → Files
  | .invoke call fault identity =>
    match call.sidecar? (.still files fault) with
    | none => files
    | some s => Function.update files call.target (some ⟨identity, .sidecar s⟩)
  | .other path file _ => Function.update files path file

section
variable {files : Files} {call : Call} {fault : Moment → Option Error}

theorem exec_of_none (identity : FileIdentity) (h : call.sidecar? (.still files fault) = none) :
    (Step.invoke call fault identity).exec files = files := by
  show (match call.sidecar? (.still files fault) with | none => files | some s => _) = files
  rw [h]

theorem exec_of_some {s : Sidecar} (identity : FileIdentity)
    (h : call.sidecar? (.still files fault) = some s) :
    (Step.invoke call fault identity).exec files
      = Function.update files call.target (some ⟨identity, .sidecar s⟩) := by
  show (match call.sidecar? (.still files fault) with | none => files | some s => _) = _
  rw [h]

end

/-- The files after a run that starts without any. -/
def filesAfter (steps : List Step) : Files := steps.foldl Step.exec fun _ => none

theorem filesAfter_snoc (steps : List Step) (step : Step) :
    filesAfter (steps ++ [step]) = step.exec (filesAfter steps) := by
  unfold filesAfter
  rw [List.foldl_append]
  rfl

/-! ## What a call publishes -/

variable {call : Call} {files : Files} {messages : List CorpusRecord} {o : Observed} {path : Path}
  {decision : ScopeDecision} {s : Sidecar}

omit [CatalogData] in
theorem publish_sidecar? {α : Type} {staged : Except Error (Sidecar × α)}
    (h : (publish o staged).sidecar? = some s) : ∃ reply, staged = .ok (s, reply) := by
  cases staged with
  | error error => cases h
  | ok staged =>
    cases h
    exact ⟨staged.2, rfl⟩

theorem sidecar?_staged
    (h : call.sidecar? o = some s) : ∃ build decisions, Staged o build decisions s
      ∧ build.allowReviewed = call.reviews := by
  cases call with
  | build corpusPath sidecarPath scopes decisions =>
    obtain ⟨reply, h⟩ := publish_sidecar? h
    obtain ⟨sidecar, hstage, h⟩ := bind_eq_ok.1 h
    cases h
    exact ⟨_, _, stageSidecar_eq_ok hstage, rfl⟩
  | successor corpusPath sidecarPath scopes decisions authoritySha256 =>
    obtain ⟨reply, h⟩ := publish_sidecar? h
    obtain ⟨-, h⟩ := ensure_bind_eq_ok.1 h
    obtain ⟨-, h⟩ := ensure_bind_eq_ok.1 h
    obtain ⟨sidecar, hstage, h⟩ := bind_eq_ok.1 h
    cases h
    exact ⟨_, _, stageSidecar_eq_ok hstage, rfl⟩
  | review call =>
    obtain ⟨reply, h⟩ := publish_sidecar? h
    obtain ⟨reviewed, -, h⟩ := bind_eq_ok.1 h
    obtain ⟨scopes, -, h⟩ := bind_eq_ok.1 h
    obtain ⟨sidecar, hstage, h⟩ := bind_eq_ok.1 h
    cases h
    exact ⟨_, _, stageSidecar_eq_ok hstage, rfl⟩

theorem inferred_of_sidecar? (h : call.sidecar? o = some s) (hcall : call.reviews = false) :
    ∀ decision ∈ s.decisions, decision.reviewState ≠ .reviewed := by
  obtain ⟨build, decisions, hstaged, hallowed⟩ := sidecar?_staged h
  obtain ⟨given, -, hdecisions, -, hreviewed⟩ := hstaged.decisions
  intro decision hdecision hstate
  rw [hdecisions, mem_ranked] at hdecision
  have hallow := hreviewed decision hdecision hstate
  rw [hallowed, hcall] at hallow
  cases hallow

/-! ## Reviewed decisions -/

/-- The sidecar at a path holds this reviewed decision. -/
def ReviewedAt (files : Files) (path : Path) (decision : ScopeDecision) : Prop :=
  ∃ identity s, files path = some ⟨identity, .sidecar s⟩ ∧ decision ∈ s.decisions
    ∧ decision.reviewState = .reviewed

/-- A call of a successor or a review that publishes at this path. -/
def Step.ReviewsAt (path : Path) (step : Step) : Prop :=
  ∃ call fault identity, step = .invoke call fault identity ∧ call.reviews = true
    ∧ call.target = path

theorem reviewedAt_exec {step : Step} (h : ReviewedAt (step.exec files) path decision) :
    ReviewedAt files path decision ∨ step.ReviewsAt path := by
  obtain ⟨identity, s, hfile, hdecision, hstate⟩ := h
  cases step with
  | invoke call fault fresh =>
    cases hpublished : call.sidecar? (.still files fault) with
    | none =>
      rw [exec_of_none fresh hpublished] at hfile
      exact .inl ⟨identity, s, hfile, hdecision, hstate⟩
    | some published =>
      rw [exec_of_some fresh hpublished] at hfile
      by_cases hpath : path = call.target
      · rw [hpath, Function.update_self] at hfile
        cases hfile
        right
        refine ⟨call, fault, _, rfl, ?_, hpath.symm⟩
        by_contra hcall
        rw [Bool.not_eq_true] at hcall
        exact inferred_of_sidecar? hpublished hcall decision hdecision hstate
      · rw [Function.update_of_ne hpath] at hfile
        exact .inl ⟨identity, s, hfile, hdecision, hstate⟩
  | other target file plain =>
    change Function.update files target file path = _ at hfile
    by_cases hpath : path = target
    · subst hpath
      rw [Function.update_self] at hfile
      exact absurd hfile (plain identity s)
    · rw [Function.update_of_ne hpath] at hfile
      exact .inl ⟨identity, s, hfile, hdecision, hstate⟩

theorem reviewedAt_filesAfter {steps : List Step}
    (h : ReviewedAt (filesAfter steps) path decision) :
    ∃ before step after, steps = before ++ step :: after ∧ step.ReviewsAt path
      ∧ ¬ReviewedAt (filesAfter before) path decision
      ∧ ReviewedAt (filesAfter (before ++ [step])) path decision := by
  induction steps using List.reverseRecOn with
  | nil =>
    obtain ⟨_, _, hfile, -⟩ := h
    cases hfile
  | append_singleton steps step ih =>
    by_cases hearlier : ReviewedAt (filesAfter steps) path decision
    · obtain ⟨before, first, after, hsteps, hfirst⟩ := ih hearlier
      exact ⟨before, first, after ++ [step], by rw [hsteps, List.append_assoc]; rfl, hfirst⟩
    · refine ⟨steps, step, [], rfl, ?_, hearlier, h⟩
      rw [filesAfter_snoc] at h
      rcases reviewedAt_exec h with h | h
      · exact absurd h hearlier
      · exact h

/-! ## Catalogs -/

/-- Corpora are those that were written, and catalogs come from their messages. -/
structure Sourced (messages : List CorpusRecord) (files : Files) : Prop where
  corpora : ∀ path identity corpus, files path = some ⟨identity, .corpus corpus⟩ →
    corpus.records ⊆ messages
  catalogs : ∀ path identity s, files path = some ⟨identity, .sidecar s⟩ →
    ∀ record ∈ s.records, ∃ message ∈ messages, DerivedFrom message record

theorem Sourced.mono {messages' : List CorpusRecord}
    (h : Sourced messages files) (hsub : messages ⊆ messages') : Sourced messages' files where
  corpora path identity corpus hfile := 
    List.Subset.trans (h.corpora path identity corpus hfile) hsub
  catalogs path identity s hfile record hrecord := by
    obtain ⟨message, hmessage, hderived⟩ := h.catalogs path identity s hfile record hrecord
    exact ⟨message, hsub hmessage, hderived⟩

theorem Sourced.published (h : Sourced messages files) {fault : Moment → Option Error}
    (hpublished : call.sidecar? (.still files fault) = some s) :
    ∀ record ∈ s.records, ∃ message ∈ messages, DerivedFrom message record := by
  obtain ⟨build, decisions, hstaged, -⟩ := sidecar?_staged hpublished
  obtain ⟨identity, corpus, hfile, hrecords⟩ := hstaged.records
  intro record hrecord
  obtain ⟨message, hmessage, hderived⟩ := hrecords record hrecord
  exact ⟨message, h.corpora _ identity corpus hfile hmessage, hderived⟩

theorem sourced_call (h : Sourced messages files)
    (call : Call) (fault : Moment → Option Error) (identity : FileIdentity) :
    Sourced messages ((Step.invoke call fault identity).exec files) := by
  cases hpublished : call.sidecar? (.still files fault) with
  | none =>
    rw [exec_of_none identity hpublished]
    exact h
  | some s =>
    rw [exec_of_some identity hpublished]
    constructor
    · intro path identity' corpus hfile
      by_cases hpath : path = call.target
      · rw [hpath, Function.update_self] at hfile
        cases hfile
      · rw [Function.update_of_ne hpath] at hfile
        exact h.corpora path identity' corpus hfile
    · intro path identity' t hfile
      by_cases hpath : path = call.target
      · rw [hpath, Function.update_self] at hfile
        cases hfile
        exact h.published hpublished
      · rw [Function.update_of_ne hpath] at hfile
        exact h.catalogs path identity' t hfile

theorem sourced_filesAfter (steps : List Step) :
    Sourced (messagesOf steps) (filesAfter steps) := by
  induction steps using List.reverseRecOn with
  | nil => exact ⟨fun _ _ _ hfile => (by cases hfile), fun _ _ _ hfile => (by cases hfile)⟩
  | append_singleton steps step ih =>
    have hmessages : messagesOf (steps ++ [step]) = messagesOf steps ++ messagesOf [step] :=
      List.flatMap_append
    have hmono := ih.mono (List.subset_append_left _ (messagesOf [step]))
    rw [filesAfter_snoc, hmessages]
    cases step with
    | invoke call fault identity => exact sourced_call hmono call fault identity
    | other target file plain =>
      constructor
      · intro path identity corpus hfile
        change Function.update (filesAfter steps) target file path = _ at hfile
        by_cases hpath : path = target
        · rw [hpath, Function.update_self] at hfile
          subst hfile
          refine List.subset_append_of_subset_right _ ?_
          show corpus.records ⊆ corpus.records ++ []
          rw [List.append_nil]
          exact List.Subset.refl _
        · rw [Function.update_of_ne hpath] at hfile
          exact hmono.corpora path identity corpus hfile
      · intro path identity s hfile
        change Function.update (filesAfter steps) target file path = _ at hfile
        by_cases hpath : path = target
        · rw [hpath, Function.update_self] at hfile
          exact absurd hfile (plain identity s)
        · rw [Function.update_of_ne hpath] at hfile
          exact hmono.catalogs path identity s hfile

/-- Messages with different contents of one digest. -/
def CollidingContents (messages : List CorpusRecord) : Prop :=
  ∃ message ∈ messages, ∃ message' ∈ messages, ∃ data data',
    encodeUtf8 message.content = some data ∧ encodeUtf8 message'.content = some data'
      ∧ data ≠ data' ∧ sha256 data = sha256 data'

section
variable {messages : List CorpusRecord}

theorem record_eq_of_base {record record' : CatalogRecord}
    (h : ∃ message ∈ messages, DerivedFrom message record)
    (h' : ∃ message ∈ messages, DerivedFrom message record')
    (hbase : record.base = record'.base) : record = record' ∨ CollidingContents messages := by
  obtain ⟨message, hmessage, hfrom, hmade, data, hdata, hdigest⟩ := h
  obtain ⟨message', hmessage', hfrom', hmade', data', hdata', hdigest'⟩ := h'
  have hbases : message.base = message'.base := by rw [← hfrom, hbase, hfrom']
  have hsha : sha256 data = sha256 data' := by
    apply hex_injective
    rw [hdigest, hdigest', hbases]
  by_cases hsame : data = data'
  · left
    rw [← hsame] at hdata'
    have hcontent : message.content = message'.content :=
      Option.some.inj ((decodeUtf8_encodeUtf8 hdata).symm.trans (decodeUtf8_encodeUtf8 hdata'))
    rw [← hcontent, ← hbases, ← hmade] at hmade'
    injection hmade' with hstate hjson
    cases record
    cases record'
    simp only [CatalogRecord.mk.injEq]
    exact ⟨hbase, hstate.symm, hjson.symm⟩
  · exact .inr ⟨message, hmessage, message', hmessage', data, data', hdata, hdata', hsame, hsha⟩

theorem records_eq_of_bases {records records' : List CatalogRecord}
    (h : ∀ record ∈ records, ∃ message ∈ messages, DerivedFrom message record)
    (h' : ∀ record ∈ records', ∃ message ∈ messages, DerivedFrom message record)
    (hbases : records.map CatalogRecord.base = records'.map CatalogRecord.base) :
    records = records' ∨ CollidingContents messages := by
  induction records generalizing records' with
  | nil => exact .inl (List.map_eq_nil_iff.1 hbases.symm).symm
  | cons record records ih =>
    cases records' with
    | nil => cases hbases
    | cons record' records' =>
      rw [List.map_cons, List.map_cons] at hbases
      injection hbases with hbase hrest
      obtain ⟨hfirst, hall⟩ := List.forall_mem_cons.1 h
      obtain ⟨hfirst', hall'⟩ := List.forall_mem_cons.1 h'
      rcases record_eq_of_base hfirst hfirst' hbase with rfl | hcolliding
      · rcases ih hall hall' hrest with rfl | hcolliding
        · exact .inl rfl
        · exact .inr hcolliding
      · exact .inr hcolliding

end

/-- What the application of a review leaves in a run: nothing before it publishes, and then the
baseline with the reviewed pairs replaced. -/
def ExactIn (steps : List Step) (call : ApplyCall) (fault : Moment → Option Error)
    (identity : FileIdentity) : Prop :=
  let files := filesAfter steps
  let files' := (Step.invoke (.review call) fault identity).exec files
  match applyHistoryReviewResult (.still files fault) call with
  | .raised _ => files' = files
  | .published s _ => (∀ path, path ≠ call.output → files' path = files path)
      ∧ files' call.output = some ⟨identity, .sidecar s⟩
      ∧ ∃ identity₀ baseline identity₁ data result,
        files call.sidecarPath = some ⟨identity₀, .sidecar baseline⟩
          ∧ files call.resultPath = some ⟨identity₁, .artifact data⟩
          ∧ HoldsResult data result ∧ Applied baseline result s
          ∧ (s.records = baseline.records ∨ CollidingRows s.records baseline.records
            ∨ CollidingContents (messagesOf steps))

theorem exactIn_of_run (steps : List Step) (call : ApplyCall) (fault : Moment → Option Error)
    (identity : FileIdentity) : ExactIn steps call fault identity := by
  unfold ExactIn
  dsimp only
  cases hcall : applyHistoryReviewResult (.still (filesAfter steps) fault) call with
  | raised error =>
    apply exec_of_none
    show (applyHistoryReviewResult (.still (filesAfter steps) fault) call).sidecar? = none
    rw [hcall]
    rfl
  | published s reply =>
    have hpublished : (Call.review call).sidecar? (.still (filesAfter steps) fault) = some s := by
      show (applyHistoryReviewResult (.still (filesAfter steps) fault) call).sidecar? = some s
      rw [hcall]
      rfl
    obtain ⟨receipt, hstage⟩ := publish_sidecar? hpublished
    obtain ⟨identity₀, baseline, identity₁, data, result, hbaseline, hdata, hholds, happlied⟩ :=
      stageReview_eq_ok hstage
    have hsourced := sourced_filesAfter steps
    rw [exec_of_some identity hpublished]
    refine ⟨fun path hpath => Function.update_of_ne hpath _ _, Function.update_self _ _ _,
      identity₀, baseline, identity₁, data, result, hbaseline, hdata, hholds, happlied, ?_⟩
    rcases happlied.bases with hbases | hcolliding
    · have hpublishedRecords := hsourced.published hpublished
      have hbaselineRecords := hsourced.catalogs _ _ _ hbaseline
      rcases records_eq_of_bases hpublishedRecords hbaselineRecords hbases with hsame | hcolliding
      · exact .inl hsame
      · exact .inr (.inr hcolliding)
    · exact .inr (.inl hcolliding)

/-- What holds of the sidecar that is published, if one is. -/
def Outcome.Holds {α : Type} (p : Sidecar → Prop) : Outcome α → Prop
  | .raised _ => True
  | .published s _ => p s

/-- Whatever other programs do to the files during a call, what it publishes is the baseline
that was opened with the reviewed pairs replaced; in runs of the builders the catalog stays too,
a call that raises before it publishes leaves all files, and reviewed decisions come from
successors and reviews. -/
theorem reviews_apply_exactly (steps : List Step) :
    (∀ (o : Observed) (call : ApplyCall), (applyHistoryReviewResult o call).Holds fun s =>
      ∃ identity baseline identity' data result,
        o.seen .opening call.sidecarPath = some ⟨identity, .sidecar baseline⟩
          ∧ o.seen .start call.resultPath = some ⟨identity', .artifact data⟩
          ∧ HoldsResult data result ∧ Applied baseline result s)
      ∧ (∀ call fault identity, ExactIn steps call fault identity)
      ∧ ∀ path decision, ReviewedAt (filesAfter steps) path decision →
        ∃ before step after, steps = before ++ step :: after ∧ step.ReviewsAt path
          ∧ ¬ReviewedAt (filesAfter before) path decision
          ∧ ReviewedAt (filesAfter (before ++ [step])) path decision := by
  refine ⟨?_, exactIn_of_run steps, fun path decision => reviewedAt_filesAfter⟩
  intro o call
  cases hcall : applyHistoryReviewResult o call with
  | raised error => trivial
  | published s reply =>
    have hpublished : (publish o (stageReview o call)).sidecar? = some s := by
      unfold applyHistoryReviewResult at hcall
      rw [hcall]
      rfl
    obtain ⟨receipt, hstage⟩ := publish_sidecar? hpublished
    exact stageReview_eq_ok hstage

end

end IntegrityGuardian.History
