import IntegrityGuardian.Discovery.Confluence
import IntegrityGuardian.Discovery.Reached

/-!
# The dry run of admission

`evaluate_discovery_admission_batch` repeats the admission loop of `apply` on
copies that it builds from the active records.  The copy of the semantic history
has no entry for an assertion that is not active, while the history of the index
keeps the identity of every assertion it ever admitted.
-/

namespace IntegrityGuardian.Discovery

open Python Library

section
variable [UnicodeData]

/-! ## The dry run -/

/-- The local variables of the dry run. -/
structure DryRun where
  staged : Dict ActiveKey Record
  history : Dict ActiveKey Str

/-- One pass over the active records. -/
def DryRun.load (policy : DiscoveryAdmissionPolicy) (d : DryRun) (record : Record) :
    Except Error DryRun :=
  match policy.bindingFor record with
  | none => .error (.admission (str "unbound active source"))
  | some binding => do
    let identity ← raising (semanticIdentity record binding)
    .ok ⟨d.staged.insert record.activeKey record, d.history.insert record.activeKey identity⟩

/-- The part of the second loop after an admission. -/
def DryRun.settle (d : DryRun) (candidate : Record) (identity : Option Str) : DryRun :=
  ⟨applyRecord d.staged candidate, historyAfter d.history candidate identity⟩

/-- The second loop. -/
def dryRunEach (policy : DiscoveryAdmissionPolicy) (reviewPriority : Json) :
    List Record → DryRun → List DiscoveryAdmissionDecision →
      Except Error (List DiscoveryAdmissionDecision)
  | [], _, decisions => .ok decisions
  | candidate :: rest, d, decisions => do
    let decision ← evaluateDiscoveryAdmission policy candidate d.staged[candidate.activeKey]?
      d.history[candidate.activeKey]? reviewPriority
    if decision.action = .quarantine then .ok (decisions ++ [decision])
    else
      dryRunEach policy reviewPriority rest (d.settle candidate decision.semanticIdentity)
        (decisions ++ [decision])

/-- `evaluate_discovery_admission_batch`. -/
def evaluateDiscoveryAdmissionBatch (policy : DiscoveryAdmissionPolicy)
    (candidates activeRecords : List Record) (reviewPriority : Json) :
    Except Error (List DiscoveryAdmissionDecision) := do
  let d ← activeRecords.foldlM (DryRun.load policy) ⟨∅, ∅⟩
  dryRunEach policy reviewPriority candidates d []

/-- `active_records`. -/
def Index.activeRecords (index : Index) : List Record := index.active.toList.map Prod.snd

/-! ## Decisions and history -/

theorem judge_of_current (policy : DiscoveryAdmissionPolicy) (candidate current : Record)
    (historical historical' : Option Str) :
    judge policy candidate (some current) historical =
      judge policy candidate (some current) historical' := rfl

/-- Without an active record, a bound candidate gets another reason with a history
than without one. -/
theorem reason_of_history {policy : DiscoveryAdmissionPolicy} {candidate : Record}
    {past : Str} {verdict verdict' : Verdict} (h : policy.bindingFor candidate ≠ none)
    (hpast : judge policy candidate none (some past) = .ok verdict)
    (hnone : judge policy candidate none none = .ok verdict') : verdict.2.1 ≠ verdict'.2.1 := by
  unfold judge at hpast hnone
  cases hbinding : policy.bindingFor candidate with
  | none => exact absurd hbinding h
  | some binding =>
    rw [hbinding] at hpast hnone
    obtain ⟨identity, hidentity, hpast⟩ := bind_eq_ok.1 hpast
    simp only [hidentity, ok_bind] at hnone
    cases hnone
    unfold judgeNew at hpast
    simp only at hpast
    split at hpast <;> cases hpast <;> simp [judgeNew]

/-! ## Both loops -/

/-- A bound candidate whose assertion is not active, was not named before in its
batch, and has an identity in the history of the index. -/
def Forgets (policy : DiscoveryAdmissionPolicy) (index : Index) (before : List Record)
    (candidate : Record) : Prop :=
  policy.bindingFor candidate ≠ none ∧ index.active[candidate.activeKey]? = none ∧
    index.semanticHistory[candidate.activeKey]? ≠ none ∧
    ∀ record ∈ before, record.activeKey ≠ candidate.activeKey

/-- What the dry run holds when both loops have admitted the same records. -/
structure Mirrors (index : Index) (before : List Record) (s : Staged) (d : DryRun) : Prop where
  staged : d.staged = s.active
  unseen : ∀ key : ActiveKey, (∀ record ∈ before, record.activeKey ≠ key) →
    s.active[key]? = index.active[key]? ∧ s.semanticHistory[key]? = index.semanticHistory[key]? ∧
      d.history[key]? =
        if (index.active[key]?).isSome then index.semanticHistory[key]? else none
  seen : ∀ record ∈ before, d.history[record.activeKey]? = s.semanticHistory[record.activeKey]?
  valid : ∀ (key : ActiveKey) (identity : Str), d.history[key]? = some identity →
    Schemas.hashBody "discovery-semantic:" identity = true

section
variable {policy : DiscoveryAdmissionPolicy} {index : Index} {before : List Record} {s : Staged}
  {d : DryRun} {candidate : Record} {reviewPriority : Json}
  {decision : DiscoveryAdmissionDecision}

theorem Mirrors.judge_eq (h : Mirrors index before s d)
    (hforgets : ¬Forgets policy index before candidate) :
    judge policy candidate d.staged[candidate.activeKey]? d.history[candidate.activeKey]? =
      judge policy candidate s.active[candidate.activeKey]?
        s.semanticHistory[candidate.activeKey]? := by
  rw [h.staged]
  cases hcurrent : s.active[candidate.activeKey]? with
  | some current => exact judge_of_current policy candidate current _ _
  | none =>
    by_cases hseen : ∀ record ∈ before, record.activeKey ≠ candidate.activeKey
    · obtain ⟨hactive, hhistory, hdry⟩ := h.unseen _ hseen
      rw [hcurrent] at hactive
      rw [← hactive] at hdry
      rw [hdry, hhistory]
      cases hpast : index.semanticHistory[candidate.activeKey]? with
      | none => rfl
      | some past =>
        have hunbound : policy.bindingFor candidate = none := by
          by_contra hbound
          exact hforgets ⟨hbound, hactive.symm, by simp [hpast], hseen⟩
        rw [judge_of_unbound hunbound, judge_of_unbound hunbound]
    · push Not at hseen
      obtain ⟨record, hrecord, hkey⟩ := hseen
      have hsame := h.seen record hrecord
      rw [hkey] at hsame
      rw [hsame]

theorem Mirrors.evaluates (h : Mirrors index before s d)
    (hforgets : ¬Forgets policy index before candidate)
    (hdecision : evaluateDiscoveryAdmission policy candidate s.active[candidate.activeKey]?
      s.semanticHistory[candidate.activeKey]? reviewPriority = .ok decision) :
    evaluateDiscoveryAdmission policy candidate d.staged[candidate.activeKey]?
      d.history[candidate.activeKey]? reviewPriority = .ok decision := by
  obtain ⟨-, priority, verdict, hpriority, hverdict, rfl⟩ := evaluate_eq_ok.1 hdecision
  refine evaluate_eq_ok.2 ⟨?_, priority, verdict, hpriority, ?_, by rw [h.staged]⟩
  · cases hhistory : d.history[candidate.activeKey]? with
    | none => rfl
    | some identity => exact h.valid _ identity hhistory
  · rw [h.judge_eq hforgets]
    exact hverdict

theorem Mirrors.disagrees (h : Mirrors index before s d)
    (hforgets : Forgets policy index before candidate)
    (hdecision : evaluateDiscoveryAdmission policy candidate s.active[candidate.activeKey]?
      s.semanticHistory[candidate.activeKey]? reviewPriority = .ok decision)
    {decision' : DiscoveryAdmissionDecision}
    (hdecision' : evaluateDiscoveryAdmission policy candidate d.staged[candidate.activeKey]?
      d.history[candidate.activeKey]? reviewPriority = .ok decision') : decision' ≠ decision := by
  obtain ⟨hbound, hactive, hpast, hseen⟩ := hforgets
  obtain ⟨hsame, hhistory, hdry⟩ := h.unseen _ hseen
  rw [hactive] at hsame hdry
  obtain ⟨past, hpast⟩ := Option.ne_none_iff_exists'.1 hpast
  rw [hsame, hhistory, hpast] at hdecision
  rw [h.staged, hsame, hdry] at hdecision'
  obtain ⟨-, _, verdict, -, hverdict, rfl⟩ := evaluate_eq_ok.1 hdecision
  obtain ⟨-, _, verdict', -, hverdict', rfl⟩ := evaluate_eq_ok.1 hdecision'
  intro heq
  exact reason_of_history hbound hverdict hverdict'
    (congrArg DiscoveryAdmissionDecision.reason heq).symm

omit [UnicodeData] in
theorem Mirrors.settle (h : Mirrors index before s d) {identity digest : Str}
    (hvalid : Schemas.hashBody "discovery-semantic:" identity = true) :
    Mirrors index (before ++ [candidate]) (s.next candidate digest (some identity))
      (d.settle candidate (some identity)) := by
  refine ⟨by simp [DryRun.settle, Staged.next, h.staged], ?_, ?_, ?_⟩
  · intro key hunseen
    have hne : candidate.activeKey ≠ key := hunseen candidate (by simp)
    obtain ⟨hactive, hhistory, hdry⟩ :=
      h.unseen key fun record hrecord => hunseen record (List.mem_append_left _ hrecord)
    refine ⟨?_, ?_, ?_⟩
    · rw [← hactive]
      simp only [Staged.next, applyRecord]
      cases candidate.change with
      | upsert => rw [Dict.get_insert, if_neg hne]
      | delete => rw [Dict.get_erase, if_neg hne]
    · rw [← hhistory]
      simp only [Staged.next, historyAfter, Dict.get_insert, if_neg hne]
    · rw [← hdry]
      simp only [DryRun.settle, historyAfter, Dict.get_insert, if_neg hne]
  · intro record hrecord
    simp only [DryRun.settle, Staged.next, historyAfter, Dict.get_insert]
    by_cases hkey : candidate.activeKey = record.activeKey
    · rw [if_pos hkey, if_pos hkey]
    · rw [if_neg hkey, if_neg hkey]
      rcases List.mem_append.1 hrecord with hbefore | hlast
      · exact h.seen record hbefore
      · exact absurd (List.mem_singleton.1 hlast ▸ rfl) hkey
  · intro key found hfound
    simp only [DryRun.settle, historyAfter, Dict.get_insert] at hfound
    split at hfound
    · cases hfound
      exact hvalid
    · exact h.valid key found hfound

end

theorem dryRunEach_initial {policy : DiscoveryAdmissionPolicy} {reviewPriority : Json}
    {candidates : List Record} {d : DryRun} {decisions final : List DiscoveryAdmissionDecision}
    (h : dryRunEach policy reviewPriority candidates d decisions = .ok final) :
    decisions <+: final := by
  induction candidates generalizing d decisions with
  | nil =>
    cases h
    exact List.prefix_refl _
  | cons candidate rest ih =>
    rw [dryRunEach] at h
    obtain ⟨decision, _, h⟩ := bind_eq_ok.1 h
    split at h
    · cases h
      exact List.prefix_append _ _
    · exact (List.prefix_append _ _).trans (ih h)

omit [UnicodeData] in
theorem eq_of_prefixes {α : Type} {xs final : List α} {x y : α} (hx : xs ++ [x] <+: final)
    (hy : xs ++ [y] <+: final) : x = y := by
  have hprefix := List.prefix_of_prefix_length_le hx hy (by simp)
  have heq := hprefix.eq_of_length (by simp)
  simpa using heq

variable [Ed25519Keys]

/-! ## Recorded decisions -/

/-- What a call assigns to `_last_admission_decisions`. -/
def recordedDecisions (config : Config) (records : List Json) (reviewPriority : Json)
    (index : Index) : Option (List DiscoveryAdmissionDecision) :=
  if 1 ≤ records.length ∧ records.length ≤ 1000 then
    match stageEach config reviewPriority records (Staged.start index) [] [] with
    | .raised _ => none
    | .quarantined _ _ _ _ decisions => some decisions
    | .staged s accepted decisions =>
      match issueReceipt config s accepted with
      | .error _ => none
      | .ok _ => some decisions
  else none

/-- The records of a batch that admission lets pass. -/
def AdmitsAll (config : Config) (reviewPriority : Json) (index : Index)
    (records : List Record) : Prop :=
  ∃ s accepted decisions, stageEach config reviewPriority (records.map Record.document)
    (Staged.start index) [] [] = .staged s accepted decisions

/-! ## Loading the active records -/

/-- The dry run starts from the active records, with the identities of the history. -/
theorem load_active {config : Config} {policy : DiscoveryAdmissionPolicy} {index : Index}
    (hpolicy : config.admissionPolicy = some policy)
    (h : Known config index.active index.semanticHistory) :
    ∃ d, index.activeRecords.foldlM (DryRun.load policy) ⟨∅, ∅⟩ = .ok d ∧
      Mirrors index [] (Staged.start index) d := by
  have hload : ∀ items : List (ActiveKey × Record),
      (∀ item ∈ items, index.active[item.1]? = some item.2) →
      ∃ d, (items.map Prod.snd).foldlM (DryRun.load policy) ⟨∅, ∅⟩ = .ok d ∧
        ∀ key : ActiveKey,
          (d.staged[key]? = if key ∈ items.map Prod.fst then index.active[key]? else none) ∧
          d.history[key]? =
            if key ∈ items.map Prod.fst then index.semanticHistory[key]? else none := by
    intro items
    induction items using List.reverseRecOn with
    | nil => exact fun _ => ⟨⟨∅, ∅⟩, rfl, fun key => by simp⟩
    | append_singleton items item ih =>
      intro hitems
      obtain ⟨d, hd, hkeys⟩ := ih fun i hi => hitems i (List.mem_append_left _ hi)
      have hactive := hitems item (by simp)
      have hkey := h.keys _ _ hactive
      obtain ⟨identity, hidentity, hentry⟩ := h.covers policy hpolicy _ _ hactive
      have hstep : DryRun.load policy d item.2 =
          .ok ⟨d.staged.insert item.1 item.2, d.history.insert item.1 identity⟩ := by
        unfold discoverySemanticIdentity at hidentity
        cases hbinding : policy.bindingFor item.2 with
        | none => simp [hbinding] at hidentity
        | some binding =>
          rw [hbinding] at hidentity
          unfold DryRun.load
          rw [hbinding, hkey]
          exact bind_eq_ok.2 ⟨identity, hidentity, rfl⟩
      refine ⟨⟨d.staged.insert item.1 item.2, d.history.insert item.1 identity⟩, ?_, ?_⟩
      · rw [List.map_append, List.foldlM_append, hd, ok_bind]
        exact bind_eq_ok.2 ⟨_, hstep, rfl⟩
      · intro key
        obtain ⟨hstaged, hhistory⟩ := hkeys key
        simp only [Dict.get_insert, List.map_append, List.mem_append]
        by_cases heq : item.1 = key
        · rw [← heq]
          simp [hactive, hentry]
        · have hlast : key ∉ [item].map Prod.fst := fun hmem => heq (List.mem_singleton.1 hmem).symm
          rw [if_neg heq, if_neg heq, hstaged, hhistory]
          simp only [hlast, or_false, and_self]
  obtain ⟨d, hd, hkeys⟩ := hload index.active.toList fun item hitem => Dict.mem_toList.1 hitem
  have hmem : ∀ key : ActiveKey, key ∈ index.active.toList.map Prod.fst ↔
      (index.active[key]?).isSome = true := by
    intro key
    rw [List.mem_map, Option.isSome_iff_exists]
    constructor
    · rintro ⟨item, hitem, rfl⟩
      exact ⟨item.2, Dict.mem_toList.1 hitem⟩
    · rintro ⟨record, hrecord⟩
      exact ⟨(key, record), Dict.mem_toList.2 hrecord, rfl⟩
  refine ⟨d, hd, ?_, ?_, by simp, ?_⟩
  · apply Dict.ext
    intro key
    rw [(hkeys key).1]
    simp only [hmem, Staged.start]
    cases index.active[key]? <;> rfl
  · intro key _
    refine ⟨rfl, rfl, ?_⟩
    rw [(hkeys key).2]
    simp only [hmem]
  · intro key identity hidentity
    rw [(hkeys key).2] at hidentity
    simp only [hmem] at hidentity
    split at hidentity
    · rename_i hactive
      obtain ⟨record, hrecord⟩ := Option.isSome_iff_exists.1 hactive
      obtain ⟨found, hfound, hentry⟩ := h.covers policy hpolicy key record hrecord
      rw [hentry] at hidentity
      cases hidentity
      exact hashBody_of_identity hfound
    · cases hidentity

/-! ## The loops side by side -/

/-- The decisions a loop has come to. -/
def Pass.decisions : Pass → Option (List DiscoveryAdmissionDecision)
  | .staged _ _ decisions => some decisions
  | .quarantined _ _ _ _ decisions => some decisions
  | .raised _ => none

theorem stageEach_append (config : Config) (reviewPriority : Json) (raws raws' : List Json)
    (s : Staged) (accepted : List Record) (decisions : List DiscoveryAdmissionDecision) :
    stageEach config reviewPriority (raws ++ raws') s accepted decisions =
      match stageEach config reviewPriority raws s accepted decisions with
      | .staged s' accepted' decisions' =>
        stageEach config reviewPriority raws' s' accepted' decisions'
      | pass => pass := by
  induction raws generalizing s accepted decisions with
  | nil => rfl
  | cons raw raws ih =>
    rw [List.cons_append, stageEach, stageEach]
    cases stageOne config reviewPriority s raw with
    | error halt => cases halt <;> rfl
    | ok passed =>
      obtain ⟨record, decision, s'⟩ := passed
      exact ih s' _ _

theorem stageEach_prefix {config : Config} {reviewPriority : Json} {raws : List Json}
    {s : Staged} {accepted : List Record} {decisions final : List DiscoveryAdmissionDecision}
    (h : (stageEach config reviewPriority raws s accepted decisions).decisions = some final) :
    decisions <+: final := by
  induction raws generalizing s accepted decisions with
  | nil =>
    cases h
    exact List.prefix_refl _
  | cons raw raws ih =>
    rw [stageEach] at h
    cases hone : stageOne config reviewPriority s raw with
    | error halt =>
      rw [hone] at h
      cases halt with
      | raised e => cases h
      | quarantined s' record decision =>
        cases h
        exact List.prefix_append _ _
    | ok passed =>
      rw [hone] at h
      exact (List.prefix_append _ _).trans (ih h)

variable {config : Config} {decision : DiscoveryAdmissionDecision} {index : Index}
  {reviewPriority : Json} {record : Record} {s : Staged} {digest : Str}

theorem admission_of_policy {policy : DiscoveryAdmissionPolicy}
    (hpolicy : config.admissionPolicy = some policy) {answer : Option DiscoveryAdmissionDecision}
    (h : admission config reviewPriority (s.advance record digest) record = .ok answer) :
    ∃ decision, answer = some decision ∧
      evaluateDiscoveryAdmission policy record s.active[record.activeKey]?
        s.semanticHistory[record.activeKey]? reviewPriority = .ok decision := by
  unfold admission at h
  rw [hpolicy] at h
  obtain ⟨decision, hdecision, h⟩ := bind_eq_ok.1 h
  cases h
  exact ⟨decision, rfl, hdecision⟩

theorem record_of_received {tips : Dict SourceKey (Int × Str)} {candidate : Record}
    (hread : readRecord candidate.document = .ok candidate)
    (h : Received config tips candidate.document record digest) : record = candidate := by
  obtain ⟨source, -, hverified⟩ := h.source
  have hrecord := hverified.read
  rw [h.document, hread] at hrecord
  exact (Except.ok.inj hrecord).symm

/-- From any point where both loops have admitted the same records, they record the
same decisions exactly when no candidate that admission still reaches is forgotten. -/
theorem dryRunEach_iff {config : Config} {policy : DiscoveryAdmissionPolicy}
    (hpolicy : config.admissionPolicy = some policy) {reviewPriority : Json} {index : Index}
    {before rest : List Record} {s : Staged} {d : DryRun} {accepted : List Record}
    {decisions final : List DiscoveryAdmissionDecision}
    (hread : ∀ candidate ∈ rest, readRecord candidate.document = .ok candidate)
    (hstage : stageEach config reviewPriority (before.map Record.document)
      (Staged.start index) [] [] = .staged s accepted decisions)
    (hmirrors : Mirrors index before s d)
    (hfinal : (stageEach config reviewPriority (rest.map Record.document) s accepted
      decisions).decisions = some final) :
    dryRunEach policy reviewPriority rest d decisions = .ok final ↔
      ∀ earlier candidate later, rest = earlier ++ candidate :: later →
        AdmitsAll config reviewPriority index (before ++ earlier) →
          ¬Forgets policy index (before ++ earlier) candidate := by
  induction rest generalizing before s d accepted decisions with
  | nil =>
    cases hfinal
    refine iff_of_true rfl ?_
    intro earlier candidate later heq
    simp at heq
  | cons candidate rest ih =>
    obtain ⟨hcandidate, hrest⟩ := List.forall_mem_cons.1 hread
    have hadmits : AdmitsAll config reviewPriority index (before ++ []) :=
      ⟨s, accepted, decisions, by rw [List.append_nil, hstage]⟩
    -- the batch up to and with the candidate, as the loop of `apply` sees it
    have hsnoc : ∀ later : List Record,
        stageEach config reviewPriority
            ((before ++ candidate :: later).map Record.document) (Staged.start index) [] [] =
          stageEach config reviewPriority ((candidate :: later).map Record.document) s accepted
            decisions := by
      intro later
      rw [List.map_append, stageEach_append, hstage]
    have hforgotten : ∀ decision,
        evaluateDiscoveryAdmission policy candidate s.active[candidate.activeKey]?
            s.semanticHistory[candidate.activeKey]? reviewPriority = .ok decision →
          decisions ++ [decision] <+: final → Forgets policy index before candidate →
            dryRunEach policy reviewPriority (candidate :: rest) d decisions ≠ .ok final := by
      intro decision hdecision hprefix hforgets hdry
      rw [dryRunEach] at hdry
      obtain ⟨decision', hdecision', hdry⟩ := bind_eq_ok.1 hdry
      apply hmirrors.disagrees hforgets hdecision hdecision'
      split at hdry
      · cases hdry
        exact (eq_of_prefixes hprefix (List.prefix_refl _)).symm
      · exact eq_of_prefixes (dryRunEach_initial hdry) hprefix
    rw [List.map_cons, stageEach] at hfinal
    cases hone : stageOne config reviewPriority s candidate.document with
    | error halt =>
      rw [hone] at hfinal
      cases halt with
      | raised e => cases hfinal
      | quarantined s' record decision =>
        obtain ⟨digest, hreceived, hadmission, haction, rfl⟩ := stageOne_eq_quarantined hone
        obtain rfl := record_of_received hcandidate hreceived
        obtain ⟨decision', hsome, hdecision⟩ := admission_of_policy hpolicy hadmission
        cases hsome
        cases hfinal
        by_cases hforgets : Forgets policy index before record
        · refine iff_of_false
            (hforgotten decision hdecision (List.prefix_refl _) hforgets) ?_
          intro hnone
          exact hnone [] record rest rfl hadmits (by rwa [List.append_nil])
        · refine iff_of_true ?_ ?_
          · rw [dryRunEach, hmirrors.evaluates hforgets hdecision, ok_bind, if_pos haction]
          · intro earlier found later heq hall
            cases earlier with
            | nil =>
              cases heq
              rwa [List.append_nil]
            | cons first earlier =>
              cases heq
              obtain ⟨t, accepted', decisions', hall⟩ := hall
              rw [hsnoc, List.map_cons, stageEach, hone] at hall
              cases hall
    | ok passed =>
      obtain ⟨record, answer, s'⟩ := passed
      rw [hone] at hfinal
      obtain ⟨digest, hreceived, hadmission, haction, hnext⟩ := stageOne_eq_ok hone
      obtain rfl := record_of_received hcandidate hreceived
      have hjudged := admits_of_admission hadmission haction
      obtain ⟨decision, rfl, hdecision⟩ := admission_of_policy hpolicy hadmission
      obtain ⟨identity, hidentity, hown, -, -⟩ := identity_of_admits hpolicy hjudged
      simp only [Option.bind_some] at hidentity
      have hprefix : decisions ++ [decision] <+: final := stageEach_prefix hfinal
      have hstage' : stageEach config reviewPriority ((before ++ [record]).map Record.document)
          (Staged.start index) [] [] =
            .staged s' (accepted ++ [record]) (decisions ++ [decision]) := by
        rw [hsnoc, List.map_cons, stageEach, hone]
        rfl
      by_cases hforgets : Forgets policy index before record
      · refine iff_of_false (hforgotten decision hdecision hprefix hforgets) ?_
        intro hnone
        exact hnone [] record rest rfl hadmits (by rwa [List.append_nil])
      · have hadmitted : decision.action ≠ .quarantine := by
          rw [haction decision rfl]
          simp
        have hmirrors' : Mirrors index (before ++ [record]) s'
            (d.settle record decision.semanticIdentity) := by
          rw [hnext, Option.bind_some, Staged.settle_eq_next, hidentity]
          exact hmirrors.settle (hashBody_of_identity hown)
        rw [dryRunEach, hmirrors.evaluates hforgets hdecision, ok_bind, if_neg hadmitted,
          ih hrest hstage' hmirrors' hfinal]
        constructor
        · intro hnone earlier found later heq hall
          cases earlier with
          | nil =>
            cases heq
            rwa [List.append_nil]
          | cons first earlier =>
            cases heq
            have hrun := hnone earlier found later rfl
            rw [List.append_assoc, List.singleton_append] at hrun
            exact hrun hall
        · intro hnone earlier found later heq hall
          rw [List.append_assoc, List.singleton_append] at hall ⊢
          exact hnone (record :: earlier) found later (by rw [heq, List.cons_append]) hall

/-- The dry run on the active records of a reachable index comes to the decisions
that `apply` records for the same batch, exactly when no candidate up to the first
quarantined one names an assertion that only the history of the index remembers. -/
theorem dry_run_agrees_iff (config : Config) (policy : DiscoveryAdmissionPolicy)
    (hpolicy : config.admissionPolicy = some policy) (index : Index)
    (hreached : Reached config index) (candidates : List Record)
    (hread : ∀ candidate ∈ candidates, readRecord candidate.document = .ok candidate)
    (reviewPriority : Json) (decisions : List DiscoveryAdmissionDecision)
    (hrecorded : recordedDecisions config (candidates.map Record.document) reviewPriority index =
      some decisions) :
    evaluateDiscoveryAdmissionBatch policy candidates index.activeRecords reviewPriority =
        .ok decisions ↔
      ∀ before candidate after, candidates = before ++ candidate :: after →
        AdmitsAll config reviewPriority index before →
          ¬Forgets policy index before candidate := by
  have hfinal : (stageEach config reviewPriority (candidates.map Record.document)
      (Staged.start index) [] []).decisions = some decisions := by
    unfold recordedDecisions at hrecorded
    split at hrecorded
    · cases hcase : stageEach config reviewPriority (candidates.map Record.document)
          (Staged.start index) [] [] with
      | raised e => simp [hcase] at hrecorded
      | quarantined s accepted record reason final =>
        rw [hcase] at hrecorded
        exact hrecorded
      | staged s accepted final =>
        simp only [hcase] at hrecorded
        cases hissue : issueReceipt config s accepted with
        | error e => simp [hissue] at hrecorded
        | ok receipt =>
          rw [hissue] at hrecorded
          exact hrecorded
    · cases hrecorded
  obtain ⟨d, hload, hmirrors⟩ := load_active hpolicy hreached.known
  unfold evaluateDiscoveryAdmissionBatch
  rw [hload, ok_bind]
  exact dryRunEach_iff hpolicy hread rfl hmirrors hfinal

/-! ## An assertion that comes back -/

theorem perform_apply (config : Config) (index : Index) (records : List Document)
    (reviewPriority : Json) :
    perform config index (.apply records reviewPriority) =
      apply config (records.map Document.value) reviewPriority index := rfl

theorem apply_quarantined
    {raw raw' : Json} {record' : Record} {decision' : DiscoveryAdmissionDecision} {t : Staged}
    (hfirst : stageOne config reviewPriority (Staged.start index) raw =
      .ok (record, some decision, s)) (hsecond : stageOne config reviewPriority s raw' =
      .error (.quarantined t record' decision')) :
    (apply config [raw, raw'] reviewPriority index).2 =
      index.commitQuarantine t [decision, decision'] := by
  unfold apply
  rw [if_pos (by simp), stageEach, hfirst]
  simp only [stageEach, hsecond, List.nil_append, List.cons_append, Option.toList]

theorem recorded_one {raw receipt : Json}
    (hone : stageOne config reviewPriority (Staged.start index) raw =
      .ok (record, some decision, s)) (hissue : issueReceipt config s [record] = .ok receipt) :
    recordedDecisions config [raw] reviewPriority index = some [decision] := by
  unfold recordedDecisions
  rw [if_pos (by simp), stageEach, hone]
  simp only [stageEach, List.nil_append, Option.toList, hissue]

end

namespace Sample

attribute [local instance] asciiUnicodeData ed25519

def returnedHash : Bytes :=
  [220, 137, 204, 6, 23, 176, 240, 82, 182, 56, 244, 20, 15, 26, 213, 109, 72, 220, 239, 6, 57, 95,
    51, 82, 109, 212, 172, 195, 47, 62, 176, 187]

def returnedDigest : Str := str "sha256:" ++ hex
  [74, 167, 105, 18, 79, 3, 240, 63, 65, 151, 6, 147, 182, 117, 32, 143, 201, 239, 84, 42, 205, 3,
    92, 188, 164, 24, 113, 252, 111, 159, 178, 159]

/-- The entity of the first source, upserted again. -/
def returned : Record :=
  { bound with
    document := .fields [
      ("record_id", .str (str "discovery-record:" ++ hex returnedHash)),
      ("protocol", .str (str "integrity-guardian/discovery-record/v1")),
      ("tenant_id", .str (str "tenant:t")),
      ("source_id", .str (str "a")),
      ("source_epoch", .str (str "e")),
      ("sequence", .int 1),
      ("observed_at", .str (str "2026-01-01T00:00:00Z")),
      ("zone_id", .str (str "z")),
      ("change", .str (str "upsert")),
      ("assertion", .fields [("kind", .str (str "entity")), ("entity_id", .str (str "x")),
        ("entity_type", .str (str "y"))]),
      ("evidence", .fields [("state", .str (str "present")), ("provenance", .str (str "OBSERVED")),
        ("confidence_ppm", .int 0), ("content_digest", .null),
        ("source_artifact_digest", .str artifact),
        ("coverage", .fields [("state", .str (str "partial")),
          ("scope_digest", .str artifact)])]),
      ("previous_record_digest", .str boundDigest),
      ("collector_boundary", discoveryBoundary),
      ("signature", signatureObject (str "k") (base64url (List.replicate 64 0)))]
    recordId := str "discovery-record:" ++ hex returnedHash
    sequence := 1
    previousRecordDigest := some boundDigest }

/-- The index after the unbound entity of the same batch is quarantined. -/
def dropped : Index :=
  Index.empty.commitQuarantine (first.advance unbound unboundDigest)
    [admitted bound "new-source-owned-assertion", refused]

/-- The bound entity is admitted a second time. -/
def second : Staged :=
  ((Staged.start dropped).advance returned returnedDigest).settle returned (some semantic)

theorem received_returned : receive (config none) dropped.sourceTips returned.document =
    .ok (returned, returnedDigest) := by
  decide +kernel

theorem decided_returned :
    evaluateDiscoveryAdmission policy returned none (some semantic) (.int 0) =
      .ok (admitted returned "historical-semantic-reintroduction") := by
  decide +kernel

theorem stage_returned :
    stageOne (config (some policy)) (.int 0) (Staged.start dropped) returned.document =
      .ok (returned, some (admitted returned "historical-semantic-reintroduction"), second) :=
  stage_admitted received_returned (Dict.get_empty _) (by decide +kernel) decided_returned

def documents : List Document :=
  [⟨boundRecord, by decide +kernel⟩, ⟨unboundRecord, by decide +kernel⟩]

theorem reached_dropped : Reached (config (some policy)) dropped := by
  have hvalues : documents.map Document.value = [boundRecord, unboundRecord] := rfl
  have hcall := @Reached.called _ _ (config (some policy)) _ .fresh (.apply documents (.int 0))
  rwa [perform_apply, hvalues, apply_quarantined stage_bound stage_unbound] at hcall

theorem recorded_returned :
    recordedDecisions (config (some policy)) [returned.document] (.int 0) dropped =
      some [admitted returned "historical-semantic-reintroduction"] := by
  have hissuable : Issuable (config (some policy)) second [returned] := by
    constructor <;> decide +kernel
  obtain ⟨receipt, hreceipt⟩ := hissuable.returns (lawful _)
  exact recorded_one stage_returned hreceipt

/-- On the empty index, a dry run of the bound entity. -/
theorem first_record_agrees :
    evaluateDiscoveryAdmissionBatch policy [bound] Index.empty.activeRecords (.int 0) =
        .ok [admitted bound "new-source-owned-assertion"] ↔
      ∀ before candidate after, [bound] = before ++ candidate :: after →
        AdmitsAll (config (some policy)) (.int 0) Index.empty before →
          ¬Forgets policy Index.empty before candidate := by
  have hissuable : Issuable (config (some policy)) first [bound] := by
    constructor <;> decide +kernel
  obtain ⟨receipt, hreceipt⟩ := hissuable.returns (lawful _)
  have hread : readRecord bound.document = .ok bound := by decide +kernel
  exact dry_run_agrees_iff (config (some policy)) policy rfl Index.empty .fresh [bound]
    (by simpa using hread) (.int 0) _ (recorded_one stage_bound hreceipt)

/-- The index remembers the entity that the quarantine dropped, the dry run takes
it for new. -/
theorem returned_record_disagrees :
    ∃ index candidates decisions, Reached (config (some policy)) index ∧
      recordedDecisions (config (some policy)) (candidates.map Record.document) (.int 0) index =
        some decisions ∧
      evaluateDiscoveryAdmissionBatch policy candidates index.activeRecords (.int 0) ≠
        .ok decisions := by
  refine ⟨dropped, [returned], [admitted returned "historical-semantic-reintroduction"],
    reached_dropped, ?_, ?_⟩
  · rw [List.map_cons, List.map_nil]
    exact recorded_returned
  · decide +kernel

end Sample

end IntegrityGuardian.Discovery
