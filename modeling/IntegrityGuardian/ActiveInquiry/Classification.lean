import IntegrityGuardian.ActiveInquiry.Runs

/-!
# What a plan reports

Probes are left out one by one before the rest is asked whether it tells the worlds
apart.  A probe without a gain tells no pair of opposite answers apart, and a used one
is constant on the worlds that remain, so leaving them out loses nothing.
-/

namespace IntegrityGuardian.ActiveInquiry

open Python Library Library.Disagreement Library.Durable

namespace Inquiry

variable {q : Inquiry} {s t : State} {gate : Option Gate}

/-! ## Used probes -/

variable (q) in
/-- A used probe predicts one token for all remaining worlds. -/
def Settled (s : State) : Prop :=
  ∀ probe ∈ q.probes, probe.probeId ∈ s.used →
    ∀ a ∈ s.remaining, ∀ b ∈ s.remaining, probe.predict a = probe.predict b

theorem settled_of_subset (h : q.Settled s) (hused : t.used = s.used)
    (hremaining : t.remaining ⊆ s.remaining) : q.Settled t := by
  intro probe hprobe hmem a ha b hb
  rw [hused] at hmem
  exact h probe hprobe hmem a (hremaining ha) b (hremaining hb)

theorem settle_used (s : State) (pending : Reservation) (probe : Probe) (named : Stage)
    (token : Option Str) (length : Nat) :
    ((settle s pending probe named token length).used = s.used ∧
      (settle s pending probe named token length).remaining = s.remaining) ∨
    ∃ text, (settle s pending probe named token length).used = insert probe.probeId s.used ∧
      (settle s pending probe named token length).remaining = narrowed s probe text := by
  unfold settle
  split_ifs with hresponse hevents
  · exact .inl ⟨rfl, rfl⟩
  · exact .inl ⟨rfl, rfl⟩
  · cases named with
    | ack => exact .inl ⟨rfl, rfl⟩
    | ready => exact .inl ⟨rfl, rfl⟩
    | completed => exact .inl ⟨rfl, rfl⟩
    | unknown => exact .inl ⟨rfl, rfl⟩
    | syntheticFact =>
      dsimp only
      split_ifs with hempty
      · exact .inl ⟨rfl, rfl⟩
      · exact .inr ⟨_, rfl, rfl⟩

theorem settled_narrowed (h : q.Settled s) {probe : Probe} (hmem : probe ∈ q.probes) {text : Str}
    (hused : t.used = insert probe.probeId s.used)
    (hremaining : t.remaining = narrowed s probe text) : q.Settled t := by
  intro other hother hother' a ha b hb
  rw [hremaining, narrowed, fibre, Finset.mem_filter] at ha hb
  rw [hused, Finset.mem_insert] at hother'
  rcases hother' with hid | hold
  · rw [probeId_inj hother hmem hid, ha.2, hb.2]
  · exact h other hother hold a ha.1 b hb.1

theorem perform_settled (h : q.Settled s) (call : Call) : q.Settled (q.perform call s).2 := by
  cases call with
  | begin gate expected =>
    rcases perform_begin q s gate expected with ⟨e, heq⟩ | ⟨probe, binding, -, -, -, -, heq⟩
    · rw [heq]
      exact h
    · rw [heq]
      exact settled_of_subset h rfl (Finset.Subset.refl _)
  | receive binding stage token =>
    rcases perform_receive q s binding stage token with ⟨e, heq⟩ | ⟨pending, probe, named, length,
      -, -, hmem, -, -, heq⟩
    · rw [heq]
      exact h
    · rw [heq]
      rcases settle_used s pending probe named token length with ⟨hused, hremaining⟩ |
        ⟨text, hused, hremaining⟩
      · exact settled_of_subset h hused hremaining.subset
      · exact settled_narrowed h hmem hused hremaining

theorem settled_run (q : Inquiry) (calls : List Call) : q.Settled (q.run calls) := by
  unfold run
  induction calls using List.reverseRecOn with
  | nil =>
    intro probe _ hused
    exact absurd hused (Finset.notMem_empty _)
  | append_singleton calls call ih =>
    rw [List.foldl_append]
    exact perform_settled ih call

/-! ## The notions of the report -/

/-- A probe is available and passes the gate. -/
def Passes (gate : Option Gate) (probe : Probe) : Prop :=
  probe.availability = .available ∧ ∀ ranks ∈ gate, probe.probeId ∈ ranks.map Prod.fst

variable (q) in
/-- A probe tells some pair of opposite answers apart. -/
def Separates (s : State) (probe : Probe) : Prop :=
  ∃ a ∈ s.remaining, ∃ b ∈ s.remaining,
    q.answer a ≠ q.answer b ∧ probe.predict a ≠ probe.predict b

variable (q) in
/-- Two remaining worlds with opposite answers look the same to every probe that passes. -/
def Unobservable (s : State) (gate : Option Gate) : Prop :=
  ∃ a ∈ s.remaining, ∃ b ∈ s.remaining, q.answer a ≠ q.answer b ∧
    ∀ probe ∈ q.probes, Passes gate probe → probe.predict a = probe.predict b

variable (q) in
/-- A probe that can be proposed. -/
structure Candidate (s : State) (gate : Option Gate) (probe : Probe) : Prop where
  mem : probe ∈ q.probes
  passes : Passes gate probe
  unused : probe.probeId ∉ s.used
  separates : q.Separates s probe
  fits : q.fits s probe = true

variable (q) in
/-- The gain of a probe. -/
def gain (s : State) (probe : Probe) : Int :=
  q.pairs s.remaining - confused q.answer s.remaining probe.predict

theorem gain_ne_zero_iff {probe : Probe} : q.gain s probe ≠ 0 ↔ q.Separates s probe := by
  have hall := confused_eq_iff q.answer s.remaining probe.predict
  have hzero : q.gain s probe = 0 ↔
      confused q.answer s.remaining probe.predict = disagreements q.answer s.remaining := by
    unfold gain pairs
    omega
  rw [Ne, hzero, hall]
  unfold Separates
  push Not
  exact Iff.rfl

/-! ## The choice -/

variable (q) in
/-- The worst number of disagreements a probe can leave. -/
def worst (s : State) (probe : Probe) : Nat :=
  (s.remaining.image probe.predict).sup fun token => q.pairs (fibre s.remaining probe.predict token)

theorem quality_eq (hnonempty : s.remaining.Nonempty) (probe : Probe) :
    q.quality s probe = .ok (q.worst s probe, q.gain s probe) :=
  ensure_bind_eq_ok.2 ⟨hnonempty, rfl⟩

variable (q) in
/-- The key of a candidate. -/
def key (s : State) (gate : Option Gate) (probe : Probe) :
    List Int ×ₗ Nat ×ₗ ℚ ×ₗ Nat ×ₗ Nat ×ₗ Str :=
  toLex (rank gate probe, toLex (q.worst s probe, toLex (-((q.gain s probe : ℚ) / probe.cost),
    toLex (probe.cost, toLex (probe.maxOutputBytes, probe.probeId)))))

theorem candidateKey_eq (hnonempty : s.remaining.Nonempty) (gate : Option Gate) (probe : Probe) :
    q.candidateKey s gate probe = .ok (q.key s gate probe) := by
  unfold candidateKey
  rw [quality_eq hnonempty, ok_bind]
  rfl

theorem excludedReason_eq (hnonempty : s.remaining.Nonempty) (probe : Probe) :
    ∃ reason, q.excludedReason s gate probe = .ok reason ∧
      (reason = none ↔ Passes gate probe ∧ probe.probeId ∉ s.used ∧ q.Separates s probe) := by
  unfold excludedReason Passes
  split_ifs with havailable hgate hused
  · exact ⟨_, rfl, by simp [havailable]⟩
  · refine ⟨_, rfl, ?_⟩
    obtain ⟨ranks, hranks, hout⟩ := hgate
    simp only [reduceCtorEq, false_iff]
    rintro ⟨⟨-, hin⟩, -⟩
    exact hout (hin ranks hranks)
  · exact ⟨_, rfl, by simp [hused]⟩
  · rw [quality_eq hnonempty, ok_bind]
    push Not at havailable hgate
    refine ⟨_, rfl, ?_⟩
    rw [← gain_ne_zero_iff]
    simp only [havailable, hused, not_false_eq_true, true_and, ite_eq_right_iff, reduceCtorEq,
      imp_false]
    exact ⟨fun h => ⟨hgate, h⟩, fun h => h.2⟩

variable (q) in
/-- A reason to leave a probe out. -/
def reasonOf (s : State) (gate : Option Gate) (probe : Probe) : Option Str :=
  (q.excludedReason s gate probe).toOption.join

theorem reasonOf_eq (hnonempty : s.remaining.Nonempty) (probe : Probe) :
    q.excludedReason s gate probe = .ok (q.reasonOf s gate probe) := by
  obtain ⟨reason, hreason, -⟩ := @excludedReason_eq q s gate hnonempty probe
  rw [reasonOf, hreason]
  rfl

theorem reasonOf_eq_none (hnonempty : s.remaining.Nonempty) {probe : Probe} :
    q.reasonOf s gate probe = none ↔
      Passes gate probe ∧ probe.probeId ∉ s.used ∧ q.Separates s probe := by
  obtain ⟨reason, hreason, hiff⟩ := @excludedReason_eq q s gate hnonempty probe
  rw [reasonOf_eq hnonempty, Except.ok.injEq] at hreason
  rw [hreason, hiff]

variable (q) in
/-- The probes the plan keeps. -/
def kept (s : State) (gate : Option Gate) : List Probe :=
  q.probes.filter fun probe => (q.reasonOf s gate probe).isNone

theorem mem_kept (hnonempty : s.remaining.Nonempty) {probe : Probe} :
    probe ∈ q.kept s gate ↔ probe ∈ q.probes ∧ Passes gate probe ∧ probe.probeId ∉ s.used ∧
      q.Separates s probe := by
  rw [kept, List.mem_filter, Option.isNone_iff_eq_none, reasonOf_eq_none hnonempty]

theorem considered_eq (s : State) (gate : Option Gate) :
    ((q.probes.zip (q.probes.map (q.reasonOf s gate))).filter fun item => item.2.isNone).map
      Prod.fst = q.kept s gate := by
  unfold kept
  induction q.probes with
  | nil => rfl
  | cons probe probes ih =>
    rw [List.map_cons, List.zip_cons_cons, List.filter_cons, List.filter_cons]
    dsimp only
    split
    · rw [List.map_cons, ih]
    · exact ih

theorem indistinct_iff {available : List Probe} :
    q.indistinct s available = true ↔ ∃ a ∈ s.remaining, ∃ b ∈ s.remaining,
      q.answer a ≠ q.answer b ∧ ∀ probe ∈ available, probe.predict a = probe.predict b := by
  unfold indistinct
  rw [decide_eq_true_eq]
  constructor
  · rintro ⟨group, -, hgroup⟩
    obtain ⟨yes, hyes, no, hno, hne⟩ := Finset.one_lt_card.1 hgroup
    obtain ⟨a, ha, rfl⟩ := Finset.mem_image.1 hyes
    obtain ⟨b, hb, rfl⟩ := Finset.mem_image.1 hno
    rw [fibre, Finset.mem_filter] at ha hb
    refine ⟨a, ha.1, b, hb.1, hne, ?_⟩
    exact fun probe hprobe => List.map_inj_left.1 (ha.2.trans hb.2.symm) probe hprobe
  · rintro ⟨a, ha, b, hb, hne, hsame⟩
    refine ⟨_, Finset.mem_image_of_mem _ ha, ?_⟩
    refine Finset.one_lt_card.2 ⟨q.answer a, ?_, q.answer b, ?_, hne⟩
    · exact Finset.mem_image_of_mem _ (Finset.mem_filter.2 ⟨ha, rfl⟩)
    · exact Finset.mem_image_of_mem _
        (Finset.mem_filter.2 ⟨hb, (List.map_inj_left.2 hsame).symm⟩)

theorem indistinct_kept_iff (hsettled : q.Settled s) (hnonempty : s.remaining.Nonempty) :
    q.indistinct s (q.kept s gate) = true ↔ q.Unobservable s gate := by
  rw [indistinct_iff]
  constructor
  · rintro ⟨a, ha, b, hb, hne, hsame⟩
    refine ⟨a, ha, b, hb, hne, ?_⟩
    intro probe hprobe hpasses
    by_cases hused : probe.probeId ∈ s.used
    · exact hsettled probe hprobe hused a ha b hb
    · by_contra hdiffer
      exact hdiffer (hsame probe ((mem_kept hnonempty).2
        ⟨hprobe, hpasses, hused, a, ha, b, hb, hne, hdiffer⟩))
  · rintro ⟨a, ha, b, hb, hne, hsame⟩
    refine ⟨a, ha, b, hb, hne, ?_⟩
    intro probe hprobe
    obtain ⟨hmem, hpasses, -⟩ := (mem_kept hnonempty).1 hprobe
    exact hsame probe hmem hpasses

variable (q) in
/-- The candidates of a plan. -/
def candidates (s : State) (gate : Option Gate) : List Probe :=
  (q.kept s gate).filter (q.fits s)

theorem mem_candidates (hnonempty : s.remaining.Nonempty) {probe : Probe} :
    probe ∈ q.candidates s gate ↔ q.Candidate s gate probe := by
  rw [candidates, List.mem_filter, mem_kept hnonempty]
  constructor
  · rintro ⟨⟨hmem, hpasses, hunused, hseparates⟩, hfits⟩
    exact ⟨hmem, hpasses, hunused, hseparates, hfits⟩
  · intro h
    exact ⟨⟨h.mem, h.passes, h.unused, h.separates⟩, h.fits⟩

/-- What `choose` reports. -/
inductive Report (q : Inquiry) (s : State) (gate : Option Gate) : Status → Prop where
  | needsObservation (h : q.Unobservable s gate) : Report q s gate .needsObservation
  | budgetExhausted (h : ¬q.Unobservable s gate) (none : ∀ probe, ¬q.Candidate s gate probe) :
      Report q s gate .budgetExhausted
  | proposed (h : ¬q.Unobservable s gate) {probe : Probe} (candidate : q.Candidate s gate probe)
      (least : ∀ other, q.Candidate s gate other → q.key s gate probe ≤ q.key s gate other) :
      Report q s gate (.proposed probe (q.worst s probe))

theorem choose_reports (hsettled : q.Settled s) (hnonempty : s.remaining.Nonempty)
    (gate : Option Gate) : ∃ status excluded, q.choose s gate = .ok (status, excluded) ∧
      Report q s gate status := by
  have hreasons : q.probes.mapM (q.excludedReason s gate) =
      .ok (q.probes.map (q.reasonOf s gate)) :=
    mapM_eq_ok_map fun probe _ => reasonOf_eq hnonempty probe
  have hkeys : (q.candidates s gate).mapM (q.candidateKey s gate) =
      .ok ((q.candidates s gate).map (q.key s gate)) :=
    mapM_eq_ok_map fun probe _ => candidateKey_eq hnonempty gate probe
  unfold choose
  rw [hreasons, ok_bind]
  dsimp only
  rw [considered_eq]
  rw [candidates] at hkeys
  rw [hkeys, ok_bind]
  by_cases hunobservable : q.Unobservable s gate
  · rw [if_pos ((indistinct_kept_iff hsettled hnonempty).2 hunobservable)]
    exact ⟨_, _, rfl, .needsObservation hunobservable⟩
  · rw [if_neg (mt (indistinct_kept_iff hsettled hnonempty).1 hunobservable)]
    have hzip : ((q.kept s gate).filter (q.fits s)).zip
        (((q.kept s gate).filter (q.fits s)).map (q.key s gate)) =
          (q.candidates s gate).map fun probe => (probe, q.key s gate probe) := by
      have hpairs := @List.zip_map' _ _ _ id (q.key s gate) (q.candidates s gate)
      rwa [List.map_id] at hpairs
    rw [hzip]
    cases hargmin : ((q.candidates s gate).map fun probe => (probe, q.key s gate probe)).argmin
        Prod.snd with
    | none =>
      rw [List.argmin_eq_none, List.map_eq_nil_iff, List.eq_nil_iff_forall_not_mem] at hargmin
      exact ⟨_, _, rfl, .budgetExhausted hunobservable fun probe hcandidate =>
        hargmin probe ((mem_candidates hnonempty).2 hcandidate)⟩
    | some pair =>
      obtain ⟨selected, least⟩ := pair
      obtain ⟨probe, hprobe, hpair⟩ := List.mem_map.1 (List.argmin_mem (Option.mem_def.2 hargmin))
      cases hpair
      dsimp only
      rw [quality_eq hnonempty, ok_bind]
      refine ⟨_, _, rfl, .proposed hunobservable ((mem_candidates hnonempty).1 hprobe) ?_⟩
      intro other hother
      have hmem : (other, q.key s gate other) ∈
          (q.candidates s gate).map fun probe => (probe, q.key s gate probe) :=
        List.mem_map.2 ⟨other, (mem_candidates hnonempty).2 hother, rfl⟩
      exact List.le_of_mem_argmin (f := Prod.snd) hmem hargmin

/-! ## Plans -/

/-- On every reachable inquiry that is still open and undecided, and for every admitted gate. -/
theorem plan_classifies (q : Inquiry) (calls : List Call) {gate : Option Gate}
    (hgate : q.checkGate gate = .ok ()) (hterminal : (q.run calls).terminal = none)
    (hpending : (q.run calls).pending = none) (htask : q.taskAllowed = true)
    (hboth : ∃ a ∈ (q.run calls).remaining, ∃ b ∈ (q.run calls).remaining,
      q.answer a ≠ q.answer b) :
    ∃ status planDigest, q.plan (q.run calls) gate = .ok (status, planDigest) ∧
      (status = .needsObservation ↔ q.Unobservable (q.run calls) gate) ∧
      (status = .budgetExhausted ↔ ¬q.Unobservable (q.run calls) gate ∧
        ∀ probe, ¬q.Candidate (q.run calls) gate probe) ∧
      (¬q.Unobservable (q.run calls) gate → (∃ probe, q.Candidate (q.run calls) gate probe) →
        ∃ probe worst, status = .proposed probe worst ∧ q.Candidate (q.run calls) gate probe ∧
          ∃ key, q.candidateKey (q.run calls) gate probe = .ok key ∧
            ∀ other, q.Candidate (q.run calls) gate other →
              ∃ key', q.candidateKey (q.run calls) gate other = .ok key' ∧ key ≤ key') := by
  have hnonempty := (sound_run q calls).nonempty
  obtain ⟨status, excluded, hchoose, hreport⟩ :=
    choose_reports (settled_run q calls) hnonempty gate
  have hstatus : q.status (q.run calls) gate = .ok (status, excluded) := by
    obtain ⟨a, ha, b, hb, hne⟩ := hboth
    have hundecided : ∀ value, (q.run calls).remaining.image q.answer ≠ {value} := by
      intro value himage
      have ha' := Finset.mem_image_of_mem q.answer ha
      have hb' := Finset.mem_image_of_mem q.answer hb
      rw [himage, Finset.mem_singleton] at ha' hb'
      exact hne (ha'.trans hb'.symm)
    unfold Inquiry.status
    rw [hterminal, hpending]
    dsimp only
    rw [if_neg (by simp [htask]), if_neg (by simp), if_neg (hundecided true),
      if_neg (hundecided false)]
    exact hchoose
  refine ⟨status, digest (q.planDocument (q.run calls) status excluded), ?_, ?_⟩
  · unfold plan
    rw [hgate, ok_bind, hstatus, ok_bind]
  · cases hreport with
    | needsObservation h =>
      refine ⟨⟨fun _ => h, fun _ => rfl⟩, ⟨fun hsame => Status.noConfusion hsame, ?_⟩, ?_⟩
      · exact fun hnot => absurd h hnot.1
      · exact fun hnot => absurd h hnot
    | budgetExhausted h hnone =>
      refine ⟨⟨fun hsame => Status.noConfusion hsame, fun hseen => absurd hseen h⟩,
        ⟨fun _ => ⟨h, hnone⟩, fun _ => rfl⟩, ?_⟩
      rintro - ⟨probe, hcandidate⟩
      exact absurd hcandidate (hnone probe)
    | @proposed h probe hcandidate hleast =>
      refine ⟨⟨fun hsame => Status.noConfusion hsame, fun hseen => absurd hseen h⟩,
        ⟨fun hsame => Status.noConfusion hsame,
          fun hnone => absurd hcandidate (hnone.2 probe)⟩, ?_⟩
      rintro - -
      exact ⟨probe, _, rfl, hcandidate, _, candidateKey_eq hnonempty gate probe,
        fun other hother => ⟨_, candidateKey_eq hnonempty gate other, hleast other hother⟩⟩

/-- The sample inquiry proposes its only probe. -/
theorem sample_plan_classified :
    ∃ status planDigest, sampleInquiry.plan (sampleInquiry.run []) none =
        .ok (status, planDigest) ∧
      (status = .needsObservation ↔ sampleInquiry.Unobservable (sampleInquiry.run []) none) := by
  obtain ⟨status, planDigest, hplan, hneeds, -⟩ :=
    @plan_classifies sampleInquiry [] none rfl rfl rfl rfl
      ⟨str "a", by decide, str "b", by decide, by decide⟩
  exact ⟨status, planDigest, hplan, hneeds⟩

end Inquiry

end IntegrityGuardian.ActiveInquiry
