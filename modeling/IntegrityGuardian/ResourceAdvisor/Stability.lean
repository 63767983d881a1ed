import IntegrityGuardian.Library.SnapshotLoop
import IntegrityGuardian.ResourceAdvisor.Advice
import Mathlib.Data.Nat.Cast.Order.Ring

/-!
# Followed advice is retained

A switch moves the handoff from the new configuration to all others: the followed
one can only get cheaper and faster, every other one only dearer and slower.  So the
followed configuration stays the best, whatever the boundary.
-/

namespace IntegrityGuardian.ResourceAdvisor

open Python Library

/-- The stage after the advice to use `key` was followed. -/
def Stage.following (stage : Stage) (key : Str) (boundary : Boundary) (last : Nat)
    (hlast : last ≤ stage.checkpoint) : Stage :=
  { stage with
    currentConfiguration := key
    boundary := boundary
    lastSwitchCheckpoint := last
    lastSwitch_le := hlast }

theorem admission_following (stage : Stage) (key : Str) (boundary : Boundary) (last : Nat)
    (hlast : last ≤ stage.checkpoint) (candidates : List Candidate)
    (calibrations : List Calibration) (usage : UsageSummary) (budget : Budget)
    (native : NativeView) :
    admission (stage.following key boundary last hlast) candidates calibrations usage budget native
      = admission stage candidates calibrations usage budget native := rfl

theorem assess_following (wilsonBps : Nat → Nat → Nat × Nat) (stage : Stage) (key : Str)
    (boundary : Boundary) (last : Nat) (hlast : last ≤ stage.checkpoint) (usage : UsageSummary)
    (budget : Budget) (native : NativeView) (policy : AdvisoryPolicy)
    (evidence : List Calibration) (switching : Bool) (candidate : Candidate) :
    assess wilsonBps (stage.following key boundary last hlast) usage budget native policy evidence
        switching candidate
      = assess wilsonBps stage usage budget native policy evidence switching candidate := rfl

/-! ## Forecasts without the handoff -/

theorem make_eq_ok {low high : Nat} {i : Interval} (h : Interval.make low high = .ok i) :
    i.low = low ∧ i.high = high := by
  unfold Interval.make at h
  split at h
  · injection h with h
    subst h
    exact ⟨rfl, rfl⟩
  · cases h

theorem plus_eq_ok {a b i : Interval} (h : a.plus b = .ok i) :
    i.low = a.low + b.low ∧ i.high = a.high + b.high := make_eq_ok h

theorem plus_zero_le {a b i j : Interval} (h : a.plus b = .ok i) (h' : a.plus zero = .ok j) :
    j.high ≤ i.high := by
  have hi := (plus_eq_ok h).2
  have hj : j.high = a.high + 0 := (plus_eq_ok h').2
  omega

theorem futureCost_mono {c : Candidate} {now : Nat} {cost elapsed : Interval}
    {stay : Option Interval × Interval} (h : futureCost c true now = .ok (some cost, elapsed))
    (h' : futureCost c false now = .ok stay) :
    ∃ cost' elapsed', stay = (some cost', elapsed') ∧ cost'.high ≤ cost.high
      ∧ elapsed'.high ≤ elapsed.high := by
  unfold futureCost at h h'
  obtain ⟨e, he, h⟩ := bind_eq_ok.1 h
  obtain ⟨e', he', h'⟩ := bind_eq_ok.1 h'
  have helapsed : e'.high ≤ e.high := plus_zero_le he he'
  cases hrates : c.rates with
  | none =>
    rw [hrates] at h
    cases h
  | some rates =>
    rw [hrates] at h h'
    obtain ⟨low, hlow, h⟩ := bind_eq_ok.1 h
    obtain ⟨high, hhigh, h⟩ := bind_eq_ok.1 h
    obtain ⟨low', hlow', h'⟩ := bind_eq_ok.1 h'
    obtain ⟨high', hhigh', h'⟩ := bind_eq_ok.1 h'
    obtain rfl : low = low' := Except.ok.inj (hlow.symm.trans hlow')
    obtain rfl : high = high' := Except.ok.inj (hhigh.symm.trans hhigh')
    cases low with
    | none => cases h
    | some low =>
      cases high with
      | none => cases h
      | some high =>
        obtain ⟨quoted, hquoted, h⟩ := bind_eq_ok.1 h
        obtain ⟨extra, hextra, h⟩ := bind_eq_ok.1 h
        obtain ⟨whole, hwhole, h⟩ := bind_eq_ok.1 h
        obtain ⟨quoted', hquoted', h'⟩ := bind_eq_ok.1 h'
        obtain ⟨extra', hextra', h'⟩ := bind_eq_ok.1 h'
        obtain ⟨whole', hwhole', h'⟩ := bind_eq_ok.1 h'
        obtain ⟨hcost, hel⟩ := Prod.mk.inj (Except.ok.inj h)
        have hstay := Except.ok.inj h'
        obtain rfl : quoted = quoted' := Except.ok.inj (hquoted.symm.trans hquoted')
        obtain rfl : extra = extra' := Except.ok.inj (hextra.symm.trans hextra')
        refine ⟨whole', e', hstay.symm, ?_, ?_⟩
        · rw [← Option.some.inj hcost]
          exact plus_zero_le hwhole hwhole'
        · rw [← hel]
          exact helapsed

theorem forecastReasons_mono {c : Candidate} {usage : UsageSummary} {budget : Budget}
    {cost cost' elapsed elapsed' : Interval} (hcost : cost'.high ≤ cost.high)
    (helapsed : elapsed'.high ≤ elapsed.high)
    (h : forecastReasons c true usage budget (some cost) elapsed = []) :
    forecastReasons c false usage budget (some cost') elapsed' = [] := by
  simp only [forecastReasons, List.append_eq_nil_iff, rejectIf_eq_nil] at h ⊢
  obtain ⟨⟨hunits, hlatency⟩, htokens⟩ := h
  refine ⟨⟨by omega, ?_⟩, ?_⟩
  · rintro ⟨ms, hms, hlt⟩
    exact hlatency ⟨ms, hms, by omega⟩
  · cases hceiling : budget.tokenCeiling with
    | none => rfl
    | some ceiling =>
      rw [hceiling] at htokens
      cases htotal : c.highTokens.total with
      | none =>
        rw [htotal] at htokens
        cases htokens
      | some total =>
        rw [htotal] at htokens
        simp only [rejectIf_eq_nil, if_true, Bool.false_eq_true, if_false] at htokens ⊢
        omega

theorem fraction_eq_ok {n d : Nat} {q : ℚ} :
    fraction n d = .ok q ↔ d ≠ 0 ∧ (n : ℚ) / d = q := by
  unfold fraction
  rw [ensure_bind_eq_ok]
  simp

section
variable {wilsonBps : Nat → Nat → Nat × Nat} {stage : Stage} {usage : UsageSummary}
  {budget : Budget} {native : NativeView} {policy : AdvisoryPolicy} {evidence : List Calibration}

/-! ## Qualified candidates -/

/-- The calibration that `assess` reads. -/
def calibrationOf (stage : Stage) (evidence : List Calibration) (c : Candidate) :
    Option Calibration :=
  evidence.find? fun item =>
    item.configurationId = c.key ∧ item.workloadId = stage.workload.key

/-- What makes a candidate qualified, and its rank. -/
structure Qualifies (wilsonBps : Nat → Nat → Nat × Nat) (stage : Stage) (usage : UsageSummary)
    (budget : Budget) (native : NativeView) (policy : AdvisoryPolicy) (evidence : List Calibration)
    (switching : Bool) (c : Candidate) (cost elapsed : Interval) (quality : Nat × Nat) : Prop where
  forecast : futureCost c switching stage.now = .ok (some cost, elapsed)
  fits : staticReasons stage c budget native
    ++ forecastReasons c switching usage budget (some cost) elapsed = []
  supported : qualityOf wilsonBps stage policy (calibrationOf stage evidence c)
    = (some quality, .supported)

theorem qualifies_of_assess {switching : Bool} {c : Candidate} {a : Assessment} {q : Qualified}
    (h : assess wilsonBps stage usage budget native policy evidence switching c = .ok a)
    (hq : a.qualified = some q) :
    ∃ cost quality,
      Qualifies wilsonBps stage usage budget native policy evidence switching c cost q.elapsed quality
        ∧ quality.1 ≠ 0 ∧ q.pessimistic = ((cost.high * 10000 : Nat) : ℚ) / quality.1
        ∧ q.key = c.key := by
  unfold assess at h
  obtain ⟨⟨cost, elapsed⟩, hforecast, h⟩ := bind_eq_ok.1 h
  cases cost with
  | none =>
    cases h
    cases hq
  | some cost =>
    dsimp only at h
    split at h
    · cases h
      cases hq
    · next hfits =>
        split at h
        · next quality reason hsupported =>
            obtain ⟨optimistic, -, h⟩ := bind_eq_ok.1 h
            obtain ⟨pessimistic, hpessimistic, h⟩ := bind_eq_ok.1 h
            obtain ⟨hne, hvalue⟩ := fraction_eq_ok.1 hpessimistic
            cases h
            injection hq with hq
            subst hq
            exact ⟨cost, _, ⟨hforecast, not_not.1 hfits, Prod.ext ‹_› ‹_›⟩, hne, hvalue.symm, rfl⟩
        · cases h
          cases hq

theorem assess_of_qualifies {switching : Bool} {c : Candidate} {cost elapsed : Interval}
    {quality : Nat × Nat}
    (hq : Qualifies wilsonBps stage usage budget native policy evidence switching c cost elapsed
      quality) :
    ∃ evaluation, assess wilsonBps stage usage budget native policy evidence switching c = (do
      let optimistic ← fraction (cost.low * 10000) quality.2
      let pessimistic ← fraction (cost.high * 10000) quality.1
      .ok ⟨evaluation, some ⟨c.key, cost, some quality, elapsed⟩,
        some ⟨c.key, optimistic, pessimistic, elapsed⟩⟩) := by
  refine ⟨⟨c.key, [], .supported, some quality, some cost, elapsed⟩, ?_⟩
  have hsupported := hq.supported
  unfold calibrationOf at hsupported
  unfold assess
  rw [hq.forecast, ok_bind]
  dsimp only
  rw [hq.fits, if_neg (not_not.2 rfl), hsupported]
  rfl

theorem qualified_of_qualifies {switching : Bool} {c : Candidate} {a : Assessment}
    {cost elapsed : Interval} {quality : Nat × Nat}
    (h : assess wilsonBps stage usage budget native policy evidence switching c = .ok a)
    (hq : Qualifies wilsonBps stage usage budget native policy evidence switching c cost elapsed
      quality) :
    ∃ q, a.qualified = some q ∧ q.key = c.key ∧ q.elapsed = elapsed
      ∧ q.pessimistic = ((cost.high * 10000 : Nat) : ℚ) / quality.1 := by
  obtain ⟨evaluation, hassess⟩ := assess_of_qualifies hq
  rw [hassess] at h
  obtain ⟨optimistic, -, h⟩ := bind_eq_ok.1 h
  obtain ⟨pessimistic, hpessimistic, h⟩ := bind_eq_ok.1 h
  cases h
  exact ⟨_, rfl, rfl, rfl, (fraction_eq_ok.1 hpessimistic).2.symm⟩

/-- A candidate that qualifies when it is switched to qualifies when it is kept, and ranks no
worse. -/
theorem assess_mono {c : Candidate} {a a' : Assessment} {q : Qualified}
    (h : assess wilsonBps stage usage budget native policy evidence true c = .ok a)
    (h' : assess wilsonBps stage usage budget native policy evidence false c = .ok a')
    (hq : a.qualified = some q) :
    ∃ q', a'.qualified = some q' ∧ q'.key = q.key ∧ q'.rank ≤ q.rank := by
  obtain ⟨cost, quality, hqualifies, hne, hvalue, hkey⟩ := qualifies_of_assess h hq
  obtain ⟨stay, hstay, -⟩ := bind_eq_ok.1 h'
  obtain ⟨cost', elapsed', rfl, hcost, helapsed⟩ := futureCost_mono hqualifies.forecast hstay
  have hfits := hqualifies.fits
  rw [List.append_eq_nil_iff] at hfits
  have hqualifies' : Qualifies wilsonBps stage usage budget native policy evidence false c cost'
      elapsed' quality :=
    ⟨hstay, List.append_eq_nil_iff.2 ⟨hfits.1, forecastReasons_mono hcost helapsed hfits.2⟩,
      hqualifies.supported⟩
  obtain ⟨q', hq', hkey', helapsed', hvalue'⟩ := qualified_of_qualifies h' hqualifies'
  refine ⟨q', hq', hkey'.trans hkey.symm, ?_⟩
  have hpessimistic : q'.pessimistic ≤ q.pessimistic := by
    rw [hvalue, hvalue']
    have hle : ((cost'.high * 10000 : Nat) : ℚ) ≤ ((cost.high * 10000 : Nat) : ℚ) := by
      exact_mod_cast Nat.mul_le_mul_right 10000 hcost
    exact div_le_div_of_nonneg_right hle (Nat.cast_nonneg _)
  have hlatency : q'.elapsed.high ≤ q.elapsed.high := by
    rw [helapsed']
    exact helapsed
  unfold Qualified.rank
  rw [Prod.Lex.toLex_le_toLex', Prod.Lex.toLex_le_toLex']
  exact ⟨hpessimistic, fun _ => ⟨hlatency, fun _ => (hkey'.trans hkey.symm).le⟩⟩

end

/-! ## The choice -/

/-- The qualified candidates of a request. -/
def qualifiedOf (assessments : List Assessment) : List Qualified :=
  assessments.filterMap Assessment.qualified

theorem key_eq_of_rank_eq {q q' : Qualified} (h : q.rank = q'.rank) : q.key = q'.key := by
  unfold Qualified.rank at h
  exact congrArg (fun r => (ofLex (ofLex r).2).2) h

theorem best_le {qualified : List Qualified} {b q : Qualified} (h : best qualified = some b)
    (hq : q ∈ qualified) : b.rank ≤ q.rank := List.le_of_mem_argmin hq h

theorem exists_best {qualified : List Qualified} {q : Qualified} (hq : q ∈ qualified) :
    ∃ b, best qualified = some b := by
  cases hbest : best qualified with
  | some b => exact ⟨b, rfl⟩
  | none =>
    rw [best, List.argmin_eq_none] at hbest
    rw [hbest] at hq
    cases hq

theorem of_choose_recommend {stage : Stage} {policy : AdvisoryPolicy} {qualified : List Qualified}
    {b : Qualified} (hmem : b ∈ qualified)
    (h : (choose stage policy qualified b).status = .recommend) :
    b.key ≠ stage.currentConfiguration
      ∧ (choose stage policy qualified b).selected = some b.key := by
  unfold choose at h ⊢
  cases hcurrent : qualified.find? fun q => q.key = stage.currentConfiguration with
  | none => exact ⟨by simpa using List.find?_eq_none.1 hcurrent b hmem, rfl⟩
  | some current =>
    rw [hcurrent] at h
    dsimp only at h ⊢
    split at h
    · cases h
    · next hne =>
        refine ⟨hne, ?_⟩
        rw [if_neg hne]
        split at h
        · cases h
        · next hchanged =>
            rw [if_neg hchanged]
            split at h
            · cases h
            · next hresided =>
                rw [if_neg hresided]
                split at h
                · cases h
                · next hgain => rw [if_neg hgain]

theorem of_select_recommend {stage : Stage} {policy : AdvisoryPolicy} {native : NativeView}
    {feasible : List Feasible} {qualified : List Qualified}
    (h : (select stage policy native feasible qualified).status = .recommend) :
    native.mandatory = false ∧ ∃ b, best qualified = some b ∧ b.key ≠ stage.currentConfiguration
      ∧ (select stage policy native feasible qualified).selected = some b.key := by
  unfold select at h ⊢
  dsimp only at h ⊢
  split at h
  · split at h <;> cases h
  · next hmandatory =>
      refine ⟨by simpa using hmandatory, ?_⟩
      cases hbest : best qualified with
      | none =>
        rw [hbest] at h
        dsimp only at h
        split at h <;> cases h
      | some b =>
        rw [hbest] at h
        obtain ⟨hne, hselected⟩ := of_choose_recommend (List.argmin_mem hbest) h
        refine ⟨b, rfl, hne, ?_⟩
        rw [if_neg hmandatory]
        exact hselected

theorem select_of_best {stage : Stage} {policy : AdvisoryPolicy} {native : NativeView}
    {feasible : List Feasible} {qualified : List Qualified} {b : Qualified}
    (hmandatory : native.mandatory = false) (hbest : best qualified = some b)
    (hkey : b.key = stage.currentConfiguration) :
    (select stage policy native feasible qualified).status = .retain
      ∧ (select stage policy native feasible qualified).selected = some stage.currentConfiguration := by
  have hmem : b ∈ qualified := List.argmin_mem hbest
  cases hcurrent : qualified.find? fun q => q.key = stage.currentConfiguration with
  | none => exact absurd hkey (by simpa using List.find?_eq_none.1 hcurrent b hmem)
  | some current =>
    have hselect : select stage policy native feasible qualified
        = ⟨.retain, stage.currentConfiguration, ["current-choice-remains-supported"]⟩ := by
      unfold select
      dsimp only
      rw [if_neg (by simp [hmandatory]), hbest]
      dsimp only
      unfold choose
      rw [hcurrent]
      dsimp only
      rw [if_pos hkey]
    rw [hselect]
    exact ⟨rfl, rfl⟩

section
variable {wilsonBps : Nat → Nat → Nat × Nat} {stage : Stage} {candidates : List Candidate}
  {calibrations : List Calibration} {usage : UsageSummary} {budget : Budget} {native : NativeView}
  {policy : AdvisoryPolicy} {evidence : List Calibration}

/-- The loop over the candidates in key order. -/
def assessAll (wilsonBps : Nat → Nat → Nat × Nat) (stage : Stage) (candidates : List Candidate)
    (usage : UsageSummary) (budget : Budget) (native : NativeView) (policy : AdvisoryPolicy)
    (evidence : List Calibration) : Except Failure (List Assessment) :=
  (candidates.insertionSort fun a b => a.key ≤ b.key).mapM fun candidate =>
    assess wilsonBps stage usage budget native policy evidence
      (candidate.key ≠ stage.currentConfiguration) candidate

theorem advise_eq_ok {advice : Advice}
    (h : advise wilsonBps stage candidates calibrations usage budget native policy = .ok advice) :
    ∃ evidence, admission stage candidates calibrations usage budget native = .ok evidence
      ∧ (earlyVerdict usage budget native = some advice.verdict
        ∨ earlyVerdict usage budget native = none
          ∧ ∃ assessments,
            assessAll wilsonBps stage candidates usage budget native policy evidence
              = .ok assessments
            ∧ advice.verdict = select stage policy native
              (assessments.filterMap Assessment.feasible) (qualifiedOf assessments)) := by
  unfold advise at h
  obtain ⟨evidence, hadmission, h⟩ := bind_eq_ok.1 h
  refine ⟨evidence, hadmission, ?_⟩
  dsimp only at h
  cases hearly : earlyVerdict usage budget native with
  | some verdict =>
    rw [hearly] at h
    cases h
    exact Or.inl rfl
  | none =>
    rw [hearly] at h
    obtain ⟨assessments, hassess, h⟩ := bind_eq_ok.1 h
    cases h
    exact Or.inr ⟨rfl, assessments, hassess, rfl⟩

theorem advise_of_assessAll {assessments : List Assessment}
    (hadmission : admission stage candidates calibrations usage budget native = .ok evidence)
    (hearly : earlyVerdict usage budget native = none)
    (h : assessAll wilsonBps stage candidates usage budget native policy evidence
      = .ok assessments) :
    ∃ advice, advise wilsonBps stage candidates calibrations usage budget native policy = .ok advice
      ∧ advice.verdict = select stage policy native
        (assessments.filterMap Assessment.feasible) (qualifiedOf assessments) := by
  unfold advise
  rw [hadmission, ok_bind]
  dsimp only
  rw [hearly]
  unfold assessAll at h
  dsimp only
  rw [h, ok_bind]
  exact ⟨_, rfl, rfl⟩

theorem earlyVerdict_ne_recommend {verdict : Verdict}
    (h : earlyVerdict usage budget native = some verdict) : verdict.status ≠ .recommend := by
  unfold earlyVerdict at h
  split at h
  · cases h
    decide
  · split at h
    · cases h
      decide
    · split at h
      · cases h
        decide
      · split at h
        · cases h
          decide
        · cases h

theorem exists_candidate {assessments : List Assessment} {q : Qualified}
    (h : assessAll wilsonBps stage candidates usage budget native policy evidence = .ok assessments)
    (hq : q ∈ qualifiedOf assessments) :
    ∃ c ∈ candidates, ∃ a, a.qualified = some q
      ∧ assess wilsonBps stage usage budget native policy evidence
        (c.key ≠ stage.currentConfiguration) c = .ok a := by
  obtain ⟨a, ha, hqualified⟩ := List.mem_filterMap.1 hq
  obtain ⟨c, hc, hassess⟩ := exists_of_mem_right (mapM_eq_ok.1 h) ha
  exact ⟨c, (List.mem_insertionSort _).1 hc, a, hqualified, hassess⟩

theorem exists_assessment {assessments : List Assessment} {c : Candidate}
    (h : assessAll wilsonBps stage candidates usage budget native policy evidence = .ok assessments)
    (hc : c ∈ candidates) :
    ∃ a ∈ assessments, assess wilsonBps stage usage budget native policy evidence
      (c.key ≠ stage.currentConfiguration) c = .ok a :=
  exists_of_mem_left (mapM_eq_ok.1 h) ((List.mem_insertionSort _).2 hc)

theorem key_of_assess {switching : Bool} {c : Candidate} {a : Assessment} {q : Qualified}
    (h : assess wilsonBps stage usage budget native policy evidence switching c = .ok a)
    (hq : a.qualified = some q) : q.key = c.key := by
  obtain ⟨_, _, _, _, _, hkey⟩ := qualifies_of_assess h hq
  exact hkey

theorem exists_rank_le {k : Str} {boundary : Boundary} {last : Nat}
    {hlast : last ≤ stage.checkpoint} {assessments assessments' : List Assessment} {q' : Qualified}
    (h : assessAll wilsonBps stage candidates usage budget native policy evidence = .ok assessments)
    (h' : assessAll wilsonBps (stage.following k boundary last hlast) candidates usage budget native
      policy evidence = .ok assessments')
    (hq' : q' ∈ qualifiedOf assessments') (hne : q'.key ≠ k) :
    ∃ q ∈ qualifiedOf assessments, q.key = q'.key ∧ q.rank ≤ q'.rank := by
  obtain ⟨c, hc, a', hqualified', hassess'⟩ := exists_candidate h' hq'
  obtain ⟨a, ha, hassess⟩ := exists_assessment h hc
  have hck : c.key ≠ k := key_of_assess hassess' hqualified' ▸ hne
  have hswitch : assess wilsonBps stage usage budget native policy evidence true c = .ok a' := by
    have hflag : decide (c.key ≠ k) = true := decide_eq_true hck
    rw [← hflag, ← hassess', assess_following]
    rfl
  by_cases hcurrent : c.key ≠ stage.currentConfiguration
  · rw [decide_eq_true hcurrent, hswitch] at hassess
    cases hassess
    exact ⟨q', List.mem_filterMap.2 ⟨a', ha, hqualified'⟩, rfl, le_rfl⟩
  · rw [decide_eq_false hcurrent] at hassess
    obtain ⟨q, hqualified, hkey, hrank⟩ := assess_mono hswitch hassess hqualified'
    exact ⟨q, List.mem_filterMap.2 ⟨a, ha, hqualified⟩, hkey, hrank⟩

theorem exists_followed_rank_le {k : Str} {boundary : Boundary} {last : Nat}
    {hlast : last ≤ stage.checkpoint} {assessments assessments' : List Assessment} {b : Qualified}
    (h : assessAll wilsonBps stage candidates usage budget native policy evidence = .ok assessments)
    (h' : assessAll wilsonBps (stage.following k boundary last hlast) candidates usage budget native
      policy evidence = .ok assessments')
    (hb : b ∈ qualifiedOf assessments) (hkey : b.key = k) (hne : k ≠ stage.currentConfiguration) :
    ∃ q' ∈ qualifiedOf assessments', q'.rank ≤ b.rank := by
  obtain ⟨c, hc, a, hqualified, hassess⟩ := exists_candidate h hb
  obtain ⟨a', ha', hassess'⟩ := exists_assessment h' hc
  have hck : c.key = k := (key_of_assess hassess hqualified).symm.trans hkey
  rw [decide_eq_true (hck ▸ hne)] at hassess
  have hstay : assess wilsonBps stage usage budget native policy evidence false c = .ok a' := by
    have hflag : decide (c.key ≠ k) = false := decide_eq_false (not_not.2 hck)
    rw [← hflag, ← hassess', assess_following]
    rfl
  obtain ⟨q', hqualified', -, hrank⟩ := assess_mono hassess hstay hqualified
  exact ⟨q', List.mem_filterMap.2 ⟨a', ha', hqualified'⟩, hrank⟩

theorem best_followed {k : Str} {boundary : Boundary} {last : Nat}
    {hlast : last ≤ stage.checkpoint} {assessments assessments' : List Assessment} {b : Qualified}
    (h : assessAll wilsonBps stage candidates usage budget native policy evidence = .ok assessments)
    (h' : assessAll wilsonBps (stage.following k boundary last hlast) candidates usage budget native
      policy evidence = .ok assessments')
    (hbest : best (qualifiedOf assessments) = some b) (hkey : b.key = k)
    (hne : k ≠ stage.currentConfiguration) :
    ∃ b', best (qualifiedOf assessments') = some b' ∧ b'.key = k := by
  obtain ⟨q', hq', hrank⟩ := exists_followed_rank_le h h' (List.argmin_mem hbest) hkey hne
  obtain ⟨b', hbest'⟩ := exists_best hq'
  refine ⟨b', hbest', ?_⟩
  by_contra hother
  obtain ⟨q, hq, hqkey, hqrank⟩ := exists_rank_le h h' (List.argmin_mem hbest') hother
  have hle : q.rank ≤ b.rank := hqrank.trans ((best_le hbest' hq').trans hrank)
  have hsame : b.rank = q.rank := le_antisymm (best_le hbest hq) hle
  exact hother (hqkey.symm.trans ((key_eq_of_rank_eq hsame).symm.trans hkey))

/-- Once the recommended configuration is in use, equal evidence retains it. -/
theorem followed_advice_retained {advice advice' : Advice} {k : Str} {boundary : Boundary}
    {last : Nat} (hlast : last ≤ stage.checkpoint)
    (h : advise wilsonBps stage candidates calibrations usage budget native policy = .ok advice)
    (hstatus : advice.verdict.status = .recommend) (hk : advice.verdict.selected = some k)
    (h' : advise wilsonBps (stage.following k boundary last hlast) candidates calibrations usage
      budget native policy = .ok advice') :
    advice'.verdict.status = .retain ∧ advice'.verdict.selected = some k := by
  obtain ⟨evidence, hadmission, h⟩ := advise_eq_ok h
  obtain ⟨evidence', hadmission', h'⟩ := advise_eq_ok h'
  rw [admission_following, hadmission] at hadmission'
  rw [← Except.ok.inj hadmission'] at h'
  rcases h with hearly | ⟨hearly, assessments, hassess, hverdict⟩
  · exact absurd hstatus (earlyVerdict_ne_recommend hearly)
  · rcases h' with hearly' | ⟨-, assessments', hassess', hverdict'⟩
    · rw [hearly] at hearly'
      cases hearly'
    · rw [hverdict] at hstatus hk
      obtain ⟨hmandatory, b, hbest, hne, hselected⟩ := of_select_recommend hstatus
      have hkey : b.key = k := Option.some.inj (hselected.symm.trans hk)
      obtain ⟨b', hbest', hkey'⟩ := best_followed hassess hassess' hbest hkey (hkey ▸ hne)
      rw [hverdict']
      exact select_of_best hmandatory hbest' hkey'

end

/-! ## One configuration, recommended and followed -/

namespace Sample

def configuration : Configuration where
  provider := str "p"
  model := str "m"
  revision := str "1"
  effort := str "e"
  nativeReasoning := .low
  speed := str "s"
  hostRevision := str "h"
  capabilities := []
  contextWindow := 100
  outputLimit := 10
  canonicalCapabilities := .nil
  hasWindow := by decide
  hasOutput := by decide

def key : Str := configuration.key

def tokens : Tokens := ⟨⟨some 10, some 0, some 0, some 10⟩, none, by simp⟩

def rates : Rates := ⟨key, str "u", ⟨some 500000, some 0, some 0, some 500000⟩, 0, 10, by decide⟩

/-- A configuration with a handoff of one unit and two milliseconds. -/
def candidate : Candidate where
  configuration := configuration
  lowTokens := tokens
  highTokens := tokens
  rates := some rates
  extraUnits := zero
  handoffUnits := ⟨1, 1, by decide, by decide⟩
  latencyMs := ⟨5, 9, by decide, by decide⟩
  handoffMs := ⟨2, 2, by decide, by decide⟩
  handoffTokens := 3
  upright := by
    intro pair hpair low hlow high hhigh
    simp only [tokens, Buckets.toList, List.zip_cons_cons, List.zip_nil_right, List.mem_cons,
      List.not_mem_nil, or_false] at hpair
    rcases hpair with rfl | rfl | rfl | rfl <;> (cases hlow; cases hhigh; exact le_rfl)
  ownRates := by
    rintro r ⟨⟩
    rfl

def workload : Workload :=
  ⟨str "f", str "a", str "b", str "c", str "d", (0, 0, 0, 0), true, []⟩

def calibration : Calibration :=
  ⟨key, workload.key, 100, 100, 0, 10, str "e", .measured, by decide, by decide, by decide⟩

def stage : Stage where
  tenantId := str "tenant:t"
  incidentId := str "incident:i"
  rootTaskId := str "r"
  stageId := str "s"
  workload := workload
  currentConfiguration := str "a"
  now := 1
  checkpoint := 5
  lastSwitchCheckpoint := 0
  boundary := .phase
  inputPeak := 10
  outputPeak := 5
  contextDigest := str "c"
  evidenceMode := .measured
  notSelfReported := by decide
  lastSwitch_le := by decide

def usage : UsageSummary := ⟨str "r", str "u", 0, true, 0, true, [], [], str "d"⟩

def budget : Budget := ⟨str "u", 100, 0, some 1000, 0, some 100⟩

def native : NativeView :=
  ⟨str "tenant:t", str "incident:i", true, false, none, [key], str "n", by simp, by simp⟩

def policy : AdvisoryPolicy := ⟨9000, 30, 1000, 0, 2, by decide⟩

/-- The Wilson bounds of a hundred accepted of a hundred trials. -/
def wilsonBps (_ _ : Nat) : Nat × Nat := (9630, 10000)

theorem quoted : rates.quote tokens candidate.key 1 = .ok (some 10) := by
  unfold Rates.quote
  rw [ensure_of (show candidate.key = rates.configurationId from rfl), ok_bind]
  decide +kernel

theorem qualifies (switching : Bool) : ∃ cost elapsed,
    Qualifies wilsonBps stage usage budget native policy [calibration] switching candidate cost
      elapsed (9630, 10000) := by
  have hforecast : ∃ cost elapsed,
      futureCost candidate switching 1 = .ok (some cost, elapsed) ∧ cost.high ≤ 11
        ∧ elapsed.high ≤ 11 := by
    unfold futureCost
    show ∃ cost elapsed, (_ >>= fun elapsed => (rates.quote tokens candidate.key 1 >>= fun low =>
      rates.quote tokens candidate.key 1 >>= fun high => _)) = _ ∧ _
    simp only [quoted, ok_bind]
    cases switching
    · exact ⟨⟨10, 10, by decide, by decide⟩, ⟨5, 9, by decide, by decide⟩, rfl, by decide, by decide⟩
    · exact ⟨⟨11, 11, by decide, by decide⟩, ⟨7, 11, by decide, by decide⟩, rfl, by decide, by decide⟩
  obtain ⟨cost, elapsed, hforecast, hcost, helapsed⟩ := hforecast
  refine ⟨cost, elapsed, hforecast, ?_, ?_⟩
  · rw [List.append_eq_nil_iff]
    constructor
    · simp only [staticReasons, List.append_eq_nil_iff, rejectIf_eq_nil]
      exact ⟨⟨⟨⟨⟨by simp [native, candidate, key, Candidate.key], by decide⟩, by decide⟩,
        by decide⟩, by decide⟩, by decide⟩
    · simp only [forecastReasons, List.append_eq_nil_iff, rejectIf_eq_nil]
      refine ⟨⟨?_, ?_⟩, ?_⟩
      · show ¬(100 < 0 + 0 + cost.high)
        omega
      · show ¬∃ ms ∈ some 100, ms < elapsed.high
        simp
        omega
      · cases switching <;> decide
  · have hfound : calibrationOf stage [calibration] candidate = some calibration := by
      simp [calibrationOf, calibration, stage, candidate, key, Candidate.key]
    rw [hfound]
    rfl

theorem admitted : admission stage [candidate] [calibration] usage budget native = .ok [calibration] := by
  unfold admission
  rw [ensure_of (by decide), ok_bind, ensure_of (by decide), ok_bind,
    ensure_of (show (List.map Candidate.key [candidate]).Nodup from List.nodup_singleton _), ok_bind,
    ensure_of (by decide), ok_bind,
    ensure_of (by simp [native, candidate, key, Candidate.key]), ok_bind]
  rfl

theorem assessed (switching : Bool) : ∃ a q,
    assess wilsonBps stage usage budget native policy [calibration] switching candidate = .ok a
      ∧ a.qualified = some q ∧ q.key = key := by
  obtain ⟨cost, elapsed, hq⟩ := qualifies switching
  obtain ⟨evaluation, hassess⟩ := assess_of_qualifies hq
  rw [fraction_eq_ok.2 ⟨by decide, rfl⟩, ok_bind, fraction_eq_ok.2 ⟨by decide, rfl⟩, ok_bind]
    at hassess
  exact ⟨_, _, hassess, rfl, rfl⟩

theorem key_ne : key ≠ str "a" := by
  intro h
  have hlength := congrArg List.length h
  simp [key, Configuration.key, identity, str] at hlength

theorem recommended : ∃ advice,
    advise wilsonBps stage [candidate] [calibration] usage budget native policy = .ok advice
      ∧ advice.verdict.status = .recommend ∧ advice.verdict.selected = some key := by
  obtain ⟨a, q, hassess, hq, hkey⟩ := assessed (candidate.key ≠ stage.currentConfiguration)
  have hall : assessAll wilsonBps stage [candidate] usage budget native policy [calibration]
      = .ok [a] := mapM_eq_ok.2 (.cons hassess .nil)
  obtain ⟨advice, hadvice, hverdict⟩ := advise_of_assessAll admitted (by decide) hall
  refine ⟨advice, hadvice, ?_⟩
  have hqualified : qualifiedOf [a] = [q] := by
    rw [qualifiedOf, List.filterMap_cons, hq]
    rfl
  have hcurrent : [q].find? (fun q => q.key = stage.currentConfiguration) = none := by
    simp [hkey, stage, key_ne]
  have hmandatory : native.mandatory = false := rfl
  rw [hverdict, hqualified]
  simp [select, hmandatory, best, List.argmin_singleton, choose, hcurrent, hkey]

theorem assessed_following (k : Str) : ∃ advice,
    advise wilsonBps (stage.following k .phase 5 (by decide)) [candidate] [calibration] usage budget
      native policy = .ok advice := by
  obtain ⟨a, q, hassess, -, -⟩ := assessed (candidate.key ≠ k)
  rw [← assess_following _ stage k .phase 5 (by decide)] at hassess
  have hall : assessAll wilsonBps (stage.following k .phase 5 (by decide)) [candidate] usage budget
      native policy [calibration] = .ok [a] := mapM_eq_ok.2 (.cons hassess .nil)
  obtain ⟨advice, hadvice, -⟩ :=
    advise_of_assessAll ((admission_following _ _ _ _ _ _ _ _ _ _).trans admitted) (by decide) hall
  exact ⟨advice, hadvice⟩

theorem recommended_is_retained : ∃ advice,
    advise wilsonBps (stage.following key .phase 5 (by decide)) [candidate] [calibration] usage budget
      native policy = .ok advice
      ∧ advice.verdict.status = .retain ∧ advice.verdict.selected = some key := by
  obtain ⟨advice, hadvice, hstatus, hselected⟩ := recommended
  obtain ⟨advice', hadvice'⟩ := assessed_following key
  exact ⟨advice', hadvice',
    followed_advice_retained (by decide) hadvice hstatus hselected hadvice'⟩

end Sample
end IntegrityGuardian.ResourceAdvisor
