import IntegrityGuardian.WorkClaims.Guarantees

/-!
# No claim overtakes another

A claim that waits is granted after every claim that ever kept it waiting is closed, so
overlapping claims get their leases in the order they arrived in.
-/

namespace IntegrityGuardian.WorkClaims

open Python Library

/-- Between two moments of a run, a waiting row is granted behind all that blocked it. -/
def GrantsBehindBlockers (s s' : Registry) : Prop :=
  ∀ q ∈ s.workClaims, ∀ r ∈ s.workClaims, r.status = .waiting → Blocks q r →
    ∀ r' ∈ s'.workClaims, r'.claimId = r.claimId → ∀ u, r'.fenceToken = some u →
      ∃ q' ∈ s'.workClaims, q'.claimId = q.claimId ∧ q'.status.isOpen = false ∧
        ∀ t, q'.fenceToken = some t → t < u

section
variable {s t : Registry} {q r r' : Row} {kind : Str} {d : ClaimDecision}
  {extra : List (Str × Json)} {u : Int}

/-- Only a row without blockers gets a token. -/
theorem Change.blockers_of_grant (h : Change s t kind d extra) (hs : s.WF)
    (hr : r ∈ s.workClaims) (hnone : r.fenceToken = none) (hr' : r' ∈ t.workClaims)
    (hid : r'.claimId = r.claimId) (hu : r'.fenceToken = some u) : s.blockers r = [] := by
  have hsame : ∀ p ∈ s.workClaims, p.claimId = r.claimId → p.fenceToken = none := by
    intro p hp heq
    rw [hs.eq_of_claimId hp hr heq]
    exact hnone
  cases h with
  | @promote x expiresAt hx hwaiting hfree =>
    rcases Registry.mem_update.1 hr' with ⟨p, hp, hpid, rfl⟩ | ⟨hp, -⟩
    · have hxr : x.claimId = r.claimId := hpid.symm.trans hid
      rw [← hs.eq_of_claimId hx hr hxr]
      exact hfree
    · rw [hsame r' hp hid] at hu
      cases hu
  | close hx hclosing =>
    rcases Registry.mem_update.1 hr' with ⟨p, hp, -, rfl⟩ | ⟨hp, -⟩
    · exact absurd (hu.symm.trans (hsame p hp hid)) (by simp)
    · exact absurd (hu.symm.trans (hsame r' hp hid)) (by simp)
  | enqueue hfresh hwaiting htoken hblocked =>
    rcases Registry.mem_insert.1 hr' with hp | rfl
    · exact absurd (hu.symm.trans (hsame r' hp hid)) (by simp)
    · exact absurd hid.symm (Registry.find?_eq_none.1 hfresh r hr)
  | admitted hfresh hwaiting htoken hfree =>
    rcases Registry.mem_update.1 hr' with ⟨p, -, hpid, rfl⟩ | ⟨hp, hne⟩
    · exact absurd (hid.symm.trans hpid) (Registry.find?_eq_none.1 hfresh r hr)
    · rcases Registry.mem_insert.1 hp with hp | rfl
      · exact absurd (hu.symm.trans (hsame r' hp hid)) (by simp)
      · exact absurd rfl hne
  | handoff hx hacquired hfresh hstatus htoken hres =>
    rcases Registry.mem_insert.1 hr' with hold | rfl
    · rcases Registry.mem_update.1 hold with ⟨p, hp, -, rfl⟩ | ⟨hp, -⟩
      · exact absurd (hu.symm.trans (hsame p hp hid)) (by simp)
      · exact absurd (hu.symm.trans (hsame r' hp hid)) (by simp)
    · exact absurd hid.symm (Registry.find?_eq_none.1 hfresh r hr)
  | renew hx hopen =>
    rcases Registry.mem_update.1 hr' with ⟨p, hp, -, rfl⟩ | ⟨hp, -⟩
    · exact absurd (hu.symm.trans (hsame p hp hid)) (by simp)
    · exact absurd (hu.symm.trans (hsame r' hp hid)) (by simp)
  | reject hstatus => exact absurd (hu.symm.trans (hsame r' hr' hid)) (by simp)

/-- A blocker that is still open is still in front. -/
theorem Blocks.evolve (h : Blocks q r) {q' : Row} (hq : Evolves q q') (hr : Evolves r r')
    (hopen : q'.status.isOpen = true) : Blocks q' r' where
  distinct := by
    rw [hq.claimId, hr.claimId]
    exact h.distinct
  isOpen := hopen
  ahead := by
    rcases h.ahead with hacquired | hlt
    · left
      have hstatus := hq.acquired hacquired
      revert hopen hstatus
      cases q'.status <;> simp [ClaimStatus.isOpen]
    · right
      rw [hq.seq, hr.seq]
      exact hlt
  overlap := by
    rw [hq.resources, hr.resources]
    exact h.overlap

end

section
variable [UnicodeData] {s s' : Registry} {r r' : Row} {u : Int}

theorem Step.blockers_of_grant (h : Step s s') (hs : s.Sound) (hr : r ∈ s.workClaims)
    (hnone : r.fenceToken = none) (hr' : r' ∈ s'.workClaims) (hid : r'.claimId = r.claimId)
    (hu : r'.fenceToken = some u) : s.blockers r = [] := by
  cases h with
  | logged hchange hlog =>
    obtain ⟨_, _, -, -, rfl⟩ := hlog
    exact hchange.blockers_of_grant hs.wf hr hnone hr' hid hu
  | extended hx hopen =>
    exact (Change.renew hx hopen).blockers_of_grant hs.wf hr hnone hr' hid hu

theorem Steps.grantsBehindBlockers (h : Steps s s') (hs : s.Sound) :
    GrantsBehindBlockers s s' := by
  intro q hq r hr hwaiting hblocks
  -- by induction on the steps: a grant finds every earlier blocker closed
  induction h with
  | refl =>
    intro r' hr' hid u hu
    rw [hs.wf.eq_of_claimId hr' hr hid, hs.wf.waiting_token r hr hwaiting] at hu
    cases hu
  | @tail middle last hsteps hstep ih =>
    intro r' hr' hid u hu
    have hmiddle := Steps.sound hsteps hs
    obtain ⟨q₁, hq₁, hevolves⟩ := (Steps.grows hsteps hs).evolves q hq
    obtain ⟨r₁, hr₁, hevolvesR⟩ := (Steps.grows hsteps hs).evolves r hr
    have hid₁ : r'.claimId = r₁.claimId := hid.trans hevolvesR.claimId.symm
    obtain ⟨r₂, hr₂, hlast⟩ := (hstep.grows hmiddle).evolves r₁ hr₁
    have heq : r₂ = r' :=
      (hstep.sound hmiddle).wf.eq_of_claimId hr₂ hr' (hlast.claimId.trans hid₁.symm)
    subst heq
    cases htoken : r₁.fenceToken with
    | some v =>
      have hvu : v = u := Option.some.inj ((hlast.token v htoken).symm.trans hu)
      obtain ⟨q', hq', hqid, hclosed, hlt⟩ := ih r₁ hr₁ hevolvesR.claimId v htoken
      refine ⟨q', (hstep.grows hmiddle).mem_of_closed hq' hclosed, hqid, hclosed, ?_⟩
      rw [← hvu]
      exact hlt
    | none =>
      have hfree := hstep.blockers_of_grant hmiddle hr₁ htoken hr' hid₁ hu
      have hclosed : q₁.status.isOpen = false := by
        by_contra hopen
        rw [Bool.not_eq_false] at hopen
        have hmem := mem_blockers_iff.2 ⟨hq₁, hblocks.evolve hevolves hevolvesR hopen⟩
        rw [hfree] at hmem
        cases hmem
      refine ⟨q₁, (hstep.grows hmiddle).mem_of_closed hq₁ hclosed, hevolves.claimId, hclosed, ?_⟩
      intro t ht
      have hle := (hmiddle.wf.token_range q₁ hq₁ t ht).2
      rcases (hstep.grows hmiddle).fresh r₂ hr' u hu with hlt | ⟨p, hp, hpid, hpu⟩
      · omega
      · rw [hmiddle.wf.eq_of_claimId hp hr₁ (hpid.trans hid₁), htoken] at hpu
        cases hpu

theorem steps_reached (calls later : List Call) :
    Steps (reached calls) (reached (calls ++ later)) := by
  unfold reached
  rw [run_append]
  refine run_relates (I := Registry.Settled) (fun _ => .refl)
    (fun _ _ _ => Relation.ReflTransGen.trans) ?_ (run_settled calls) later
  intro s call reply s' hs h
  obtain ⟨hsteps, hs'⟩ := exec_settled hs h
  exact ⟨hs', hsteps⟩

/-- No overtaking along any run: once a claim is granted, every claim that ever kept it
waiting is closed, and was granted under a smaller token if it was granted at all. -/
theorem no_overtaking (calls later : List Call) :
    GrantsBehindBlockers (reached calls) (reached (calls ++ later)) :=
  Steps.grantsBehindBlockers (steps_reached calls later) (run_settled calls).sound

end

end IntegrityGuardian.WorkClaims
