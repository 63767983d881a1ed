import IntegrityGuardian.WorkClaims.Log

/-!
# What the registry guarantees along every run

Mutual exclusion, progress of the queue and the fencing discipline, each over
every interleaving of calls with any `now`, the ones that raise included.
-/

namespace IntegrityGuardian.WorkClaims

open Python Library

/-! ## Mutual exclusion -/

variable {s : Registry}

theorem assertFence_eq_ok {claimId agentId : Str} {fenceToken : Int} {now : Now}
    {d : ClaimDecision} (h : assertFence claimId agentId fenceToken now s = .ok d) :
    ∃ r ∈ s.workClaims, r.claimId = claimId ∧ r.status = .acquired ∧
      r.fenceToken = some fenceToken ∧ d = decision r := by
  unfold assertFence at h
  obtain ⟨current, -, h⟩ := bind_eq_ok.1 h
  cases hfind : s.find? claimId with
  | none => simp [hfind] at h
  | some r =>
    obtain ⟨hr, hid⟩ := Registry.mem_of_find? hfind
    simp only [hfind] at h
    by_cases hbad : r.status ≠ .acquired ∨ r.agentId ≠ agentId ∨ r.fenceToken ≠ some fenceToken
    · rw [if_pos hbad] at h
      cases h
    · rw [if_neg hbad] at h
      simp only [ne_eq, not_or, not_not] at hbad
      cases hexp : r.expiresAt with
      | none => simp [hexp, staleFence] at h
      | some t =>
        simp only [hexp] at h
        split at h
        · cases h
        · exact ⟨r, hr, hid, hbad.1, hbad.2.2, (Except.ok.inj h).symm⟩

theorem Registry.Queued.reaches_acquired {next : Row → Row}
    (hnext : ∀ r ∈ s.workClaims, r.status = .waiting →
      next r ∈ s.workClaims ∧ Blocks (next r) r) (r : Row) (hr : r ∈ s.workClaims)
    (hwaiting : r.status = .waiting) :
    ∃ n, next^[n] r ∈ s.workClaims ∧ (next^[n] r).status = .acquired := by
  -- by induction on the position in the queue
  induction hseq : r.seq using Nat.strong_induction_on generalizing r with
  | _ n ih =>
    obtain ⟨hmem, hblocks⟩ := hnext r hr hwaiting
    by_cases hacq : (next r).status = .acquired
    · exact ⟨1, hmem, hacq⟩
    · have hlt : (next r).seq < n := hseq ▸ hblocks.ahead.resolve_left hacq
      have hstatus : (next r).status = .waiting := by
        have hopen := hblocks.isOpen
        revert hopen hacq
        cases (next r).status <;> simp [ClaimStatus.isOpen]
      obtain ⟨k, hk⟩ := ih (next r).seq hlt (next r) hmem hstatus rfl
      exact ⟨k + 1, hk⟩

section
variable [UnicodeData]

/-- No two acquired claims overlap, and so no two `assert_fence` calls for
overlapping claims succeed on the same registry, whatever their times. -/
theorem acquired_claims_disjoint (calls : List Call) :
    (∀ r ∈ (reached calls).workClaims,
      ∀ q ∈ (reached calls).workClaims,
      r.status = .acquired → q.status = .acquired → r ≠ q →
      ∀ a ∈ r.resources, ∀ b ∈ q.resources, resourcesOverlap a b = false) ∧
    (∀ claimId agentId fenceToken now d claimId' agentId' fenceToken' now' d',
      assertFence claimId agentId fenceToken now (reached calls) = .ok d →
      assertFence claimId' agentId' fenceToken' now' (reached calls) = .ok d' →
      claimId ≠ claimId' → setsOverlap d.resources d'.resources = false) := by
  have hs := (run_settled calls).sound
  constructor
  · intro r hr q hq hracq hqacq hne a ha b hb
    have hid : r.claimId ≠ q.claimId := fun heq => hne (hs.wf.eq_of_claimId hr hq heq)
    have hdisjoint := hs.disjoint hr hq hracq hqacq hid
    rw [← Bool.not_eq_true] at hdisjoint ⊢
    exact fun hoverlap => hdisjoint (setsOverlap_eq_true.2 ⟨a, ha, b, hb, hoverlap⟩)
  · intro claimId agentId fenceToken now d claimId' agentId' fenceToken' now' d' h h' hne
    obtain ⟨r, hr, rfl, hracq, -, rfl⟩ := assertFence_eq_ok h
    obtain ⟨q, hq, rfl, hqacq, -, rfl⟩ := assertFence_eq_ok h'
    exact hs.disjoint hr hq hracq hqacq hne

/-! ## Progress of the queue -/

variable {s : Registry}

theorem Steps.announced {s' : Registry} (h : Steps s s') :
    ∃ new, s'.events = s.events ++ new ∧ ∀ r' ∈ s'.workClaims, r'.status = .acquired →
      (∃ r ∈ s.workClaims, r.claimId = r'.claimId ∧ r.status = .acquired) ∨
        ∃ e ∈ new, ∃ t, grant e = some (r'.claimId, t) := by
  induction h with
  | refl => exact ⟨[], by simp, fun r hr hacq => .inl ⟨r, hr, rfl, hacq⟩⟩
  | @tail s₁ s₂ hsteps hstep ih =>
    obtain ⟨new, hevents, hall⟩ := ih
    cases hstep with
    | extended hr hopen =>
      refine ⟨new, hevents, ?_⟩
      intro q hq hacq
      rcases Registry.mem_update.1 hq with ⟨p, hp, -, rfl⟩ | ⟨hq, -⟩
      · exact hall p hp hacq
      · exact hall q hq hacq
    | @logged t _ kind d current extra hchange hlog =>
      obtain ⟨e, event, rfl, hparse, hreports, -⟩ := hlog.exists_row hchange.extraMembers
      have ht : t.events = s₁.events := by
        cases hchange <;> rfl
      refine ⟨new ++ [e], by simp [ht, hevents], ?_⟩
      intro q hq hacq
      rcases (hchange.grant_cases hparse hreports).2 q hq hacq with
        ⟨p, hp, hid, hpacq⟩ | ⟨u, hgrant⟩
      · rcases hall p hp hpacq with ⟨r, hr, hrid, hracq⟩ | ⟨e', he', u, hgrant⟩
        · exact .inl ⟨r, hr, hrid.trans hid, hracq⟩
        · exact .inr ⟨e', by simp [he'], u, by rw [hgrant, hid]⟩
      · exact .inr ⟨e, by simp, u, hgrant⟩

/-- No lost wake-up and no deadlock.  Between calls every waiting claim is
blocked by another open claim that is acquired or earlier in the queue; any way
of following blockers ends at an acquired claim; the `_try_promote` of `poll`
finds its claim blocked; and a call that makes a claim acquired appends the
event that says so. -/
theorem waiting_claims_blocked (calls : List Call) :
    (∀ r ∈ (reached calls).workClaims, r.status = .waiting →
      ∃ q ∈ (reached calls).workClaims, q.claimId ≠ r.claimId ∧
        q.status.isOpen = true ∧ (q.status = .acquired ∨ q.seq < r.seq) ∧
        setsOverlap r.resources q.resources = true) ∧
    (∀ next : Row → Row,
      (∀ r ∈ (reached calls).workClaims, r.status = .waiting →
        next r ∈ (reached calls).workClaims ∧ Blocks (next r) r) →
      ∀ r ∈ (reached calls).workClaims, r.status = .waiting →
      ∃ n, next^[n] r ∈ (reached calls).workClaims ∧
        (next^[n] r).status = .acquired) ∧
    (∀ current s₁ r expiresAt d s₂,
      expire current (reached calls) = .ok (⟨⟩, s₁) → r ∈ s₁.workClaims →
      r.status = .waiting →
      tryPromote r.claimId current (s₁.touch r.claimId expiresAt r.ttlSeconds) = .ok (d, s₂) →
      d.status = .waiting ∧ s₂ = s₁.touch r.claimId expiresAt r.ttlSeconds) ∧
    (∀ call reply s', exec call (reached calls) = .ok (reply, s') →
      ∃ new, s'.events = (reached calls).events ++ new ∧
        ∀ r' ∈ s'.workClaims, r'.status = .acquired →
          (∃ r ∈ (reached calls).workClaims,
            r.claimId = r'.claimId ∧ r.status = .acquired) ∨
          ∃ e ∈ new, ∃ t, grant e = some (r'.claimId, t)) := by
  have hs := run_settled calls
  refine ⟨?_, ?_, ?_, ?_⟩
  · intro r hr hwaiting
    obtain ⟨q, hq, hblocks⟩ := hs.queued r hr hwaiting
    exact ⟨q, hq, hblocks.distinct, hblocks.isOpen, hblocks.ahead, hblocks.overlap⟩
  · intro next hnext r hr hwaiting
    exact Registry.Queued.reaches_acquired hnext r hr hwaiting
  · intro current s₁ r expiresAt d s₂ hexpire hr hwaiting htry
    obtain ⟨hsteps, hqueued, -⟩ := expire_eq_ok hs.sound hs.queued hexpire
    have hr' : r.extended expiresAt r.ttlSeconds
        ∈ (s₁.touch r.claimId expiresAt r.ttlSeconds).workClaims :=
      Registry.mem_update.2 (.inl ⟨r, hr, rfl, rfl⟩)
    exact tryPromote_of_queued ((Steps.sound hsteps hs.sound).touch _ _ _).wf
      (hqueued.touch _ _ _) hr' rfl hwaiting htry
  · intro call reply s' hexec
    exact Steps.announced (exec_settled hs hexec).1

/-! ## Fencing -/

theorem reached_append_grows (calls later : List Call) :
    Grows (reached calls) (reached (calls ++ later)) := by
  unfold reached
  rw [run_append]
  refine run_relates (I := Registry.Settled) Grows.refl (fun _ _ _ => Grows.trans) ?_
    (run_settled calls) later
  intro s call reply s' hs h
  obtain ⟨hsteps, hs'⟩ := exec_settled hs h
  exact ⟨hs', Steps.grows hsteps hs.sound⟩

/-- No writer gets through with the token of a closed claim, under any claim id. -/
def Rejects (s : Registry) (fenceToken : Int) : Prop :=
  ∀ claimId agentId now,
    (∀ d, assertFence claimId agentId fenceToken now s ≠ .ok d) ∧
    (∀ ttlSeconds p, exec (.renew claimId agentId fenceToken ttlSeconds now) s ≠ .ok p) ∧
    (∀ outcome p, exec (.release claimId agentId fenceToken outcome now) s ≠ .ok p) ∧
    (∀ successorId note p, exec (.handoff claimId agentId fenceToken successorId note now) s ≠ .ok p)

theorem rejects_closed (hs : s.Settled) {r : Row} {t : Int}
    (hr : r ∈ s.workClaims) (hclosed : r.status.isOpen = false) (ht : r.fenceToken = some t) :
    Rejects s t := by
  -- the sweep in front of a call keeps the closed row
  have hswept : ∀ {current s₁ q}, expire current s = .ok (⟨⟩, s₁) → q ∈ s₁.workClaims →
      q.fenceToken = some t → q.status ≠ .acquired := by
    intro current s₁ q hexpire hq hqt
    obtain ⟨hsteps, -, -⟩ := expire_eq_ok hs.sound hs.queued hexpire
    have hr₁ := (Steps.grows hsteps hs.sound).mem_of_closed hr hclosed
    exact (Steps.sound hsteps hs.sound).wf.not_acquired_of_closed hr₁ hq hclosed ht hqt
  intro claimId agentId now
  refine ⟨?_, ?_, ?_, ?_⟩
  · intro d h
    obtain ⟨q, hq, -, hacq, hqt, -⟩ := assertFence_eq_ok h
    exact hs.sound.wf.not_acquired_of_closed hr hq hclosed ht hqt hacq
  · rintro ttlSeconds ⟨reply, s'⟩ h
    obtain ⟨d, hrenew, -⟩ := Tx.map_eq_ok.1 h
    obtain ⟨_, s₁, q, _, _, -, hexpire, hq, -, hacq, hqt, -⟩ :=
      renew_eq_ok hs.sound hs.queued hrenew
    exact hswept hexpire hq hqt hacq
  · rintro outcome ⟨reply, s'⟩ h
    obtain ⟨d, hrelease, -⟩ := Tx.map_eq_ok.1 h
    obtain ⟨_, s₁, q, _, -, hexpire, hq, -, hacq, hqt, -, -⟩ :=
      release_eq_ok hs.sound hs.queued hrelease
    exact hswept hexpire hq hqt hacq
  · rintro successorId note ⟨reply, s'⟩ h
    obtain ⟨d, hhandoff, -⟩ := Tx.map_eq_ok.1 h
    obtain ⟨_, s₁, q, _, -, hexpire, hq, -, hacq, -, hqt, -⟩ := handoff_eq_ok hhandoff
    exact hswept hexpire hq hqt hacq

/-- The fencing discipline between any moment of a run and any later one: tokens
are distinct, grow with every grant, and appear in the log in that order; closed
claims stay as they are and their tokens are dead; and of two overlapping claims
that were granted, the one granted first is no longer acquired, in the table and
in the log replayed up to any event. -/
theorem fencing_discipline (calls later : List Call) :
    ((∀ r ∈ (reached calls).workClaims, ∀ q ∈ (reached calls).workClaims, ∀ t,
        r.fenceToken = some t → q.fenceToken = some t → r = q) ∧
      (∀ r' ∈ (reached (calls ++ later)).workClaims, ∀ t, r'.fenceToken = some t →
        (∃ r ∈ (reached calls).workClaims, r.claimId = r'.claimId ∧ r.fenceToken = some t) ∨
        ∀ q ∈ (reached calls).workClaims, ∀ u, q.fenceToken = some u → u < t) ∧
      ((reached calls).events.filterMap grant).Pairwise fun g g' => g.2 < g'.2) ∧
    ((∀ r ∈ (reached calls).workClaims,
        r.status ∈ [.released, .expired, .cancelled, .handedOff] →
        r ∈ (reached (calls ++ later)).workClaims) ∧
      (∀ r ∈ (reached calls).workClaims, ∀ t, r.fenceToken = some t → r.status ≠ .acquired →
        Rejects (reached (calls ++ later)) t)) ∧
    ((∀ r ∈ (reached calls).workClaims, ∀ q ∈ (reached calls).workClaims, ∀ t u,
        r.fenceToken = some t → q.fenceToken = some u → t < u →
        setsOverlap r.resources q.resources = true → r.status ≠ .acquired) ∧
      ∀ events, events <+: (reached calls).events → (replay events).Exclusive) := by
  have hs := run_settled calls
  have hrec := run_recorded calls
  have hgrows := reached_append_grows calls later
  refine ⟨⟨?_, ?_, hrec.tokens⟩, ⟨?_, ?_⟩, hs.sound.fenced, hrec.exclusive⟩
  · intro r hr q hq t hrt hqt
    exact hs.sound.wf.eq_of_claimId hr hq (hs.sound.wf.token_unique r hr q hq t hrt hqt)
  · intro r' hr' t ht
    rcases hgrows.fresh r' hr' t ht with hlt | hold
    · refine .inr fun q hq u hu => ?_
      exact lt_of_le_of_lt (hs.sound.wf.token_range q hq u hu).2 hlt
    · exact .inl hold
  · intro r hr hstatus
    refine hgrows.mem_of_closed hr ?_
    revert hstatus
    cases r.status <;> decide
  · intro r hr t ht hacq
    have hclosed : r.status.isOpen = false := by
      have hwaiting : r.status ≠ .waiting := by
        intro hwaiting
        rw [hs.sound.wf.waiting_token r hr hwaiting] at ht
        cases ht
      revert hacq hwaiting
      cases r.status <;> decide
    exact rejects_closed (run_settled (calls ++ later)) (hgrows.mem_of_closed hr hclosed) hclosed ht

end

end IntegrityGuardian.WorkClaims
