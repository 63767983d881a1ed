import IntegrityGuardian.WorkClaims.Guarantees
import Mathlib.Data.List.Induction

/-!
# Two checks the registry leaves out

`cancel` promotes without sweeping the table first, and `handoff` gives a claim
to a successor without the own-overlap test of `claim`.  Both results say
exactly when that shows.
-/

namespace IntegrityGuardian.WorkClaims

open Python Library

/-! ## Lapsed waiters -/

/-- The lease of `r` has run out at `current`. -/
def Row.LapsedAt (r : Row) (current : Instant) : Prop := ∃ t, r.expiresAt = some t ∧ t ≤ current

/-- `call` turns a claim that had lapsed when it started from waiting into acquired. -/
def LapsedGrant [UnicodeData] (s : Registry) (call : Call) : Prop :=
  ∃ current, time call.now = .ok current ∧ ∃ r ∈ s.workClaims, r.status = .waiting ∧
    r.LapsedAt current ∧ ∃ r' ∈ (after exec s call).workClaims, r'.claimId = r.claimId ∧
      r'.status = .acquired

instance (r : Row) (current : Instant) : Decidable (r.LapsedAt current) :=
  decidable_of_iff (r.expiresAt.any (· ≤ current) = true) (by
    unfold Row.LapsedAt
    rw [Option.any_eq_true]
    simp only [decide_eq_true_eq])

instance [UnicodeData] (s : Registry) (call : Call) : Decidable (LapsedGrant s call) :=
  match h : time call.now with
  | .error _ => isFalse (by
      rintro ⟨current, htime, -⟩
      rw [h] at htime
      cases htime)
  | .ok current =>
    decidable_of_iff (∃ r ∈ s.workClaims, r.status = .waiting ∧ r.LapsedAt current ∧
      ∃ r' ∈ (after exec s call).workClaims, r'.claimId = r.claimId ∧ r'.status = .acquired) (by
      constructor
      · intro hr
        exact ⟨current, h, hr⟩
      · rintro ⟨current', htime, hr⟩
        rw [h, Except.ok.injEq] at htime
        exact htime ▸ hr)

/-- `call` cancels a waiting claim that is the only blocker of a lapsed one. -/
def FreesLapsed (s : Registry) : Call → Prop
  | .cancel claimId agentId now =>
    ∃ current, time now = .ok current ∧ ∃ c ∈ s.workClaims, c.claimId = claimId ∧
      c.agentId = agentId ∧ c.status = .waiting ∧ ∃ r ∈ s.workClaims, r.status = .waiting ∧
        r.LapsedAt current ∧ ∀ q ∈ s.workClaims, Blocks q r → q = c
  | _ => False

section
variable [UnicodeData] {s s' : Registry}

variable {current : Instant} {r : Row}

theorem not_acquired_of_swept (hs : s.Settled) {now : Now} (h : SweptCall now s s')
    (htime : time now = .ok current) (hr : r ∈ s.workClaims)
    (hwaiting : r.status = .waiting) (hlapsed : r.LapsedAt current) {r' : Row}
    (hr' : r' ∈ s'.workClaims) (hid : r'.claimId = r.claimId) : r'.status ≠ .acquired := by
  obtain ⟨current', s₁, htime', hexpire, hsteps, -⟩ := h
  rw [htime, Except.ok.injEq] at htime'
  subst htime'
  obtain ⟨hsteps₁, -, hrows⟩ := expire_eq_ok hs.sound hs.queued hexpire
  have hs₁ := Steps.sound hsteps₁ hs.sound
  obtain ⟨r₁, hr₁, hswept⟩ := exists_of_mem_left hrows hr
  obtain ⟨t, ht, hle⟩ := hlapsed
  have hclosed : r₁ = r.closed .expired current := by
    cases hswept with
    | closed hclosed => simp [hwaiting, ClaimStatus.isOpen] at hclosed
    | lapsed hopen ht' hle' => rfl
    | live hopen ht' hlt hstay =>
      rw [ht, Option.some.injEq] at ht'
      subst ht'
      exact absurd hle (not_le.2 hlt)
  subst hclosed
  have hmem := (Steps.grows hsteps hs₁).mem_of_closed hr₁ rfl
  rw [(Steps.sound hsteps hs₁).wf.eq_of_claimId hr' hmem hid]
  simp

/-- What `cancel` promotes: the waiters that only the cancelled claim blocked. -/
theorem acquired_after_cancel_iff (hs : s.Settled) {c : Row} {s₂ : Registry}
    (hc : c ∈ s.workClaims) (hwaiting : c.status = .waiting)
    (hlog : Logged (s.close c.claimId .cancelled current) (str "claim-cancelled")
      (decision (c.closed .cancelled current)) current [] s₂)
    (hpass : promoteWaiters current s₂ = .ok (⟨⟩, s')) (hr : r ∈ s.workClaims)
    (hrwaiting : r.status = .waiting) :
    (∃ r' ∈ s'.workClaims, r'.claimId = r.claimId ∧ r'.status = .acquired) ↔
      ∀ q ∈ s.workClaims, Blocks q r → q = c := by
  obtain ⟨hsteps, -, hrows⟩ :=
    close_pass hs.sound hc (hwaiting ▸ Closing.cancelled) hlog hpass
  have hs' := Steps.sound hsteps hs.sound
  have hstep : Step s s₂ := .logged (.close hc (hwaiting ▸ Closing.cancelled)) hlog
  have hs₂ := hstep.sound hs.sound
  have hclosed : c.closed .cancelled current ∈ s₂.workClaims := by
    rw [hlog.workClaims]
    exact Registry.mem_update.2 (.inl ⟨c, hc, rfl, rfl⟩)
  have hother : ∀ q ∈ s.workClaims, q.claimId ≠ c.claimId → q ∈ s₂.workClaims := by
    intro q hq hne
    rw [hlog.workClaims]
    exact Registry.mem_update.2 (.inr ⟨hq, hne⟩)
  constructor
  · rintro ⟨r', hr', hid, hacq⟩ q hq hblocks
    by_contra hqc
    have hqid : q.claimId ≠ c.claimId := fun heq => hqc (hs.sound.wf.eq_of_claimId hq hc heq)
    have hrid : r.claimId ≠ c.claimId := by
      intro heq
      obtain ⟨c', hc', hpassed⟩ := exists_of_mem_left hrows hclosed
      rcases hpassed with ⟨hw, -⟩ | ⟨-, rfl⟩
      · simp at hw
      · rw [hs'.wf.eq_of_claimId hr' hc' (hid.trans heq)] at hacq
        simp at hacq
    obtain ⟨r'', hr'', hpassed⟩ := exists_of_mem_left hrows (hother r hr hrid)
    have heq := hs'.wf.eq_of_claimId hr'' hr' (hpassed.claimId.trans hid.symm)
    subst heq
    rcases hpassed with ⟨-, hfree, -⟩ | ⟨-, rfl⟩
    · exact blockers_ne_nil_iff.2 ⟨q, hother q hq hqid, hblocks⟩ hfree
    · rw [hrwaiting] at hacq
      cases hacq
  · intro honly
    have hrid : r.claimId ≠ c.claimId := by
      intro heq
      obtain ⟨q, hq, hblocks⟩ := hs.queued r hr hrwaiting
      rw [honly q hq hblocks] at hblocks
      exact hblocks.distinct heq.symm
    have hfree : s₂.blockers r = [] := by
      by_contra hne
      obtain ⟨q, hq, hblocks⟩ := blockers_ne_nil_iff.1 hne
      rw [hlog.workClaims] at hq
      rcases Registry.mem_update.1 hq with ⟨p, -, -, rfl⟩ | ⟨hq, hqid⟩
      · have hopen := hblocks.isOpen
        simp [ClaimStatus.isOpen] at hopen
      · exact hqid (by rw [honly q hq hblocks])
    obtain ⟨r', hr', hpassed⟩ := exists_of_mem_left hrows (hother r hr hrid)
    rcases hpassed with ⟨-, -, t, e, rfl⟩ | ⟨hnot, -⟩
    · exact ⟨_, hr', rfl, rfl⟩
    · exact absurd ⟨hrwaiting, hfree⟩ hnot

/-- A lapsed waiter is granted by `cancel` only: exactly when the cancelled claim
was its one blocker. -/
theorem lapsed_grant_iff (calls : List Call) (call : Call) :
    (¬FreesLapsed (reached calls) call → ¬LapsedGrant (reached calls) call) ∧
    ((∃ p, exec call (reached calls) = .ok p) →
      (¬LapsedGrant (reached calls) call ↔ ¬FreesLapsed (reached calls) call)) := by
  have hs := run_settled calls
  have hgrant : LapsedGrant (reached calls) call → FreesLapsed (reached calls) call := by
    rintro ⟨current, htime, r, hr, hwaiting, hlapsed, r', hr', hid, hacq⟩
    rcases after_cases exec (reached calls) call with ⟨reply, hexec⟩ | ⟨-, hsame⟩
    · cases hsweeps : call.sweeps with
      | true =>
        exact absurd hacq
          (not_acquired_of_swept hs (exec_swept hs hsweeps hexec) htime hr hwaiting hlapsed hr' hid)
      | false =>
        cases call with
        | cancel claimId agentId now =>
          obtain ⟨_, hcancel, -⟩ := Tx.map_eq_ok.1 hexec
          obtain ⟨current', c, s₂, htime', hc, hcid, hagent, hcwaiting, hlog, hpass⟩ :=
            cancel_eq_ok hs.sound hcancel
          have htimes : time now = .ok current := htime
          rw [htimes, Except.ok.injEq] at htime'
          subst htime'
          exact ⟨current, htimes, c, hc, hcid, hagent, hcwaiting, r, hr, hwaiting, hlapsed,
            (acquired_after_cancel_iff hs hc hcwaiting hlog hpass hr hwaiting).1
              ⟨r', hr', hid, hacq⟩⟩
        | _ => cases hsweeps
    · rw [hsame] at hr'
      rw [hs.sound.wf.eq_of_claimId hr' hr hid, hwaiting] at hacq
      cases hacq
  refine ⟨fun hfrees hlapsed => hfrees (hgrant hlapsed), ?_⟩
  rintro ⟨⟨reply, s'⟩, hexec⟩
  rw [not_iff_not]
  refine ⟨hgrant, fun hfrees => ?_⟩
  cases call with
  | cancel claimId agentId now =>
    obtain ⟨current, htime, c, hc, hcid, -, -, r, hr, hwaiting, hlapsed, honly⟩ := hfrees
    obtain ⟨_, hcancel, -⟩ := Tx.map_eq_ok.1 hexec
    obtain ⟨current', c', s₂, htime', hc', hcid', -, hcwaiting, hlog, hpass⟩ :=
      cancel_eq_ok hs.sound hcancel
    rw [htime, Except.ok.injEq] at htime'
    subst htime'
    have hcc := hs.sound.wf.eq_of_claimId hc hc' (hcid.trans hcid'.symm)
    subst hcc
    refine ⟨current, htime, r, hr, hwaiting, hlapsed, ?_⟩
    rw [after_of_ok hexec]
    exact (acquired_after_cancel_iff hs hc hcwaiting hlog hpass hr hwaiting).2 honly
  | _ => cases hfrees

end

/-- `n` seconds into 2026, in UTC. -/
def utc (n : Nat) : Now :=
  let reading : Instant := Fin.ofNat _ (63902822400000000 + n * 1000000)
  ⟨some ⟨reading, some 0⟩, reading⟩

section
attribute [local instance] asciiUnicodeData

/-- `a` holds a directory, `b` waits for its parent, and `c`, which stopped polling
five seconds in, waits behind `b` only: when `b` cancels at ten seconds, `c` is granted. -/
theorem cancel_grants_lapsed_waiter :
    LapsedGrant
      (reached [.claim (str "a") [str "file:/repo/a"] 100 (utc 0),
        .claim (str "b") [str "file:/repo"] 100 (utc 0),
        .claim (str "c") [str "file:/repo/c"] 5 (utc 0)])
      (.cancel (str "claim:3148cd48fb6d2099748869043647d8b1892a2a8fa2e61dfc693ba936777ba567")
        (str "b") (utc 10)) := by
  decide +kernel

end

/-! ## Claims of one agent -/

/-- No agent has two open claims that overlap. -/
def Registry.SelfDisjoint (s : Registry) : Prop :=
  ∀ r ∈ s.workClaims, ∀ q ∈ s.workClaims, r.status.isOpen = true → q.status.isOpen = true →
    r.agentId = q.agentId → r.claimId ≠ q.claimId → setsOverlap r.resources q.resources = false

instance (s : Registry) : Decidable s.SelfDisjoint :=
  inferInstanceAs (Decidable (∀ r ∈ s.workClaims, ∀ q ∈ s.workClaims, r.status.isOpen = true →
    q.status.isOpen = true → r.agentId = q.agentId → r.claimId ≠ q.claimId →
    setsOverlap r.resources q.resources = false))

/-- `call` hands a claim to an agent that has a live open claim overlapping it. -/
def HandsToOverlapping (s : Registry) : Call → Prop
  | .handoff claimId _ _ successorId _ now =>
    ∃ current, time now = .ok current ∧ ∃ r ∈ s.workClaims, r.claimId = claimId ∧
      ∃ q ∈ s.workClaims, q.agentId = successorId ∧ q.status.isOpen = true ∧
        ¬q.LapsedAt current ∧ setsOverlap r.resources q.resources = true
  | _ => False

namespace Registry.SelfDisjoint

variable {s s' : Registry}

theorem of_old (h : s.SelfDisjoint) (hold : ∀ q' ∈ s'.workClaims, q'.status.isOpen = true →
      ∃ q ∈ s.workClaims, q.status.isOpen = true ∧ q.claimId = q'.claimId ∧
        q.agentId = q'.agentId ∧ q.resources = q'.resources) : s'.SelfDisjoint := by
  intro r' hr' q' hq' hropen hqopen hagent hne
  obtain ⟨r, hr, hropen', hrid, hragent, hrres⟩ := hold r' hr' hropen
  obtain ⟨q, hq, hqopen', hqid, hqagent, hqres⟩ := hold q' hq' hqopen
  rw [← hrres, ← hqres]
  apply h r hr q hq hropen' hqopen'
  · rw [hragent, hqagent, hagent]
  · rw [hrid, hqid]
    exact hne

theorem congr (h : s.SelfDisjoint) (heq : s'.workClaims = s.workClaims) : s'.SelfDisjoint := by
  unfold Registry.SelfDisjoint
  rw [heq]
  exact h

theorem insert (h : s.SelfDisjoint) {r : Row}
    (hown : ∀ q ∈ s.workClaims, q.status.isOpen = true → q.agentId = r.agentId →
      setsOverlap r.resources q.resources = false) : (s.insert r).SelfDisjoint := by
  intro p hp q hq hpopen hqopen hagent hne
  rcases mem_insert.1 hp with hp | rfl <;> rcases mem_insert.1 hq with hq | rfl
  · exact h p hp q hq hpopen hqopen hagent hne
  · rw [setsOverlap_comm]
    exact hown p hp hpopen hagent
  · exact hown q hq hqopen hagent.symm
  · exact absurd rfl hne

theorem update (h : s.SelfDisjoint) {f : Row → Row} {claimId : Str}
    (hid : ∀ r, (f r).claimId = r.claimId) (hagent : ∀ r, (f r).agentId = r.agentId)
    (hres : ∀ r, (f r).resources = r.resources)
    (hopen : ∀ r ∈ s.workClaims, r.claimId = claimId → (f r).status.isOpen = true →
      r.status.isOpen = true) : (s.update claimId f).SelfDisjoint := by
  apply h.of_old
  intro q' hq' hqopen
  rcases mem_update.1 hq' with ⟨q, hq, hqid, rfl⟩ | ⟨hq, -⟩
  · exact ⟨q, hq, hopen q hq hqid hqopen, (hid q).symm, (hagent q).symm, (hres q).symm⟩
  · exact ⟨q', hq, hqopen, rfl, rfl, rfl⟩

theorem close (h : s.SelfDisjoint) {status : ClaimStatus} (hclosed : status.isOpen = false)
    (claimId : Str) (current : Instant) : (s.close claimId status current).SelfDisjoint := by
  apply h.update
  · exact fun _ => rfl
  · exact fun _ => rfl
  · exact fun _ => rfl
  · intro r _ _ hopen
    rw [Row.closed_status, hclosed] at hopen
    cases hopen

theorem touch (h : s.SelfDisjoint) (claimId : Str) (expiresAt : Instant) (ttlSeconds : Int) :
    (s.touch claimId expiresAt ttlSeconds).SelfDisjoint :=
  h.update (fun _ => rfl) (fun _ => rfl) (fun _ => rfl) fun _ _ _ hopen => hopen

theorem promote (h : s.SelfDisjoint) {claimId : Str}
    (hopen : ∀ r ∈ s.workClaims, r.claimId = claimId → r.status.isOpen = true)
    (expiresAt : Instant) : (s.promote claimId expiresAt).SelfDisjoint := by
  have hbumped : Registry.SelfDisjoint { s with lastFence := s.lastFence + 1 } := h
  exact hbumped.update (fun _ => rfl) (fun _ => rfl) (fun _ => rfl)
    fun r hr hid _ => hopen r hr hid

theorem pass {t : Registry} (h : s.SelfDisjoint)
    (hrows : List.Forall₂ (Passed t) s.workClaims s'.workClaims) : s'.SelfDisjoint := by
  apply h.of_old
  intro q' hq' hqopen
  obtain ⟨q, hq, ⟨hwaiting, -, t, e, rfl⟩ | ⟨-, rfl⟩⟩ := exists_of_mem_right hrows hq'
  · exact ⟨q, hq, by simp [hwaiting, ClaimStatus.isOpen], rfl, rfl, rfl⟩
  · exact ⟨q', hq, hqopen, rfl, rfl, rfl⟩

theorem sweep {current : Instant} (h : s.SelfDisjoint)
    (hrows : List.Forall₂ (Swept current) s.workClaims s'.workClaims) : s'.SelfDisjoint := by
  apply h.of_old
  intro q' hq' hqopen
  obtain ⟨q, hq, hswept⟩ := exists_of_mem_right hrows hq'
  cases hswept with
  | closed hclosed => exact ⟨q', hq, hqopen, rfl, rfl, rfl⟩
  | lapsed hopen ht hle => simp [ClaimStatus.isOpen] at hqopen
  | live hopen ht hlt hstay =>
    rcases hstay with rfl | ⟨hwaiting, t, e, rfl⟩
    · exact ⟨q', hq, hqopen, rfl, rfl, rfl⟩
    · exact ⟨q, hq, hopen, rfl, rfl, rfl⟩

end Registry.SelfDisjoint

theorem Swept.same {current : Instant} {r r' : Row} (h : Swept current r r') :
    r'.claimId = r.claimId ∧ r'.agentId = r.agentId ∧ r'.resources = r.resources := by
  cases h with
  | closed hclosed => exact ⟨rfl, rfl, rfl⟩
  | lapsed hopen ht hle => exact ⟨rfl, rfl, rfl⟩
  | live hopen ht hlt hstay =>
    rcases hstay with rfl | ⟨-, t, e, rfl⟩ <;> exact ⟨rfl, rfl, rfl⟩

section
variable {s s' : Registry}

theorem live_iff_open_after_sweep {current : Instant}
    (hrows : List.Forall₂ (Swept current) s.workClaims s'.workClaims) {P : Row → Prop}
    (hP : ∀ r r', Swept current r r' → (P r ↔ P r')) :
    (∃ q ∈ s.workClaims, q.status.isOpen = true ∧ ¬q.LapsedAt current ∧ P q) ↔
      ∃ q ∈ s'.workClaims, q.status.isOpen = true ∧ P q := by
  constructor
  · rintro ⟨q, hq, hopen, hlive, hPq⟩
    obtain ⟨q', hq', hswept⟩ := exists_of_mem_left hrows hq
    refine ⟨q', hq', ?_, (hP q q' hswept).1 hPq⟩
    cases hswept with
    | closed hclosed => exact hopen
    | lapsed hopen ht hle => exact absurd ⟨_, ht, hle⟩ hlive
    | live hopen ht hlt hstay =>
      rcases hstay with rfl | ⟨-, t, e, rfl⟩
      · exact hopen
      · rfl
  · rintro ⟨q', hq', hopen, hPq⟩
    obtain ⟨q, hq, hswept⟩ := exists_of_mem_right hrows hq'
    refine ⟨q, hq, ?_, ?_, (hP q q' hswept).2 hPq⟩
    · cases hswept with
      | closed hclosed => exact hopen
      | lapsed hopen' ht hle => exact hopen'
      | live hopen' ht hlt hstay => exact hopen'
    · rintro ⟨t, ht, hle⟩
      cases hswept with
      | closed hclosed => simp [hclosed] at hopen
      | lapsed hopen' ht' hle' => simp [ClaimStatus.isOpen] at hopen
      | live hopen' ht' hlt hstay =>
        rw [ht, Option.some.injEq] at ht'
        subst ht'
        exact absurd hle (not_le.2 hlt)

variable [UnicodeData]

theorem handoff_selfDisjoint_iff (hs : s.Settled) (hself : s.SelfDisjoint) {claimId agentId : Str}
    {fenceToken : Int} {successorId note : Str} {now : Now} {d : ClaimDecision}
    (h : handoff claimId agentId fenceToken successorId note now s = .ok (d, s')) :
    s'.SelfDisjoint ↔
      ¬HandsToOverlapping s (.handoff claimId agentId fenceToken successorId note now) := by
  obtain ⟨current, s₁, r, new, htime, hexpire, hr, hid, hacquired, hagent, -, hne, hnew, hlog⟩ :=
    handoff_eq_ok h
  obtain ⟨hsteps, -, hrows⟩ := expire_eq_ok hs.sound hs.queued hexpire
  have hs₁ := Steps.sound hsteps hs.sound
  have hself₁ := hself.sweep hrows
  -- the condition, read in the swept table
  have hcond : HandsToOverlapping s (.handoff claimId agentId fenceToken successorId note now) ↔
      ∃ q ∈ s₁.workClaims, q.status.isOpen = true ∧ q.agentId = successorId ∧
        setsOverlap r.resources q.resources = true := by
    rw [← live_iff_open_after_sweep hrows (by
      intro q q' hswept
      rw [hswept.same.2.1, hswept.same.2.2])]
    obtain ⟨r₀, hr₀, hswept₀⟩ := exists_of_mem_right hrows hr
    constructor
    · rintro ⟨current', htime', p, hp, hpid, q, hq, hqagent, hqopen, hlive, hoverlap⟩
      rw [htime, Except.ok.injEq] at htime'
      subst htime'
      have hpr := hs.sound.wf.eq_of_claimId hp hr₀
        (hpid.trans (hid.symm.trans hswept₀.same.1))
      subst hpr
      rw [hswept₀.same.2.2]
      exact ⟨q, hq, hqopen, hlive, hqagent, hoverlap⟩
    · rintro ⟨q, hq, hqopen, hlive, hqagent, hoverlap⟩
      rw [hswept₀.same.2.2] at hoverlap
      exact ⟨current, htime, r₀, hr₀, hswept₀.same.1.symm.trans hid, q, hq, hqagent, hqopen,
        hlive, hoverlap⟩
  rw [hcond]
  constructor
  · rintro hself' ⟨q, hq, hqopen, hqagent, hoverlap⟩
    have hqr : q.claimId ≠ r.claimId := by
      intro heq
      rw [hs₁.wf.eq_of_claimId hq hr heq, hagent] at hqagent
      exact hne hqagent.symm
    have hdisjoint := hself' (new.numbered (s₁.sqliteSequence + 1))
      (by rw [hlog.workClaims]; exact Registry.mem_insert.2 (.inr rfl)) q
      (by
        rw [hlog.workClaims]
        exact Registry.mem_insert.2 (.inl (Registry.mem_update.2 (.inr ⟨hq, hqr⟩))))
      (by rw [Row.numbered_status, hnew.acquired]; rfl) hqopen
      (by rw [Row.numbered_agentId, hnew.agent, hqagent])
      (Registry.find?_eq_none.1 hnew.fresh q hq).symm
    rw [Row.numbered_resources, hnew.resources, hoverlap] at hdisjoint
    cases hdisjoint
  · intro hnone
    have hclosed : Registry.SelfDisjoint { s₁.close r.claimId .handedOff current with
        lastFence := s₁.lastFence + 1 } := hself₁.close rfl r.claimId current
    refine Registry.SelfDisjoint.congr (hclosed.insert ?_) hlog.workClaims
    intro q hq hqopen hqagent
    rw [← Bool.not_eq_true]
    intro hoverlap
    rcases Registry.mem_update.1 hq with ⟨p, -, -, rfl⟩ | ⟨hq, -⟩
    · simp [ClaimStatus.isOpen] at hqopen
    · rw [hnew.resources] at hoverlap
      exact hnone ⟨q, hq, hqopen, hqagent.trans hnew.agent, hoverlap⟩

/-- A committed call keeps the claims of every agent disjoint unless it hands one over badly. -/
theorem exec_selfDisjoint_iff (hs : s.Settled) (hself : s.SelfDisjoint) {call : Call}
    {reply : Reply} (h : exec call s = .ok (reply, s')) :
    s'.SelfDisjoint ↔ ¬HandsToOverlapping s call := by
  unfold exec at h
  cases call with
  | handoff claimId agentId fenceToken successorId note now =>
    obtain ⟨d, hhandoff, -⟩ := Tx.map_eq_ok.1 h
    exact handoff_selfDisjoint_iff hs hself hhandoff
  | claim agentId resources ttlSeconds now =>
    refine iff_of_true ?_ id
    obtain ⟨d, hclaim, -⟩ := Tx.map_eq_ok.1 h
    obtain ⟨current, s₁, -, hexpire, hcase⟩ := claim_eq_ok hs.sound hs.queued hclaim
    obtain ⟨-, -, hrows⟩ := expire_eq_ok hs.sound hs.queued hexpire
    have hself₁ := hself.sweep hrows
    rcases hcase with ⟨-, hlog⟩ | ⟨r, hnew, hcase⟩
    · exact hself₁.congr hlog.workClaims
    · have hinsert : (s₁.insert r).SelfDisjoint :=
        hself₁.insert fun q hq hopen hagent => hnew.own q hq hopen (hagent.trans hnew.agent)
      rcases hcase with ⟨-, _, _, hlog⟩ | ⟨-, expiresAt, hlog⟩
      · exact hinsert.congr hlog.workClaims
      · exact (hinsert.promote (fun q hq hid => by
          rcases Registry.mem_insert.1 hq with hq | rfl
          · exact absurd hid (Registry.find?_eq_none.1 hnew.fresh q hq)
          · simp [hnew.waiting, ClaimStatus.isOpen]) expiresAt).congr hlog.workClaims
  | poll claimId now =>
    refine iff_of_true ?_ id
    obtain ⟨d, hpoll, -⟩ := Tx.map_eq_ok.1 h
    obtain ⟨current, s₁, r, -, hexpire, -, -, hcase⟩ := poll_eq_ok hs.sound hs.queued hpoll
    obtain ⟨-, -, hrows⟩ := expire_eq_ok hs.sound hs.queued hexpire
    rcases hcase with ⟨-, rfl, -⟩ | ⟨-, -, expiresAt, rfl⟩
    · exact hself.sweep hrows
    · exact (hself.sweep hrows).touch _ _ _
  | renew claimId agentId fenceToken ttlSeconds now =>
    refine iff_of_true ?_ id
    obtain ⟨d, hrenew, -⟩ := Tx.map_eq_ok.1 h
    obtain ⟨_, s₁, r, _, _, -, hexpire, -, -, -, -, hlog⟩ :=
      renew_eq_ok hs.sound hs.queued hrenew
    obtain ⟨-, -, hrows⟩ := expire_eq_ok hs.sound hs.queued hexpire
    exact ((hself.sweep hrows).touch _ _ _).congr hlog.workClaims
  | release claimId agentId fenceToken outcome now =>
    refine iff_of_true ?_ id
    obtain ⟨event, hrelease, -⟩ := Tx.map_eq_ok.1 h
    obtain ⟨current, s₁, r, s₂, -, hexpire, hr, -, hacquired, -, hlog, hpass⟩ :=
      release_eq_ok hs.sound hs.queued hrelease
    obtain ⟨hsteps, -, hrows⟩ := expire_eq_ok hs.sound hs.queued hexpire
    obtain ⟨-, -, hpassed⟩ := close_pass (Steps.sound hsteps hs.sound) hr
      (hacquired ▸ Closing.released outcome) hlog hpass
    have hclose : (s₁.close r.claimId .released current).SelfDisjoint :=
      (hself.sweep hrows).close rfl r.claimId current
    exact (hclose.congr hlog.workClaims).pass hpassed
  | cancel claimId agentId now =>
    refine iff_of_true ?_ id
    obtain ⟨_, hcancel, -⟩ := Tx.map_eq_ok.1 h
    obtain ⟨current, r, s₂, -, hr, -, -, hwaiting, hlog, hpass⟩ := cancel_eq_ok hs.sound hcancel
    obtain ⟨-, -, hpassed⟩ := close_pass hs.sound hr (hwaiting ▸ Closing.cancelled) hlog hpass
    have hclose : (s.close r.claimId .cancelled current).SelfDisjoint :=
      hself.close rfl r.claimId current
    exact (hclose.congr hlog.workClaims).pass hpassed

theorem reached_concat (calls : List Call) (call : Call) :
    reached (calls ++ [call]) = after exec (reached calls) call := by
  unfold reached
  rw [run_append]
  rfl

/-- No agent overlaps itself at any moment of a run, exactly if no call of the
run commits a handoff to an agent with a live claim on the same ground. -/
theorem self_disjoint_iff (calls : List Call) :
    (∀ past, past <+: calls → (reached past).SelfDisjoint) ↔
      ∀ past call, past ++ [call] <+: calls → (∃ p, exec call (reached past) = .ok p) →
        ¬HandsToOverlapping (reached past) call := by
  constructor
  · rintro hall past call hprefix ⟨⟨reply, s'⟩, hexec⟩
    have hpast := hall past ((List.prefix_append past [call]).trans hprefix)
    refine (exec_selfDisjoint_iff (run_settled past) hpast hexec).1 ?_
    rw [← after_of_ok hexec, ← reached_concat]
    exact hall _ hprefix
  · intro hall past hprefix
    induction past using List.reverseRecOn with
    | nil => simp [Registry.SelfDisjoint, reached, Registry.empty]
    | append_singleton past call ih =>
      have hpast := ih ((List.prefix_append past [call]).trans hprefix)
      rw [reached_concat]
      rcases after_cases exec (reached past) call with ⟨reply, hexec⟩ | ⟨-, hsame⟩
      · exact (exec_selfDisjoint_iff (run_settled past) hpast hexec).2
          (hall past call hprefix ⟨_, hexec⟩)
      · rw [hsame]
        exact hpast

end

section
attribute [local instance] asciiUnicodeData

/-- `a` hands its directory to `b`, which waits for a file in it. -/
theorem handoff_overlaps_waiting_successor :
    ¬(reached [.claim (str "a") [str "file:/repo/a"] 100 (utc 0),
        .claim (str "b") [str "file:/repo/a/x"] 100 (utc 0),
        .handoff (str "claim:f0dd4d0f6fbfbd5eeec02e48f9ffd3b2519706219d8f00f91110bf9a33d401b5")
          (str "a") 1 (str "b") [] (utc 1)]).SelfDisjoint := by
  decide +kernel

end

end IntegrityGuardian.WorkClaims
