import IntegrityGuardian.WorkClaims.Steps

/-!
# The queue

What each statement of the registry does, and from it what a whole call does:
every committed call is a sequence of `Step`s that leaves no waiting claim
without a blocker.
-/

namespace IntegrityGuardian.WorkClaims

open Python Library

variable {s s' : Registry}

/-! ## Blocking -/

/-- `q` keeps `r` waiting: the condition under which `_try_promote` lists it. -/
structure Blocks (q r : Row) : Prop where
  distinct : q.claimId ≠ r.claimId
  isOpen : q.status.isOpen = true
  ahead : q.status = .acquired ∨ q.seq < r.seq
  overlap : setsOverlap r.resources q.resources = true

/-- Every waiting row has a blocker. -/
def Registry.Queued (s : Registry) : Prop :=
  ∀ r ∈ s.workClaims, r.status = .waiting → ∃ q ∈ s.workClaims, Blocks q r

theorem mem_blockers_iff {q r : Row} : q ∈ s.blockers r ↔ q ∈ s.workClaims ∧ Blocks q r := by
  rw [Registry.mem_blockers]
  constructor
  · rintro ⟨hq, hopen, hid, hahead, hoverlap⟩
    exact ⟨hq, hid, hopen, hahead, hoverlap⟩
  · rintro ⟨hq, hid, hopen, hahead, hoverlap⟩
    exact ⟨hq, hopen, hid, hahead, hoverlap⟩

theorem blockers_ne_nil_iff {r : Row} : s.blockers r ≠ [] ↔ ∃ q ∈ s.workClaims, Blocks q r := by
  constructor
  · intro h
    obtain ⟨q, hq⟩ := List.exists_mem_of_ne_nil _ h
    exact ⟨q, mem_blockers_iff.1 hq⟩
  · rintro ⟨q, hq, hblocks⟩
    exact List.ne_nil_of_mem (mem_blockers_iff.2 ⟨hq, hblocks⟩)

/-! ## Statements -/

@[simp] theorem liftExc_eq_ok {α : Type} {x : Except Exc α} {a : α} :
    liftExc x = .ok a ↔ x = .ok a := by
  cases x <;> simp [liftExc, Except.mapError]

theorem row_bind_eq_ok {α : Type} {claimId : Str} {f : Row → Statement α} {a : α} :
    (row claimId >>= f) s = .ok (a, s') ↔ ∃ r, s.find? claimId = some r ∧ f r s = .ok (a, s') := by
  unfold row
  rw [bind_assoc, Tx.get_bind_eq_ok]
  cases hfind : s.find? claimId with
  | none => simp [Tx.throw_bind_eq_ok]
  | some q => simp

/-- `_try_promote` either finds blockers and writes nothing, or finds none and
grants the claim under the next token. -/
theorem tryPromote_eq_ok (hwf : s.WF) {claimId : Str} {current : Instant} {d : ClaimDecision}
    (h : tryPromote claimId current s = .ok (d, s')) :
    ∃ r ∈ s.workClaims, r.claimId = claimId ∧
      ((s.blockers r ≠ [] ∧ s' = s ∧ d = decision r ((s.blockers r).map Row.claimId)
          (str "overlapping blast radius is held or queued earlier")) ∨
        (s.blockers r = [] ∧ ∃ expiresAt, s' = s.promote claimId expiresAt ∧
          d = decision (r.granted (s.lastFence + 1) expiresAt))) := by
  unfold tryPromote at h
  obtain ⟨r, hfind, h⟩ := row_bind_eq_ok.1 h
  obtain ⟨hr, hid⟩ := Registry.mem_of_find? hfind
  rw [Tx.get_bind_eq_ok] at h
  refine ⟨r, hr, hid, ?_⟩
  cases hblockers : s.blockers r with
  | nil =>
    simp only [hblockers] at h
    obtain ⟨expiresAt, -, h⟩ := Tx.lift_bind_eq_ok.1 h
    rw [Tx.set_bind_eq_ok] at h
    obtain ⟨q, hfind', h⟩ := row_bind_eq_ok.1 h
    obtain ⟨rfl, rfl⟩ := Tx.pure_eq_ok.1 h
    refine .inr ⟨rfl, expiresAt, rfl, ?_⟩
    obtain ⟨hmem, hqid⟩ := Registry.mem_of_find? hfind'
    rcases Registry.mem_update.1 hmem with ⟨p, hp, hpid, rfl⟩ | ⟨-, hne⟩
    · rw [hwf.eq_of_claimId hp hr (hpid.trans hid.symm)]
    · exact absurd hqid hne
  | cons b bs =>
    simp only [hblockers, Tx.pure_eq_ok] at h
    obtain ⟨rfl, rfl⟩ := h
    exact .inl ⟨by simp, rfl, rfl⟩

variable [UnicodeData]

theorem logged_of_appendEvent {kind : Str} {d : ClaimDecision} {current : Instant}
    {extra : List (Str × Json)} {event : Json}
    (h : appendEvent kind d current extra s = .ok (event, s')) :
    Logged s kind d current extra s' := by
  unfold appendEvent at h
  rw [Tx.get_bind_eq_ok] at h
  obtain ⟨digest, hdigest, h⟩ := Tx.lift_bind_eq_ok.1 h
  obtain ⟨eventJson, hjson, h⟩ := Tx.lift_bind_eq_ok.1 h
  rw [liftExc_eq_ok] at hdigest hjson
  obtain ⟨-, h⟩ := Tx.guard_bind_eq_ok.1 h
  rw [Tx.set_bind_eq_ok] at h
  refine ⟨digest, eventJson, hdigest, hjson, ?_⟩
  exact (Tx.pure_eq_ok.1 h).2.symm

/-! ## One pass of `_promote_waiters` -/

/-- What a pass that starts in `s` does to a row: a waiting row without a blocker
in `s` is granted, any other row stays. -/
def Passed (s : Registry) (r r' : Row) : Prop :=
  (r.status = .waiting ∧ s.blockers r = [] ∧ ∃ t e, r' = r.granted t e) ∨
    (¬(r.status = .waiting ∧ s.blockers r = []) ∧ r' = r)

omit [UnicodeData] in
theorem Passed.claimId {r r' : Row} (h : Passed s r r') : r'.claimId = r.claimId := by
  rcases h with ⟨-, -, t, e, rfl⟩ | ⟨-, rfl⟩ <;> rfl

omit [UnicodeData] in
theorem exists_blocks_congr {t : Registry} {x : Row}
    (h : List.Forall₂ (fun q q' => Blocks q' x ↔ Blocks q x) s.workClaims t.workClaims) :
    (∃ q ∈ t.workClaims, Blocks q x) ↔ ∃ q ∈ s.workClaims, Blocks q x := by
  constructor
  · rintro ⟨q', hq', hblocks⟩
    obtain ⟨q, hq, hiff⟩ := exists_of_mem_right h hq'
    exact ⟨q, hq, hiff.1 hblocks⟩
  · rintro ⟨q, hq, hblocks⟩
    obtain ⟨q', hq', hiff⟩ := exists_of_mem_left h hq
    exact ⟨q', hq', hiff.2 hblocks⟩

omit [UnicodeData] in
/-- A pass decides every row by the table it started from: the rows it has
granted so far were ahead of the current one anyway. -/
theorem blockers_eq_nil_of_pass {t : Registry} {visited rest : List Row} {x : Row} (hs : s.WF)
    (hsplit : s.openRows = visited ++ x :: rest)
    (h : List.Forall₂ (Edited (Passed s) visited) s.workClaims t.workClaims) :
    t.blockers x = [] ↔ s.blockers x = [] := by
  have hahead : ∀ q ∈ visited, q.status.isOpen = true ∧ q.seq < x.seq := by
    intro q hq
    refine ⟨(Registry.mem_openRows.1 (hsplit ▸ List.mem_append_left _ hq)).2, ?_⟩
    have hordered : s.openRows.Pairwise fun a b => a.seq < b.seq :=
      (List.pairwise_map.1 hs.ordered).sublist List.filter_sublist
    rw [hsplit, List.pairwise_append] at hordered
    exact hordered.2.2 q hq x List.mem_cons_self
  have hrows : List.Forall₂ (fun q q' => Blocks q' x ↔ Blocks q x) s.workClaims t.workClaims := by
    refine h.imp ?_
    rintro q q' (⟨hvisited, ⟨-, -, u, e, rfl⟩ | ⟨-, rfl⟩⟩ | ⟨-, rfl⟩)
    · obtain ⟨hopen, hlt⟩ := hahead q hvisited
      constructor
      · exact fun hb => ⟨hb.distinct, hopen, .inr hlt, hb.overlap⟩
      · exact fun hb => ⟨hb.distinct, rfl, .inl rfl, hb.overlap⟩
    · exact Iff.rfl
    · exact Iff.rfl
  rw [← not_iff_not]
  exact blockers_ne_nil_iff.trans ((exists_blocks_congr hrows).trans blockers_ne_nil_iff.symm)

theorem promoteWaiter_eq_ok {current : Instant} {x : Row} (hs : s.Sound) (hx : x ∈ s.workClaims)
    (h : promoteWaiter current x s = .ok (⟨⟩, s')) :
    (x.status = .waiting ∧ s.blockers x = [] ∧ Steps s s' ∧ ∃ t e,
      s'.workClaims = updateKey Row.claimId x.claimId (fun r => r.granted t e) s.workClaims) ∨
    (¬(x.status = .waiting ∧ s.blockers x = []) ∧ s' = s) := by
  unfold promoteWaiter at h
  by_cases hwaiting : x.status = .waiting
  · rw [if_pos hwaiting] at h
    obtain ⟨d, t, htry, h⟩ := Tx.bind_eq_ok.1 h
    obtain ⟨r, hr, hid, hcase⟩ := tryPromote_eq_ok hs.wf htry
    have hrx := hs.wf.eq_of_claimId hr hx hid
    subst hrx
    rcases hcase with ⟨hblocked, rfl, rfl⟩ | ⟨hfree, expiresAt, rfl, rfl⟩
    · have hstatus : (decision r ((t.blockers r).map Row.claimId)
          (str "overlapping blast radius is held or queued earlier")).status = .waiting := hwaiting
      rw [if_neg (by simp [hstatus])] at h
      exact .inr ⟨fun hc => hblocked hc.2, (Tx.pure_eq_ok.1 h).2.symm⟩
    · have hstatus : (decision (r.granted (s.lastFence + 1) expiresAt)).status = .acquired := rfl
      rw [if_pos hstatus] at h
      obtain ⟨event, t, hevent, h⟩ := Tx.bind_eq_ok.1 h
      obtain ⟨-, rfl⟩ := Tx.pure_eq_ok.1 h
      have hlog := logged_of_appendEvent hevent
      refine .inl ⟨hwaiting, hfree, .single (.logged (.promote hr hwaiting hfree) hlog),
        s.lastFence + 1, expiresAt, ?_⟩
      obtain ⟨_, _, -, -, rfl⟩ := hlog
      rfl
  · rw [if_neg hwaiting] at h
    exact .inr ⟨fun hc => hwaiting hc.1, (Tx.pure_eq_ok.1 h).2.symm⟩

theorem promoteWaiters_eq_ok {current : Instant} (hs : s.Sound)
    (h : promoteWaiters current s = .ok (⟨⟩, s')) :
    Steps s s' ∧ List.Forall₂ (Passed s) s.workClaims s'.workClaims := by
  unfold promoteWaiters at h
  rw [Tx.get_bind_eq_ok] at h
  obtain ⟨hsteps, hrows⟩ := Tx.forM_snapshot Registry.workClaims Row.claimId
    (fun r => r.status.isOpen) (Passed s) (Steps s) (fun _ _ => Passed.claimId) hs.wf.claimIds
    (by
      intro visited x rest t t' hsplit hsteps hedit hxt hx
      have hiff := blockers_eq_nil_of_pass hs.wf hsplit hedit
      rcases promoteWaiter_eq_ok (Steps.sound hsteps hs) hxt hx with
        ⟨hwaiting, hfree, hstep, u, e, htable⟩ | ⟨hnot, rfl⟩
      · exact ⟨Relation.ReflTransGen.trans hsteps hstep, _,
          .inl ⟨hwaiting, hiff.1 hfree, u, e, rfl⟩, htable⟩
      · exact ⟨hsteps, id, .inr ⟨fun hc => hnot ⟨hc.1, hiff.2 hc.2⟩, rfl⟩,
          (updateKey_id _ _).symm⟩)
    Relation.ReflTransGen.refl h
  refine ⟨hsteps, hrows.imp ?_⟩
  rintro r r' (⟨-, hpassed⟩ | ⟨hclosed, rfl⟩)
  · exact hpassed
  · refine .inr ⟨?_, rfl⟩
    rintro ⟨hwaiting, -⟩
    simp [hwaiting, ClaimStatus.isOpen] at hclosed

omit [UnicodeData] in
/-- After a pass every waiting row is blocked: what blocked it before is still
open, and still ahead of it. -/
theorem queued_of_pass (h : List.Forall₂ (Passed s) s.workClaims s'.workClaims) : s'.Queued := by
  intro r' hr' hwaiting
  obtain ⟨r, hr, hpassed⟩ := exists_of_mem_right h hr'
  rcases hpassed with ⟨-, -, t, e, rfl⟩ | ⟨hnot, rfl⟩
  · simp at hwaiting
  · have hblocked : s.blockers r' ≠ [] := fun hnil => hnot ⟨hwaiting, hnil⟩
    obtain ⟨q, hq, hblocks⟩ := blockers_ne_nil_iff.1 hblocked
    obtain ⟨q', hq', hpassed'⟩ := exists_of_mem_left h hq
    refine ⟨q', hq', ?_⟩
    rcases hpassed' with ⟨-, -, t, e, rfl⟩ | ⟨-, rfl⟩
    · exact ⟨hblocks.distinct, rfl, .inl rfl, hblocks.overlap⟩
    · exact hblocks

/-! ## Expiry -/

/-- What `_expire` does to a row: a closed row stays, a lapsed one is expired, and
a live one stays or is granted. -/
inductive Swept (current : Instant) : Row → Row → Prop
  | closed {r : Row} (hclosed : r.status.isOpen = false) : Swept current r r
  | lapsed {r : Row} {t : Instant} (hopen : r.status.isOpen = true) (ht : r.expiresAt = some t)
      (hle : t ≤ current) : Swept current r (r.closed .expired current)
  | live {r r' : Row} {t : Instant} (hopen : r.status.isOpen = true) (ht : r.expiresAt = some t)
      (hlt : current < t)
      (hstay : r' = r ∨ (r.status = .waiting ∧ ∃ u e, r' = r.granted u e)) : Swept current r r'

/-- What the loop of `_expire` does to an open row. -/
def Lapsed (current : Instant) (r r' : Row) : Prop :=
  ∃ t, r.expiresAt = some t ∧
    ((t ≤ current ∧ r' = r.closed .expired current) ∨ (current < t ∧ r' = r))

omit [UnicodeData] in
theorem Lapsed.claimId {current : Instant} {r r' : Row} (h : Lapsed current r r') :
    r'.claimId = r.claimId := by
  obtain ⟨t, -, ⟨-, rfl⟩ | ⟨-, rfl⟩⟩ := h <;> rfl

omit [UnicodeData] in
theorem find?_close {r : Row} {claimId : Str} {status : ClaimStatus} {current : Instant}
    (hs : s.WF) (hr : r ∈ s.workClaims) (hid : r.claimId = claimId) {q : Row}
    (hfind : (s.close claimId status current).find? claimId = some q) :
    q = r.closed status current := by
  obtain ⟨hmem, hqid⟩ := Registry.mem_of_find? hfind
  rcases Registry.mem_update.1 hmem with ⟨p, hp, hpid, rfl⟩ | ⟨-, hne⟩
  · rw [hs.eq_of_claimId hp hr (hpid.trans hid.symm)]
  · exact absurd hqid hne

theorem expireRow_eq_ok {current : Instant} {x : Row} (hs : s.Sound) (hx : x ∈ s.workClaims)
    (hopen : x.status.isOpen = true) (h : expireRow current x s = .ok (⟨⟩, s')) :
    Steps s s' ∧ ∃ f, Lapsed current x (f x) ∧
      s'.workClaims = updateKey Row.claimId x.claimId f s.workClaims := by
  unfold expireRow at h
  obtain ⟨gone, hlapsed, h⟩ := Tx.lift_bind_eq_ok.1 h
  unfold lapsed at hlapsed
  cases hexp : x.expiresAt with
  | none => simp [hexp] at hlapsed
  | some t =>
    simp only [hexp, Except.ok.injEq] at hlapsed
    subst hlapsed
    by_cases hle : t ≤ current
    · simp only [hle, decide_true, if_true] at h
      rw [Tx.modify_bind_eq_ok] at h
      obtain ⟨q, hfind, h⟩ := row_bind_eq_ok.1 h
      have hq := find?_close hs.wf hx rfl hfind
      subst hq
      obtain ⟨event, t', hevent, h⟩ := Tx.bind_eq_ok.1 h
      obtain ⟨-, rfl⟩ := Tx.pure_eq_ok.1 h
      have hlog := logged_of_appendEvent hevent
      refine ⟨.single (.logged (.close hx (.expired hopen)) hlog),
        fun r => r.closed .expired current, ⟨t, hexp, .inl ⟨hle, rfl⟩⟩, ?_⟩
      obtain ⟨_, _, -, -, rfl⟩ := hlog
      rfl
    · simp only [hle, decide_false, Bool.false_eq_true, if_false, Tx.pure_eq_ok] at h
      obtain ⟨-, rfl⟩ := h
      exact ⟨.refl, id, ⟨t, hexp, .inr ⟨not_le.1 hle, rfl⟩⟩, (updateKey_id _ _).symm⟩

omit [UnicodeData] in
theorem eq_of_none_lapsed {current : Instant}
    (hnone : s.openRows.any (fun r => lapsed r current == .ok true) = false)
    (h : List.Forall₂ (fun r r' => (r.status.isOpen = true ∧ Lapsed current r r') ∨
      (r.status.isOpen = false ∧ r' = r)) s.workClaims s'.workClaims) :
    s'.workClaims = s.workClaims := by
  have heq : List.Forall₂ (· = ·) s.workClaims s'.workClaims := by
    refine ((List.forall₂_and_left _ _).2 ⟨fun r hr => hr, h⟩).imp ?_
    rintro r r' ⟨hr, ⟨hopen, t, hexp, ⟨hle, -⟩ | ⟨-, rfl⟩⟩ | ⟨-, rfl⟩⟩
    · rw [List.any_eq_false] at hnone
      have := hnone r (Registry.mem_openRows.2 ⟨hr, hopen⟩)
      simp [lapsed, hexp, hle] at this
    · rfl
    · rfl
  rw [List.forall₂_eq_eq_eq] at heq
  exact heq.symm

/-- `_expire` closes every lapsed row and, if there was one, runs a pass. -/
theorem expire_eq_ok {current : Instant} (hs : s.Sound) (hqueued : s.Queued)
    (h : expire current s = .ok (⟨⟩, s')) :
    Steps s s' ∧ s'.Queued ∧ List.Forall₂ (Swept current) s.workClaims s'.workClaims := by
  unfold expire at h
  rw [Tx.get_bind_eq_ok] at h
  obtain ⟨⟨⟩, t, hloop, h⟩ := Tx.bind_eq_ok.1 h
  obtain ⟨hsteps, hrows⟩ := Tx.forM_snapshot Registry.workClaims Row.claimId
    (fun r => r.status.isOpen) (Lapsed current) (Steps s) (fun _ _ => Lapsed.claimId)
    hs.wf.claimIds
    (by
      intro visited x rest t t' hsplit hsteps hedit hxt hx
      have hopen : x.status.isOpen = true :=
        (Registry.mem_openRows.1 (hsplit ▸ List.mem_append_right _ List.mem_cons_self)).2
      obtain ⟨hstep, f, hf, htable⟩ := expireRow_eq_ok (Steps.sound hsteps hs) hxt hopen hx
      exact ⟨Relation.ReflTransGen.trans hsteps hstep, f, hf, htable⟩)
    Relation.ReflTransGen.refl hloop
  by_cases hany : s.openRows.any (fun r => lapsed r current == .ok true) = true
  · rw [if_pos hany] at h
    obtain ⟨hsteps', hpass⟩ := promoteWaiters_eq_ok (Steps.sound hsteps hs) h
    refine ⟨Relation.ReflTransGen.trans hsteps hsteps', queued_of_pass hpass,
      (forall₂_comp hrows hpass).imp ?_⟩
    rintro r r'' ⟨r', hlapse, hpassed⟩
    rcases hlapse with ⟨hopen, u, hexp, ⟨hle, rfl⟩ | ⟨hlt, rfl⟩⟩ | ⟨hclosed, rfl⟩
    · rcases hpassed with ⟨hwaiting, -⟩ | ⟨-, rfl⟩
      · simp at hwaiting
      · exact .lapsed hopen hexp hle
    · rcases hpassed with ⟨hwaiting, -, v, e, rfl⟩ | ⟨-, rfl⟩
      · exact .live hopen hexp hlt (.inr ⟨hwaiting, v, e, rfl⟩)
      · exact .live hopen hexp hlt (.inl rfl)
    · rcases hpassed with ⟨hwaiting, -⟩ | ⟨-, rfl⟩
      · simp [hwaiting, ClaimStatus.isOpen] at hclosed
      · exact .closed hclosed
  · rw [if_neg hany] at h
    obtain ⟨-, rfl⟩ := Tx.pure_eq_ok.1 h
    have htable := eq_of_none_lapsed (Bool.eq_false_iff.2 hany) hrows
    refine ⟨hsteps, ?_, ?_⟩
    · unfold Registry.Queued
      rw [htable]
      exact hqueued
    · refine hrows.imp ?_
      rintro r r' (⟨hopen, u, hexp, ⟨hle, rfl⟩ | ⟨hlt, rfl⟩⟩ | ⟨hclosed, rfl⟩)
      · exact .lapsed hopen hexp hle
      · exact .live hopen hexp hlt (.inl rfl)
      · exact .closed hclosed

/-! ## Calls -/

omit [UnicodeData] in
theorem insertRow_bind_eq_ok {α : Type} {r : Row} {f : PUnit → Statement α} {a : α} :
    (insertRow r >>= f) s = .ok (a, s') ↔
      s.find? r.claimId = none ∧ f ⟨⟩ (s.insert r) = .ok (a, s') := by
  unfold insertRow
  rw [bind_assoc, Tx.get_bind_eq_ok]
  by_cases hfind : s.find? r.claimId = none
  · simp only [hfind, ne_eq, not_true_eq_false, if_false, true_and]
    exact Iff.rfl
  · simp only [hfind, ne_eq, not_false_eq_true, if_true, false_and, bind_assoc]
    exact Tx.throw_bind_eq_ok

theorem held_bind_eq_ok {α : Type} {claimId agentId : Str} {fenceToken : Int} {current : Instant}
    {f : Row → Statement α} {a : α}
    (h : (held claimId agentId fenceToken current >>= f) s = .ok (a, s')) :
    ∃ s₁ r, expire current s = .ok (⟨⟩, s₁) ∧ r ∈ s₁.workClaims ∧ r.claimId = claimId ∧
      r.status = .acquired ∧ r.agentId = agentId ∧ r.fenceToken = some fenceToken ∧
      f r s₁ = .ok (a, s') := by
  unfold held at h
  rw [bind_assoc] at h
  obtain ⟨⟨⟩, s₁, hexpire, h⟩ := Tx.bind_eq_ok.1 h
  rw [bind_assoc] at h
  obtain ⟨r, hfind, h⟩ := row_bind_eq_ok.1 h
  obtain ⟨hr, hid⟩ := Registry.mem_of_find? hfind
  by_cases hbad : r.status ≠ .acquired ∨ r.agentId ≠ agentId ∨ r.fenceToken ≠ some fenceToken
  · rw [if_pos hbad] at h
    obtain ⟨_, hstale, -⟩ := Tx.lift_bind_eq_ok.1 h
    simp [staleFence] at hstale
  · rw [if_neg hbad, pure_bind] at h
    simp only [ne_eq, not_or, not_not] at hbad
    exact ⟨s₁, r, hexpire, hr, hid, hbad.1, hbad.2.1, hbad.2.2, h⟩

omit [UnicodeData] in
theorem eq_of_agent {agentId a : Str} (h : agent agentId = .ok a) : agentId = a := by
  unfold agent at h
  split at h
  · exact Except.ok.inj h
  · cases h

/-- The row `claim` inserts. -/
structure NewClaim (s : Registry) (agentId : Str) (r : Row) : Prop where
  fresh : s.find? r.claimId = none
  waiting : r.status = .waiting
  token : r.fenceToken = none
  agent : r.agentId = agentId
  own : ∀ q ∈ s.workClaims, q.status.isOpen = true → q.agentId = agentId →
    setsOverlap r.resources q.resources = false

theorem claim_eq_ok (hs : s.Sound) (hqueued : s.Queued) {agentId : Str} {resources : List Str}
    {ttlSeconds : Int} {now : Now} {d : ClaimDecision}
    (h : claim agentId resources ttlSeconds now s = .ok (d, s')) :
    ∃ current s₁, time now = .ok current ∧ expire current s = .ok (⟨⟩, s₁) ∧
      ((d.status = .rejected ∧ Logged s₁ (str "claim-rejected") d current [] s') ∨
        ∃ r, NewClaim s₁ agentId r ∧
          ((s₁.blockers (r.numbered (s₁.sqliteSequence + 1)) ≠ [] ∧ ∃ blockedBy reason,
              Logged (s₁.insert r) (str "claim-waiting")
                (decision (r.numbered (s₁.sqliteSequence + 1)) blockedBy reason) current [] s') ∨
            (s₁.blockers (r.numbered (s₁.sqliteSequence + 1)) = [] ∧ ∃ expiresAt,
              Logged ((s₁.insert r).promote r.claimId expiresAt) (str "claim-acquired")
                (decision ((r.numbered (s₁.sqliteSequence + 1)).granted (s₁.lastFence + 1)
                  expiresAt)) current [] s'))) := by
  unfold claim at h
  obtain ⟨agent', hagent, h⟩ := Tx.lift_bind_eq_ok.1 h
  obtain ⟨ttl', -, h⟩ := Tx.lift_bind_eq_ok.1 h
  obtain ⟨normalized, -, h⟩ := Tx.lift_bind_eq_ok.1 h
  obtain ⟨-, h⟩ := Tx.guard_bind_eq_ok.1 h
  obtain ⟨current, htime, h⟩ := Tx.lift_bind_eq_ok.1 h
  obtain ⟨⟨⟩, s₁, hexpire, h⟩ := Tx.bind_eq_ok.1 h
  rw [Tx.get_bind_eq_ok] at h
  obtain rfl := eq_of_agent hagent
  obtain ⟨hsteps, -, -⟩ := expire_eq_ok hs hqueued hexpire
  have hs₁ := Steps.sound hsteps hs
  refine ⟨current, s₁, htime, hexpire, ?_⟩
  by_cases hown : (s₁.openRows.filter fun r =>
      r.agentId == agentId && setsOverlap normalized r.resources) ≠ []
  · simp only [if_pos hown] at h
    obtain ⟨event, t, hevent, h⟩ := Tx.bind_eq_ok.1 h
    obtain ⟨rfl, rfl⟩ := Tx.pure_eq_ok.1 h
    exact .inl ⟨rfl, logged_of_appendEvent hevent⟩
  · simp only [if_neg hown] at h
    obtain ⟨claimId, -, h⟩ := Tx.lift_bind_eq_ok.1 h
    obtain ⟨expiresAt, -, h⟩ := Tx.lift_bind_eq_ok.1 h
    obtain ⟨hfresh, h⟩ := insertRow_bind_eq_ok.1 h
    obtain ⟨d', t, htry, h⟩ := Tx.bind_eq_ok.1 h
    obtain ⟨event, t', hevent, h⟩ := Tx.bind_eq_ok.1 h
    obtain ⟨rfl, rfl⟩ := Tx.pure_eq_ok.1 h
    have hlog := logged_of_appendEvent hevent
    refine .inr ⟨_, ⟨hfresh, rfl, rfl, rfl, ?_⟩, ?_⟩
    · intro q hq hopen hagentId
      by_contra hoverlap
      rw [Bool.not_eq_false] at hoverlap
      exact List.ne_nil_of_mem (List.mem_filter.2
        ⟨Registry.mem_openRows.2 ⟨hq, hopen⟩, by simp [hagentId, hoverlap]⟩) (not_not.1 hown)
    · have hinserted := hs₁.insert_waiting hfresh rfl rfl
      obtain ⟨r, hr, hid, hcase⟩ := tryPromote_eq_ok hinserted.wf htry
      have hnew := hinserted.wf.eq_of_claimId hr (Registry.mem_insert.2 (.inr rfl)) hid
      subst hnew
      rw [Registry.blockers_insert] at hcase
      rcases hcase with ⟨hblocked, rfl, rfl⟩ | ⟨hfree, e, rfl, rfl⟩
      · exact .inl ⟨hblocked, _, _, hlog⟩
      · exact .inr ⟨hfree, e, hlog⟩

omit [UnicodeData] in
theorem Registry.Queued.touch (h : s.Queued) (claimId : Str) (expiresAt : Instant)
    (ttlSeconds : Int) : (s.touch claimId expiresAt ttlSeconds).Queued := by
  have hrow : ∀ q ∈ s.workClaims, ∃ q' ∈ (s.touch claimId expiresAt ttlSeconds).workClaims,
      q'.claimId = q.claimId ∧ q'.seq = q.seq ∧ q'.status = q.status ∧
        q'.resources = q.resources := by
    intro q hq
    by_cases hid : q.claimId = claimId
    · exact ⟨q.extended expiresAt ttlSeconds, mem_update.2 (.inl ⟨q, hq, hid, rfl⟩),
        rfl, rfl, rfl, rfl⟩
    · exact ⟨q, mem_update.2 (.inr ⟨hq, hid⟩), rfl, rfl, rfl, rfl⟩
  intro r' hr' hwaiting
  obtain ⟨r, hr, hid, hseq, hstatus, hres⟩ : ∃ r ∈ s.workClaims, r.claimId = r'.claimId ∧
      r.seq = r'.seq ∧ r.status = r'.status ∧ r.resources = r'.resources := by
    rcases mem_update.1 hr' with ⟨r, hr, -, rfl⟩ | ⟨hr, -⟩
    · exact ⟨r, hr, rfl, rfl, rfl, rfl⟩
    · exact ⟨r', hr, rfl, rfl, rfl, rfl⟩
  obtain ⟨q, hq, hblocks⟩ := h r hr (hstatus.trans hwaiting)
  obtain ⟨q', hq', hqid, hqseq, hqstatus, hqres⟩ := hrow q hq
  refine ⟨q', hq', ?_, ?_, ?_, ?_⟩
  · rw [hqid, ← hid]
    exact hblocks.distinct
  · rw [hqstatus]
    exact hblocks.isOpen
  · rw [hqstatus, hqseq, ← hseq]
    exact hblocks.ahead
  · rw [hqres, ← hres]
    exact hblocks.overlap

omit [UnicodeData] in
theorem tryPromote_of_queued (hs : s.WF) (hqueued : s.Queued) {claimId : Str}
    {current : Instant} {d : ClaimDecision} {r : Row} (hr : r ∈ s.workClaims)
    (hid : r.claimId = claimId) (hwaiting : r.status = .waiting)
    (h : tryPromote claimId current s = .ok (d, s')) : d.status = .waiting ∧ s' = s := by
  obtain ⟨q, hq, hqid, hcase⟩ := tryPromote_eq_ok hs h
  have hqr := hs.eq_of_claimId hq hr (hqid.trans hid.symm)
  subst hqr
  rcases hcase with ⟨-, rfl, rfl⟩ | ⟨hfree, -⟩
  · exact ⟨hwaiting, rfl⟩
  · exact absurd hfree (blockers_ne_nil_iff.2 (hqueued q hq hwaiting))

theorem poll_eq_ok (hs : s.Sound) (hqueued : s.Queued) {claimId : Str} {now : Now}
    {d : ClaimDecision} (h : poll claimId now s = .ok (d, s')) :
    ∃ current s₁ r, time now = .ok current ∧ expire current s = .ok (⟨⟩, s₁) ∧
      r ∈ s₁.workClaims ∧ r.claimId = claimId ∧
      ((r.status ≠ .waiting ∧ s' = s₁ ∧ d = decision r) ∨
        (r.status = .waiting ∧ d.status = .waiting ∧
          ∃ expiresAt, s' = s₁.touch claimId expiresAt r.ttlSeconds)) := by
  unfold poll at h
  obtain ⟨current, htime, h⟩ := Tx.lift_bind_eq_ok.1 h
  obtain ⟨⟨⟩, s₁, hexpire, h⟩ := Tx.bind_eq_ok.1 h
  obtain ⟨r, hfind, h⟩ := row_bind_eq_ok.1 h
  obtain ⟨hr, hid⟩ := Registry.mem_of_find? hfind
  refine ⟨current, s₁, r, htime, hexpire, hr, hid, ?_⟩
  by_cases hwaiting : r.status = .waiting
  · rw [if_neg (not_not.2 hwaiting)] at h
    obtain ⟨expiresAt, -, h⟩ := Tx.lift_bind_eq_ok.1 h
    rw [Tx.modify_bind_eq_ok] at h
    obtain ⟨hsteps, hqueued₁, -⟩ := expire_eq_ok hs hqueued hexpire
    have hs₁ := Steps.sound hsteps hs
    have hr' : r.extended expiresAt r.ttlSeconds
        ∈ (s₁.touch claimId expiresAt r.ttlSeconds).workClaims :=
      Registry.mem_update.2 (.inl ⟨r, hr, hid, rfl⟩)
    obtain ⟨hd, rfl⟩ := tryPromote_of_queued (hs₁.touch _ _ _).wf
      (hqueued₁.touch _ _ _) hr' hid hwaiting h
    exact .inr ⟨hwaiting, hd, expiresAt, rfl⟩
  · rw [if_pos hwaiting] at h
    obtain ⟨rfl, rfl⟩ := Tx.pure_eq_ok.1 h
    exact .inl ⟨hwaiting, rfl, rfl⟩

theorem renew_eq_ok (hs : s.Sound) (hqueued : s.Queued) {claimId agentId : Str} {fenceToken : Int}
    {ttlSeconds : Option Int} {now : Now} {d : ClaimDecision}
    (h : renew claimId agentId fenceToken ttlSeconds now s = .ok (d, s')) :
    ∃ current s₁ r expiresAt ttl, time now = .ok current ∧ expire current s = .ok (⟨⟩, s₁) ∧
      r ∈ s₁.workClaims ∧ r.claimId = claimId ∧ r.status = .acquired ∧
      r.fenceToken = some fenceToken ∧
      Logged (s₁.touch r.claimId expiresAt ttl) (str "claim-renewed")
        (decision (r.extended expiresAt ttl)) current [] s' := by
  unfold renew at h
  obtain ⟨current, htime, h⟩ := Tx.lift_bind_eq_ok.1 h
  obtain ⟨s₁, r, hexpire, hr, hid, hacquired, -, htoken, h⟩ := held_bind_eq_ok h
  subst hid
  obtain ⟨ttl, -, h⟩ := Tx.lift_bind_eq_ok.1 h
  obtain ⟨expiresAt, -, h⟩ := Tx.lift_bind_eq_ok.1 h
  rw [Tx.modify_bind_eq_ok] at h
  obtain ⟨q, hfind, h⟩ := row_bind_eq_ok.1 h
  obtain ⟨event, t, hevent, h⟩ := Tx.bind_eq_ok.1 h
  obtain ⟨rfl, rfl⟩ := Tx.pure_eq_ok.1 h
  have hq : q = r.extended expiresAt ttl := by
    obtain ⟨hsteps, -, -⟩ := expire_eq_ok hs hqueued hexpire
    obtain ⟨hmem, hqid⟩ := Registry.mem_of_find? hfind
    rcases Registry.mem_update.1 hmem with ⟨p, hp, hpid, rfl⟩ | ⟨-, hne⟩
    · rw [(Steps.sound hsteps hs).wf.eq_of_claimId hp hr hpid]
    · exact absurd hqid hne
  subst hq
  exact ⟨current, s₁, r, expiresAt, ttl, htime, hexpire, hr, rfl, hacquired, htoken,
    logged_of_appendEvent hevent⟩

theorem release_eq_ok (hs : s.Sound) (hqueued : s.Queued) {claimId agentId : Str}
    {fenceToken : Int} {outcome : Str} {now : Now} {event : Json}
    (h : release claimId agentId fenceToken outcome now s = .ok (event, s')) :
    ∃ current s₁ r s₂, time now = .ok current ∧ expire current s = .ok (⟨⟩, s₁) ∧
      r ∈ s₁.workClaims ∧ r.claimId = claimId ∧ r.status = .acquired ∧
      r.fenceToken = some fenceToken ∧
      Logged (s₁.close r.claimId .released current) (str "claim-released")
        (decision (r.closed .released current)) current [(str "outcome", .str outcome)] s₂ ∧
      promoteWaiters current s₂ = .ok (⟨⟩, s') := by
  unfold release at h
  obtain ⟨-, h⟩ := Tx.guard_bind_eq_ok.1 h
  obtain ⟨current, htime, h⟩ := Tx.lift_bind_eq_ok.1 h
  obtain ⟨s₁, r, hexpire, hr, hid, hacquired, -, htoken, h⟩ := held_bind_eq_ok h
  subst hid
  rw [Tx.modify_bind_eq_ok] at h
  obtain ⟨q, hfind, h⟩ := row_bind_eq_ok.1 h
  obtain ⟨receipt, s₂, hevent, h⟩ := Tx.bind_eq_ok.1 h
  obtain ⟨⟨⟩, t, hpass, h⟩ := Tx.bind_eq_ok.1 h
  obtain ⟨-, rfl⟩ := Tx.pure_eq_ok.1 h
  obtain ⟨hsteps, -, -⟩ := expire_eq_ok hs hqueued hexpire
  have hq := find?_close (Steps.sound hsteps hs).wf hr rfl hfind
  subst hq
  exact ⟨current, s₁, r, s₂, htime, hexpire, hr, rfl, hacquired, htoken,
    logged_of_appendEvent hevent, hpass⟩

theorem cancel_eq_ok (hs : s.Sound) {claimId agentId : Str} {now : Now} {u : PUnit}
    (h : cancel claimId agentId now s = .ok (u, s')) :
    ∃ current r s₂, time now = .ok current ∧ r ∈ s.workClaims ∧ r.claimId = claimId ∧
      r.agentId = agentId ∧ r.status = .waiting ∧
      Logged (s.close r.claimId .cancelled current) (str "claim-cancelled")
        (decision (r.closed .cancelled current)) current [] s₂ ∧
      promoteWaiters current s₂ = .ok (⟨⟩, s') := by
  unfold cancel at h
  obtain ⟨current, htime, h⟩ := Tx.lift_bind_eq_ok.1 h
  obtain ⟨r, hfind, h⟩ := row_bind_eq_ok.1 h
  obtain ⟨hr, hid⟩ := Registry.mem_of_find? hfind
  subst hid
  obtain ⟨hguard, h⟩ := Tx.guard_bind_eq_ok.1 h
  rw [Tx.modify_bind_eq_ok] at h
  obtain ⟨q, hfind', h⟩ := row_bind_eq_ok.1 h
  have hq := find?_close hs.wf hr rfl hfind'
  subst hq
  obtain ⟨receipt, s₂, hevent, h⟩ := Tx.bind_eq_ok.1 h
  simp only [ne_eq, not_or, not_not] at hguard
  exact ⟨current, r, s₂, htime, hr, rfl, hguard.1, hguard.2, logged_of_appendEvent hevent, h⟩

/-- The row `handoff` inserts in place of `r`. -/
structure Successor (s : Registry) (r : Row) (successorId : Str) (new : Row) : Prop where
  fresh : s.find? new.claimId = none
  acquired : new.status = .acquired
  token : new.fenceToken = some (s.lastFence + 1)
  agent : new.agentId = successorId
  resources : new.resources = r.resources

theorem handoff_eq_ok {claimId agentId : Str}
    {fenceToken : Int} {successorId note : Str} {now : Now} {d : ClaimDecision}
    (h : handoff claimId agentId fenceToken successorId note now s = .ok (d, s')) :
    ∃ current s₁ r new, time now = .ok current ∧ expire current s = .ok (⟨⟩, s₁) ∧
      r ∈ s₁.workClaims ∧ r.claimId = claimId ∧ r.status = .acquired ∧ r.agentId = agentId ∧
      r.fenceToken = some fenceToken ∧ successorId ≠ agentId ∧
      Successor s₁ r successorId new ∧
      Logged ({ s₁.close r.claimId .handedOff current with
          lastFence := s₁.lastFence + 1 }.insert new) (str "claim-handed-off")
        (decision (new.numbered (s₁.sqliteSequence + 1))) current
        [(str "from_claim_id", .str r.claimId), (str "from_agent_id", .str r.agentId),
          (str "note", .str note)] s' := by
  unfold handoff at h
  obtain ⟨successor, hagent, h⟩ := Tx.lift_bind_eq_ok.1 h
  obtain rfl := eq_of_agent hagent
  obtain ⟨current, htime, h⟩ := Tx.lift_bind_eq_ok.1 h
  obtain ⟨s₁, r, hexpire, hr, hid, hacquired, hagentId, htoken, h⟩ := held_bind_eq_ok h
  obtain ⟨hne, h⟩ := Tx.guard_bind_eq_ok.1 h
  rw [Tx.modify_bind_eq_ok] at h
  obtain ⟨newId, -, h⟩ := Tx.lift_bind_eq_ok.1 h
  obtain ⟨expiresAt, -, h⟩ := Tx.lift_bind_eq_ok.1 h
  rw [Tx.modify_bind_eq_ok, Tx.get_bind_eq_ok] at h
  obtain ⟨hfresh, h⟩ := insertRow_bind_eq_ok.1 h
  obtain ⟨q, hfind, h⟩ := row_bind_eq_ok.1 h
  obtain ⟨event, t, hevent, h⟩ := Tx.bind_eq_ok.1 h
  obtain ⟨rfl, rfl⟩ := Tx.pure_eq_ok.1 h
  subst hid
  subst hagentId
  have hfresh₁ : s₁.find? newId = none := by
    rw [Registry.find?_eq_none] at hfresh ⊢
    intro q hq
    by_cases hqid : q.claimId = r.claimId
    · exact hfresh (q.closed .handedOff current) (Registry.mem_update.2 (.inl ⟨q, hq, hqid, rfl⟩))
    · exact hfresh q (Registry.mem_update.2 (.inr ⟨hq, hqid⟩))
  have hq : q = (r.handedTo successorId newId (s₁.lastFence + 1) current expiresAt).numbered
      (s₁.sqliteSequence + 1) := by
    obtain ⟨hmem, hqid⟩ := Registry.mem_of_find? hfind
    rcases Registry.mem_insert.1 hmem with hmem | rfl
    · exact absurd hqid (Registry.find?_eq_none.1 hfresh q hmem)
    · rfl
  subst hq
  exact ⟨current, s₁, r, r.handedTo successorId newId (s₁.lastFence + 1) current expiresAt, htime,
    hexpire, hr, rfl, hacquired, rfl, htoken, hne, ⟨hfresh₁, rfl, rfl, rfl, rfl⟩,
    logged_of_appendEvent hevent⟩

/-! ## Every call leaves the queue blocked -/

/-- What holds between two calls. -/
structure Registry.Settled (s : Registry) : Prop where
  sound : s.Sound
  queued : s.Queued

omit [UnicodeData] in
theorem Registry.Settled.empty : Registry.empty.Settled :=
  ⟨.empty, by simp [Registry.Queued, Registry.empty]⟩

omit [UnicodeData] in
theorem Registry.Queued.of_change (h : s.Queued)
    (hwaiting : ∀ r ∈ s'.workClaims, r.status = .waiting → r ∈ s.workClaims ∨
      ∃ q ∈ s'.workClaims, Blocks q r)
    (hblocks : ∀ q ∈ s.workClaims, ∀ r ∈ s.workClaims, Blocks q r →
      ∃ q' ∈ s'.workClaims, Blocks q' r) : s'.Queued := by
  intro r hr hstatus
  rcases hwaiting r hr hstatus with hr₀ | hblocked
  · obtain ⟨q, hq, hqr⟩ := h r hr₀ hstatus
    exact hblocks q hq r hr₀ hqr
  · exact hblocked

theorem Logged.workClaims {kind : Str} {d : ClaimDecision} {current : Instant}
    {extra : List (Str × Json)} (h : Logged s kind d current extra s') :
    s'.workClaims = s.workClaims := by
  obtain ⟨_, _, -, -, rfl⟩ := h
  rfl

omit [UnicodeData] in
theorem Registry.Queued.congr (h : s.Queued) (heq : s'.workClaims = s.workClaims) : s'.Queued := by
  unfold Registry.Queued
  rw [heq]
  exact h

/-- A call that sweeps the table first and goes on by steps. -/
def SweptCall (now : Now) (s s' : Registry) : Prop :=
  ∃ current s₁, time now = .ok current ∧ expire current s = .ok (⟨⟩, s₁) ∧ Steps s₁ s' ∧ s'.Queued

theorem claim_swept (hs : s.Settled) {agentId : Str} {resources : List Str} {ttlSeconds : Int}
    {now : Now} {d : ClaimDecision} (h : claim agentId resources ttlSeconds now s = .ok (d, s')) :
    SweptCall now s s' := by
  obtain ⟨current, s₁, htime, hexpire, hcase⟩ := claim_eq_ok hs.sound hs.queued h
  obtain ⟨-, hqueued, -⟩ := expire_eq_ok hs.sound hs.queued hexpire
  refine ⟨current, s₁, htime, hexpire, ?_⟩
  rcases hcase with ⟨hstatus, hlog⟩ | ⟨r, hnew, ⟨hblocked, _, _, hlog⟩ | ⟨hfree, expiresAt, hlog⟩⟩
  · exact ⟨.single (.logged (.reject hstatus) hlog), hqueued.congr hlog.workClaims⟩
  · refine ⟨.single (.logged (.enqueue hnew.fresh hnew.waiting hnew.token hblocked) hlog), ?_⟩
    have hinsert : (s₁.insert r).Queued := by
      refine hqueued.of_change ?_ ?_
      · intro q hq _
        rcases Registry.mem_insert.1 hq with hq | rfl
        · exact .inl hq
        · obtain ⟨p, hp, hblocks⟩ := blockers_ne_nil_iff.1 hblocked
          exact .inr ⟨p, Registry.mem_insert.2 (.inl hp), hblocks⟩
      · intro q hq _ _ hblocks
        exact ⟨q, Registry.mem_insert.2 (.inl hq), hblocks⟩
    exact hinsert.congr hlog.workClaims
  · refine ⟨.single (.logged (.admitted hnew.fresh hnew.waiting hnew.token hfree) hlog), ?_⟩
    have hadmit : ((s₁.insert r).promote r.claimId expiresAt).Queued := by
      refine hqueued.of_change ?_ ?_
      · intro q hq hwaiting
        rcases Registry.mem_update.1 hq with ⟨p, -, -, rfl⟩ | ⟨hq, hid⟩
        · simp at hwaiting
        · rcases Registry.mem_insert.1 hq with hq | rfl
          · exact .inl hq
          · exact absurd rfl hid
      · intro q hq _ _ hblocks
        have hid := Registry.find?_eq_none.1 hnew.fresh q hq
        exact ⟨q, Registry.mem_update.2 (.inr ⟨Registry.mem_insert.2 (.inl hq), hid⟩), hblocks⟩
    exact hadmit.congr hlog.workClaims

theorem poll_swept (hs : s.Settled) {claimId : Str} {now : Now} {d : ClaimDecision}
    (h : poll claimId now s = .ok (d, s')) : SweptCall now s s' := by
  obtain ⟨current, s₁, r, htime, hexpire, hr, hid, hcase⟩ := poll_eq_ok hs.sound hs.queued h
  obtain ⟨-, hqueued, -⟩ := expire_eq_ok hs.sound hs.queued hexpire
  refine ⟨current, s₁, htime, hexpire, ?_⟩
  rcases hcase with ⟨-, rfl, -⟩ | ⟨hwaiting, -, expiresAt, rfl⟩
  · exact ⟨.refl, hqueued⟩
  · subst hid
    exact ⟨.single (.extended hr (by simp [hwaiting, ClaimStatus.isOpen])), hqueued.touch _ _ _⟩

theorem renew_swept (hs : s.Settled) {claimId agentId : Str} {fenceToken : Int}
    {ttlSeconds : Option Int} {now : Now} {d : ClaimDecision}
    (h : renew claimId agentId fenceToken ttlSeconds now s = .ok (d, s')) : SweptCall now s s' := by
  obtain ⟨current, s₁, r, expiresAt, ttl, htime, hexpire, hr, -, hacquired, -, hlog⟩ :=
    renew_eq_ok hs.sound hs.queued h
  obtain ⟨-, hqueued, -⟩ := expire_eq_ok hs.sound hs.queued hexpire
  exact ⟨current, s₁, htime, hexpire,
    .single (.logged (.renew hr (by simp [hacquired, ClaimStatus.isOpen])) hlog),
    (hqueued.touch _ _ _).congr hlog.workClaims⟩

theorem close_pass (hs : s.Sound) {r : Row} {status : ClaimStatus} {kind : Str}
    {extra : List (Str × Json)} {current : Instant} {s₂ : Registry} (hr : r ∈ s.workClaims)
    (hclosing : Closing r.status status kind extra)
    (hlog : Logged (s.close r.claimId status current) kind (decision (r.closed status current))
      current extra s₂)
    (hpass : promoteWaiters current s₂ = .ok (⟨⟩, s')) :
    Steps s s' ∧ s'.Queued ∧ List.Forall₂ (Passed s₂) s₂.workClaims s'.workClaims := by
  have hstep : Step s s₂ := .logged (.close hr hclosing) hlog
  obtain ⟨hsteps, hrows⟩ := promoteWaiters_eq_ok (hstep.sound hs) hpass
  exact ⟨.head hstep hsteps, queued_of_pass hrows, hrows⟩

theorem release_swept (hs : s.Settled) {claimId agentId : Str} {fenceToken : Int} {outcome : Str}
    {now : Now} {event : Json}
    (h : release claimId agentId fenceToken outcome now s = .ok (event, s')) :
    SweptCall now s s' := by
  obtain ⟨current, s₁, r, s₂, htime, hexpire, hr, -, hacquired, -, hlog, hpass⟩ :=
    release_eq_ok hs.sound hs.queued h
  obtain ⟨hsteps, -, -⟩ := expire_eq_ok hs.sound hs.queued hexpire
  obtain ⟨hsteps', hqueued, -⟩ := close_pass (Steps.sound hsteps hs.sound) hr
    (hacquired ▸ Closing.released outcome) hlog hpass
  exact ⟨current, s₁, htime, hexpire, hsteps', hqueued⟩

theorem handoff_swept (hs : s.Settled) {claimId agentId : Str} {fenceToken : Int}
    {successorId note : Str} {now : Now} {d : ClaimDecision}
    (h : handoff claimId agentId fenceToken successorId note now s = .ok (d, s')) :
    SweptCall now s s' := by
  obtain ⟨current, s₁, r, new, htime, hexpire, hr, -, hacquired, -, -, -, hnew, hlog⟩ :=
    handoff_eq_ok h
  obtain ⟨hsteps, hqueued, -⟩ := expire_eq_ok hs.sound hs.queued hexpire
  have hwf := (Steps.sound hsteps hs.sound).wf
  refine ⟨current, s₁, htime, hexpire, .single (.logged (.handoff hr hacquired hnew.fresh
    hnew.acquired hnew.token hnew.resources) hlog), ?_⟩
  have hhanded : ({ s₁.close r.claimId .handedOff current with
      lastFence := s₁.lastFence + 1 }.insert new).Queued := by
    refine hqueued.of_change ?_ ?_
    · intro q hq hwaiting
      rcases Registry.mem_insert.1 hq with hq | rfl
      · rcases Registry.mem_update.1 hq with ⟨p, -, -, rfl⟩ | ⟨hq, -⟩
        · simp at hwaiting
        · exact .inl hq
      · rw [Row.numbered_status, hnew.acquired] at hwaiting
        cases hwaiting
    · -- what the handed claim blocked, its successor blocks
      intro q hq p hp hblocks
      by_cases hid : q.claimId = r.claimId
      · have hqr := hwf.eq_of_claimId hq hr hid
        subst hqr
        refine ⟨new.numbered (s₁.sqliteSequence + 1), Registry.mem_insert.2 (.inr rfl),
          ?_, ?_, ?_, ?_⟩
        · exact (Registry.find?_eq_none.1 hnew.fresh p hp).symm
        · rw [Row.numbered_status, hnew.acquired]
          rfl
        · exact .inl hnew.acquired
        · rw [Row.numbered_resources, hnew.resources]
          exact hblocks.overlap
      · exact ⟨q, Registry.mem_insert.2 (.inl (Registry.mem_update.2 (.inr ⟨hq, hid⟩))), hblocks⟩
  exact hhanded.congr hlog.workClaims

omit [UnicodeData] in
/-- The calls that run `_expire` first: all but `cancel`. -/
def Call.sweeps : Call → Bool
  | .cancel _ _ _ => false
  | _ => true

theorem exec_swept (hs : s.Settled) {call : Call} {reply : Reply} (hsweeps : call.sweeps = true)
    (h : exec call s = .ok (reply, s')) : SweptCall call.now s s' := by
  unfold exec at h
  cases call with
  | claim agentId resources ttlSeconds now =>
    obtain ⟨d, hclaim, -⟩ := Tx.map_eq_ok.1 h
    exact claim_swept hs hclaim
  | poll claimId now =>
    obtain ⟨d, hpoll, -⟩ := Tx.map_eq_ok.1 h
    exact poll_swept hs hpoll
  | renew claimId agentId fenceToken ttlSeconds now =>
    obtain ⟨d, hrenew, -⟩ := Tx.map_eq_ok.1 h
    exact renew_swept hs hrenew
  | release claimId agentId fenceToken outcome now =>
    obtain ⟨event, hrelease, -⟩ := Tx.map_eq_ok.1 h
    exact release_swept hs hrelease
  | cancel claimId agentId now => cases hsweeps
  | handoff claimId agentId fenceToken successorId note now =>
    obtain ⟨d, hhandoff, -⟩ := Tx.map_eq_ok.1 h
    exact handoff_swept hs hhandoff

theorem exec_settled (hs : s.Settled) {call : Call} {reply : Reply}
    (h : exec call s = .ok (reply, s')) : Steps s s' ∧ s'.Settled := by
  suffices hsuff : Steps s s' ∧ s'.Queued from
    ⟨hsuff.1, Steps.sound hsuff.1 hs.sound, hsuff.2⟩
  cases hsweeps : call.sweeps with
  | true =>
    obtain ⟨current, s₁, -, hexpire, hsteps, hqueued⟩ := exec_swept hs hsweeps h
    obtain ⟨hsteps₁, -, -⟩ := expire_eq_ok hs.sound hs.queued hexpire
    exact ⟨hsteps₁.trans hsteps, hqueued⟩
  | false =>
    cases call with
    | cancel claimId agentId now =>
      obtain ⟨_, hcancel, -⟩ := Tx.map_eq_ok.1 h
      obtain ⟨current, r, s₂, -, hr, -, -, hwaiting, hlog, hpass⟩ :=
        cancel_eq_ok hs.sound hcancel
      obtain ⟨hsteps, hqueued, -⟩ :=
        close_pass hs.sound hr (hwaiting ▸ Closing.cancelled) hlog hpass
      exact ⟨hsteps, hqueued⟩
    | _ => cases hsweeps

theorem run_settled (calls : List Call) : (reached calls).Settled :=
  run_invariant (fun _ _ _ _ hs h => (exec_settled hs h).2) .empty calls

end IntegrityGuardian.WorkClaims
