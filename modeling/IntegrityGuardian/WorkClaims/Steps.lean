import IntegrityGuardian.WorkClaims.Registry

/-!
# What one statement of the registry can do

Between two events the tables change in one of seven ways.  `Step` lists them
with their guards; everything the registry keeps along its runs is proved by
cases on it, and `Queue` shows that every committed call is a sequence of steps.
-/

namespace IntegrityGuardian.WorkClaims

open Python Library

/-! ## Rows and tables -/

namespace Row

@[simp] theorem closed_seq (r : Row) (st : ClaimStatus) (c : Instant) :
    (r.closed st c).seq = r.seq := rfl
@[simp] theorem closed_claimId (r : Row) (st : ClaimStatus) (c : Instant) :
    (r.closed st c).claimId = r.claimId := rfl
@[simp] theorem closed_agentId (r : Row) (st : ClaimStatus) (c : Instant) :
    (r.closed st c).agentId = r.agentId := rfl
@[simp] theorem closed_resources (r : Row) (st : ClaimStatus) (c : Instant) :
    (r.closed st c).resources = r.resources := rfl
@[simp] theorem closed_status (r : Row) (st : ClaimStatus) (c : Instant) :
    (r.closed st c).status = st := rfl
@[simp] theorem closed_fenceToken (r : Row) (st : ClaimStatus) (c : Instant) :
    (r.closed st c).fenceToken = r.fenceToken := rfl

@[simp] theorem granted_seq (r : Row) (t : Int) (e : Instant) : (r.granted t e).seq = r.seq := rfl
@[simp] theorem granted_claimId (r : Row) (t : Int) (e : Instant) :
    (r.granted t e).claimId = r.claimId := rfl
@[simp] theorem granted_agentId (r : Row) (t : Int) (e : Instant) :
    (r.granted t e).agentId = r.agentId := rfl
@[simp] theorem granted_resources (r : Row) (t : Int) (e : Instant) :
    (r.granted t e).resources = r.resources := rfl
@[simp] theorem granted_status (r : Row) (t : Int) (e : Instant) :
    (r.granted t e).status = .acquired := rfl
@[simp] theorem granted_fenceToken (r : Row) (t : Int) (e : Instant) :
    (r.granted t e).fenceToken = some t := rfl

@[simp] theorem extended_seq (r : Row) (e : Instant) (n : Int) : (r.extended e n).seq = r.seq := rfl
@[simp] theorem extended_claimId (r : Row) (e : Instant) (n : Int) :
    (r.extended e n).claimId = r.claimId := rfl
@[simp] theorem extended_agentId (r : Row) (e : Instant) (n : Int) :
    (r.extended e n).agentId = r.agentId := rfl
@[simp] theorem extended_resources (r : Row) (e : Instant) (n : Int) :
    (r.extended e n).resources = r.resources := rfl
@[simp] theorem extended_status (r : Row) (e : Instant) (n : Int) :
    (r.extended e n).status = r.status := rfl
@[simp] theorem extended_fenceToken (r : Row) (e : Instant) (n : Int) :
    (r.extended e n).fenceToken = r.fenceToken := rfl

/-- The row as `INSERT` stores it. -/
def numbered (r : Row) (seq : Nat) : Row := { r with seq := seq }

@[simp] theorem numbered_seq (r : Row) (n : Nat) : (r.numbered n).seq = n := rfl
@[simp] theorem numbered_claimId (r : Row) (n : Nat) : (r.numbered n).claimId = r.claimId := rfl
@[simp] theorem numbered_agentId (r : Row) (n : Nat) : (r.numbered n).agentId = r.agentId := rfl
@[simp] theorem numbered_resources (r : Row) (n : Nat) :
    (r.numbered n).resources = r.resources := rfl
@[simp] theorem numbered_status (r : Row) (n : Nat) : (r.numbered n).status = r.status := rfl
@[simp] theorem numbered_fenceToken (r : Row) (n : Nat) :
    (r.numbered n).fenceToken = r.fenceToken := rfl

end Row

namespace Registry

variable {s : Registry} {r q : Row} {claimId : Str}

theorem mem_openRows : r ∈ s.openRows ↔ r ∈ s.workClaims ∧ r.status.isOpen = true := by
  simp [openRows]

theorem mem_blockers :
    q ∈ s.blockers r ↔ q ∈ s.workClaims ∧ q.status.isOpen = true ∧ q.claimId ≠ r.claimId ∧
      (q.status = .acquired ∨ q.seq < r.seq) ∧ setsOverlap r.resources q.resources = true := by
  simp [blockers, mem_openRows, and_assoc]

theorem mem_update {f : Row → Row} :
    q ∈ (s.update claimId f).workClaims ↔
      (∃ p ∈ s.workClaims, p.claimId = claimId ∧ q = f p) ∨
        (q ∈ s.workClaims ∧ q.claimId ≠ claimId) :=
  mem_updateKey

theorem mem_insert :
    q ∈ (s.insert r).workClaims ↔ q ∈ s.workClaims ∨ q = r.numbered (s.sqliteSequence + 1) := by
  simp [insert, Row.numbered]

theorem blockers_insert :
    (s.insert r).blockers (r.numbered (s.sqliteSequence + 1))
      = s.blockers (r.numbered (s.sqliteSequence + 1)) := by
  unfold blockers openRows insert
  rw [List.filter_append, List.filter_append]
  simp [Row.numbered]

theorem find?_eq_none : s.find? claimId = none ↔ ∀ q ∈ s.workClaims, q.claimId ≠ claimId := by
  simp [find?]

theorem mem_of_find? (h : s.find? claimId = some r) : r ∈ s.workClaims ∧ r.claimId = claimId := by
  refine ⟨List.mem_of_find?_eq_some h, ?_⟩
  simpa using List.find?_some h

end Registry

theorem resourcesOverlap_comm (a b : Resource) : resourcesOverlap a b = resourcesOverlap b a := by
  unfold resourcesOverlap
  by_cases hkind : a.kind = b.kind
  · by_cases hvalue : a.value = b.value
    · simp [hkind, hvalue]
    · simp [hkind, hvalue, Ne.symm hvalue, Bool.or_comm]
  · simp [hkind, Ne.symm hkind]

theorem setsOverlap_eq_true {l l' : List Resource} :
    setsOverlap l l' = true ↔ ∃ a ∈ l, ∃ b ∈ l', resourcesOverlap a b = true := by
  simp [setsOverlap]

theorem setsOverlap_comm (l l' : List Resource) : setsOverlap l l' = setsOverlap l' l := by
  rw [Bool.eq_iff_iff, setsOverlap_eq_true, setsOverlap_eq_true]
  constructor
  · rintro ⟨a, ha, b, hb, h⟩
    exact ⟨b, hb, a, ha, resourcesOverlap_comm a b ▸ h⟩
  · rintro ⟨a, ha, b, hb, h⟩
    exact ⟨b, hb, a, ha, resourcesOverlap_comm a b ▸ h⟩

/-! ## The standing invariant of the tables -/

/-- What the declared constraints and the counters keep: `claim_id` is unique,
`seq` and the fence counter bound what they have handed out, tokens identify
rows, and only rows that were granted carry one. -/
structure Registry.WF (s : Registry) : Prop where
  claimIds : (s.workClaims.map Row.claimId).Nodup
  ordered : (s.workClaims.map Row.seq).Pairwise (· < ·)
  seq_le : ∀ r ∈ s.workClaims, r.seq ≤ s.sqliteSequence
  fence_nonneg : 0 ≤ s.lastFence
  token_range : ∀ r ∈ s.workClaims, ∀ t, r.fenceToken = some t → 0 < t ∧ t ≤ s.lastFence
  token_unique : ∀ r ∈ s.workClaims, ∀ q ∈ s.workClaims, ∀ t, r.fenceToken = some t →
    q.fenceToken = some t → r.claimId = q.claimId
  waiting_token : ∀ r ∈ s.workClaims, r.status = .waiting → r.fenceToken = none
  acquired_token : ∀ r ∈ s.workClaims, r.status = .acquired → ∃ t, r.fenceToken = some t

namespace Registry.WF

variable {s : Registry} {r q : Row} {claimId : Str}

theorem eq_of_claimId (h : s.WF) (hr : r ∈ s.workClaims) (hq : q ∈ s.workClaims)
    (heq : r.claimId = q.claimId) : r = q :=
  List.inj_on_of_nodup_map h.claimIds hr hq heq

theorem find?_eq_some (h : s.WF) :
    s.find? claimId = some r ↔ r ∈ s.workClaims ∧ r.claimId = claimId := by
  constructor
  · exact mem_of_find?
  · rintro ⟨hr, hid⟩
    cases hfind : s.find? claimId with
    | none => exact absurd hid (find?_eq_none.1 hfind r hr)
    | some q =>
      obtain ⟨hq, hqid⟩ := mem_of_find? hfind
      rw [h.eq_of_claimId hr hq (hid.trans hqid.symm)]

theorem empty : Registry.empty.WF where
  claimIds := List.nodup_nil
  ordered := List.Pairwise.nil
  seq_le := by simp [Registry.empty]
  fence_nonneg := le_refl 0
  token_range := by simp [Registry.empty]
  token_unique := by simp [Registry.empty]
  waiting_token := by simp [Registry.empty]
  acquired_token := by simp [Registry.empty]

theorem update (h : s.WF) {f : Row → Row} (hid : ∀ r, (f r).claimId = r.claimId)
    (hseq : ∀ r, (f r).seq = r.seq) (htoken : ∀ r, (f r).fenceToken = r.fenceToken)
    (hwaiting : ∀ r ∈ s.workClaims, r.claimId = claimId →
      (f r).status = .waiting → r.status = .waiting)
    (hacquired : ∀ r ∈ s.workClaims, r.claimId = claimId →
      (f r).status = .acquired → r.status = .acquired) :
    (s.update claimId f).WF := by
  have hold : ∀ q ∈ (s.update claimId f).workClaims,
      ∃ p ∈ s.workClaims, q.claimId = p.claimId ∧ q.seq = p.seq ∧ q.fenceToken = p.fenceToken ∧
        (q.status = .waiting → p.status = .waiting) ∧
        (q.status = .acquired → p.status = .acquired) := by
    intro q hq
    rcases mem_update.1 hq with ⟨p, hp, hpid, rfl⟩ | ⟨hq, -⟩
    · exact ⟨p, hp, hid p, hseq p, htoken p, hwaiting p hp hpid, hacquired p hp hpid⟩
    · exact ⟨q, hq, rfl, rfl, rfl, id, id⟩
  refine ⟨?_, ?_, ?_, h.fence_nonneg, ?_, ?_, ?_, ?_⟩
  · show ((updateKey Row.claimId claimId f s.workClaims).map Row.claimId).Nodup
    rw [map_updateKey hid]
    exact h.claimIds
  · show ((updateKey Row.claimId claimId f s.workClaims).map Row.seq).Pairwise (· < ·)
    rw [map_updateKey hseq]
    exact h.ordered
  · intro q hq
    obtain ⟨p, hp, -, hpseq, -⟩ := hold q hq
    rw [hpseq]
    exact h.seq_le p hp
  · intro q hq t ht
    obtain ⟨p, hp, -, -, hptoken, -⟩ := hold q hq
    exact h.token_range p hp t (hptoken ▸ ht)
  · intro q hq q' hq' t ht ht'
    obtain ⟨p, hp, hpid, -, hptoken, -⟩ := hold q hq
    obtain ⟨p', hp', hpid', -, hptoken', -⟩ := hold q' hq'
    rw [hpid, hpid']
    exact h.token_unique p hp p' hp' t (hptoken ▸ ht) (hptoken' ▸ ht')
  · intro q hq hstatus
    obtain ⟨p, hp, -, -, hptoken, hpwaiting, -⟩ := hold q hq
    rw [hptoken]
    exact h.waiting_token p hp (hpwaiting hstatus)
  · intro q hq hstatus
    obtain ⟨p, hp, -, -, hptoken, -, hpacquired⟩ := hold q hq
    rw [hptoken]
    exact h.acquired_token p hp (hpacquired hstatus)

theorem close (h : s.WF) {status : ClaimStatus} (hclosed : status.isOpen = false)
    (current : Instant) : (s.close claimId status current).WF := by
  apply h.update
  · exact fun _ => rfl
  · exact fun _ => rfl
  · exact fun _ => rfl
  · intro r _ _ hstatus
    rw [Row.closed_status] at hstatus
    simp [hstatus, ClaimStatus.isOpen] at hclosed
  · intro r _ _ hstatus
    rw [Row.closed_status] at hstatus
    simp [hstatus, ClaimStatus.isOpen] at hclosed

theorem touch (h : s.WF) (expiresAt : Instant) (ttlSeconds : Int) :
    (s.touch claimId expiresAt ttlSeconds).WF := by
  apply h.update
  · exact fun _ => rfl
  · exact fun _ => rfl
  · exact fun _ => rfl
  · exact fun _ _ _ hstatus => hstatus
  · exact fun _ _ _ hstatus => hstatus

theorem token_lt_next (h : s.WF) (hr : r ∈ s.workClaims) : r.fenceToken ≠ some (s.lastFence + 1) := by
  intro ht
  have hle := (h.token_range r hr _ ht).2
  omega

theorem promote (h : s.WF) (claimId : Str) (expiresAt : Instant) :
    (s.promote claimId expiresAt).WF := by
  have hcase : ∀ q ∈ (s.promote claimId expiresAt).workClaims,
      (∃ p ∈ s.workClaims, p.claimId = claimId ∧ q = p.granted (s.lastFence + 1) expiresAt) ∨
        (q ∈ s.workClaims ∧ q.claimId ≠ claimId) := fun q hq => mem_update.1 hq
  have hfence : (s.promote claimId expiresAt).lastFence = s.lastFence + 1 := rfl
  have hnonneg := h.fence_nonneg
  refine ⟨?_, ?_, ?_, by rw [hfence]; omega, ?_, ?_, ?_, ?_⟩
  · show ((updateKey Row.claimId claimId _ s.workClaims).map Row.claimId).Nodup
    rw [map_updateKey fun q => Row.granted_claimId q _ _]
    exact h.claimIds
  · show ((updateKey Row.claimId claimId _ s.workClaims).map Row.seq).Pairwise (· < ·)
    rw [map_updateKey fun q => Row.granted_seq q _ _]
    exact h.ordered
  · intro q hq
    rcases hcase q hq with ⟨p, hp, -, rfl⟩ | ⟨hq, -⟩
    · exact h.seq_le p hp
    · exact h.seq_le q hq
  · intro q hq t ht
    rw [hfence]
    rcases hcase q hq with ⟨p, -, -, rfl⟩ | ⟨hq, -⟩
    · rw [Row.granted_fenceToken, Option.some.injEq] at ht
      omega
    · have := h.token_range q hq t ht
      omega
  · intro q hq q' hq' t ht ht'
    rcases hcase q hq with ⟨p, -, hpid, rfl⟩ | ⟨hq, -⟩ <;>
      rcases hcase q' hq' with ⟨p', -, hpid', rfl⟩ | ⟨hq', -⟩
    · rw [Row.granted_claimId, Row.granted_claimId, hpid, hpid']
    · rw [Row.granted_fenceToken] at ht
      exact absurd (ht'.trans ht.symm) (h.token_lt_next hq')
    · rw [Row.granted_fenceToken] at ht'
      exact absurd (ht.trans ht'.symm) (h.token_lt_next hq)
    · exact h.token_unique q hq q' hq' t ht ht'
  · intro q hq hstatus
    rcases hcase q hq with ⟨p, -, -, rfl⟩ | ⟨hq, -⟩
    · simp at hstatus
    · exact h.waiting_token q hq hstatus
  · intro q hq hstatus
    rcases hcase q hq with ⟨p, -, -, rfl⟩ | ⟨hq, -⟩
    · exact ⟨_, rfl⟩
    · exact h.acquired_token q hq hstatus

/-- `INSERT` of a fresh row: waiting without a token, or acquired under the
token `_next_fence` has just handed out. -/
theorem insert (h : s.WF) (hfresh : s.find? r.claimId = none)
    (htoken : (r.status = .waiting ∧ r.fenceToken = none) ∨
      (r.status = .acquired ∧ r.fenceToken = some s.lastFence ∧ 0 < s.lastFence ∧
        ∀ q ∈ s.workClaims, q.fenceToken ≠ some s.lastFence)) :
    (s.insert r).WF := by
  have hne := find?_eq_none.1 hfresh
  refine ⟨?_, ?_, ?_, h.fence_nonneg, ?_, ?_, ?_, ?_⟩
  · show ((s.workClaims ++ [r.numbered _]).map Row.claimId).Nodup
    rw [List.map_append, List.nodup_append]
    refine ⟨h.claimIds, by simp, ?_⟩
    intro a ha b hb
    obtain ⟨q, hq, rfl⟩ := List.mem_map.1 ha
    rw [List.map_singleton, List.mem_singleton] at hb
    rw [hb]
    exact hne q hq
  · show ((s.workClaims ++ [r.numbered _]).map Row.seq).Pairwise (· < ·)
    rw [List.map_append, List.pairwise_append]
    refine ⟨h.ordered, by simp, ?_⟩
    intro a ha b hb
    obtain ⟨q, hq, rfl⟩ := List.mem_map.1 ha
    rw [List.map_singleton, List.mem_singleton] at hb
    rw [hb, Row.numbered_seq]
    have := h.seq_le q hq
    omega
  · intro q hq
    show q.seq ≤ s.sqliteSequence + 1
    rcases mem_insert.1 hq with hq | rfl
    · have := h.seq_le q hq
      omega
    · exact le_refl _
  · intro q hq t ht
    rcases mem_insert.1 hq with hq | rfl
    · exact h.token_range q hq t ht
    · rcases htoken with ⟨-, hnone⟩ | ⟨-, hsome, hpos, -⟩
      · simp [hnone] at ht
      · rw [Row.numbered_fenceToken, hsome, Option.some.injEq] at ht
        subst ht
        exact ⟨hpos, le_refl s.lastFence⟩
  · -- a token of the new row is on no older one
    have hnew : ∀ q ∈ s.workClaims, ∀ t, r.fenceToken = some t → q.fenceToken ≠ some t := by
      intro q hq t ht
      rcases htoken with ⟨-, hnone⟩ | ⟨-, hsome, -, hall⟩
      · simp [hnone] at ht
      · rw [hsome, Option.some.injEq] at ht
        exact ht ▸ hall q hq
    intro q hq q' hq' t ht ht'
    rcases mem_insert.1 hq with hq | rfl <;> rcases mem_insert.1 hq' with hq' | rfl
    · exact h.token_unique q hq q' hq' t ht ht'
    · exact absurd ht (hnew q hq t ht')
    · exact absurd ht' (hnew q' hq' t ht)
    · rfl
  · intro q hq hstatus
    rcases mem_insert.1 hq with hq | rfl
    · exact h.waiting_token q hq hstatus
    · rcases htoken with ⟨-, hnone⟩ | ⟨hacq, -⟩
      · exact hnone
      · rw [Row.numbered_status, hacq] at hstatus
        cases hstatus
  · intro q hq hstatus
    rcases mem_insert.1 hq with hq | rfl
    · exact h.acquired_token q hq hstatus
    · rcases htoken with ⟨hwait, -⟩ | ⟨-, hsome, -⟩
      · rw [Row.numbered_status, hwait] at hstatus
        cases hstatus
      · exact ⟨_, hsome⟩

theorem not_acquired_of_closed (hs : s.WF) {t : Int}
    (hr : r ∈ s.workClaims) (hq : q ∈ s.workClaims) (hclosed : r.status.isOpen = false)
    (hrt : r.fenceToken = some t) (hqt : q.fenceToken = some t) : q.status ≠ .acquired := by
  rw [← hs.eq_of_claimId hr hq (hs.token_unique r hr q hq t hrt hqt)]
  rintro hacq
  simp [hacq, ClaimStatus.isOpen] at hclosed

end Registry.WF

/-! ## How rows and tables grow -/

/-- What may happen to a row: its identity stays, a closed row stays as it is, a
token stays where it is, and an acquired row never waits again. -/
structure Evolves (r r' : Row) : Prop where
  seq : r'.seq = r.seq
  claimId : r'.claimId = r.claimId
  agentId : r'.agentId = r.agentId
  resources : r'.resources = r.resources
  closed : r.status.isOpen = false → r' = r
  token : ∀ t, r.fenceToken = some t → r'.fenceToken = some t
  acquired : r.status = .acquired → r'.status ≠ .waiting

namespace Evolves

variable {r r' r'' : Row}

theorem refl (r : Row) : Evolves r r :=
  ⟨rfl, rfl, rfl, rfl, fun _ => rfl, fun _ h => h, by intro h; simp [h]⟩

theorem trans (h : Evolves r r') (h' : Evolves r' r'') : Evolves r r'' where
  seq := h'.seq.trans h.seq
  claimId := h'.claimId.trans h.claimId
  agentId := h'.agentId.trans h.agentId
  resources := h'.resources.trans h.resources
  closed := by
    intro hr
    have heq := h.closed hr
    subst heq
    exact h'.closed hr
  token := fun t ht => h'.token t (h.token t ht)
  acquired := by
    intro hr
    cases hopen : r'.status.isOpen with
    | false =>
      rw [h'.closed hopen]
      exact h.acquired hr
    | true =>
      have hacq : r'.status = .acquired := by
        have := h.acquired hr
        revert hopen this
        cases r'.status <;> simp [ClaimStatus.isOpen]
      exact h'.acquired hacq

theorem closing (r : Row) {status : ClaimStatus} (hopen : r.status.isOpen = true)
    (hclosed : status.isOpen = false) (current : Instant) : Evolves r (r.closed status current) :=
  ⟨rfl, rfl, rfl, rfl, by simp [hopen], fun _ h => h, by
    rintro - rfl
    simp [ClaimStatus.isOpen] at hclosed⟩

theorem granting (r : Row) (hwaiting : r.status = .waiting) (htoken : r.fenceToken = none)
    (t : Int) (expiresAt : Instant) : Evolves r (r.granted t expiresAt) :=
  ⟨rfl, rfl, rfl, rfl, by simp [hwaiting, ClaimStatus.isOpen], by simp [htoken], by simp⟩

theorem extending (r : Row) (hopen : r.status.isOpen = true) (expiresAt : Instant)
    (ttlSeconds : Int) : Evolves r (r.extended expiresAt ttlSeconds) :=
  ⟨rfl, rfl, rfl, rfl, by simp [hopen], fun _ h => h, by intro h; simp [h]⟩

end Evolves

/-- What every run does to the tables: rows evolve, and a token that appears is
above every earlier one. -/
structure Grows (s s' : Registry) : Prop where
  evolves : ∀ r ∈ s.workClaims, ∃ r' ∈ s'.workClaims, Evolves r r'
  fence_le : s.lastFence ≤ s'.lastFence
  fresh : ∀ r' ∈ s'.workClaims, ∀ t, r'.fenceToken = some t → s.lastFence < t ∨
    ∃ r ∈ s.workClaims, r.claimId = r'.claimId ∧ r.fenceToken = some t

namespace Grows

variable {s s' s'' : Registry}

theorem refl (s : Registry) : Grows s s :=
  ⟨fun r hr => ⟨r, hr, .refl r⟩, le_refl _, fun r hr _ ht => .inr ⟨r, hr, rfl, ht⟩⟩

theorem trans (h : Grows s s') (h' : Grows s' s'') : Grows s s'' where
  evolves := by
    intro r hr
    obtain ⟨r', hr', hev⟩ := h.evolves r hr
    obtain ⟨r'', hr'', hev'⟩ := h'.evolves r' hr'
    exact ⟨r'', hr'', hev.trans hev'⟩
  fence_le := h.fence_le.trans h'.fence_le
  fresh := by
    intro r'' hr'' t ht
    rcases h'.fresh r'' hr'' t ht with hlt | ⟨r', hr', hid', ht'⟩
    · exact .inl (lt_of_le_of_lt h.fence_le hlt)
    · rcases h.fresh r' hr' t ht' with hlt | ⟨r, hr, hid, ht⟩
      · exact .inl hlt
      · exact .inr ⟨r, hr, hid.trans hid', ht⟩

theorem update {f : Row → Row} {claimId : Str} (htoken : ∀ r, (f r).fenceToken = r.fenceToken)
    (hev : ∀ r ∈ s.workClaims, r.claimId = claimId → Evolves r (f r)) :
    Grows s (s.update claimId f) where
  evolves := by
    intro r hr
    by_cases hid : r.claimId = claimId
    · exact ⟨f r, Registry.mem_update.2 (.inl ⟨r, hr, hid, rfl⟩), hev r hr hid⟩
    · exact ⟨r, Registry.mem_update.2 (.inr ⟨hr, hid⟩), .refl r⟩
  fence_le := le_refl _
  fresh := by
    intro r' hr' t ht
    rcases Registry.mem_update.1 hr' with ⟨r, hr, hid, rfl⟩ | ⟨hr, -⟩
    · exact .inr ⟨r, hr, ((hev r hr hid).claimId).symm, htoken r ▸ ht⟩
    · exact .inr ⟨r', hr, rfl, ht⟩

theorem promote {r : Row} (hwf : s.WF) (hr : r ∈ s.workClaims) (hwaiting : r.status = .waiting)
    (expiresAt : Instant) : Grows s (s.promote r.claimId expiresAt) where
  evolves := by
    intro q hq
    by_cases hid : q.claimId = r.claimId
    · have hqr := hwf.eq_of_claimId hq hr hid
      subst hqr
      exact ⟨q.granted (s.lastFence + 1) expiresAt,
        Registry.mem_update.2 (.inl ⟨q, hq, rfl, rfl⟩),
        .granting q hwaiting (hwf.waiting_token q hq hwaiting) _ _⟩
    · exact ⟨q, Registry.mem_update.2 (.inr ⟨hq, hid⟩), .refl q⟩
  fence_le := by
    show s.lastFence ≤ s.lastFence + 1
    omega
  fresh := by
    intro q' hq' t ht
    rcases Registry.mem_update.1 hq' with ⟨q, hq, -, rfl⟩ | ⟨hq, -⟩
    · rw [Row.granted_fenceToken, Option.some.injEq] at ht
      exact .inl (by omega)
    · exact .inr ⟨q', hq, rfl, ht⟩

variable {r : Row}

theorem insert (htoken : ∀ t, r.fenceToken = some t → s.lastFence < t) (n : Int)
    (hn : s.lastFence ≤ n) : Grows s ({ s with lastFence := n }.insert r) where
  evolves := fun q hq => ⟨q, Registry.mem_insert.2 (.inl hq), .refl q⟩
  fence_le := hn
  fresh := by
    intro q hq t ht
    rcases Registry.mem_insert.1 hq with hq | rfl
    · exact .inr ⟨q, hq, rfl, ht⟩
    · exact .inl (htoken t ht)

theorem mem_of_closed (h : Grows s s') (hr : r ∈ s.workClaims)
    (hclosed : r.status.isOpen = false) : r ∈ s'.workClaims := by
  obtain ⟨r', hr', hev⟩ := h.evolves r hr
  rw [hev.closed hclosed] at hr'
  exact hr'

end Grows

/-! ## Steps -/

/-- How an open row may be closed, with the event that says so. -/
inductive Closing : ClaimStatus → ClaimStatus → Str → List (Str × Json) → Prop
  | expired {status : ClaimStatus} (hopen : status.isOpen = true) :
      Closing status .expired (str "claim-expired") []
  | released (outcome : Str) :
      Closing .acquired .released (str "claim-released") [(str "outcome", .str outcome)]
  | cancelled : Closing .waiting .cancelled (str "claim-cancelled") []

variable {status status' : ClaimStatus} {extra : List (Str × Json)} {kind : Str}

theorem Closing.isOpen_left (h : Closing status status' kind extra) : status.isOpen = true := by
  cases h with
  | expired hopen => exact hopen
  | released outcome => rfl
  | cancelled => rfl

theorem Closing.isOpen_right (h : Closing status status' kind extra) :
    status'.isOpen = false := by
  cases h <;> rfl

/-- The tables change from `s` to `t`; the event to be appended is `kind` with
the given decision and extra members. -/
inductive Change : Registry → Registry → Str → ClaimDecision → List (Str × Json) → Prop
  | close {s : Registry} {r : Row} {status : ClaimStatus} {kind : Str}
      {extra : List (Str × Json)} {current : Instant} (hr : r ∈ s.workClaims)
      (hclosing : Closing r.status status kind extra) :
      Change s (s.close r.claimId status current) kind (decision (r.closed status current)) extra
  | promote {s : Registry} {r : Row} {expiresAt : Instant} (hr : r ∈ s.workClaims)
      (hwaiting : r.status = .waiting) (hfree : s.blockers r = []) :
      Change s (s.promote r.claimId expiresAt) (str "claim-acquired")
        (decision (r.granted (s.lastFence + 1) expiresAt)) []
  | enqueue {s : Registry} {r : Row} {blockedBy : List Str} {reason : Str}
      (hfresh : s.find? r.claimId = none) (hwaiting : r.status = .waiting)
      (htoken : r.fenceToken = none)
      (hblocked : s.blockers (r.numbered (s.sqliteSequence + 1)) ≠ []) :
      Change s (s.insert r) (str "claim-waiting")
        (decision (r.numbered (s.sqliteSequence + 1)) blockedBy reason) []
  | admitted {s : Registry} {r : Row} {expiresAt : Instant}
      (hfresh : s.find? r.claimId = none) (hwaiting : r.status = .waiting)
      (htoken : r.fenceToken = none)
      (hfree : s.blockers (r.numbered (s.sqliteSequence + 1)) = []) :
      Change s ((s.insert r).promote r.claimId expiresAt) (str "claim-acquired")
        (decision ((r.numbered (s.sqliteSequence + 1)).granted (s.lastFence + 1) expiresAt)) []
  | handoff {s : Registry} {r new : Row} {current : Instant} {note : Str}
      (hr : r ∈ s.workClaims) (hacquired : r.status = .acquired)
      (hfresh : s.find? new.claimId = none) (hstatus : new.status = .acquired)
      (htoken : new.fenceToken = some (s.lastFence + 1)) (hres : new.resources = r.resources) :
      Change s ({ s.close r.claimId .handedOff current with lastFence := s.lastFence + 1 }.insert new)
        (str "claim-handed-off") (decision (new.numbered (s.sqliteSequence + 1)))
        [(str "from_claim_id", .str r.claimId), (str "from_agent_id", .str r.agentId),
          (str "note", .str note)]
  | renew {s : Registry} {r : Row} {expiresAt : Instant} {ttlSeconds : Int}
      (hr : r ∈ s.workClaims) (hopen : r.status.isOpen = true) :
      Change s (s.touch r.claimId expiresAt ttlSeconds) (str "claim-renewed")
        (decision (r.extended expiresAt ttlSeconds)) []
  | reject {s : Registry} {d : ClaimDecision} (hstatus : d.status = .rejected) :
      Change s s (str "claim-rejected") d []

section
variable [UnicodeData]

/-- `s'` is `s` after `_append_event`. -/
def Logged (s : Registry) (kind : Str) (d : ClaimDecision) (current : Instant)
    (extra : List (Str × Json)) (s' : Registry) : Prop :=
  ∃ digest eventJson,
    digestObject (eventObject kind d current (s.events.getLast?.map EventRow.eventDigest) extra)
      eventDomain = .ok digest ∧
    canonicalBytes (eventObject kind d current (s.events.getLast?.map EventRow.eventDigest) extra)
      = .ok eventJson ∧
    s' = { s with events := s.events ++
      [⟨digest, s.events.getLast?.map EventRow.eventDigest, eventJson⟩] }

/-- One change of the tables with its event; only the lease that `poll` extends
is not announced. -/
inductive Step : Registry → Registry → Prop
  | logged {s t s' : Registry} {kind : Str} {d : ClaimDecision} {current : Instant}
      {extra : List (Str × Json)} (hchange : Change s t kind d extra)
      (hlog : Logged t kind d current extra s') : Step s s'
  | extended {s : Registry} {r : Row} {expiresAt : Instant} {ttlSeconds : Int}
      (hr : r ∈ s.workClaims) (hopen : r.status.isOpen = true) :
      Step s (s.touch r.claimId expiresAt ttlSeconds)

abbrev Steps : Registry → Registry → Prop := Relation.ReflTransGen Step

end

/-! ## Every step keeps the tables well formed -/

/-- Overlapping claims are granted one after the other: the one with the smaller
token is no longer acquired. -/
def Registry.Fenced (s : Registry) : Prop :=
  ∀ r ∈ s.workClaims, ∀ q ∈ s.workClaims, ∀ t u, r.fenceToken = some t → q.fenceToken = some u →
    t < u → setsOverlap r.resources q.resources = true → r.status ≠ .acquired

/-- What holds between any two statements. -/
structure Registry.Sound (s : Registry) : Prop where
  wf : s.WF
  fenced : s.Fenced

namespace Registry

variable {s : Registry} {r : Row}

theorem Sound.empty : Registry.empty.Sound :=
  ⟨.empty, by simp [Fenced, Registry.empty]⟩

theorem Sound.withEvents (h : s.Sound) (events : List EventRow) :
    Sound { s with events := events } :=
  ⟨⟨h.wf.claimIds, h.wf.ordered, h.wf.seq_le, h.wf.fence_nonneg, h.wf.token_range,
    h.wf.token_unique, h.wf.waiting_token, h.wf.acquired_token⟩, h.fenced⟩

variable {s' : Registry}

theorem Fenced.of_old (h : s.Fenced)
    (hold : ∀ q' ∈ s'.workClaims, ∀ u, q'.fenceToken = some u → ∃ q ∈ s.workClaims,
      q.fenceToken = some u ∧ q.resources = q'.resources ∧
        (q'.status = .acquired → q.status = .acquired)) : s'.Fenced := by
  intro r' hr' q' hq' t u ht hu hlt hoverlap hacquired
  obtain ⟨r, hr, hrt, hrres, hracq⟩ := hold r' hr' t ht
  obtain ⟨q, hq, hqu, hqres, -⟩ := hold q' hq' u hu
  rw [← hrres, ← hqres] at hoverlap
  exact h r hr q hq t u hrt hqu hlt hoverlap (hracq hacquired)

theorem Fenced.of_grant (hwf : s.WF) (h : s.Fenced) (new : Row)
    (hnew : new.fenceToken = some (s.lastFence + 1))
    (hfree : ∀ q ∈ s.workClaims, q.status = .acquired → q.claimId ≠ new.claimId →
      setsOverlap q.resources new.resources = true → ∀ q' ∈ s'.workClaims,
      q'.claimId = q.claimId → q'.status ≠ .acquired)
    (hold : ∀ q' ∈ s'.workClaims, q' = new ∨ ∃ q ∈ s.workClaims, q.claimId ≠ new.claimId ∧
      q.claimId = q'.claimId ∧ q.fenceToken = q'.fenceToken ∧ q.resources = q'.resources ∧
        (q'.status = .acquired → q.status = .acquired)) : s'.Fenced := by
  intro r' hr' q' hq' t u ht hu hlt hoverlap hacquired
  rcases hold r' hr' with rfl | ⟨r, hr, hrne, hrid, hrt, hrres, hracq⟩
  · -- no token is above the new one
    rw [hnew, Option.some.injEq] at ht
    rcases hold q' hq' with rfl | ⟨q, hq, -, -, hqt, -, -⟩
    · rw [hnew, Option.some.injEq] at hu
      omega
    · have hle := (hwf.token_range q hq u (hqt.trans hu)).2
      omega
  · rcases hold q' hq' with rfl | ⟨q, hq, -, -, hqt, hqres, -⟩
    · rw [← hrres] at hoverlap
      exact hfree r hr (hracq hacquired) hrne hoverlap r' hr' hrid.symm hacquired
    · rw [← hrres, ← hqres] at hoverlap
      exact h r hr q hq t u (hrt.trans ht) (hqt.trans hu) hlt hoverlap (hracq hacquired)

theorem not_acquired_of_blockers_eq_nil (hfree : s.blockers r = []) {q : Row}
    (hq : q ∈ s.workClaims) (hid : q.claimId ≠ r.claimId)
    (hoverlap : setsOverlap q.resources r.resources = true) : q.status ≠ .acquired := by
  intro hacquired
  have hmem : q ∈ s.blockers r := by
    rw [mem_blockers]
    refine ⟨hq, by simp [hacquired, ClaimStatus.isOpen], hid, .inl hacquired, ?_⟩
    rw [setsOverlap_comm]
    exact hoverlap
  rw [hfree] at hmem
  cases hmem

namespace Sound

variable (h : s.Sound)
include h

theorem disjoint {q : Row} (hr : r ∈ s.workClaims) (hq : q ∈ s.workClaims)
    (hracq : r.status = .acquired) (hqacq : q.status = .acquired) (hne : r.claimId ≠ q.claimId) :
    setsOverlap r.resources q.resources = false := by
  rw [← Bool.not_eq_true]
  intro hoverlap
  obtain ⟨t, ht⟩ := h.wf.acquired_token r hr hracq
  obtain ⟨u, hu⟩ := h.wf.acquired_token q hq hqacq
  rcases lt_trichotomy t u with hlt | rfl | hgt
  · exact h.fenced r hr q hq t u ht hu hlt hoverlap hracq
  · exact hne (h.wf.token_unique r hr q hq t ht hu)
  · rw [setsOverlap_comm] at hoverlap
    exact h.fenced q hq r hr u t hu ht hgt hoverlap hqacq

theorem close {status : ClaimStatus} (hclosed : status.isOpen = false) (claimId : Str)
    (current : Instant) : (s.close claimId status current).Sound := by
  refine ⟨h.wf.close hclosed current, h.fenced.of_old ?_⟩
  intro q' hq' u hu
  rcases mem_update.1 hq' with ⟨q, hq, -, rfl⟩ | ⟨hq, -⟩
  · refine ⟨q, hq, hu, rfl, ?_⟩
    rw [Row.closed_status]
    rintro rfl
    simp [ClaimStatus.isOpen] at hclosed
  · exact ⟨q', hq, hu, rfl, fun hacq => hacq⟩

theorem touch (claimId : Str) (expiresAt : Instant) (ttlSeconds : Int) :
    (s.touch claimId expiresAt ttlSeconds).Sound := by
  refine ⟨h.wf.touch expiresAt ttlSeconds, h.fenced.of_old ?_⟩
  intro q' hq' u hu
  rcases mem_update.1 hq' with ⟨q, hq, -, rfl⟩ | ⟨hq, -⟩
  · exact ⟨q, hq, hu, rfl, fun hacq => hacq⟩
  · exact ⟨q', hq, hu, rfl, fun hacq => hacq⟩

theorem promote (hr : r ∈ s.workClaims) (hfree : s.blockers r = []) (expiresAt : Instant) :
    (s.promote r.claimId expiresAt).Sound := by
  refine ⟨h.wf.promote r.claimId expiresAt,
    h.fenced.of_grant h.wf (r.granted (s.lastFence + 1) expiresAt) rfl ?_ ?_⟩
  · intro q hq hacquired hid hoverlap
    exact absurd hacquired (not_acquired_of_blockers_eq_nil hfree hq hid hoverlap)
  · intro q' hq'
    rcases mem_update.1 hq' with ⟨q, hq, hid, rfl⟩ | ⟨hq, hid⟩
    · exact .inl (by rw [h.wf.eq_of_claimId hq hr hid])
    · exact .inr ⟨q', hq, hid, rfl, rfl, rfl, fun hacq => hacq⟩

theorem insert_waiting (hfresh : s.find? r.claimId = none) (hwaiting : r.status = .waiting)
    (htoken : r.fenceToken = none) : (s.insert r).Sound := by
  refine ⟨h.wf.insert hfresh (.inl ⟨hwaiting, htoken⟩), h.fenced.of_old ?_⟩
  intro q' hq' u hu
  rcases mem_insert.1 hq' with hq | rfl
  · exact ⟨q', hq, hu, rfl, fun hacq => hacq⟩
  · simp [htoken] at hu

/-- `handoff` moves the resources of a claim to a new one in one statement. -/
theorem handoff {new : Row} (hr : r ∈ s.workClaims) (hacquired : r.status = .acquired)
    (hfresh : s.find? new.claimId = none) (hstatus : new.status = .acquired)
    (htoken : new.fenceToken = some (s.lastFence + 1)) (hres : new.resources = r.resources)
    (current : Instant) :
    ({ s.close r.claimId .handedOff current with lastFence := s.lastFence + 1 }.insert new).Sound := by
  have hnonneg := h.wf.fence_nonneg
  have hclosed : (s.close r.claimId .handedOff current).WF := h.wf.close rfl current
  have hrange : ∀ q ∈ (s.close r.claimId .handedOff current).workClaims, ∀ t,
      q.fenceToken = some t → 0 < t ∧ t ≤ s.lastFence := hclosed.token_range
  have hbumped : WF { s.close r.claimId .handedOff current with lastFence := s.lastFence + 1 } := by
    refine ⟨hclosed.claimIds, hclosed.ordered, hclosed.seq_le, ?_, ?_, hclosed.token_unique,
      hclosed.waiting_token, hclosed.acquired_token⟩
    · show 0 ≤ s.lastFence + 1
      omega
    · intro q hq t ht
      have := hrange q hq t ht
      exact ⟨this.1, by show t ≤ s.lastFence + 1; omega⟩
  have hne := find?_eq_none.1 hfresh
  have hfresh' : ({ s.close r.claimId .handedOff current with
      lastFence := s.lastFence + 1 } : Registry).find? new.claimId = none := by
    rw [find?_eq_none]
    intro q hq
    rcases mem_update.1 hq with ⟨p, hp, -, rfl⟩ | ⟨hq, -⟩
    · exact hne p hp
    · exact hne q hq
  refine ⟨hbumped.insert hfresh' (.inr ⟨hstatus, htoken, by show 0 < s.lastFence + 1; omega, ?_⟩),
    h.fenced.of_grant h.wf (new.numbered (s.sqliteSequence + 1)) htoken ?_ ?_⟩
  · intro q hq ht
    have hle : s.lastFence + 1 ≤ s.lastFence := (hrange q hq _ ht).2
    omega
  · -- whatever overlaps the handed claim is that claim, which the statement closes
    intro q hq hqacq hqid hoverlap q' hq' hq'id hq'acq
    rw [Row.numbered_resources, hres] at hoverlap
    have hqr : q = r := by
      by_contra hne'
      have hid : q.claimId ≠ r.claimId := fun heq => hne' (h.wf.eq_of_claimId hq hr heq)
      rw [h.disjoint hq hr hqacq hacquired hid] at hoverlap
      cases hoverlap
    subst hqr
    rcases mem_insert.1 hq' with hq' | rfl
    · rcases mem_update.1 hq' with ⟨p, -, -, rfl⟩ | ⟨-, hne'⟩
      · simp at hq'acq
      · exact hne' hq'id
    · exact hne q hq hq'id.symm
  · intro q' hq'
    rcases mem_insert.1 hq' with hq' | rfl
    · rcases mem_update.1 hq' with ⟨p, hp, -, rfl⟩ | ⟨hq', -⟩
      · exact .inr ⟨p, hp, hne p hp, rfl, rfl, rfl, by simp⟩
      · exact .inr ⟨q', hq', hne q' hq', rfl, rfl, rfl, fun hacq => hacq⟩
    · exact .inl rfl

end Sound

end Registry

section
variable {s t : Registry} {kind : Str} {d : ClaimDecision} {extra : List (Str × Json)}

theorem Change.sound (h : Change s t kind d extra) (hs : s.Sound) : t.Sound := by
  cases h with
  | close hr hclosing => exact hs.close hclosing.isOpen_right _ _
  | promote hr hwaiting hfree => exact hs.promote hr hfree _
  | enqueue hfresh hwaiting htoken hblocked => exact hs.insert_waiting hfresh hwaiting htoken
  | @admitted r expiresAt hfresh hwaiting htoken hfree =>
    have hmem : r.numbered (s.sqliteSequence + 1) ∈ (s.insert r).workClaims :=
      Registry.mem_insert.2 (.inr rfl)
    exact (hs.insert_waiting hfresh hwaiting htoken).promote hmem (Registry.blockers_insert.trans hfree) _
  | handoff hr hacquired hfresh hstatus htoken hres =>
    exact hs.handoff hr hacquired hfresh hstatus htoken hres _
  | renew hr hopen => exact hs.touch _ _ _
  | reject hstatus => exact hs

theorem Change.grows (h : Change s t kind d extra) (hs : s.Sound) : Grows s t := by
  cases h with
  | @close r status _ _ current hr hclosing =>
    refine .update (fun _ => rfl) ?_
    intro q hq hid
    have hqr := hs.wf.eq_of_claimId hq hr hid
    subst hqr
    exact .closing q hclosing.isOpen_left hclosing.isOpen_right current
  | promote hr hwaiting hfree => exact .promote hs.wf hr hwaiting _
  | enqueue hfresh hwaiting htoken hblocked =>
    exact .insert (by simp [htoken]) s.lastFence (le_refl _)
  | @admitted r expiresAt hfresh hwaiting htoken hfree =>
    have hmem : r.numbered (s.sqliteSequence + 1) ∈ (s.insert r).workClaims :=
      Registry.mem_insert.2 (.inr rfl)
    have hinsert : Grows s (s.insert r) := .insert (by simp [htoken]) s.lastFence (le_refl _)
    exact hinsert.trans
      (.promote (hs.insert_waiting hfresh hwaiting htoken).wf hmem hwaiting expiresAt)
  | @handoff r new current note hr hacquired hfresh hstatus htoken hres =>
    have hclose : Grows s (s.close r.claimId .handedOff current) := by
      refine .update (fun _ => rfl) ?_
      intro q hq hid
      have hqr := hs.wf.eq_of_claimId hq hr hid
      subst hqr
      exact .closing q (by simp [hacquired, ClaimStatus.isOpen]) rfl current
    refine hclose.trans (.insert ?_ _ ?_)
    · intro t ht
      rw [htoken, Option.some.injEq] at ht
      show s.lastFence < t
      omega
    · show s.lastFence ≤ s.lastFence + 1
      omega
  | @renew r expiresAt ttlSeconds hr hopen =>
    refine .update (fun _ => rfl) ?_
    intro q hq hid
    have hqr := hs.wf.eq_of_claimId hq hr hid
    subst hqr
    exact .extending q hopen expiresAt ttlSeconds
  | reject hstatus => exact .refl s

end

section
variable [UnicodeData] {s s' : Registry}

theorem Step.sound (h : Step s s') (hs : s.Sound) : s'.Sound := by
  cases h with
  | logged hchange hlog =>
    obtain ⟨_, _, -, -, rfl⟩ := hlog
    exact (hchange.sound hs).withEvents _
  | extended hr hopen => exact hs.touch _ _ _

theorem Step.grows (h : Step s s') (hs : s.Sound) : Grows s s' := by
  cases h with
  | logged hchange hlog =>
    obtain ⟨_, _, -, -, rfl⟩ := hlog
    have hgrows := hchange.grows hs
    exact ⟨hgrows.evolves, hgrows.fence_le, hgrows.fresh⟩
  | extended hr hopen => exact (Change.renew hr hopen).grows hs

theorem Steps.sound (h : Steps s s') (hs : s.Sound) : s'.Sound := by
  induction h with
  | refl => exact hs
  | tail _ hstep ih => exact hstep.sound ih

theorem Steps.grows (h : Steps s s') (hs : s.Sound) : Grows s s' := by
  induction h with
  | refl => exact .refl s
  | tail hsteps hstep ih => exact ih.trans (hstep.grows (Steps.sound hsteps hs))

end

end IntegrityGuardian.WorkClaims
