import IntegrityGuardian.ActiveInquiry.Core

/-!
# Runs of an inquiry

Any sequence of calls, those that raise included, keeps the remaining worlds
equal to the ones the accepted facts leave, and the reservations within the
goal's bounds.
-/

namespace IntegrityGuardian.ActiveInquiry

open Python Library Library.Disagreement Library.Durable

/-- A call of one of the two methods. -/
inductive Call where
  | begin (gate : Option Inquiry.Gate) (expectedPlanDigest : Option Str)
  | receive (binding : List (Str × Json)) (stage : Str) (token : Option Str)

/-- The probe and the token of a recorded fact. -/
def Event.fact? : Event → Option (Str × Str)
  | .received .syntheticFact binding (some token) => some (binding.probeId, token)
  | _ => none

/-- The recorded facts. -/
def State.facts (s : State) : List (Str × Str) := s.events.filterMap Event.fact?

/-- The facts that narrowed the worlds: a fact that no remaining world predicts is recorded,
and ends the inquiry. -/
def State.acceptedFacts (s : State) : List (Str × Str) :=
  if s.terminal = some .modelMismatch then s.facts.dropLast else s.facts

namespace Inquiry

variable (q : Inquiry)

/-- What a call raises, if it does, and the state it leaves. -/
def perform (call : Call) (s : State) : Option Failure × State :=
  match call with
  | .begin gate expected =>
    match exec (q.beginSimulation gate expected) s with
    | (.ok _, t) => (none, t)
    | (.error e, t) => (some e, t)
  | .receive binding stage token =>
    match exec (q.receiveSimulation binding stage token) s with
    | (.ok _, t) => (none, t)
    | (.error e, t) => (some e, t)

/-- The state after some calls on a new inquiry. -/
def run (calls : List Call) : State := calls.foldl (fun s call => (q.perform call s).2) q.start

/-- A world predicts a fact. -/
def agrees (world : Str) (fact : Str × Str) : Prop :=
  ∀ probe ∈ q.probes, probe.probeId = fact.1 → probe.predict world = fact.2

instance (world : Str) (fact : Str × Str) : Decidable (q.agrees world fact) :=
  inferInstanceAs (Decidable (∀ probe ∈ q.probes, _))

/-! ## Plans -/

/-- What is known of a probe the plan may propose. -/
structure Eligible (s : State) (probe : Probe) : Prop where
  mem : probe ∈ q.probes
  fits : q.fits s probe = true
  gain : (disagreements q.answer s.remaining : Int) -
    confused q.answer s.remaining probe.predict ≠ 0

variable {q}
variable {s t : State} {gate : Option Gate}

variable {value : Bool} {excluded : List (Str × Str)} {length worst : Nat} {token : Option Str}
  {probe : Probe} {status : Status}

theorem quality_eq_ok {value : Nat × Int} (h : q.quality s probe = .ok value) :
    value.2 = q.pairs s.remaining - confused q.answer s.remaining probe.predict := by
  obtain ⟨-, h⟩ := ensure_bind_eq_ok.1 h
  cases h
  rfl

theorem gain_of_excludedReason (h : q.excludedReason s gate probe = .ok none) :
    (disagreements q.answer s.remaining : Int) -
      confused q.answer s.remaining probe.predict ≠ 0 := by
  unfold excludedReason at h
  split_ifs at h
  · cases h
  · cases h
  · cases h
  · obtain ⟨value, hvalue, h⟩ := bind_eq_ok.1 h
    have hgain := quality_eq_ok hvalue
    obtain ⟨worst, gain⟩ := value
    intro hzero
    have hgain : gain = 0 := hgain.trans hzero
    rw [hgain] at h
    cases h

theorem choose_eq_proposed
    (h : q.choose s gate = .ok (.proposed probe worst, excluded)) : q.Eligible s probe := by
  obtain ⟨reasons, hreasons, h⟩ := bind_eq_ok.1 h
  obtain ⟨keys, -, h⟩ := bind_eq_ok.1 h
  have hforall := mapM_eq_ok.1 hreasons
  split_ifs at h
  · cases h
  · split at h
    · cases h
    · rename_i selected key hargmin
      obtain ⟨value, -, h⟩ := bind_eq_ok.1 h
      cases h
      have hmem := List.argmin_mem (Option.mem_def.2 hargmin)
      have hcandidate := (List.of_mem_zip hmem).1
      rw [List.mem_filter, List.mem_map] at hcandidate
      obtain ⟨⟨⟨p, reason⟩, hconsidered, rfl⟩, hfits⟩ := hcandidate
      rw [List.mem_filter] at hconsidered
      have hnone : reason = none := Option.isNone_iff_eq_none.1 hconsidered.2
      subst hnone
      refine ⟨(List.of_mem_zip hconsidered.1).1, hfits, ?_⟩
      exact gain_of_excludedReason (List.forall₂_zip hforall hconsidered.1)

theorem decided_ne_proposed (value : Bool) (probe : Probe) (worst : Nat) :
    q.decided value ≠ .proposed probe worst := by
  unfold decided
  split_ifs
  · exact Status.noConfusion
  · exact Status.noConfusion

theorem status_eq_proposed (h : q.status s gate = .ok (.proposed probe worst, excluded)) :
    s.terminal = none ∧ s.pending = none ∧ q.Eligible s probe := by
  unfold status at h
  split at h
  · cases h
  · rename_i hterminal
    split_ifs at h with htask hpending htrue hfalse
    · cases h
    · rw [Except.ok.injEq, Prod.mk.injEq] at h
      exact absurd h.1 (decided_ne_proposed _ _ _)
    · rw [Except.ok.injEq, Prod.mk.injEq] at h
      exact absurd h.1 (decided_ne_proposed _ _ _)
    · refine ⟨hterminal, ?_, choose_eq_proposed h⟩
      rwa [Bool.not_eq_true, Option.isSome_eq_false_iff, Option.isNone_iff_eq_none] at hpending
    · cases h

theorem choose_ne_answered : q.choose s gate ≠ .ok (.answeredInModel value, excluded) := by
  intro h
  obtain ⟨reasons, -, h⟩ := bind_eq_ok.1 h
  obtain ⟨keys, -, h⟩ := bind_eq_ok.1 h
  split_ifs at h
  · cases h
  · split at h
    · cases h
    · obtain ⟨quality, -, h⟩ := bind_eq_ok.1 h
      cases h

theorem decided_eq_answered {value' : Bool} (h : q.decided value = .answeredInModel value') :
    value = value' := by
  unfold decided at h
  split_ifs at h
  exact Status.answeredInModel.inj h

theorem status_eq_answered (h : q.status s gate = .ok (.answeredInModel value, excluded)) :
    s.remaining.image q.answer = {value} := by
  unfold status at h
  split at h
  · cases h
  · split_ifs at h with htask hpending htrue hfalse
    · cases h
    · rw [Except.ok.injEq, Prod.mk.injEq] at h
      rw [htrue, decided_eq_answered h.1]
    · rw [Except.ok.injEq, Prod.mk.injEq] at h
      rw [hfalse, decided_eq_answered h.1]
    · exact absurd h choose_ne_answered
    · cases h

theorem plan_eq_ok {planDigest : Str} (h : q.plan s gate = .ok (status, planDigest)) :
    ∃ excluded, q.status s gate = .ok (status, excluded) := by
  obtain ⟨-, -, h⟩ := bind_eq_ok.1 h
  obtain ⟨⟨found, excluded⟩, hstatus, h⟩ := bind_eq_ok.1 h
  cases h
  exact ⟨excluded, hstatus⟩

/-! ## Calls -/

theorem probeId_inj {probe' : Probe} (h : probe ∈ q.probes) (h' : probe' ∈ q.probes)
    (hid : probe.probeId = probe'.probeId) : probe = probe' :=
  List.inj_on_of_nodup_map (q.probes_sorted.imp ne_of_lt) h h' hid

theorem probeNamed_eq_ok {probeId : Str} (h : q.probeNamed probeId = .ok probe) :
    probe ∈ q.probes ∧ probe.probeId = probeId := by
  unfold probeNamed at h
  split at h
  · rename_i found hfind
    cases h
    exact ⟨List.mem_of_find?_eq_some hfind, by simpa using List.find?_some hfind⟩
  · cases h

theorem proposedProbe_eq_ok (h : q.proposedProbe status = .ok probe) :
    ∃ selected worst, status = .proposed selected worst ∧ probe ∈ q.probes ∧
      probe.probeId = selected.probeId := by
  unfold proposedProbe at h
  split at h
  · exact ⟨_, _, rfl, probeNamed_eq_ok h⟩
  · cases h

/-- The state after a step has been reserved. -/
def begun (s : State) (probe : Probe) (binding : Reservation) : State :=
  { reserve s probe with
    pending := some binding
    events := s.events ++ [.start binding] }

theorem perform_begin (q : Inquiry) (s : State) (gate : Option Gate) (expected : Option Str) :
    (∃ e, q.perform (.begin gate expected) s = (some e, s)) ∨
      ∃ probe binding, q.Eligible s probe ∧ binding.probeId = probe.probeId ∧
        s.terminal = none ∧ s.pending = none ∧
        q.perform (.begin gate expected) s = (none, begun s probe binding) := by
  unfold perform beginSimulation
  simp only [exec_bind, exec_get, exec_lift]
  cases hplan : q.plan s gate with
  | error e => exact .inl ⟨e, rfl⟩
  | ok plan =>
    obtain ⟨status, planDigest⟩ := plan
    dsimp only
    cases checkExpected expected planDigest with
    | error e => exact .inl ⟨e, rfl⟩
    | ok _ =>
      cases hprobe : q.proposedProbe status with
      | error e => exact .inl ⟨e, rfl⟩
      | ok probe =>
        refine .inr ⟨probe, q.reservation probe planDigest (s.steps + 1), ?_⟩
        obtain ⟨selected, worst, rfl, hmem, hid⟩ := proposedProbe_eq_ok hprobe
        obtain ⟨excluded, hstatus⟩ := plan_eq_ok hplan
        obtain ⟨hterminal, hpending, heligible⟩ := status_eq_proposed hstatus
        have hsame : probe = selected := probeId_inj hmem heligible.mem hid
        subst hsame
        exact ⟨heligible, rfl, hterminal, hpending, rfl⟩

/-- A received stage is settled for the open attempt, or the call raises and leaves the
state. -/
theorem perform_receive (q : Inquiry) (s : State) (binding : List (Str × Json)) (stage : Str)
    (token : Option Str) :
    (∃ e, q.perform (.receive binding stage token) s = (some e, s)) ∨
      ∃ pending probe named length, s.terminal = none ∧ s.pending = some pending ∧
        probe ∈ q.probes ∧ probe.probeId = pending.probeId ∧
        tokenLength named token = .ok length ∧
        q.perform (.receive binding stage token) s =
          (none, settle s pending probe named token length) := by
  unfold perform receiveSimulation
  simp only [exec_bind, exec_get, exec_lift]
  cases hopen : openAttempt s with
  | error e => exact .inl ⟨e, rfl⟩
  | ok pending =>
    dsimp only
    cases ensure (canonical (.obj binding) = canonical (.obj pending.binding))
        (valueError "exact operation/context/contract binding mismatch") with
    | error e => exact .inl ⟨e, rfl⟩
    | ok _ =>
      cases checkStage stage token with
      | error e => exact .inl ⟨e, rfl⟩
      | ok named =>
        dsimp only
        cases hprobe : q.probeNamed pending.probeId with
        | error e => exact .inl ⟨e, rfl⟩
        | ok probe =>
          cases hlength : tokenLength named token with
          | error e => exact .inl ⟨e, rfl⟩
          | ok length =>
            refine .inr ⟨pending, probe, named, length, ?_⟩
            obtain ⟨hmem, hid⟩ := probeNamed_eq_ok hprobe
            unfold openAttempt at hopen
            split at hopen
            · rename_i hterminal hpending
              cases hopen
              exact ⟨hterminal, hpending, hmem, hid, hlength, rfl⟩
            · cases hopen

/-! ## What a call keeps -/

/-- Nothing that the worlds and the budgets depend on has changed. -/
structure Kept (s t : State) : Prop where
  remaining : t.remaining = s.remaining
  steps : t.steps = s.steps
  cost : t.cost = s.cost
  reservedMs : t.reservedMs = s.reservedMs
  reservedBytes : t.reservedBytes = s.reservedBytes
  pending : t.pending = s.pending
  acceptedFacts : t.acceptedFacts = s.acceptedFacts

theorem acceptedFacts_of_open {s : State} (h : s.terminal = none) : s.acceptedFacts = s.facts := by
  rw [State.acceptedFacts, h, if_neg (by decide)]

theorem token_of_tokenLength
    (h : tokenLength .syntheticFact token = .ok length) : ∃ text, token = some text := by
  cases token with
  | none => cases h
  | some text => exact ⟨text, rfl⟩

theorem kept_of_event (hopen : s.terminal = none) {terminal : Option Terminal}
    {event : Event} (hfact : event.fact? = none) (hterminal : terminal ≠ some .modelMismatch) :
    Kept s { s with terminal := terminal, events := s.events ++ [event] } := by
  refine ⟨rfl, rfl, rfl, rfl, rfl, rfl, ?_⟩
  rw [acceptedFacts_of_open hopen, State.acceptedFacts, if_neg hterminal, State.facts,
    List.filterMap_append, List.filterMap_cons_none hfact, List.filterMap_nil, List.append_nil]
  rfl

theorem kept_of_terminal (hopen : s.terminal = none) {terminal : Terminal}
    (hterminal : terminal ≠ .modelMismatch) : Kept s { s with terminal := some terminal } := by
  refine ⟨rfl, rfl, rfl, rfl, rfl, rfl, ?_⟩
  rw [acceptedFacts_of_open hopen, State.acceptedFacts, if_neg (by simpa using hterminal)]
  rfl

theorem kept_of_mismatch (hopen : s.terminal = none) (pending : Reservation) (text : Str) :
    Kept s { s with
      terminal := some .modelMismatch
      events := s.events ++ [.received .syntheticFact pending (some text)] } := by
  refine ⟨rfl, rfl, rfl, rfl, rfl, rfl, ?_⟩
  rw [acceptedFacts_of_open hopen, State.acceptedFacts, if_pos rfl, State.facts,
    List.filterMap_append]
  exact List.dropLast_concat

theorem settle_cases (pending : Reservation) (probe : Probe) {named : Stage}
    (hopen : s.terminal = none) (hlength : tokenLength named token = .ok length) :
    Kept s (settle s pending probe named token length) ∨
      ∃ text, (narrowed s probe text).Nonempty ∧
        settle s pending probe named token length =
          { s with
            events := s.events ++ [.received .syntheticFact pending (some text)]
            used := insert probe.probeId s.used
            remaining := narrowed s probe text
            pending := none } := by
  have hnotMismatch : s.terminal ≠ some .modelMismatch := by
    rw [hopen]
    decide
  unfold settle
  split_ifs with hresponse hevents
  · exact .inl (kept_of_terminal hopen (by decide))
  · exact .inl (kept_of_terminal hopen (by decide))
  · cases named with
    | ack => exact .inl (kept_of_event hopen rfl hnotMismatch)
    | ready => exact .inl (kept_of_event hopen rfl hnotMismatch)
    | completed => exact .inl (kept_of_event hopen rfl hnotMismatch)
    | unknown => exact .inl (kept_of_event hopen rfl (by decide))
    | syntheticFact =>
      obtain ⟨text, rfl⟩ := token_of_tokenLength hlength
      dsimp only [Option.getD_some]
      split_ifs with hempty
      · exact .inl (kept_of_mismatch hopen pending text)
      · exact .inr ⟨text, Finset.nonempty_iff_ne_empty.2 hempty, rfl⟩

/-! ## The invariant -/

variable (q) in
/-- What holds after every call. -/
structure Sound (s : State) : Prop where
  nonempty : s.remaining.Nonempty
  agree : ∀ world, world ∈ s.remaining ↔
    world ∈ q.worlds ∧ ∀ fact ∈ s.acceptedFacts, q.agrees world fact
  steps_le : s.steps ≤ q.goal.maxSteps
  cost_le : s.cost ≤ q.goal.maxCost
  reservedMs_le : s.reservedMs ≤ q.goal.maxDurationMs
  reservedBytes_le : s.reservedBytes ≤ q.goal.maxOutputBytes
  gain : ∀ binding, s.pending = some binding → ∀ probe ∈ q.probes,
    probe.probeId = binding.probeId →
    (disagreements q.answer s.remaining : Int) - confused q.answer s.remaining probe.predict ≠ 0

theorem sound_start : q.Sound q.start where
  nonempty := by
    obtain ⟨item, hitem⟩ := List.exists_mem_of_length_pos q.answers_length.1
    exact ⟨item.1, List.mem_toFinset.2 (List.mem_map_of_mem hitem)⟩
  agree := by
    intro world
    constructor
    · intro hworld
      exact ⟨hworld, fun fact hfact => absurd hfact List.not_mem_nil⟩
    · intro hworld
      exact hworld.1
  steps_le := Nat.zero_le _
  cost_le := Nat.zero_le _
  reservedMs_le := Nat.zero_le _
  reservedBytes_le := Nat.zero_le _
  gain := by
    intro binding hbinding
    cases hbinding

theorem sound_of_kept (h : q.Sound s) (hkept : Kept s t) : q.Sound t where
  nonempty := by
    rw [hkept.remaining]
    exact h.nonempty
  agree := by
    rw [hkept.remaining, hkept.acceptedFacts]
    exact h.agree
  steps_le := hkept.steps.le.trans h.steps_le
  cost_le := hkept.cost.le.trans h.cost_le
  reservedMs_le := hkept.reservedMs.le.trans h.reservedMs_le
  reservedBytes_le := hkept.reservedBytes.le.trans h.reservedBytes_le
  gain := by
    rw [hkept.remaining, hkept.pending]
    exact h.gain

theorem begun_acceptedFacts (probe : Probe) (binding : Reservation) (h : s.terminal = none) :
    (begun s probe binding).acceptedFacts = s.acceptedFacts := by
  have hafter : (begun s probe binding).terminal = none := h
  rw [acceptedFacts_of_open hafter, acceptedFacts_of_open h, State.facts, begun,
    List.filterMap_append, List.filterMap_cons_none rfl, List.filterMap_nil, List.append_nil]
  rfl

variable {probe : Probe}

theorem sound_begun (h : q.Sound s) {binding : Reservation}
    (heligible : q.Eligible s probe) (hid : binding.probeId = probe.probeId)
    (hopen : s.terminal = none) : q.Sound (begun s probe binding) := by
  have hfits := heligible.fits
  simp only [fits, Bool.and_eq_true, decide_eq_true_eq] at hfits
  refine ⟨h.nonempty, ?_, hfits.1.1.1, hfits.1.1.2, hfits.1.2, hfits.2, ?_⟩
  · rw [begun_acceptedFacts _ _ hopen]
    exact h.agree
  · intro pending hpending other hother hname
    cases hpending
    rw [probeId_inj hother heligible.mem (hname.trans hid)]
    exact heligible.gain

theorem sound_narrowed (h : q.Sound s) {pending : Reservation} {text : Str}
    (hmem : probe ∈ q.probes) (hid : probe.probeId = pending.probeId) (hopen : s.terminal = none)
    (hworlds : (narrowed s probe text).Nonempty) {u : Finset Str} (ht : t = { s with
      events := s.events ++ [.received .syntheticFact pending (some text)]
      used := u
      remaining := narrowed s probe text
      pending := none }) :
    q.Sound t ∧ t.acceptedFacts = s.acceptedFacts ++ [(pending.probeId, text)] := by
  have hfacts : t.acceptedFacts = s.acceptedFacts ++ [(pending.probeId, text)] := by
    have hafter : t.terminal = none := by rw [ht, hopen]
    rw [acceptedFacts_of_open hopen, acceptedFacts_of_open hafter, State.facts, ht,
      List.filterMap_append]
    rfl
  refine ⟨?_, hfacts⟩
  have hremaining : t.remaining = narrowed s probe text := by rw [ht]
  refine ⟨?_, ?_, ?_, ?_, ?_, ?_, ?_⟩
  · rw [hremaining]
    exact hworlds
  · intro world
    rw [hfacts, hremaining, narrowed, fibre, Finset.mem_filter, h.agree world,
      List.forall_mem_append, List.forall_mem_singleton, and_assoc]
    have hlast : q.agrees world (pending.probeId, text) ↔ probe.predict world = text := by
      constructor
      · intro hagrees
        exact hagrees probe hmem hid
      · intro hpredict other hother hname
        rw [probeId_inj hother hmem (hname.trans hid.symm)]
        exact hpredict
    rw [hlast]
  · rw [ht]
    exact h.steps_le
  · rw [ht]
    exact h.cost_le
  · rw [ht]
    exact h.reservedMs_le
  · rw [ht]
    exact h.reservedBytes_le
  · intro binding hbinding
    rw [ht] at hbinding
    cases hbinding

theorem perform_sound (h : q.Sound s) (call : Call) :
    q.Sound (q.perform call s).2 ∧
      ((q.perform call s).2.acceptedFacts = s.acceptedFacts ∨
        q.pairs (q.perform call s).2.remaining < q.pairs s.remaining) := by
  cases call with
  | begin gate expected =>
    rcases perform_begin q s gate expected with ⟨e, heq⟩ | ⟨probe, binding, heligible, hid,
      hopen, -, heq⟩
    · rw [heq]
      exact ⟨h, .inl rfl⟩
    · rw [heq]
      exact ⟨sound_begun h heligible hid hopen, .inl (begun_acceptedFacts _ _ hopen)⟩
  | receive binding stage token =>
    rcases perform_receive q s binding stage token with ⟨e, heq⟩ | ⟨pending, probe, named, length,
      hopen, hpending, hmem, hid, hlength, heq⟩
    · rw [heq]
      exact ⟨h, .inl rfl⟩
    · rw [heq]
      rcases settle_cases pending probe hopen hlength with hkept |
        ⟨text, hworlds, hsettled⟩
      · exact ⟨sound_of_kept h hkept, .inl hkept.acceptedFacts⟩
      · refine ⟨(sound_narrowed h hmem hid hopen hworlds hsettled).1, .inr ?_⟩
        show q.pairs (settle s pending probe named token length).remaining < _
        rw [hsettled]
        obtain ⟨world, hworld⟩ := hworlds
        rw [narrowed, fibre, Finset.mem_filter] at hworld
        apply disagreements_fibre_lt
        · rw [← hworld.2]
          exact Finset.mem_image_of_mem _ hworld.1
        · exact h.gain pending hpending probe hmem hid

theorem perform_raises (call : Call) {e : Failure} (h : (q.perform call s).1 = some e) :
    (q.perform call s).2 = s := by
  cases call with
  | begin gate expected =>
    rcases perform_begin q s gate expected with ⟨e, heq⟩ | ⟨probe, binding, -, -, -, -, heq⟩
    · rw [heq]
    · rw [heq] at h
      cases h
  | receive binding stage token =>
    rcases perform_receive q s binding stage token with ⟨e, heq⟩ | ⟨pending, probe, named, length,
      -, -, -, -, -, heq⟩
    · rw [heq]
    · rw [heq] at h
      cases h

theorem sound_run (q : Inquiry) (calls : List Call) : q.Sound (q.run calls) := by
  unfold run
  induction calls using List.reverseRecOn with
  | nil => exact sound_start
  | append_singleton calls call ih =>
    rw [List.foldl_append]
    exact (perform_sound ih call).1

/-! ## Every run -/

theorem acceptedFacts_subset (s : State) : s.acceptedFacts ⊆ s.facts := by
  unfold State.acceptedFacts
  split_ifs
  · exact List.dropLast_subset _
  · exact List.Subset.refl _

/-- The remaining worlds are those the accepted facts leave, reservations stay within the
goal, accepted facts make progress, and the world that predicts what was recorded is kept. -/
theorem inquiry_runs_sound (q : Inquiry) (calls : List Call) :
    (q.run calls).remaining.Nonempty ∧
    (∀ world, world ∈ (q.run calls).remaining ↔
      world ∈ q.worlds ∧ ∀ fact ∈ (q.run calls).acceptedFacts, q.agrees world fact) ∧
    ((q.run calls).steps ≤ q.goal.maxSteps ∧ (q.run calls).cost ≤ q.goal.maxCost ∧
      (q.run calls).reservedMs ≤ q.goal.maxDurationMs ∧
      (q.run calls).reservedBytes ≤ q.goal.maxOutputBytes) ∧
    (∀ call, (q.perform call (q.run calls)).2.acceptedFacts ≠ (q.run calls).acceptedFacts →
      q.pairs (q.perform call (q.run calls)).2.remaining < q.pairs (q.run calls).remaining) ∧
    (∀ world ∈ q.worlds, (∀ fact ∈ (q.run calls).facts, q.agrees world fact) →
      world ∈ (q.run calls).remaining ∧
      ∀ gate value planDigest, q.plan (q.run calls) gate = .ok (.answeredInModel value, planDigest) →
        value = q.answer world) ∧
    ∀ call e, (q.perform call (q.run calls)).1 = some e →
      (q.perform call (q.run calls)).2 = q.run calls := by
  have h := sound_run q calls
  refine ⟨h.nonempty, h.agree, ⟨h.steps_le, h.cost_le, h.reservedMs_le, h.reservedBytes_le⟩, ?_, ?_,
    ?_⟩
  · intro call hnew
    exact (perform_sound h call).2.resolve_left hnew
  · intro world hworld hfacts
    have hremains : world ∈ (q.run calls).remaining := (h.agree world).2
      ⟨hworld, fun fact hfact => hfacts fact (acceptedFacts_subset _ hfact)⟩
    refine ⟨hremains, ?_⟩
    intro gate value planDigest hplan
    obtain ⟨excluded, hstatus⟩ := plan_eq_ok hplan
    have himage := Finset.mem_image_of_mem q.answer hremains
    rw [status_eq_answered hstatus, Finset.mem_singleton] at himage
    exact himage.symm
  · intro call e hraises
    exact perform_raises call hraises

/-! ## A fact outside the model -/

theorem probeNamed_of_mem (h : probe ∈ q.probes) : q.probeNamed probe.probeId = .ok probe := by
  unfold probeNamed
  cases hfind : q.probes.find? fun other => other.probeId = probe.probeId with
  | none =>
    rw [List.find?_eq_none] at hfind
    exact absurd (decide_eq_true rfl) (hfind probe h)
  | some found =>
    have hid := List.find?_some hfind
    rw [decide_eq_true_eq] at hid
    rw [probeId_inj (List.mem_of_find?_eq_some hfind) h hid]

theorem perform_begin_of_status {worst : Nat} {excluded : List (Str × Str)}
    (h : q.status s none = .ok (.proposed probe worst, excluded)) :
    ∃ binding, binding.probeId = probe.probeId ∧
      q.perform (.begin none none) s = (none, begun s probe binding) := by
  have hplan : q.plan s none =
      .ok (.proposed probe worst, digest (q.planDocument s (.proposed probe worst) excluded)) := by
    unfold plan
    rw [checkGate, ok_bind, h, ok_bind]
  have hprobe : q.proposedProbe (.proposed probe worst) = .ok probe :=
    probeNamed_of_mem (status_eq_proposed h).2.2.mem
  refine ⟨q.reservation probe (digest (q.planDocument s (.proposed probe worst) excluded))
    (s.steps + 1), rfl, ?_⟩
  unfold perform beginSimulation
  simp only [exec_bind, exec_get, exec_lift, hplan, checkExpected, hprobe]
  rfl

/-- A goal with the least bounds. -/
def sampleGoal : Goal where
  goalId := str "g"
  tenantId := str "t"
  subject := str "s"
  environment := str "e"
  revision := str "r"
  predicateId := str "p"
  contextDigest := Ledger.hashText (List.replicate 32 0)
  requiredBasis := .synthetic
  maxSteps := 8
  maxCost := 16
  maxDurationMs := 30000
  maxOutputBytes := 4096
  identifiers := by decide
  context := by decide
  maxSteps_mem := by decide
  maxCost_mem := by decide
  maxDurationMs_mem := by decide
  maxOutputBytes_mem := by decide

/-- A probe that tells two worlds apart. -/
def sampleProbe : Probe where
  probeId := str "p"
  edgeId := str "e"
  capabilityId := str "c"
  manifestDigest := Ledger.hashText (List.replicate 32 0)
  operationDigest := Ledger.hashText (List.replicate 32 0)
  responseSchemaDigest := Ledger.hashText (List.replicate 32 0)
  predictions := [(str "a", str "x"), (str "b", str "y")]
  cost := 1
  timeoutMs := 100
  maxOutputBytes := 32
  safetyRank := [0, 0, 0, 0]
  availability := .available
  identifiers := by decide
  checksums := by decide
  cost_mem := by decide
  timeoutMs_mem := by decide
  maxOutputBytes_mem := by decide
  safetyRank_length := rfl
  safetyRank_mem := by decide
  predictions_length := by decide
  predictions_sorted := by decide
  predictions_valid := by decide

/-- Two worlds with opposite answers. -/
def sampleInquiry : Inquiry where
  goal := sampleGoal
  answers := [(str "a", true), (str "b", false)]
  probes := [sampleProbe]
  sessionId := str "s"
  taskAllowed := true
  answers_length := by decide
  probes_length := by decide
  worlds_valid := by decide
  answers_sorted := by decide
  probes_sorted := by decide
  covers := by decide
  session_valid := by decide

theorem sampleInquiry_proposes :
    ∃ worst excluded, sampleInquiry.status sampleInquiry.start none =
      .ok (.proposed sampleProbe worst, excluded) :=
  ⟨_, _, rfl⟩

/-- The state after the fact `z`, which neither world predicts. -/
def mismatched (binding : Reservation) : State :=
  { begun sampleInquiry.start sampleProbe binding with
    terminal := some .modelMismatch
    events := [.start binding, .received .syntheticFact binding (some (str "z"))] }

theorem perform_mismatch (binding : Reservation) (hid : binding.probeId = sampleProbe.probeId) :
    (sampleInquiry.perform (.receive binding.binding (str "synthetic-fact") (some (str "z")))
        (begun sampleInquiry.start sampleProbe binding)).2 = mismatched binding := by
  have hstage : checkStage (str "synthetic-fact") (some (str "z")) = .ok .syntheticFact := by
    decide
  have hprobe : sampleInquiry.probeNamed binding.probeId = .ok sampleProbe := by
    rw [hid]
    exact probeNamed_of_mem List.mem_cons_self
  have hlength : tokenLength .syntheticFact (some (str "z")) = .ok 1 := by decide
  have hworlds : narrowed (begun sampleInquiry.start sampleProbe binding) sampleProbe (str "z") =
      ∅ := by
    show narrowed sampleInquiry.start sampleProbe (str "z") = ∅
    decide
  unfold perform receiveSimulation
  simp only [exec_bind, exec_get, exec_lift]
  have hopen : openAttempt (begun sampleInquiry.start sampleProbe binding) = .ok binding := rfl
  simp only [hopen, ensure_of, hstage, hprobe, hlength, exec_set]
  simp only [settle, hworlds, Option.getD_some, if_true]
  rfl

/-- A fact outside the model stays recorded, and no world agrees with it. -/
theorem mismatched_fact_stays_recorded :
    ¬∀ (q : Inquiry) (calls : List Call) (world : Str), world ∈ (q.run calls).remaining ↔
      world ∈ q.worlds ∧ ∀ fact ∈ (q.run calls).facts, q.agrees world fact := by
  intro hclaim
  obtain ⟨worst, excluded, hstatus⟩ := sampleInquiry_proposes
  obtain ⟨binding, hid, hbegin⟩ := perform_begin_of_status hstatus
  have hrun : sampleInquiry.run [.begin none none,
      .receive binding.binding (str "synthetic-fact") (some (str "z"))] = mismatched binding := by
    rw [run, List.foldl_cons, hbegin, List.foldl_cons, perform_mismatch binding hid]
    rfl
  have hworld := hclaim sampleInquiry [.begin none none,
    .receive binding.binding (str "synthetic-fact") (some (str "z"))] (str "a")
  rw [hrun] at hworld
  have hremains : str "a" ∈ sampleInquiry.worlds := by decide
  have hfact : (binding.probeId, str "z") ∈ (mismatched binding).facts := List.mem_cons_self
  have hagrees : sampleProbe.predict (str "a") = str "z" :=
    (hworld.1 hremains).2 _ hfact sampleProbe List.mem_cons_self hid.symm
  exact absurd hagrees (by decide)

end Inquiry

end IntegrityGuardian.ActiveInquiry
