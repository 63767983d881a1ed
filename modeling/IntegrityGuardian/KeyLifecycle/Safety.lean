import IntegrityGuardian.KeyLifecycle.Transitions
import Mathlib.Data.Finset.Disjoint
import Mathlib.Data.List.Chain

/-!
# The safety of a key lifecycle

What one transition can do is said once, and every guarantee is read off it: a key
that was in use is never in use again, and a lifecycle without a key can recover.
-/

namespace IntegrityGuardian.KeyLifecycle

open Python Library

/-! ## One transition -/

/-- What a transition does to the keys, once its document is accepted. -/
inductive Step (s : KeyLifecycleState) : KeyLifecycleState → Prop
  | enrolled {t : KeyLifecycleState} {record : KeyRecord} (hsequence : t.sequence = s.sequence + 1)
      (hinactive : s.active = none) (hfresh : ¬Reused s (some record))
      (hactive : t.active = some record) (hretired : t.retiredKeyIds = s.retiredKeyIds)
      (hrevoked : t.revokedKeyIds = s.revokedKeyIds) : Step s t
  | rotated {t : KeyLifecycleState} {old record : KeyRecord}
      (hsequence : t.sequence = s.sequence + 1)
      (hold : s.active = some old) (hfresh : ¬Reused s (some record))
      (hactive : t.active = some record)
      (hretired : t.retiredKeyIds = insert old.keyId s.retiredKeyIds)
      (hrevoked : t.revokedKeyIds = s.revokedKeyIds) : Step s t
  | revoked {t : KeyLifecycleState} {old : KeyRecord} (hsequence : t.sequence = s.sequence + 1)
      (hold : s.active = some old) (hactive : t.active = none)
      (hretired : t.retiredKeyIds = s.retiredKeyIds)
      (hrevoked : t.revokedKeyIds = insert old.keyId s.revokedKeyIds) : Step s t

theorem successor_ne_null {document : Json} {operation : Str}
    (h : Schemas.keyTransition.accepts document = true)
    (hop : document.textItem (str "operation") = .ok operation)
    (hkind : operation = str "enroll" ∨ operation = str "recover") :
    (∀ w, document.get? (str "predecessor_key_id") = some w → w = .null) ∧
      document.item (str "successor") ≠ .ok .null := by
  have hcarries := Schemas.carries_of_accepts
    (Schema.accepts_keywords h (List.mem_cons_of_mem _ List.mem_cons_self))
    (Json.textItem_eq_ok.1 hop)
    (by rcases hkind with rfl | rfl <;> simp [Schema.enum])
  constructor
  · intro w hw
    have hnull := hcarries.1 w hw
    cases w <;> simp [Schema.ofType, JsonType.of] at hnull ⊢
  · intro hnull
    have hkey := hcarries.2 .null (Json.item_eq_ok.1 hnull)
    simp [Schemas.transitionKey, Schema.closed] at hkey

section
variable [Ed25519Import]

variable {document : Json}

theorem successorRecord_ne_none {successor : Option KeyRecord}
    (h : successorRecord document = .ok successor)
    (hne : document.item (str "successor") ≠ .ok .null) : ∃ record, successor = some record := by
  unfold successorRecord raising at h
  obtain ⟨value, hvalue, h⟩ := bind_eq_ok.1 h
  rw [mapError_eq_ok] at hvalue
  split at h
  · rename_i hnull
    exact absurd (hnull ▸ hvalue) hne
  · obtain ⟨_, _, h⟩ := bind_eq_ok.1 h
    obtain ⟨_, _, h⟩ := bind_eq_ok.1 h
    obtain ⟨_, _, h⟩ := bind_eq_ok.1 h
    obtain ⟨_, _, h⟩ := bind_eq_ok.1 h
    obtain ⟨_, _, h⟩ := bind_eq_ok.1 h
    obtain ⟨_, _, h⟩ := bind_eq_ok.1 h
    obtain ⟨_, _, h⟩ := bind_eq_ok.1 h
    obtain ⟨_, _, h⟩ := bind_eq_ok.1 h
    obtain ⟨_, _, h⟩ := bind_eq_ok.1 h
    obtain ⟨-, h⟩ := ensure_bind_eq_ok.1 h
    exact ⟨_, (Except.ok.inj h).symm⟩

/-- An accepted document is one of these steps. -/
theorem step_of_apply {s t : KeyLifecycleState} {authorityKey : TrustedKey}
    (h : applyKeyTransition s document authorityKey = .ok t) : Step s t := by
  unfold applyKeyTransition raising at h
  obtain ⟨haccepts, h⟩ := ensure_bind_eq_ok.1 h
  obtain ⟨⟨⟩, -, h⟩ := bind_eq_ok.1 h
  obtain ⟨_, -, h⟩ := bind_eq_ok.1 h
  obtain ⟨-, h⟩ := ensure_bind_eq_ok.1 h
  obtain ⟨_, -, h⟩ := bind_eq_ok.1 h
  obtain ⟨-, h⟩ := ensure_bind_eq_ok.1 h
  obtain ⟨sequence, -, h⟩ := bind_eq_ok.1 h
  obtain ⟨hsequence, h⟩ := ensure_bind_eq_ok.1 h
  obtain ⟨operation, hop, h⟩ := bind_eq_ok.1 h
  obtain ⟨predecessor, -, h⟩ := bind_eq_ok.1 h
  obtain ⟨successor, hsuccessor, h⟩ := bind_eq_ok.1 h
  obtain ⟨hfresh, h⟩ := ensure_bind_eq_ok.1 h
  obtain ⟨changed, hchange, h⟩ := bind_eq_ok.1 h
  have ht := (Except.ok.inj h).symm
  rw [mapError_eq_ok] at hop
  unfold change at hchange
  split_ifs at hchange with henroll hrotate hrevoke hrecover
  · obtain ⟨⟨-, hinactive, -⟩, hchange⟩ := ensure_bind_eq_ok.1 hchange
    obtain ⟨record, rfl⟩ := successorRecord_ne_none hsuccessor
      (successor_ne_null haccepts hop (.inl henroll)).2
    cases hchange
    subst ht
    exact .enrolled hsequence hinactive hfresh rfl rfl rfl
  · cases hactive : s.active with
    | none => simp [hactive] at hchange
    | some old =>
      cases successor with
      | none => simp [hactive] at hchange
      | some record =>
        simp only [hactive] at hchange
        obtain ⟨-, hchange⟩ := ensure_bind_eq_ok.1 hchange
        cases hchange
        subst ht
        exact .rotated hsequence hactive hfresh rfl rfl rfl
  · cases hactive : s.active with
    | none => simp [hactive] at hchange
    | some old =>
      simp only [hactive] at hchange
      obtain ⟨-, hchange⟩ := ensure_bind_eq_ok.1 hchange
      cases hchange
      subst ht
      exact .revoked hsequence hactive rfl rfl rfl
  · obtain ⟨⟨-, hinactive, -, -, hsome⟩, hchange⟩ := ensure_bind_eq_ok.1 hchange
    obtain ⟨record, rfl⟩ := Option.ne_none_iff_exists'.1 hsome
    cases hchange
    subst ht
    exact .enrolled hsequence hinactive hfresh rfl rfl rfl

end

/-! ## What a step preserves -/

/-- What holds of every state of a lifecycle. -/
structure Safe (s : KeyLifecycleState) : Prop where
  disjoint : Disjoint s.retiredKeyIds s.revokedKeyIds
  active : ∀ record, s.active = some record →
    record.keyId ∉ s.retiredKeyIds ∧ record.keyId ∉ s.revokedKeyIds
  inactive : 0 ≤ s.sequence → s.active = none → s.revokedKeyIds.Nonempty

theorem safe_empty (tenantId : TenantId) (purpose : Str) :
    Safe (.empty tenantId purpose) := by
  constructor
  · exact Finset.disjoint_empty_left _
  · intro record hactive
    cases hactive
  · intro hsequence
    cases hsequence

variable {s t : KeyLifecycleState}

theorem Step.sequence (h : Step s t) : t.sequence = s.sequence + 1 := by
  cases h <;> assumption

theorem Step.safe (h : Step s t) (hs : Safe s) : Safe t := by
  cases h with
  | enrolled _ _ hfresh hactive hretired hrevoked =>
    simp only [Reused, not_or] at hfresh
    constructor
    · rw [hretired, hrevoked]
      exact hs.disjoint
    · intro record hrecord
      rw [hactive, Option.some.injEq] at hrecord
      rw [hretired, hrevoked, ← hrecord]
      exact ⟨hfresh.1, hfresh.2.1⟩
    · intro _ hinactive
      rw [hactive] at hinactive
      cases hinactive
  | rotated _ hold hfresh hactive hretired hrevoked =>
    simp only [Reused, not_or, hold, Option.map_some, Option.some.injEq] at hfresh
    constructor
    · rw [hretired, hrevoked, Finset.disjoint_insert_left]
      exact ⟨(hs.active _ hold).2, hs.disjoint⟩
    · intro record hrecord
      rw [hactive, Option.some.injEq] at hrecord
      rw [hretired, hrevoked, ← hrecord, Finset.mem_insert, not_or]
      exact ⟨⟨fun heq => hfresh.2.2 heq.symm, hfresh.1⟩, hfresh.2.1⟩
    · intro _ hinactive
      rw [hactive] at hinactive
      cases hinactive
  | revoked _ hold hactive hretired hrevoked =>
    constructor
    · rw [hretired, hrevoked, Finset.disjoint_insert_right]
      exact ⟨(hs.active _ hold).1, hs.disjoint⟩
    · intro record hrecord
      rw [hactive] at hrecord
      cases hrecord
    · intro _ _
      rw [hrevoked]
      exact Finset.insert_nonempty _ _

/-- The identity was in use at some time. -/
def Used (s : KeyLifecycleState) (keyId : Str) : Prop :=
  keyId ∈ s.retiredKeyIds ∨ keyId ∈ s.revokedKeyIds ∨
    s.active.map KeyRecord.keyId = some keyId

/-- A later state of the same lifecycle. -/
structure Later (s t : KeyLifecycleState) : Prop where
  retired : s.retiredKeyIds ⊆ t.retiredKeyIds
  revoked : s.revokedKeyIds ⊆ t.revokedKeyIds
  used : ∀ keyId, Used s keyId → Used t keyId
  fresh : ∀ record, t.active = some record → ¬Used s record.keyId

theorem Later.trans {u : KeyLifecycleState} (hst : Later s t) (htu : Later t u) : Later s u where
  retired := hst.retired.trans htu.retired
  revoked := hst.revoked.trans htu.revoked
  used keyId h := htu.used keyId (hst.used keyId h)
  fresh record hactive h := htu.fresh record hactive (hst.used _ h)

theorem Step.later {s t : KeyLifecycleState} (h : Step s t) : Later s t := by
  cases h with
  | enrolled _ hinactive hfresh hactive hretired hrevoked =>
    refine ⟨hretired.ge, hrevoked.ge, ?_, ?_⟩
    · intro keyId hused
      unfold Used at hused ⊢
      rw [hinactive] at hused
      rw [hretired, hrevoked]
      have hgone : Option.map KeyRecord.keyId none ≠ some keyId := by simp
      exact hused.imp_right fun h => .inl (h.resolve_right hgone)
    · intro record hrecord
      rw [hactive, Option.some.injEq] at hrecord
      exact hrecord ▸ hfresh
  | rotated _ hold hfresh hactive hretired hrevoked =>
    refine ⟨hretired ▸ Finset.subset_insert _ _, hrevoked.ge, ?_, ?_⟩
    · intro keyId hused
      unfold Used at hused ⊢
      rw [hold, Option.map_some, Option.some.injEq] at hused
      rw [hretired, hrevoked, Finset.mem_insert]
      grind
    · intro record hrecord
      rw [hactive, Option.some.injEq] at hrecord
      exact hrecord ▸ hfresh
  | revoked _ hold hactive hretired hrevoked =>
    refine ⟨hretired.ge, hrevoked ▸ Finset.subset_insert _ _, ?_, ?_⟩
    · intro keyId hused
      unfold Used at hused ⊢
      rw [hold, Option.map_some, Option.some.injEq] at hused
      rw [hretired, hrevoked, Finset.mem_insert]
      grind
    · intro record hrecord
      rw [hactive] at hrecord
      cases hrecord

/-! ## Runs -/

section
variable [Ed25519Import]

theorem exists_states_eq_cons (s : KeyLifecycleState) (submissions : List Submission) :
    ∃ rest, states s submissions = s :: rest := by
  induction submissions generalizing s with
  | nil => exact ⟨[], rfl⟩
  | cons submission submissions ih =>
    unfold states
    split
    · exact ⟨_, rfl⟩
    · exact ih s

theorem isChain_states (s : KeyLifecycleState) (submissions : List Submission) :
    (states s submissions).IsChain Step := by
  induction submissions generalizing s with
  | nil => exact List.isChain_singleton s
  | cons submission submissions ih =>
    unfold states
    split
    · rename_i next hnext
      obtain ⟨rest, hrest⟩ := exists_states_eq_cons next submissions
      have hchain := ih next
      rw [hrest] at hchain ⊢
      exact List.isChain_cons_cons.2 ⟨step_of_apply hnext, hchain⟩
    · exact ih s

end

variable {s : KeyLifecycleState} {rest run : List KeyLifecycleState}

theorem pairwise_later (h : run.IsChain Step) : run.Pairwise Later := by
  have : Trans Later Later Later := ⟨fun hab hbc => hab.trans hbc⟩
  exact (h.imp fun _ _ => Step.later).pairwise

theorem safe_of_isChain
    (h : (s :: rest).IsChain Step) (hs : Safe s) : ∀ t ∈ s :: rest, Safe t := by
  induction rest generalizing s with
  | nil =>
    intro t ht
    rw [List.mem_singleton.1 ht]
    exact hs
  | cons next rest ih =>
    obtain ⟨hstep, hchain⟩ := List.isChain_cons_cons.1 h
    intro t ht
    cases List.mem_cons.1 ht with
    | inl heq => rw [heq]; exact hs
    | inr hmem => exact ih hchain (hstep.safe hs) t hmem

theorem sequence_of_isChain (h : (s :: rest).IsChain Step) {i : Nat} {t : KeyLifecycleState}
    (ht : (s :: rest)[i]? = some t) : t.sequence = s.sequence + i := by
  induction rest generalizing s i with
  | nil =>
    cases i with
    | zero =>
      cases ht
      simp
    | succ i => simp at ht
  | cons next rest ih =>
    obtain ⟨hstep, hchain⟩ := List.isChain_cons_cons.1 h
    cases i with
    | zero =>
      cases ht
      simp
    | succ i =>
      have hnext := ih hchain (by simpa using ht)
      have hsequence := hstep.sequence
      push_cast
      omega

theorem nodup_active (h : run.Pairwise Later) :
    (run.filterMap fun s => s.active.map KeyRecord.keyId).Nodup := by
  rw [List.Nodup, List.pairwise_filterMap]
  apply h.imp
  intro s t hlater keyId hs keyId' ht heq
  obtain ⟨record, hrecord, rfl⟩ := Option.map_eq_some_iff.1 ht
  exact hlater.fresh record hrecord (.inr (.inr (heq ▸ hs)))

section
variable [Ed25519Import]

/-- A recovery whose document is valid, signed by the authority and next in order, and whose
key was never in use. -/
structure Recovers (s : KeyLifecycleState) (submission : Submission) (record : KeyRecord) :
    Prop where
  accepted : Schemas.keyTransition.accepts submission.document = true
  authority : verifyTransitionAuthority submission.document submission.authorityKey = .ok ()
  tenant : submission.document.textItem (str "tenant_id") = .ok s.tenantId.val
  purpose : submission.document.textItem (str "purpose") = .ok s.purpose
  sequence : submission.document.intItem (str "sequence") = .ok (s.sequence + 1)
  operation : submission.document.textItem (str "operation") = .ok (str "recover")
  successor : successorRecord submission.document = .ok (some record)
  unused : ¬Used s record.keyId

theorem apply_of_recovers {s : KeyLifecycleState} {submission : Submission} {record : KeyRecord}
    (hsequence : 0 ≤ s.sequence) (hinactive : s.active = none) (hrevoked : s.revokedKeyIds ≠ ∅)
    (h : Recovers s submission record) :
    ∃ t, applyKeyTransition s submission.document submission.authorityKey = .ok t ∧
      t.active = some record := by
  have hpredecessor : submission.document.optionalTextItem (str "predecessor_key_id") =
      .ok none := by
    obtain ⟨w, hw, -⟩ := @Schema.get?_of_closed _ _ _
      (Schema.accepts_keywords h.accepted List.mem_cons_self) "predecessor_key_id"
      Schemas.optionalKeyName (by simp) (by simp)
    rw [(successor_ne_null h.accepted h.operation (.inr rfl)).1 w hw] at hw
    exact Json.optionalTextItem_eq_ok.2 hw
  have hfresh : ¬Reused s (some record) := h.unused
  have hchange : change s (str "recover") none (some record) =
      .ok { s with active := some record } := by
    unfold change
    rw [if_neg (by simp [str_inj]), if_neg (by simp [str_inj]), if_neg (by simp [str_inj]),
      if_pos rfl, ensure_of ⟨hsequence, hinactive, hrevoked, rfl, by simp⟩]
    rfl
  refine ⟨{ s with active := some record, sequence := s.sequence + 1 }, ?_, rfl⟩
  unfold applyKeyTransition
  simp only [raising, h.tenant, h.purpose, h.sequence, h.operation, hpredecessor,
    h.successor, h.authority, hchange, ensure_of h.accepted, ensure_of hfresh, ensure_of trivial,
    Except.mapError, ok_bind]

/-- The safety of a lifecycle over any documents submitted to it: the accepted ones are numbered
from zero; the key in use was neither retired nor revoked; those two sets only grow and stay
disjoint; no key is taken into use twice; and a lifecycle without a key, once begun, has a revoked
key and accepts a recovery. -/
theorem lifecycle_safe (tenantId : TenantId) (purpose : Str) (submissions : List Submission) :
    let run := states (.empty tenantId purpose) submissions
    (∀ (i : Nat) s, run[i]? = some s → s.sequence = i - 1) ∧
    (∀ s ∈ run, Disjoint s.retiredKeyIds s.revokedKeyIds ∧ ∀ record, s.active = some record →
      record.keyId ∉ s.retiredKeyIds ∧ record.keyId ∉ s.revokedKeyIds) ∧
    run.Pairwise (fun s t =>
      s.retiredKeyIds ⊆ t.retiredKeyIds ∧ s.revokedKeyIds ⊆ t.revokedKeyIds) ∧
    (run.filterMap fun s => s.active.map KeyRecord.keyId).Nodup ∧
    ∀ s ∈ run, 0 ≤ s.sequence → s.active = none → s.revokedKeyIds.Nonempty ∧
      ∀ submission record, Recovers s submission record →
        ∃ t, applyKeyTransition s submission.document submission.authorityKey = .ok t ∧
          t.active = some record := by
  intro run
  have hchain : run.IsChain Step := isChain_states _ _
  obtain ⟨rest, hrest⟩ := exists_states_eq_cons (.empty tenantId purpose) submissions
  have hlater := pairwise_later hchain
  have hsafe : ∀ s ∈ run, Safe s := by
    intro s hs
    rw [show run = _ from hrest] at hchain hs
    exact safe_of_isChain hchain (safe_empty tenantId purpose) s hs
  refine ⟨?_, fun s hs => ⟨(hsafe s hs).disjoint, (hsafe s hs).active⟩,
    hlater.imp fun h => ⟨h.retired, h.revoked⟩, nodup_active hlater, ?_⟩
  · intro i s hs
    rw [show run = _ from hrest] at hchain hs
    have hsequence := sequence_of_isChain hchain hs
    have hempty : (KeyLifecycleState.empty tenantId purpose).sequence = -1 := rfl
    omega
  · intro s hs hsequence hinactive
    have hrevoked := (hsafe s hs).inactive hsequence hinactive
    exact ⟨hrevoked, fun submission record =>
      apply_of_recovers hsequence hinactive hrevoked.ne_empty⟩

end

end IntegrityGuardian.KeyLifecycle
