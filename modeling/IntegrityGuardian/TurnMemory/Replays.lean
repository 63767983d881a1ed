import IntegrityGuardian.Library.SnapshotLoop
import IntegrityGuardian.Library.SortedOnce
import IntegrityGuardian.TurnMemory.Guarantees

/-!
# Closing a turn again

The references of a terminal request are normalized before its digest is taken.  They
are sorted by event number and identity alone, while the request digest of the event
counts in telling them apart.
-/

namespace IntegrityGuardian.TurnMemory

open Python Library

/-! ## Normal forms -/

instance : Std.Total fun a b : EventReference => a.le b = true where
  total a b := by
    simp only [EventReference.le, Bool.or_eq_true, Bool.and_eq_true, decide_eq_true_eq, beq_iff_eq]
    rcases lt_trichotomy a.eventId b.eventId with h | h | h
    · exact Or.inl (Or.inl h)
    · rcases le_total a.eventUid b.eventUid with huid | huid
      · exact Or.inl (Or.inr ⟨h, huid⟩)
      · exact Or.inr (Or.inr ⟨h.symm, huid⟩)
    · exact Or.inr (Or.inl h)

instance : IsTrans EventReference fun a b => a.le b = true where
  trans a b c hab hbc := by
    simp only [EventReference.le, Bool.or_eq_true, Bool.and_eq_true, decide_eq_true_eq,
      beq_iff_eq] at hab hbc ⊢
    rcases hab with hab | ⟨hab, huid⟩
    · rcases hbc with hbc | ⟨hbc, -⟩
      · exact Or.inl (hab.trans hbc)
      · exact Or.inl (hbc ▸ hab)
    · rcases hbc with hbc | ⟨hbc, huid'⟩
      · exact Or.inl (hab ▸ hbc)
      · exact Or.inr ⟨hab.trans hbc, huid.trans huid'⟩

theorem EventReference.le_antisymm_iff {a b : EventReference} :
    (a.le b = true ∧ b.le a = true) ↔ a.eventId = b.eventId ∧ a.eventUid = b.eventUid := by
  simp only [EventReference.le, Bool.or_eq_true, Bool.and_eq_true, decide_eq_true_eq, beq_iff_eq]
  constructor
  · rintro ⟨hab | ⟨hab, huid⟩, hba | ⟨hba, huid'⟩⟩
    · omega
    · omega
    · omega
    · exact ⟨hab, le_antisymm huid huid'⟩
  · rintro ⟨hid, huid⟩
    exact ⟨Or.inr ⟨hid, huid.le⟩, Or.inr ⟨hid.symm, huid.ge⟩⟩

/-- The references as `normalize_event_references` leaves them. -/
def sortedReferences (references : List EventReference) : List EventReference :=
  sortedOnce (fun a b => a.le b = true) references

theorem foldlM_references {events : List Json} {references seen : List EventReference}
    (h : events.mapM eventReference = .ok references) :
    events.foldlM (fun (normalized : List EventReference) raw => do
      let reference ← eventReference raw
      Except.ok (if reference ∈ normalized then normalized else normalized ++ [reference])) seen =
    Except.ok (references.foldl (fun seen x => if x ∈ seen then seen else seen ++ [x]) seen) := by
  induction events generalizing references seen with
  | nil =>
    cases h
    rfl
  | cons raw events ih =>
    rw [List.mapM_cons] at h
    obtain ⟨reference, hreference, h⟩ := bind_eq_ok.1 h
    obtain ⟨rest, hrest, h⟩ := bind_eq_ok.1 h
    cases h
    rw [List.foldlM_cons, hreference, List.foldl_cons]
    exact ih hrest

theorem normalizeEventReferences_eq {events : List Json} {references : List EventReference}
    (h : events.mapM eventReference = .ok references) :
    normalizeEventReferences events =
      if references = [] then
        .error (refuse "events terminal receipt requires at least one event")
      else .ok (sortedReferences references) := by
  unfold normalizeEventReferences
  rw [foldlM_references h, ok_bind]
  show (do
    ensure (sortedReferences references ≠ []) _
    Except.ok (sortedReferences references)) = _
  by_cases hnil : references = []
  · subst hnil
    rfl
  · rw [if_neg hnil]
    exact ensure_bind_eq_ok.2 ⟨sortedOnce_ne_nil.2 hnil, rfl⟩

theorem textMember_fields {fields : List (String × Json)} {key : String} {s : Str}
    (h : (Json.fields fields).get? (str key) = some (.str s)) :
    textMember (.fields fields) key = some s := by
  rw [textMember, h]

theorem eventReference_toJson {raw : Json} {reference : EventReference}
    (h : eventReference raw = .ok reference) : eventReference reference.toJson = .ok reference := by
  unfold eventReference at h
  split at h
  · cases h
  · next uid _ =>
      obtain ⟨huid, h⟩ := ensure_bind_eq_ok.1 h
      split at h
      · next id _ =>
          obtain ⟨hid, h⟩ := ensure_bind_eq_ok.1 h
          split at h
          · cases h
          · next sha _ =>
              obtain ⟨sha', hsha, h⟩ := bind_eq_ok.1 h
              obtain ⟨hbody, hsame⟩ := ensure_bind_eq_ok.1 hsha
              cases hsame
              cases h
              unfold eventReference
              rw [EventReference.toJson, textMember_fields (Json.get?_fields _ _)]
              refine ensure_bind_eq_ok.2 ⟨huid, ?_⟩
              rw [Json.get?_fields]
              refine ensure_bind_eq_ok.2 ⟨hid, ?_⟩
              rw [textMember_fields (Json.get?_fields _ _)]
              exact bind_eq_ok.2 ⟨sha, ensure_bind_eq_ok.2 ⟨hbody, rfl⟩, rfl⟩
      · cases h

theorem mapM_toJson {events : List Json} {references : List EventReference}
    (h : events.mapM eventReference = .ok references) {selected : List EventReference}
    (hselected : ∀ r ∈ selected, r ∈ references) :
    (selected.map EventReference.toJson).mapM eventReference = .ok selected := by
  have hread : ∀ r ∈ references, eventReference r.toJson = .ok r := by
    intro r hr
    obtain ⟨raw, -, hraw⟩ := exists_of_mem_right (mapM_eq_ok.1 h) hr
    exact eventReference_toJson hraw
  rw [mapM_eq_ok, List.forall₂_map_left_iff, List.forall₂_same]
  intro r hr
  exact hread r (hselected r hr)

/-- Distinct references differ in their event number or in their identity. -/
def ToldApart (references : List EventReference) : Prop :=
  ∀ a ∈ references, ∀ b ∈ references, a.eventId = b.eventId → a.eventUid = b.eventUid → a = b

instance (references : List EventReference) : Decidable (ToldApart references) :=
  inferInstanceAs (Decidable (∀ a ∈ references, ∀ b ∈ references, _))

/-- The same references in another order, and as often as one likes. -/
def SameReferences (events : List Json) (references : List EventReference) : Prop :=
  ∃ references', events.mapM eventReference = .ok references' ∧
    ∀ r, r ∈ references' ↔ r ∈ references

theorem normalize_congr {events events' : List Json} {references : List EventReference}
    (h : events.mapM eventReference = .ok references) (happart : ToldApart references)
    (hsame : SameReferences events' references) :
    normalizeEventReferences events' = normalizeEventReferences events := by
  obtain ⟨references', h', hmem⟩ := hsame
  have hsorted : sortedReferences references' = sortedReferences references := by
    apply sortedOnce_congr _ hmem
    intro a ha b hb hab hba
    obtain ⟨hid, huid⟩ := EventReference.le_antisymm_iff.1 ⟨hab, hba⟩
    exact happart a ha b hb hid huid
  have hnil : references' = [] ↔ references = [] := by
    rw [List.eq_nil_iff_forall_not_mem, List.eq_nil_iff_forall_not_mem]
    simp only [hmem]
  rw [normalizeEventReferences_eq h, normalizeEventReferences_eq h', hsorted]
  simp only [hnil]

theorem normalize_idem {events : List Json} {references normalized : List EventReference}
    (h : events.mapM eventReference = .ok references)
    (hnormalized : normalizeEventReferences events = .ok normalized) :
    normalizeEventReferences (normalized.map EventReference.toJson) = .ok normalized := by
  rw [normalizeEventReferences_eq h] at hnormalized
  split at hnormalized
  · cases hnormalized
  · next hnil =>
      cases hnormalized
      have hread : ((sortedReferences references).map EventReference.toJson).mapM eventReference =
          .ok (sortedReferences references) := mapM_toJson h fun r => mem_sortedOnce.1
      have hkept : sortedReferences references ≠ [] := sortedOnce_ne_nil.2 hnil
      rw [normalizeEventReferences_eq hread, if_neg hkept]
      exact congrArg Except.ok (sortedOnce_idem references)

/-! ## Replays -/

namespace TurnMemoryStore

section
variable [Ed25519Keys]

theorem closeTransaction_stored {client : TurnMemoryStore} {registrationId requestDigest closedAt :
    Str} {outcome : Outcome} {t t' : Tables} {reply : Reply}
    (h : client.closeTransaction registrationId requestDigest closedAt outcome t =
      .ok (reply, t')) :
    ∃ terminal ∈ t'.terminals, terminal.registrationId = registrationId ∧
      terminal.requestDigest = requestDigest := by
  unfold closeTransaction at h
  cases hfind : t.findRegistration registrationId with
  | none => simp [hfind] at h
  | some row =>
    rw [hfind] at h
    obtain ⟨registration, -, h⟩ := bind_eq_ok.1 h
    obtain ⟨fingerprint, -, h⟩ := bind_eq_ok.1 h
    obtain ⟨-, h⟩ := ensure_bind_eq_ok.1 h
    cases hterminal : t.findTerminal registrationId with
    | some existing =>
      rw [hterminal] at h
      obtain ⟨receipt, -, h⟩ := bind_eq_ok.1 h
      obtain ⟨hsame, h⟩ := ensure_bind_eq_ok.1 h
      cases h
      obtain ⟨hmem, hid⟩ := findTerminal_eq_some hterminal
      exact ⟨existing, hmem, hid, hsame⟩
    | none =>
      rw [hterminal] at h
      unfold createTerminal at h
      obtain ⟨identity, -, h⟩ := bind_eq_ok.1 h
      obtain ⟨prompt, -, h⟩ := bind_eq_ok.1 h
      obtain ⟨receipt, -, h⟩ := bind_eq_ok.1 h
      obtain ⟨verified, -, h⟩ := bind_eq_ok.1 h
      obtain ⟨receiptJson, -, h⟩ := bind_eq_ok.1 h
      obtain ⟨inserted, hinserted, h⟩ := bind_eq_ok.1 h
      cases h
      obtain ⟨-, hinserted⟩ := ensure_bind_eq_ok.1 hinserted
      cases hinserted
      exact ⟨_, List.mem_append_right _ (List.mem_singleton_self _), rfl, rfl⟩

omit [Ed25519Keys] in
theorem findTerminal_of_mem {t : Tables} (hunique : (t.terminals.map
    TerminalRow.registrationId).Nodup) {terminal : TerminalRow} (h : terminal ∈ t.terminals) :
    t.findTerminal terminal.registrationId = some terminal := by
  cases hfind : t.findTerminal terminal.registrationId with
  | none => exact absurd rfl (findTerminal_eq_none hfind terminal h)
  | some other =>
    obtain ⟨hmem, hid⟩ := findTerminal_eq_some hfind
    rw [List.inj_on_of_nodup_map hunique hmem h hid]

omit [Ed25519Keys] in
theorem findRegistration_of_mem {t : Tables} (hunique : (t.registrations.map
    RegistrationRow.registrationId).Nodup) {row : RegistrationRow} (h : row ∈ t.registrations) :
    t.findRegistration row.registrationId = some row := by
  cases hfind : t.findRegistration row.registrationId with
  | none => simpa using List.find?_eq_none.1 hfind row h
  | some other =>
    obtain ⟨hmem, hid⟩ := findRegistration_eq_some hfind
    rw [List.inj_on_of_nodup_map hunique hmem h hid]

theorem closeTransaction_replays {client : TurnMemoryStore} {t : Tables} (hs : client.Sound t)
    {terminal : TerminalRow} (hterminal : terminal ∈ t.terminals) (closedAt : Str)
    (outcome : Outcome) :
    ∃ receipt, decode terminal.receiptJson = .ok receipt ∧
      client.closeTransaction terminal.registrationId terminal.requestDigest closedAt outcome t =
        .ok (⟨receipt, true, none⟩, t) := by
  obtain ⟨receipt, habout, -⟩ := hs.terminals terminal hterminal
  obtain ⟨row, hrow, hid, registration, turn, hregisters, hjoins⟩ := habout
  have hverified : client.verifyJoined .terminalReceipt terminal.receiptJson registration =
      .ok receipt := by
    refine bind_eq_ok.2 ⟨receipt, hjoins.stored.decoded, ?_⟩
    refine bind_eq_ok.2 ⟨receipt, hjoins.stored.verify, ?_⟩
    refine bind_eq_ok.2 ⟨row.registrationId,
      mapError_eq_ok.2 (Json.textItem_eq_ok.2 hregisters.receiptId), ?_⟩
    exact bind_eq_ok.2 ⟨(), hjoins.verifyJoin hregisters _, rfl⟩
  refine ⟨receipt, hjoins.stored.decoded, ?_⟩
  unfold closeTransaction
  have hregistration := findRegistration_of_mem hs.ids hrow
  rw [hid] at hregistration
  rw [hregistration]
  refine bind_eq_ok.2 ⟨registration, hregisters.verifyRow, ?_⟩
  refine bind_eq_ok.2 ⟨client.namespaceFingerprint,
    mapError_eq_ok.2 (Json.textItem_eq_ok.2 hregisters.fingerprint), ?_⟩
  refine ensure_bind_eq_ok.2 ⟨rfl, ?_⟩
  rw [findTerminal_of_mem hs.closedOnce hterminal]
  refine bind_eq_ok.2 ⟨receipt, hverified, ?_⟩
  exact ensure_bind_eq_ok.2 ⟨rfl, rfl⟩

/-- A `close_turn` call that names events. -/
def closeEvents (client : TurnMemoryStore) (registrationId : Str) (events : List Json)
    (closedAt : Option Str) (clock : Instant) (t : Tables) : Except Error (Reply × Tables) :=
  client.closeTurn registrationId (str "events") (some events) none closedAt clock t

theorem closeEvents_eq_ok {client : TurnMemoryStore} {registrationId : Str} {events : List Json}
    {closedAt : Option Str} {clock : Instant} {t t' : Tables} {reply : Reply} :
    client.closeEvents registrationId events closedAt clock t = .ok (reply, t') ↔
      digestValue registrationId "registration_id" = .ok registrationId ∧
      ∃ normalized requestDigest, normalizeEventReferences events = .ok normalized ∧
        terminalRequestDigest registrationId (Outcome.events normalized).text
          (Outcome.events normalized).fields = .ok requestDigest ∧
        client.closeTransaction registrationId requestDigest (textOrNow closedAt clock)
          (.events normalized) t = .ok (reply, t') := by
  unfold closeEvents closeTurn
  constructor
  · intro h
    obtain ⟨checkedId, hchecked, h⟩ := bind_eq_ok.1 h
    obtain ⟨outcome, houtcome, h⟩ := bind_eq_ok.1 h
    obtain ⟨requestDigest, hrequest, h⟩ := bind_eq_ok.1 h
    obtain ⟨-, hsame⟩ := ensure_bind_eq_ok.1 hchecked
    cases hsame
    rw [raising, mapError_eq_ok] at hrequest
    unfold checkClose at houtcome
    rw [if_pos rfl] at houtcome
    obtain ⟨normalized, hnormalized, houtcome⟩ := bind_eq_ok.1 houtcome
    obtain ⟨-, houtcome⟩ := ensure_bind_eq_ok.1 houtcome
    cases houtcome
    exact ⟨hchecked, normalized, requestDigest, hnormalized, hrequest, h⟩
  · rintro ⟨hchecked, normalized, requestDigest, hnormalized, hrequest, h⟩
    refine bind_eq_ok.2 ⟨registrationId, hchecked, ?_⟩
    refine bind_eq_ok.2 ⟨.events normalized, ?_, ?_⟩
    · unfold checkClose
      rw [if_pos rfl]
      exact bind_eq_ok.2 ⟨normalized, hnormalized, ensure_bind_eq_ok.2 ⟨rfl, rfl⟩⟩
    · exact bind_eq_ok.2 ⟨requestDigest, mapError_eq_ok.2 hrequest, h⟩

theorem closeEvents_replays {client : TurnMemoryStore} (hsigner : client.signer.Lawful)
    {t t' : Tables} (hs : client.Sound t) {registrationId : Str} {events events' : List Json}
    {closedAt : Option Str} {clock : Instant} {reply : Reply}
    (hclosed : client.closeEvents registrationId events closedAt clock t = .ok (reply, t'))
    (hsame : normalizeEventReferences events' = normalizeEventReferences events)
    (more : List (Call × Instant)) (closedAt' : Option Str) (clock' : Instant) :
    ∃ terminal ∈ t'.terminals, terminal.registrationId = registrationId ∧
      ∃ receipt, decode terminal.receiptJson = .ok receipt ∧
        client.closeEvents registrationId events' closedAt' clock' (run client.execute t' more) =
          .ok (⟨receipt, true, none⟩, run client.execute t' more) := by
  obtain ⟨hchecked, normalized, requestDigest, hnormalized, hrequest, htransaction⟩ :=
    closeEvents_eq_ok.1 hclosed
  obtain ⟨terminal, hterminal, rfl, rfl⟩ := closeTransaction_stored htransaction
  have hs' : client.Sound t' := (closeTurn_effect hs hclosed).sound hs
  have hlater : client.Sound (run client.execute t' more) := sound_run hsigner hs' more
  have hkept := (settles_run hsigner hs' more).1.terminals.subset hterminal
  obtain ⟨receipt, hreceipt, hreplayed⟩ :=
    closeTransaction_replays hlater hkept (textOrNow closedAt' clock') (.events normalized)
  refine ⟨terminal, hterminal, rfl, receipt, hreceipt, ?_⟩
  exact closeEvents_eq_ok.2 ⟨hchecked, normalized, terminal.requestDigest,
    hsame.trans hnormalized, hrequest, hreplayed⟩

/-- What closing a turn with references should not depend on: their order and number. -/
structure OrderFree (events : List Json) (references : List EventReference) : Prop where
  normal : ∀ events', SameReferences events' references →
    normalizeEventReferences events' = normalizeEventReferences events
  idempotent : ∀ normalized, normalizeEventReferences events = .ok normalized →
    normalizeEventReferences (normalized.map EventReference.toJson) = .ok normalized
  replayed : ∀ client : TurnMemoryStore, client.signer.Lawful → ∀ clock created,
    client.initializeStore clock Tables.empty = .ok created →
    ∀ calls registrationId closedAt closeClock reply t,
      client.closeEvents registrationId events closedAt closeClock
        (run client.execute created calls) = .ok (reply, t) →
    ∀ events', SameReferences events' references → ∀ more closedAt' clock',
      ∃ terminal ∈ t.terminals, terminal.registrationId = registrationId ∧
        ∃ receipt, decode terminal.receiptJson = .ok receipt ∧
          client.closeEvents registrationId events' closedAt' clock'
            (run client.execute t more) = .ok (⟨receipt, true, none⟩, run client.execute t more)

/-- The order of references is immaterial exactly when number and identity tell them apart. -/
theorem close_order_free_iff {events : List Json} {references : List EventReference}
    (hvalid : events.mapM eventReference = .ok references) :
    OrderFree events references ↔ ToldApart references := by
  constructor
  · intro h a ha b hb hid huid
    by_contra hne
    obtain ⟨hab, hba⟩ := EventReference.le_antisymm_iff.2 ⟨hid, huid⟩
    have hperms : ∃ references', references'.Perm references ∧
        sortedReferences references' ≠ sortedReferences references :=
      exists_perm_sortedOnce_ne ha hb hne hab hba
    obtain ⟨references', hperm, hother⟩ := hperms
    have hread := mapM_toJson hvalid (fun r => hperm.mem_iff.1 : ∀ r ∈ references', _)
    have hnormal := h.normal _ ⟨references', hread, fun r => hperm.mem_iff⟩
    have hnil : references ≠ [] := List.ne_nil_of_mem ha
    have hnil' : references' ≠ [] := List.ne_nil_of_mem (hperm.mem_iff.2 ha)
    rw [normalizeEventReferences_eq hvalid, normalizeEventReferences_eq hread, if_neg hnil,
      if_neg hnil'] at hnormal
    exact hother (Except.ok.inj hnormal)
  · intro happart
    exact {
      normal := fun events' hsame => normalize_congr hvalid happart hsame
      idempotent := fun normalized => normalize_idem hvalid
      replayed := fun client hsigner clock created hcreated calls registrationId closedAt closeClock
          reply t hclosed events' hsame more closedAt' clock' =>
        closeEvents_replays hsigner (sound_run hsigner (sound_initializeStore hcreated) calls)
          hclosed (normalize_congr hvalid happart hsame) more closedAt' clock' }

end

end TurnMemoryStore

namespace TwoRequests

/-- A reference of one event identity. -/
def reference (eventId : Int) (digit : Char) : EventReference :=
  ⟨str "client:event-00000001", eventId, List.replicate 64 (Json.ch digit)⟩

/-- One event under two request digests. -/
def events : List Json := [(reference 7 'a').toJson, (reference 7 'b').toJson]

theorem read : events.mapM eventReference = .ok [reference 7 'a', reference 7 'b'] := by decide

/-- The two orders of the same references have different normal forms. -/
theorem order_matters :
    ¬∀ events events' : List Json, (events.mapM eventReference).isOk = true →
      events'.Perm events → normalizeEventReferences events' = normalizeEventReferences events := by
  intro h
  have hsame := h events events.reverse (by rw [read]; rfl) (List.reverse_perm events)
  revert hsame
  decide

open TurnMemoryStore in
attribute [local instance] Sample.ed25519 in
/-- References of two events are free of their order. -/
theorem two_events_order_free :
    OrderFree [(reference 7 'a').toJson, (reference 8 'a').toJson]
      [reference 7 'a', reference 8 'a'] :=
  (close_order_free_iff (by decide)).2 (by decide)

end TwoRequests

end IntegrityGuardian.TurnMemory
