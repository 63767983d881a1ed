import IntegrityGuardian.WorkClaims.Queue

/-!
# The event log

Reading `work_claim_events` back.  `Replay` is what an agent that only reads the
log knows of the claims; along every run it agrees with `work_claims`, and the
hash chain verifies.
-/

namespace IntegrityGuardian.WorkClaims

open Python Library

/-! ## Replaying events -/

/-- The columns of a claim that its events report. -/
structure Entry where
  agentId : Str
  resources : List Resource
  status : Str
  fenceToken : Option Int
  deriving DecidableEq

abbrev Replay := Str → Option Entry

/-- A resource read from an event. -/
def readResource : Json → Option Resource
  | .str text => if h : Json.ch ':' ∈ text then some ⟨text, h⟩ else none
  | _ => none

def readFence : Json → Option (Option Int)
  | .null => some none
  | .int t => some (some t)
  | _ => none

def readText : Json → Option Str
  | .str text => some text
  | _ => none

def readResources : Json → Option (List Resource)
  | .arr items => items.mapM readResource
  | _ => none

/-- The entry an event carries for its `claim_id`. -/
def readEntry (event : Json) : Option Entry := do
  let agentId ← (← event.get? (str "agent_id")) |> readText
  let resources ← (← event.get? (str "resources")) |> readResources
  let status ← (← event.get? (str "status")) |> readText
  let fenceToken ← (← event.get? (str "fence_token")) |> readFence
  some ⟨agentId, resources, status, fenceToken⟩

namespace Replay

def close (m : Replay) (claimId : Str) (status : ClaimStatus) : Replay :=
  Function.update m claimId ((m claimId).map fun e => { e with status := status.value })

/-- One event: what opens a claim sets its entry, what closes it sets its status,
a handoff does both, and the other kinds change nothing. -/
def apply (m : Replay) (event : Json) : Replay :=
  match event.get? (str "kind"), event.get? (str "claim_id") with
  | some (.str kind), some (.str claimId) =>
    if kind = str "claim-waiting" ∨ kind = str "claim-acquired" then
      Function.update m claimId (readEntry event)
    else if kind = str "claim-expired" then m.close claimId .expired
    else if kind = str "claim-released" then m.close claimId .released
    else if kind = str "claim-cancelled" then m.close claimId .cancelled
    else if kind = str "claim-handed-off" then
      match event.get? (str "from_claim_id") with
      | some (.str fromClaimId) =>
        Function.update (m.close fromClaimId .handedOff) claimId (readEntry event)
      | _ => m
    else m
  | _, _ => m

def applyRow (m : Replay) (e : EventRow) : Replay :=
  match parseJsonStrict e.eventJson with
  | .ok event => m.apply event
  | .error _ => m

end Replay

/-- The log folded in `event_seq` order. -/
def replay (events : List EventRow) : Replay := events.foldl Replay.applyRow fun _ => none

def Row.entry (r : Row) : Entry := ⟨r.agentId, r.resources, r.status.value, r.fenceToken⟩

/-- The same columns of `work_claims`. -/
def Registry.entries (s : Registry) : Replay := fun claimId => (s.find? claimId).map Row.entry

/-- The claim and the token an event grants. -/
def grant (e : EventRow) : Option (Str × Int) :=
  match parseJsonStrict e.eventJson with
  | .ok event =>
    match event.get? (str "kind"), event.get? (str "claim_id"), event.get? (str "fence_token") with
    | some (.str kind), some (.str claimId), some (.int t) =>
      if kind = str "claim-acquired" ∨ kind = str "claim-handed-off" then some (claimId, t) else none
    | _, _, _ => none
  | .error _ => none

/-! ## What a logged event reads back as -/

/-- A parsed event that reports `kind` and `d`. -/
structure Reports (event : Json) (kind : Str) (d : ClaimDecision) (extra : List (Str × Json)) :
    Prop where
  kind : event.get? (str "kind") = some (.str kind)
  claimId : event.get? (str "claim_id") = some (.str d.claimId)
  entry : readEntry event = some ⟨d.agentId, d.resources, d.status.value, d.fenceToken⟩
  fenceToken : event.get? (str "fence_token") = some (jsonOption (d.fenceToken.map .int))
  fromClaimId : event.get? (str "from_claim_id") = extra.lookup (str "from_claim_id")

theorem mapM_readResource (l : List Resource) :
    l.mapM (readResource ∘ fun r => Json.str r.text) = some l := by
  induction l with
  | nil => rfl
  | cons r l ih => simp [readResource, r.colon, ih]

theorem sortItems_str (l : List Str) :
    Json.sortItems (l.map Json.str) = l.map Json.str := by
  induction l with
  | nil => rfl
  | cons r l ih => simp [Json.sortItems, Json.sortKeys, ih]

section
variable (kind : Str) (d : ClaimDecision) (current : Instant) (previous : Option Str)
  (extra : List (Str × Json))

theorem eventObject_kind :
    (eventObject kind d current previous extra).get? (str "kind") = some (.str kind) := rfl

theorem eventObject_claimId :
    (eventObject kind d current previous extra).get? (str "claim_id") = some (.str d.claimId) := rfl

theorem eventObject_agentId :
    (eventObject kind d current previous extra).get? (str "agent_id") = some (.str d.agentId) := rfl

theorem eventObject_status :
    (eventObject kind d current previous extra).get? (str "status")
      = some (.str d.status.value) := rfl

theorem eventObject_resources :
    (eventObject kind d current previous extra).get? (str "resources")
      = some (.arr (d.resources.map fun r => .str r.text)) := rfl

theorem eventObject_fenceToken :
    (eventObject kind d current previous extra).get? (str "fence_token")
      = some (jsonOption (d.fenceToken.map .int)) := rfl

theorem eventObject_previous :
    (eventObject kind d current previous extra).get? (str "previous_digest")
      = some (jsonOption (previous.map .str)) := rfl

theorem eventObject_fromClaimId :
    (eventObject kind d current previous extra).get? (str "from_claim_id")
      = extra.lookup (str "from_claim_id") := rfl

end

/-- The members `_append_event` may be given beyond its own. -/
inductive ExtraMembers : List (Str × Json) → Prop
  | none : ExtraMembers []
  | outcome (text : Str) : ExtraMembers [(str "outcome", .str text)]
  | handoff (fromClaimId fromAgentId note : Str) :
      ExtraMembers [(str "from_claim_id", .str fromClaimId), (str "from_agent_id", .str fromAgentId),
        (str "note", .str note)]

theorem wfItems_str (l : List Str) : Json.wfItems (l.map Json.str) = true := by
  induction l with
  | nil => rfl
  | cons r l ih => simp [Json.wfItems, Json.wf, ih]

variable {extra : List (Str × Json)}

theorem eventObject_wf (h : ExtraMembers extra) (kind : Str)
    (d : ClaimDecision) (current : Instant) (previous : Option Str) :
    (eventObject kind d current previous extra).wf = true := by
  have hresources : Json.wfItems (d.resources.map fun r => Json.str r.text) = true := by
    have := wfItems_str (d.resources.map Resource.text)
    rwa [List.map_map] at this
  have hblocked := wfItems_str d.blockedBy
  have hfence : (jsonOption (d.fenceToken.map .int)).wf = true := by
    cases d.fenceToken <;> rfl
  have hprevious : (jsonOption (previous.map .str)).wf = true := by
    cases previous <;> rfl
  unfold eventObject Json.wf
  rw [Bool.and_eq_true, decide_eq_true_eq]
  cases h with
  | none =>
    refine ⟨?_, by simp [Json.wfMembers, Json.wf, hresources, hblocked, hfence, hprevious]⟩
    simp only [List.append_nil, List.map_cons, List.map_nil]
    decide
  | outcome text =>
    refine ⟨?_, by simp [Json.wfMembers, Json.wf, hresources, hblocked, hfence, hprevious]⟩
    simp only [List.cons_append, List.nil_append, List.map_cons, List.map_nil]
    decide
  | handoff fromClaimId fromAgentId note =>
    refine ⟨?_, by simp [Json.wfMembers, Json.wf, hresources, hblocked, hfence, hprevious]⟩
    simp only [List.cons_append, List.nil_append, List.map_cons, List.map_nil]
    decide

theorem reports_sortKeys (h : ExtraMembers extra) (kind : Str)
    (d : ClaimDecision) (current : Instant) (previous : Option Str) :
    Reports (eventObject kind d current previous extra).sortKeys kind d extra := by
  have hget := Json.get?_sortKeys (eventObject_wf h kind d current previous)
  have hfence : Json.sortKeys (jsonOption (d.fenceToken.map .int))
      = jsonOption (d.fenceToken.map .int) := by
    cases d.fenceToken <;> rfl
  have hresources : Json.sortItems (d.resources.map fun r => Json.str r.text)
      = d.resources.map fun r => Json.str r.text := by
    have := sortItems_str (d.resources.map Resource.text)
    rwa [List.map_map] at this
  have hread : readFence (jsonOption (d.fenceToken.map .int)) = some d.fenceToken := by
    cases d.fenceToken <;> rfl
  refine ⟨?_, ?_, ?_, ?_, ?_⟩
  · rw [hget, eventObject_kind]
    rfl
  · rw [hget, eventObject_claimId]
    rfl
  · unfold readEntry
    rw [hget, hget, hget, hget, eventObject_agentId, eventObject_resources, eventObject_status,
      eventObject_fenceToken]
    simp [Json.sortKeys, hfence, hresources, hread, readText, readResources, mapM_readResource]
  · rw [hget, eventObject_fenceToken, Option.map_some, hfence]
  · rw [hget, eventObject_fromClaimId]
    cases h <;> rfl

variable [UnicodeData] {s t s' : Registry} {kind : Str} {d : ClaimDecision} {current : Instant}
  {extra : List (Str × Json)}

theorem Logged.exists_row (h : Logged s kind d current extra s') (hextra : ExtraMembers extra) :
    ∃ e event, s' = { s with events := s.events ++ [e] } ∧
      parseJsonStrict e.eventJson = .ok event ∧ Reports event kind d extra ∧
      event.get? (str "previous_digest")
        = some (jsonOption ((s.events.getLast?.map EventRow.eventDigest).map .str)) ∧
      e.previousDigest = s.events.getLast?.map EventRow.eventDigest ∧
      digestObject event eventDomain = .ok e.eventDigest := by
  obtain ⟨digest, eventJson, hdigest, hjson, rfl⟩ := h
  have hwf := eventObject_wf hextra kind d current (s.events.getLast?.map EventRow.eventDigest)
  refine ⟨_, _, rfl, parseJsonStrict_canonicalBytes hwf hjson,
    reports_sortKeys hextra kind d current _, ?_, rfl, ?_⟩
  · rw [Json.get?_sortKeys hwf, eventObject_previous]
    cases s.events.getLast? <;> rfl
  · rw [digestObject_sortKeys]
    exact hdigest

variable {status status' : ClaimStatus} {r : Row} {f : Row → Row}

omit [UnicodeData] in
theorem Closing.extraMembers (h : Closing status status' kind extra) : ExtraMembers extra := by
  cases h with
  | expired hopen => exact .none
  | released outcome => exact .outcome outcome
  | cancelled => exact .none

omit [UnicodeData] in
theorem Closing.not_granting (h : Closing status status' kind extra) :
    ¬(kind = str "claim-acquired" ∨ kind = str "claim-handed-off") := by
  cases h <;> decide

omit [UnicodeData] in
theorem Change.extraMembers (h : Change s t kind d extra) : ExtraMembers extra := by
  cases h with
  | close hr hclosing => exact hclosing.extraMembers
  | handoff => exact .handoff _ _ _
  | promote => exact .none
  | enqueue => exact .none
  | admitted => exact .none
  | renew => exact .none
  | reject => exact .none

/-! ## The replayed log is the table -/

omit [UnicodeData] in
theorem find?_update (hf : ∀ r, (f r).claimId = r.claimId) (id k : Str) :
    (s.update id f).find? k = if k = id then (s.find? k).map f else s.find? k := by
  unfold Registry.find? Registry.update updateKey
  rw [List.find?_map]
  have hkeys : ((fun row : Row => row.claimId == k) ∘
      fun r => if r.claimId = id then f r else r) = fun row => row.claimId == k := by
    funext r
    by_cases hr : r.claimId = id
    · simp [hr, hf]
    · simp [hr]
  rw [hkeys]
  cases hfind : s.workClaims.find? fun row => row.claimId == k with
  | none => simp
  | some r =>
    have hk : r.claimId = k := by simpa using List.find?_some hfind
    by_cases hid : k = id
    · simp [hk, hid]
    · simp [hk, hid]

omit [UnicodeData] in
theorem find?_insert (hfresh : s.find? r.claimId = none) (k : Str) : (s.insert r).find? k
      = if k = r.claimId then some (r.numbered (s.sqliteSequence + 1)) else s.find? k := by
  show (s.workClaims ++ [r.numbered (s.sqliteSequence + 1)]).find? (fun row => row.claimId == k) = _
  rw [List.find?_append]
  by_cases hk : k = r.claimId
  · subst hk
    have hnone : s.workClaims.find? (fun row => row.claimId == r.claimId) = none := hfresh
    simp [hnone]
  · have hne : (r.claimId == k) = false := by simpa using Ne.symm hk
    simp [hne, hk, Registry.find?]

omit [UnicodeData] in
theorem entries_update (hf : ∀ r, (f r).claimId = r.claimId) (id : Str) : (s.update id f).entries
      = Function.update s.entries id ((s.find? id).map fun r => (f r).entry) := by
  funext k
  unfold Registry.entries
  rw [find?_update hf]
  by_cases hk : k = id
  · subst hk
    simp [Function.comp_def]
  · simp [hk]

omit [UnicodeData] in
theorem entries_insert (hfresh : s.find? r.claimId = none) :
    (s.insert r).entries = Function.update s.entries r.claimId (some r.entry) := by
  funext k
  unfold Registry.entries
  rw [find?_insert hfresh]
  by_cases hk : k = r.claimId
  · subst hk
    simp [Row.entry]
  · simp [hk]

omit [UnicodeData] in
theorem entries_close (id : Str) (status : ClaimStatus) :
    (s.close id status current).entries = s.entries.close id status := by
  unfold Registry.close Replay.close
  rw [entries_update fun r => Row.closed_claimId r _ _]
  congr 1
  unfold Registry.entries
  rw [Option.map_map]
  rfl

omit [UnicodeData] in
theorem entries_touch (id : Str) (expiresAt : Instant) (ttlSeconds : Int) :
    (s.touch id expiresAt ttlSeconds).entries = s.entries := by
  unfold Registry.touch
  rw [entries_update fun r => Row.extended_claimId r _ _]
  exact Function.update_eq_self id s.entries

omit [UnicodeData] in
theorem entries_promote (hs : s.WF) (hr : r ∈ s.workClaims) (expiresAt : Instant) :
    (s.promote r.claimId expiresAt).entries
      = Function.update s.entries r.claimId
          (some (r.granted (s.lastFence + 1) expiresAt).entry) := by
  have hfind : s.find? r.claimId = some r := hs.find?_eq_some.2 ⟨hr, rfl⟩
  unfold Registry.promote
  rw [entries_update fun q => Row.granted_claimId q _ _]
  show Function.update s.entries r.claimId ((s.find? r.claimId).map _) = _
  rw [hfind]
  rfl

namespace Replay

omit [UnicodeData]
variable {m : Replay} {event : Json}

theorem apply_open (h : Reports event kind d extra)
    (hkind : kind = str "claim-waiting" ∨ kind = str "claim-acquired") :
    m.apply event = Function.update m d.claimId
      (some ⟨d.agentId, d.resources, d.status.value, d.fenceToken⟩) := by
  unfold apply
  rw [h.kind, h.claimId, h.entry]
  exact if_pos hkind

theorem apply_closing (h : Reports event kind d extra) {status status' : ClaimStatus}
    (hclosing : Closing status status' kind extra) :
    m.apply event = m.close d.claimId status' := by
  unfold apply
  rw [h.kind, h.claimId]
  cases hclosing with
  | expired hopen => rfl
  | released outcome => rfl
  | cancelled => rfl

theorem apply_handoff (h : Reports event (str "claim-handed-off") d extra) {fromClaimId : Str}
    (hfrom : extra.lookup (str "from_claim_id") = some (.str fromClaimId)) :
    m.apply event = Function.update (m.close fromClaimId .handedOff) d.claimId
      (some ⟨d.agentId, d.resources, d.status.value, d.fenceToken⟩) := by
  unfold apply
  rw [h.kind, h.claimId, h.fromClaimId, hfrom, h.entry]
  rfl

theorem apply_other (h : Reports event kind d extra)
    (hkind : kind = str "claim-renewed" ∨ kind = str "claim-rejected") :
    m.apply event = m := by
  unfold apply
  rw [h.kind, h.claimId]
  rcases hkind with rfl | rfl <;> rfl

end Replay

variable {e : EventRow} {event : Json} {events : List EventRow} {previous : Option Str}

omit [UnicodeData] in
theorem Change.apply_entries (h : Change s t kind d extra) (hs : s.Sound)
    (hreports : Reports event kind d extra) : s.entries.apply event = t.entries := by
  cases h with
  | close hr hclosing =>
    rw [Replay.apply_closing hreports hclosing, entries_close]
    rfl
  | promote hr hwaiting hfree =>
    rw [Replay.apply_open hreports (.inr rfl), entries_promote hs.wf hr]
    rfl
  | enqueue hfresh hwaiting htoken hblocked =>
    rw [Replay.apply_open hreports (.inl rfl), entries_insert hfresh]
    rfl
  | @admitted r expiresAt hfresh hwaiting htoken hfree =>
    have hmem : r.numbered (s.sqliteSequence + 1) ∈ (s.insert r).workClaims :=
      Registry.mem_insert.2 (.inr rfl)
    have hpromote := entries_promote (hs.insert_waiting hfresh hwaiting htoken).wf hmem expiresAt
    rw [Row.numbered_claimId, entries_insert hfresh, Function.update_idem] at hpromote
    rw [Replay.apply_open hreports (.inr rfl), hpromote]
    rfl
  | @handoff r new current note hr hacquired hfresh hstatus htoken hres =>
    have hfresh' : ({ s.close r.claimId .handedOff current with
        lastFence := s.lastFence + 1 } : Registry).find? new.claimId = none := by
      have hclosed : (s.close r.claimId .handedOff current).find? new.claimId = none := by
        unfold Registry.close
        rw [find?_update fun q => Row.closed_claimId q _ _]
        simp [hfresh]
      exact hclosed
    rw [Replay.apply_handoff hreports rfl, entries_insert hfresh']
    have hclose : ({ s.close r.claimId .handedOff current with
        lastFence := s.lastFence + 1 } : Registry).entries = s.entries.close r.claimId .handedOff :=
      entries_close r.claimId .handedOff
    rw [hclose]
    rfl
  | renew hr hopen => rw [Replay.apply_other hreports (.inl rfl), entries_touch]
  | reject hstatus => rw [Replay.apply_other hreports (.inr rfl)]

/-! ## The hash chain -/

/-- `e` is the digest of what it stores and names `previous` twice. -/
def Linked (previous : Option Str) (e : EventRow) : Prop :=
  ∃ event, parseJsonStrict e.eventJson = .ok event ∧
    event.get? (str "previous_digest") = some (jsonOption (previous.map .str)) ∧
    e.previousDigest = previous ∧ digestObject event eventDomain = .ok e.eventDigest

/-- Every event is linked to the one before it. -/
def Chain : Option Str → List EventRow → Prop
  | _, [] => True
  | previous, e :: rest => Linked previous e ∧ Chain (some e.eventDigest) rest

theorem chain_append (h : Chain previous events)
    (he : Linked ((events.getLast?.map EventRow.eventDigest).or previous) e) :
    Chain previous (events ++ [e]) := by
  induction events generalizing previous with
  | nil => exact ⟨he, trivial⟩
  | cons e' rest ih =>
    refine ⟨h.1, ih h.2 ?_⟩
    cases rest with
    | nil => exact he
    | cons e'' rest' =>
      rw [List.getLast?_cons_cons] at he
      obtain ⟨last, hlast⟩ : ∃ last, (e'' :: rest').getLast? = some last :=
        ⟨_, List.getLast?_eq_some_getLast (by simp)⟩
      rw [hlast] at he ⊢
      exact he

theorem verifyEventsFrom_of_chain (h : Chain previous events) (count : Nat) :
    verifyEventsFrom previous count events = .ok (count + events.length) := by
  induction events generalizing previous count with
  | nil => rfl
  | cons e rest ih =>
    obtain ⟨⟨event, hparse, hprevious, hcolumn, hdigest⟩, hrest⟩ := h
    cases event with
    | obj members =>
      unfold verifyEventsFrom
      simp only [hparse, hprevious, hcolumn, hdigest, Option.getD_some, ne_eq,
        not_true_eq_false, or_self, if_false]
      rw [ih hrest, List.length_cons]
      congr 1
      omega
    | null => cases hprevious
    | bool b => cases hprevious
    | int n => cases hprevious
    | str x => cases hprevious
    | arr items => cases hprevious

/-! ## Runs -/

/-- No two acquired claims of a replay overlap. -/
def Replay.Exclusive (m : Replay) : Prop :=
  ∀ id id' e e', m id = some e → m id' = some e' → id ≠ id' →
    e.status = ClaimStatus.value .acquired → e'.status = ClaimStatus.value .acquired →
    setsOverlap e.resources e'.resources = false

/-- What the log keeps at every statement. -/
structure Registry.Recorded (s : Registry) : Prop where
  replays : replay s.events = s.entries
  chain : Chain none s.events
  exclusive : ∀ events, events <+: s.events → (replay events).Exclusive
  tokens : (s.events.filterMap grant).Pairwise fun g g' => g.2 < g'.2
  token_le : ∀ g ∈ s.events.filterMap grant, g.2 ≤ s.lastFence

omit [UnicodeData] in
theorem value_eq_acquired {status : ClaimStatus} (h : status.value = ClaimStatus.value .acquired) :
    status = .acquired := by
  revert h
  cases status <;> decide

omit [UnicodeData] in
theorem entries_exclusive (hs : s.Sound) : s.entries.Exclusive := by
  intro id id' e e' he he' hne hacq hacq'
  obtain ⟨r, hfind, rfl⟩ := Option.map_eq_some_iff.1 he
  obtain ⟨q, hfind', rfl⟩ := Option.map_eq_some_iff.1 he'
  obtain ⟨hr, hrid⟩ := Registry.mem_of_find? hfind
  obtain ⟨hq, hqid⟩ := Registry.mem_of_find? hfind'
  refine hs.disjoint hr hq (value_eq_acquired hacq) (value_eq_acquired hacq') ?_
  rw [hrid, hqid]
  exact hne

omit [UnicodeData] in
theorem grant_of_reports
    (hparse : parseJsonStrict e.eventJson = .ok event) (hreports : Reports event kind d extra) :
    grant e = if kind = str "claim-acquired" ∨ kind = str "claim-handed-off" then
      d.fenceToken.map (d.claimId, ·) else none := by
  unfold grant
  simp only [hparse, hreports.kind, hreports.claimId, hreports.fenceToken]
  cases d.fenceToken with
  | none => simp [jsonOption]
  | some t => rfl

/-- A row acquired in `s'` was acquired in `s`, or `e` grants it. -/
def Announced (s : Registry) (e : EventRow) (s' : Registry) : Prop :=
  ∀ r' ∈ s'.workClaims, r'.status = .acquired →
    (∃ r ∈ s.workClaims, r.claimId = r'.claimId ∧ r.status = .acquired) ∨
      ∃ t, grant e = some (r'.claimId, t)

omit [UnicodeData] in
/-- A change either grants the next token, to the claim its event names, or grants nothing. -/
theorem Change.grant_cases (h : Change s t kind d extra)
    (hparse : parseJsonStrict e.eventJson = .ok event) (hreports : Reports event kind d extra) :
    (grant e = none ∨ (grant e = some (d.claimId, s.lastFence + 1) ∧
      t.lastFence = s.lastFence + 1)) ∧ Announced s e t := by
  have hgrant := grant_of_reports hparse hreports
  have hkept : ∀ {r : Row}, r ∈ s.workClaims → r.status = .acquired →
      ∃ q ∈ s.workClaims, q.claimId = r.claimId ∧ q.status = .acquired :=
    fun hr hacq => ⟨_, hr, rfl, hacq⟩
  cases h with
  | @close r status kind extra current hr hclosing =>
    have hnone : grant e = none := hgrant.trans (if_neg hclosing.not_granting)
    refine ⟨.inl hnone, ?_⟩
    intro q hq hacq
    rcases Registry.mem_update.1 hq with ⟨p, -, -, rfl⟩ | ⟨hq, -⟩
    · have hclosed := hclosing.isOpen_right
      rw [Row.closed_status] at hacq
      simp [hacq, ClaimStatus.isOpen] at hclosed
    · exact .inl (hkept hq hacq)
  | @promote r expiresAt hr hwaiting hfree =>
    have hsome : grant e = some (r.claimId, s.lastFence + 1) := hgrant
    refine ⟨.inr ⟨hsome, rfl⟩, ?_⟩
    intro q hq hacq
    rcases Registry.mem_update.1 hq with ⟨p, -, hid, rfl⟩ | ⟨hq, -⟩
    · exact .inr ⟨s.lastFence + 1, by rw [hsome, Row.granted_claimId, hid]⟩
    · exact .inl (hkept hq hacq)
  | @enqueue r blockedBy reason hfresh hwaiting htoken hblocked =>
    have hnone : grant e = none := hgrant.trans (if_neg (by decide))
    refine ⟨.inl hnone, ?_⟩
    intro q hq hacq
    rcases Registry.mem_insert.1 hq with hq | rfl
    · exact .inl (hkept hq hacq)
    · rw [Row.numbered_status, hwaiting] at hacq
      cases hacq
  | @admitted r expiresAt hfresh hwaiting htoken hfree =>
    have hsome : grant e = some (r.claimId, s.lastFence + 1) := hgrant
    refine ⟨.inr ⟨hsome, rfl⟩, ?_⟩
    intro q hq hacq
    rcases Registry.mem_update.1 hq with ⟨p, -, hid, rfl⟩ | ⟨hq, -⟩
    · exact .inr ⟨s.lastFence + 1, by rw [hsome, Row.granted_claimId, hid]⟩
    · rcases Registry.mem_insert.1 hq with hq | rfl
      · exact .inl (hkept hq hacq)
      · rw [Row.numbered_status, hwaiting] at hacq
        cases hacq
  | @handoff r new current note hr hacquired hfresh hstatus htoken hres =>
    have hsome : grant e = some (new.claimId, s.lastFence + 1) := by
      rw [hgrant]
      show new.fenceToken.map _ = _
      rw [htoken]
      rfl
    refine ⟨.inr ⟨hsome, rfl⟩, ?_⟩
    intro q hq hacq
    rcases Registry.mem_insert.1 hq with hq | rfl
    · rcases Registry.mem_update.1 hq with ⟨p, -, -, rfl⟩ | ⟨hq, -⟩
      · simp at hacq
      · exact .inl (hkept hq hacq)
    · exact .inr ⟨_, hsome⟩
  | renew hr hopen =>
    have hnone : grant e = none := hgrant.trans (if_neg (by decide))
    refine ⟨.inl hnone, ?_⟩
    intro q hq hacq
    rcases Registry.mem_update.1 hq with ⟨p, hp, -, rfl⟩ | ⟨hq, -⟩
    · exact .inl ⟨p, hp, rfl, hacq⟩
    · exact .inl (hkept hq hacq)
  | reject hstatus =>
    have hnone : grant e = none := hgrant.trans (if_neg (by decide))
    exact ⟨.inl hnone, fun q hq hacq => .inl (hkept hq hacq)⟩

omit [UnicodeData] in
theorem replay_append (events : List EventRow) (e : EventRow) :
    replay (events ++ [e]) = (replay events).applyRow e := by
  simp [replay]

omit [UnicodeData] in
theorem Registry.Recorded.empty [UnicodeData] : Registry.empty.Recorded where
  replays := rfl
  chain := trivial
  exclusive := by
    intro events hprefix
    rw [show Registry.empty.events = [] from rfl, List.prefix_nil] at hprefix
    subst hprefix
    intro id id' e e' he
    cases he
  tokens := List.Pairwise.nil
  token_le := by simp [Registry.empty]

theorem Step.recorded (h : Step s s') (hs : s.Sound) (hrec : s.Recorded) : s'.Recorded := by
  cases h with
  | @extended r expiresAt ttlSeconds hr hopen =>
    exact ⟨hrec.replays.trans (entries_touch _ _ _).symm, hrec.chain, hrec.exclusive,
      hrec.tokens, hrec.token_le⟩
  | @logged t _ kind d current extra hchange hlog =>
    obtain ⟨e, event, rfl, hparse, hreports, hprevious, hcolumn, hdigest⟩ :=
      hlog.exists_row hchange.extraMembers
    have hevents : t.events = s.events := by
      cases hchange <;> rfl
    have hfence := (hchange.grows hs).fence_le
    rw [hevents] at hprevious hcolumn ⊢
    have hreplays : replay (s.events ++ [e]) = t.entries := by
      rw [replay_append, hrec.replays]
      unfold Replay.applyRow
      rw [hparse]
      exact hchange.apply_entries hs hreports
    refine ⟨hreplays, chain_append hrec.chain ?_, ?_, ?_, ?_⟩
    · rw [Option.or_none]
      exact ⟨event, hparse, hprevious, hcolumn, hdigest⟩
    · intro events hprefix
      rcases List.prefix_concat_iff.1 hprefix with rfl | hprefix
      · rw [hreplays]
        exact entries_exclusive (hchange.sound hs)
      · exact hrec.exclusive events hprefix
    · rw [List.filterMap_append, List.pairwise_append]
      refine ⟨hrec.tokens, ?_, ?_⟩
      · rcases (hchange.grant_cases hparse hreports).1 with hnone | ⟨hsome, -⟩
        · simp [hnone]
        · simp [hsome]
      · intro g hg g' hg'
        have hle := hrec.token_le g hg
        rcases (hchange.grant_cases hparse hreports).1 with hnone | ⟨hsome, -⟩
        · simp [hnone] at hg'
        · simp only [List.filterMap_cons, hsome, List.filterMap_nil, List.mem_singleton] at hg'
          rw [hg']
          show g.2 < s.lastFence + 1
          omega
    · intro g hg
      show g.2 ≤ t.lastFence
      rw [List.filterMap_append, List.mem_append] at hg
      rcases hg with hg | hg
      · exact (hrec.token_le g hg).trans hfence
      · rcases (hchange.grant_cases hparse hreports).1 with hnone | ⟨hsome, hnext⟩
        · simp [hnone] at hg
        · simp only [List.filterMap_cons, hsome, List.filterMap_nil, List.mem_singleton] at hg
          rw [hg, hnext]

theorem Steps.recorded (h : Steps s s') (hs : s.Sound) (hrec : s.Recorded) : s'.Recorded := by
  induction h with
  | refl => exact hrec
  | tail hsteps hstep ih => exact hstep.recorded (Steps.sound hsteps hs) ih

theorem run_recorded (calls : List Call) : (reached calls).Recorded := by
  have hboth : (reached calls).Settled ∧
      (reached calls).Recorded := by
    refine run_invariant (I := fun s : Registry => s.Settled ∧ s.Recorded) ?_ ⟨.empty, .empty⟩
      calls
    rintro s call reply s' ⟨hs, hrec⟩ h
    obtain ⟨hsteps, hs'⟩ := exec_settled hs h
    exact ⟨hs', Steps.recorded hsteps hs.sound hrec⟩
  exact hboth.2

/-- The log is complete: folding it gives the `work_claims` table, and its chain verifies. -/
theorem replay_eq_entries (calls : List Call) :
    replay (reached calls).events = (reached calls).entries ∧
      verifyEvents (reached calls)
        = .ok (reached calls).events.length := by
  have hrec := run_recorded calls
  refine ⟨hrec.replays, ?_⟩
  have hverify := verifyEventsFrom_of_chain hrec.chain 0
  rw [Nat.zero_add] at hverify
  exact hverify

end IntegrityGuardian.WorkClaims
