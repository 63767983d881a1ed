import IntegrityGuardian.TurnMemory.Histories

/-!
# What the turn-memory store guarantees

Coverage answers on every reachable store with the exact numbers, and the rules of
the state machine hold along every history.
-/

namespace IntegrityGuardian.TurnMemory.TurnMemoryStore

open Python Library
open Schemas.TurnMemory (noEventReasons)

section
variable [Ed25519Keys]

/-! ## One row of the coverage -/

/-- The outcome a stored terminal receipt tells. -/
def terminalOutcome (t : Tables) (row : RegistrationRow) : Option Str :=
  (t.findTerminal row.registrationId).bind fun terminal =>
    (decode terminal.receiptJson).toOption.bind fun receipt => textMember receipt "outcome"

/-- The row has a terminal receipt. -/
def isClosed (t : Tables) (row : RegistrationRow) : Bool :=
  (t.findTerminal row.registrationId).isSome

/-- The counts after one more row. -/
def countRow (t : Tables) (counts : Counts) (row : RegistrationRow) : Counts where
  registered := counts.registered + 1
  terminal := counts.terminal + if isClosed t row then 1 else 0
  events := counts.events + if terminalOutcome t row = some (str "events") then 1 else 0
  noEvent := counts.noEvent + if terminalOutcome t row = some (str "no-event") then 1 else 0
  unresolved := counts.unresolved + if isClosed t row then 0 else 1

omit [Ed25519Keys] in
theorem encodable_sampleFields {receipts : List Json} (h : ∀ r ∈ receipts, r.encodable = true)
    (limit returned : Nat) (complete hasMore limited : Bool) :
    (Json.fields (sampleFields receipts limit returned complete hasMore limited)).encodable =
      true := by
  apply Json.encodable_fields
  intro f hf
  simp only [sampleFields, List.mem_cons, List.not_mem_nil, or_false] at hf
  rcases hf with rfl | rfl | rfl | rfl | rfl | rfl | rfl | rfl | rfl | rfl
  · simp [sampleProtocol, Json.encodable, any_isSurrogate_str]
  · exact (Json.encodableItems_iff receipts).2 h
  all_goals rfl

omit [Ed25519Keys] in
theorem extendSample_ok {limit : Nat} {entry : Json} {state : CoverageState}
    (hentry : entry.encodable = true) (hstate : ∀ r ∈ state.receiptSample, r.encodable = true) :
    ∃ state', extendSample limit entry state = .ok state' ∧ state'.counts = state.counts ∧
      ∀ r ∈ state'.receiptSample, r.encodable = true := by
  have hall : ∀ r ∈ state.receiptSample ++ [entry], r.encodable = true := by
    intro r hr
    rcases List.mem_append.1 hr with hr | hr
    · exact hstate r hr
    · rw [List.mem_singleton.1 hr]
      exact hentry
  unfold extendSample
  split
  · obtain ⟨bytes, hbytes⟩ := canonicalBytes_of_encodable
      (encodable_sampleFields hall limit (state.receiptSample ++ [entry]).length false false false)
    simp only [hbytes, raising, Except.mapError, ok_bind]
    split
    · exact ⟨_, rfl, rfl, hall⟩
    · exact ⟨_, rfl, rfl, hstate⟩
  · exact ⟨state, rfl, rfl, hstate⟩

variable {call : Call} {registration turn : Json} {row : RegistrationRow} {registrationId : Str}
  {t t' : Tables} {terminal : TerminalRow} {client : TurnMemoryStore}

omit [Ed25519Keys] in
theorem encodable_sampleEntry {registration terminal requestDigest gap :
    Json} (status : String) (hid : (Json.str registrationId).encodable = true)
    (hregistration : registration.encodable = true) (hterminal : terminal.encodable = true)
    (hdigest : requestDigest.encodable = true) (hgap : gap.encodable = true) :
    (sampleEntry registrationId registration terminal requestDigest gap status).encodable =
      true := by
  apply Json.encodable_fields
  intro f hf
  simp only [List.mem_cons, List.not_mem_nil, or_false] at hf
  rcases hf with rfl | rfl | rfl | rfl | rfl | rfl
  · exact hid
  · exact hregistration
  · exact hterminal
  · exact hdigest
  · exact hgap
  · simp [Json.encodable, any_isSurrogate_str]

omit [Ed25519Keys] in
theorem encodable_of_get? {v w : Json} {key : Str} (hwf : v.wf = true) (h : v.encodable = true)
    (hget : v.get? key = some w) : w.encodable = true := by
  obtain ⟨members, rfl⟩ := Json.isObj_of_get? hget
  have hmembers := (Json.encodableMembers_iff members).1 h
  exact (hmembers _ ((Json.lookup_eq_some_iff_mem (Json.wf_obj.1 hwf).1).1 hget)).2

theorem About.joins (hs : client.Sound t) {kind : Kind} {receipt : Json} {receiptJson : Bytes}
    (h : client.About t kind row.registrationId receiptJson receipt)
    (hrow : row ∈ t.registrations) (hregisters : client.Registers row registration turn) :
    client.Joins kind receiptJson row turn receipt := by
  obtain ⟨other, hother, hid, registration', turn', hregisters', hjoins⟩ := h
  have hsame : other = row := List.inj_on_of_nodup_map hs.ids hother hrow hid
  subst hsame
  obtain ⟨-, rfl⟩ := hregisters.unique hregisters'
  exact hjoins

omit [Ed25519Keys] in
theorem findTerminal_eq_some (h : t.findTerminal registrationId = some terminal) :
    terminal ∈ t.terminals ∧ terminal.registrationId = registrationId :=
  ⟨List.mem_of_find?_eq_some h, by simpa using List.find?_some h⟩

theorem terminalOutcome_of_closed (hs : client.Sound t)
    (hterminal : t.findTerminal row.registrationId = some terminal) :
    terminalOutcome t row = some (str "events") ∨
      terminalOutcome t row = some (str "no-event") := by
  obtain ⟨hmem, -⟩ := findTerminal_eq_some hterminal
  obtain ⟨receipt, ⟨_, _, _, _, _, _, hjoins⟩, -⟩ := hs.terminals _ hmem
  have htold : ∀ outcome, receipt.get? (str "outcome") = some (.str outcome) →
      terminalOutcome t row = some outcome := by
    intro outcome houtcome
    simp only [terminalOutcome, hterminal, Option.bind_some, hjoins.stored.decoded,
      Except.toOption, textMember, houtcome]
  cases hjoins.stored.verified.decided rfl with
  | events vs nonempty houtcome _ _ => exact Or.inl (htold _ houtcome)
  | noEvent reason known houtcome _ _ => exact Or.inr (htold _ houtcome)

theorem coverTerminal_ok (hs : client.Sound t) (limit : Nat) (hrow : row ∈ t.registrations)
    (hregisters : client.Registers row registration turn)
    (hterminal : t.findTerminal row.registrationId = some terminal)
    (state : CoverageState) (hstate : ∀ r ∈ state.receiptSample, r.encodable = true) :
    ∃ state', client.coverTerminal limit row registration terminal state = .ok state' ∧
      (∀ counts : Counts, state.counts = { counts with registered := counts.registered + 1 } →
        state'.counts = countRow t counts row) ∧
      ∀ r ∈ state'.receiptSample, r.encodable = true := by
  obtain ⟨hmem, hid⟩ := findTerminal_eq_some hterminal
  obtain ⟨receipt, habout, outcome, fields, houtcome, hfields, hdigest⟩ := hs.terminals _ hmem
  rw [hid] at habout hdigest
  have hjoins := habout.joins hs hrow hregisters
  have hencodable : (Json.str terminal.requestDigest).encodable = true := by
    obtain ⟨b, -, hb⟩ := bind_eq_ok.1 hdigest
    rw [← Except.ok.inj hb]
    exact Schemas.encodable_sha256Digest _
  obtain ⟨state', hextended, hcounts, hsample⟩ := @extendSample_ok limit _ state
    (encodable_sampleEntry "closed"
      (encodable_of_get? hregisters.stored.wf hregisters.stored.encodable hregisters.receiptId)
      hregisters.stored.encodable hjoins.stored.encodable hencodable
      (show Json.null.encodable = true from rfl)) hstate
  have htold : terminalOutcome t row = some outcome := by
    simp only [terminalOutcome, hterminal, Option.bind_some, hjoins.stored.decoded,
      Except.toOption, textMember, houtcome]
  have hclosed : isClosed t row = true := by rw [isClosed, hterminal]; rfl
  have hkinds : outcome = str "events" ∨ outcome = str "no-event" := by
    have hkinds := terminalOutcome_of_closed hs hterminal
    rw [htold] at hkinds
    exact hkinds.imp Option.some.inj Option.some.inj
  unfold coverTerminal
  simp only [hjoins.stored.decoded, hjoins.stored.verify, hjoins.verifyJoin hregisters,
    Json.textItem_eq_ok.2 houtcome, hfields, hdigest, raising, Except.mapError, ok_bind,
    ensure_of, hextended]
  refine ⟨_, rfl, ?_, hsample⟩
  intro counts hstart
  rw [hstart] at hcounts
  rcases hkinds with rfl | rfl
  · have hne : str "events" ≠ str "no-event" := events_ne_noEvent.symm
    simp [hcounts, countRow, hclosed, htold, hne]
  · have hne := events_ne_noEvent
    simp [hcounts, countRow, hclosed, htold, hne]

theorem latestGap_ok (hs : client.Sound t) (hrow : row ∈ t.registrations)
    (hregisters : client.Registers row registration turn) :
    ∃ gap receiptId, client.latestGap t row registration = .ok gap ∧
      latestGapReceiptId gap = .ok receiptId ∧ (gap.getD .null).encodable = true := by
  unfold latestGap
  cases hlast : (t.gaps.filter fun gap => gap.registrationId = row.registrationId).getLast? with
  | none => exact ⟨none, .null, rfl, rfl, rfl⟩
  | some gap =>
    have hmem := List.mem_of_getLast? hlast
    obtain ⟨hgap, hid⟩ := List.mem_filter.1 hmem
    obtain ⟨receipt, habout⟩ := hs.gaps gap hgap
    rw [of_decide_eq_true hid] at habout
    have hjoins := habout.joins hs hrow hregisters
    obtain ⟨receiptId, hreceiptId, -⟩ := hjoins.stored.verified.verified.receiptId
    have hitem : receipt.get? (str "receipt_id") = some (.str receiptId) := by
      rw [Json.get?_pop hjoins.stored.wf, if_neg (by decide)] at hreceiptId
      exact hreceiptId
    refine ⟨some receipt, .str receiptId, ?_, Json.item_eq_ok.2 hitem, hjoins.stored.encodable⟩
    simp only [hjoins.stored.decoded, hjoins.stored.verify, hjoins.verifyJoin hregisters,
      ok_bind]

theorem coverOpen_ok (hs : client.Sound t) (limit : Nat) (hrow : row ∈ t.registrations)
    (hregisters : client.Registers row registration turn)
    (hterminal : t.findTerminal row.registrationId = none)
    (state : CoverageState) (hstate : ∀ r ∈ state.receiptSample, r.encodable = true) :
    ∃ state', client.coverOpen t limit row registration state = .ok state' ∧
      (∀ counts : Counts, state.counts = { counts with registered := counts.registered + 1 } →
        state'.counts = countRow t counts row) ∧
      ∀ r ∈ state'.receiptSample, r.encodable = true := by
  obtain ⟨gap, receiptId, hgap, hreceiptId, hencodable⟩ := latestGap_ok hs hrow hregisters
  obtain ⟨state', hextended, hcounts, hsample⟩ := @extendSample_ok limit _
    { state with counts := { state.counts with unresolved := state.counts.unresolved + 1 } }
    (encodable_sampleEntry "open"
      (encodable_of_get? hregisters.stored.wf hregisters.stored.encodable hregisters.receiptId)
      hregisters.stored.encodable (show Json.null.encodable = true from rfl)
      (show Json.null.encodable = true from rfl) hencodable) hstate
  have hclosed : isClosed t row = false := by rw [isClosed, hterminal]; rfl
  have htold : terminalOutcome t row = none := by rw [terminalOutcome, hterminal]; rfl
  unfold coverOpen
  simp only [hgap, hreceiptId, raising, Except.mapError, ok_bind, hextended]
  refine ⟨_, rfl, ?_, ?_⟩
  · intro counts hstart
    simp only [hstart] at hcounts
    split <;> simp [hcounts, countRow, hclosed, htold]
  · split <;> exact hsample

theorem coverRow_ok (hs : client.Sound t) (limit : Nat) (hrow : row ∈ t.registrations)
    {state : CoverageState} (hstate : ∀ r ∈ state.receiptSample, r.encodable = true) :
    ∃ state', client.coverRow t limit state row = .ok state' ∧
      state'.counts = countRow t state.counts row ∧
      ∀ r ∈ state'.receiptSample, r.encodable = true := by
  obtain ⟨registration, turn, hregisters⟩ := hs.registered row hrow
  unfold coverRow
  rw [hregisters.verifyRow, ok_bind]
  cases hterminal : t.findTerminal row.registrationId with
  | some terminal =>
    obtain ⟨state', hcovered, hcounts, hsample⟩ := coverTerminal_ok hs limit hrow
      hregisters hterminal { state with
        counts := { state.counts with registered := state.counts.registered + 1 } } hstate
    exact ⟨state', hcovered, hcounts state.counts rfl, hsample⟩
  | none =>
    obtain ⟨state', hcovered, hcounts, hsample⟩ := coverOpen_ok hs limit hrow
      hregisters hterminal { state with
        counts := { state.counts with registered := state.counts.registered + 1 } } hstate
    exact ⟨state', hcovered, hcounts state.counts rfl, hsample⟩

/-! ## The whole coverage -/

theorem coverRows_ok (hs : client.Sound t) (limit : Nat)
    {rows : List RegistrationRow} (hrows : ∀ row ∈ rows, row ∈ t.registrations)
    (state : CoverageState) (hstate : ∀ r ∈ state.receiptSample, r.encodable = true) :
    ∃ state', rows.foldlM (client.coverRow t limit) state = .ok state' ∧
      state'.counts = rows.foldl (countRow t) state.counts := by
  induction rows generalizing state with
  | nil => exact ⟨state, rfl, rfl⟩
  | cons row rows ih =>
    obtain ⟨next, hnext, hcounts, hsample⟩ :=
      coverRow_ok hs limit (hrows row List.mem_cons_self) hstate
    obtain ⟨state', hrest, hall⟩ :=
      ih (fun r hr => hrows r (List.mem_cons_of_mem _ hr)) next hsample
    refine ⟨state', ?_, ?_⟩
    · rw [List.foldlM_cons, hnext]
      exact hrest
    · rw [List.foldl_cons, ← hcounts]
      exact hall

/-- The numbers of a list of rows. -/
def countsOf (t : Tables) (rows : List RegistrationRow) : Counts where
  registered := rows.length
  terminal := rows.countP (isClosed t)
  events := rows.countP fun row => terminalOutcome t row = some (str "events")
  noEvent := rows.countP fun row => terminalOutcome t row = some (str "no-event")
  unresolved := rows.countP fun row => !isClosed t row

omit [Ed25519Keys] in
theorem foldl_countRow (t : Tables) (rows : List RegistrationRow) (counts : Counts) :
    rows.foldl (countRow t) counts = {
      registered := counts.registered + (countsOf t rows).registered
      terminal := counts.terminal + (countsOf t rows).terminal
      events := counts.events + (countsOf t rows).events
      noEvent := counts.noEvent + (countsOf t rows).noEvent
      unresolved := counts.unresolved + (countsOf t rows).unresolved } := by
  induction rows generalizing counts with
  | nil => rfl
  | cons row rows ih =>
    rw [List.foldl_cons, ih]
    simp only [countsOf, countRow, List.length_cons, List.countP_cons, Bool.not_eq_true',
      decide_eq_true_eq, Counts.mk.injEq]
    refine ⟨by omega, by omega, by omega, by omega, ?_⟩
    cases isClosed t row
    · simp
      omega
    · simp

/-- On a sound store a coverage with admissible arguments answers, with the numbers of the
rows it selects. -/
theorem coverage_ok {policies : Tables}
    (hpolicies : client.Sound policies) (hs : client.Sound t) {machineId threadId : Option Str}
    {limit : Int} (hlimit : 1 ≤ limit ∧ limit ≤ 500)
    (hmachine : optionalIdentity machineId "machine_id" = .ok ())
    (hthread : optionalIdentity threadId "thread_id" = .ok ()) :
    ∃ answer, client.coverage machineId threadId limit policies t = .ok answer ∧
      answer.counts = countsOf t (client.selected machineId threadId t) := by
  have hpolicy : client.checkPolicy policies = .ok () := by
    unfold checkPolicy
    split
    · rfl
    · rename_i hnative
      have hlast := List.getLast?_eq_some_getLast (hpolicies.policed hnative)
      obtain ⟨receipt, hreceipt⟩ :=
        hpolicies.policies _ (List.getLast_mem (hpolicies.policed hnative))
      rw [creationPolicy_eq_ok.2 ⟨hnative, _,
        (latestPolicy_eq_getLast? hpolicies.generations).trans hlast, hreceipt⟩]
      rfl
  have hrows : ∀ row ∈ client.selected machineId threadId t, row ∈ t.registrations := by
    intro row hrow
    exact List.mem_reverse.1 (List.mem_of_mem_filter hrow)
  obtain ⟨state, hstate, hcounts⟩ := coverRows_ok hs limit.toNat hrows
    CoverageState.start (by simp [CoverageState.start])
  unfold coverage
  rw [ensure_of hlimit, ok_bind, hmachine, ok_bind, hthread, ok_bind, hpolicy, ok_bind, hstate,
    ok_bind]
  refine ⟨_, rfl, ?_⟩
  rw [hcounts, foldl_countRow]
  simp [CoverageState.start]

theorem countsOf_sums (hs : client.Sound t) (rows : List RegistrationRow) :
    (countsOf t rows).registered = (countsOf t rows).terminal + (countsOf t rows).unresolved ∧
      (countsOf t rows).terminal = (countsOf t rows).events + (countsOf t rows).noEvent := by
  induction rows with
  | nil => exact ⟨rfl, rfl⟩
  | cons row rows ih =>
    obtain ⟨hregistered, hterminal⟩ := ih
    simp only [countsOf, List.length_cons, List.countP_cons] at hregistered hterminal ⊢
    cases hfind : t.findTerminal row.registrationId with
    | none =>
      have hclosed : isClosed t row = false := by rw [isClosed, hfind]; rfl
      have htold : terminalOutcome t row = none := by rw [terminalOutcome, hfind]; rfl
      simp only [hclosed, htold, Bool.not_false, if_true, reduceCtorEq, decide_false,
        Bool.false_eq_true, if_false, Nat.add_zero]
      exact ⟨by omega, hterminal⟩
    | some terminal =>
      have hclosed : isClosed t row = true := by rw [isClosed, hfind]; rfl
      have hne := events_ne_noEvent
      rcases terminalOutcome_of_closed hs hfind with htold | htold
      · simp [hclosed, htold, hne.symm]
        omega
      · simp [hclosed, htold, hne]
        omega

/-! ## Histories -/

/-- What makes a turn: machine, thread and turn, and in the native profile the intent. -/
def turnOf (profile : Profile) (row : RegistrationRow) : Str × Str × Str × Option Str :=
  (row.machineId, row.threadId, row.turnId,
    match profile with
    | .legacy => none
    | .nativeIntent => some row.intentId)

theorem nodup_turnOf (hs : client.Sound t) :
    (t.registrations.map (turnOf client.identityProfile)).Nodup := by
  have hnodup : t.registrations.Nodup := hs.identities.of_map
  apply List.Nodup.map_on _ hnodup
  intro a ha b hb heq
  obtain ⟨_, _, hregistersA⟩ := hs.registered a ha
  obtain ⟨_, _, hregistersB⟩ := hs.registered b hb
  apply List.inj_on_of_nodup_map hs.identities ha hb
  simp only [turnOf, Prod.mk.injEq] at heq
  have hintent : a.intentId = b.intentId := by
    cases hprofile : client.identityProfile with
    | legacy => rw [hregistersA.legacy hprofile, hregistersB.legacy hprofile]
    | nativeIntent =>
      rw [hprofile] at heq
      exact Option.some.inj heq.2.2.2
  simp only [RegistrationRow.identity, Prod.mk.injEq]
  exact ⟨hregistersA.column.trans hregistersB.column.symm, heq.1, heq.2.1, heq.2.2.1, hintent⟩

/-- The call closed the turn, in a state where it was open, with the outcome its receipt tells. -/
def ClosedBy (terminal : TerminalRow) (call : Call) (t : Tables) : Prop :=
  (∀ r ∈ t.terminals, r.registrationId ≠ terminal.registrationId) ∧
    ∃ outcomeText events noEventReason closedAt outcome receipt,
      call = .closeTurn terminal.registrationId outcomeText events noEventReason closedAt ∧
      checkClose outcomeText events noEventReason = .ok outcome ∧
      decode terminal.receiptJson = .ok receipt ∧ Records outcome receipt

theorem Effect.closedBy (h : client.Effect call t t') (hterminal : terminal ∈ t'.terminals) :
    terminal ∈ t.terminals ∨ ClosedBy terminal call t := by
  cases h with
  | @closed terminal' receipt outcome _ _ _ _ made checked fresh about records answers =>
    rcases List.mem_append.1 hterminal with hold | hnew
    · exact Or.inl hold
    · rw [List.mem_singleton.1 hnew]
      obtain ⟨_, _, _, _, _, _, hjoins⟩ := about
      exact Or.inr ⟨fresh, _, _, _, _, outcome, receipt, made, checked, hjoins.stored.decoded,
        records⟩
  | _ => exact Or.inl hterminal

theorem closedBy_run (hsigner : client.signer.Lawful)
    (hs : client.Sound t) {calls : List (Call × Instant)}
    (hterminal : terminal ∈ (run client.execute t calls).terminals) :
    terminal ∈ t.terminals ∨ ∃ before call rest, calls = before ++ call :: rest ∧
      ClosedBy terminal call.1 (run client.execute t before) := by
  induction calls generalizing t with
  | nil => exact Or.inl hterminal
  | cons call calls ih =>
    rw [run_cons] at hterminal
    rcases after_cases client.execute t call with ⟨reply, hexec⟩ | ⟨-, hsame⟩
    · have heffect := execute_effect hsigner hs hexec
      rcases ih (heffect.sound hs) hterminal with hmem | ⟨before, call', rest, rfl, hclosed⟩
      · rcases heffect.closedBy hmem with hold | hclosed
        · exact Or.inl hold
        · exact Or.inr ⟨[], call, calls, rfl, hclosed⟩
      · exact Or.inr ⟨call :: before, call', rest, rfl, hclosed⟩
    · rw [hsame] at hterminal
      rcases ih hs hterminal with hold | ⟨before, call', rest, rfl, hclosed⟩
      · exact Or.inl hold
      · refine Or.inr ⟨call :: before, call', rest, rfl, ?_⟩
        rw [run_cons, hsame]
        exact hclosed

/-- The gap receipts of a registration. -/
def gapsOf (t : Tables) (registrationId : Str) : List GapRow :=
  t.gaps.filter fun gap => gap.registrationId = registrationId

/-- What is stored stays, and no gap is added to a closed turn. -/
def Settles (t t' : Tables) : Prop :=
  Grows t t' ∧ ∀ terminal ∈ t.terminals,
    gapsOf t' terminal.registrationId = gapsOf t terminal.registrationId

theorem Effect.settles (h : client.Effect call t t') : Settles t t' := by
  refine ⟨h.grows, ?_⟩
  intro terminal hterminal
  cases h with
  | @observed gap receipt isOpen about =>
    have hother : gap.registrationId ≠ terminal.registrationId :=
      fun heq => findTerminal_eq_none isOpen terminal hterminal heq.symm
    simp [gapsOf, hother]
  | _ => rfl

theorem settles_run (hsigner : client.signer.Lawful)
    (hs : client.Sound t) (calls : List (Call × Instant)) :
    Settles t (run client.execute t calls) := by
  apply run_relates (I := client.Sound) _ _ _ hs calls
  · intro u
    exact ⟨.refl u, fun _ _ => rfl⟩
  · rintro u v w ⟨huv, hgaps⟩ ⟨hvw, hgaps'⟩
    refine ⟨huv.trans hvw, ?_⟩
    intro terminal hterminal
    rw [hgaps' terminal (huv.terminals.subset hterminal), hgaps terminal hterminal]
  · intro u call reply u' hu hexec
    have heffect := execute_effect hsigner hu hexec
    exact ⟨heffect.sound hu, heffect.settles⟩

/-- The policy committed last is `enabled`. -/
def Enabled (t : Tables) : Prop :=
  ∃ row receipt, t.policies.getLast? = some row ∧ decode row.receiptJson = .ok receipt ∧
    receipt.get? (str "mode") = some (.str (str "enabled"))

theorem enabled_of_fence (hs : client.Sound t)
    (hnative : client.identityProfile = .nativeIntent) (h : client.creationFence t = .ok ()) :
    Enabled t := by
  rw [creationFence, hnative] at h
  obtain ⟨receipt, hpolicy, h⟩ := bind_eq_ok.1 h
  obtain ⟨mode, hmode, h⟩ := bind_eq_ok.1 h
  rw [ensure_eq_ok] at h
  rw [raising, mapError_eq_ok, Json.textItem_eq_ok, h] at hmode
  obtain ⟨-, row, hlatest, hrow⟩ := creationPolicy_eq_ok.1 hpolicy
  rw [latestPolicy_eq_getLast? hs.generations] at hlatest
  exact ⟨row, receipt, hlatest, hrow.decoded, hmode⟩

theorem Effect.enabled (h : client.Effect call t t') (hs : client.Sound t)
    (hnative : client.identityProfile = .nativeIntent)
    (hnew : t'.registrations ≠ t.registrations) : Enabled t := by
  cases h with
  | registered fence _ _ _ => exact enabled_of_fence hs hnative fence
  | _ => exact absurd rfl hnew

/-- The state machine: from the creation of a store, after any transactions of its clients. -/
theorem turn_memory_state_machine (client : TurnMemoryStore) (hsigner : client.signer.Lawful)
    {clock : Instant} {created : Tables}
    (hcreated : client.initializeStore clock Tables.empty = .ok created)
    (calls : List (Call × Instant)) :
    let t := run client.execute created calls
    (t.registrations.map (turnOf client.identityProfile)).Nodup ∧
    (t.terminals.map TerminalRow.registrationId).Nodup ∧
    (∀ terminal ∈ t.terminals, ∃ before call rest, calls = before ++ call :: rest ∧
      ClosedBy terminal call.1 (run client.execute created before)) ∧
    (∀ more, Settles t (run client.execute t more)) ∧
    (∀ call, client.identityProfile = .nativeIntent →
      (after client.execute t call).registrations ≠ t.registrations → Enabled t) ∧
    (∀ call e, client.execute call t = .error e → after client.execute t call = t) ∧
    ∀ more machineId threadId limit, 1 ≤ limit ∧ limit ≤ 500 →
      optionalIdentity machineId "machine_id" = .ok () →
      optionalIdentity threadId "thread_id" = .ok () →
      ∃ answer, client.coverage machineId threadId limit t (run client.execute t more) =
          .ok answer ∧
        answer.counts = countsOf (run client.execute t more)
          (client.selected machineId threadId (run client.execute t more)) ∧
        answer.counts.registered = answer.counts.terminal + answer.counts.unresolved ∧
        answer.counts.terminal = answer.counts.events + answer.counts.noEvent := by
  intro t
  have hs₀ := sound_initializeStore hcreated
  have hs : client.Sound t := sound_run hsigner hs₀ calls
  refine ⟨nodup_turnOf hs, hs.closedOnce, ?_, fun more => settles_run hsigner hs more, ?_, ?_, ?_⟩
  · intro terminal hterminal
    rcases closedBy_run hsigner hs₀ hterminal with hold | hclosed
    · obtain ⟨policies, rfl, -⟩ := initializeStore_empty hcreated
      cases hold
    · exact hclosed
  · intro call hnative hnew
    rcases after_cases client.execute t call with ⟨reply, hexec⟩ | ⟨-, hsame⟩
    · exact (execute_effect hsigner hs hexec).enabled hs hnative hnew
    · rw [hsame] at hnew
      exact absurd rfl hnew
  · intro call e hexec
    simp [after, hexec]
  · intro more machineId threadId limit hlimit hmachine hthread
    have hmore := sound_run hsigner hs more
    obtain ⟨answer, hanswer, hcounts⟩ := coverage_ok hs hmore hlimit hmachine hthread
    refine ⟨answer, hanswer, hcounts, ?_⟩
    rw [hcounts]
    exact countsOf_sums hmore _

end

namespace Sample

/-- The signature of one key on the registration below. -/
def registrationSignature : Bytes :=
  [10, 165, 160, 11, 94, 149, 126, 30, 168, 204, 30, 232, 183, 166, 87, 237, 100, 61, 54, 196, 13,
    240, 107, 6, 123, 253, 127, 108, 155, 51, 105, 182, 30, 227, 115, 81, 36, 107, 46, 222, 238,
    79, 6, 113, 229, 16, 176, 166, 113, 209, 70, 128, 176, 242, 80, 253, 44, 148, 6, 131, 89, 110,
    84, 2]

def signatureOf (payload : Bytes) : Bytes :=
  if payload.foldl (fun n b => n + b.toNat) 0 = 38704 then registrationSignature
  else List.replicate 64 0

/-- Ed25519 with a single key, on the sample document. -/
@[reducible] def ed25519 : Ed25519Keys where
  PrivateKey := Unit
  PublicKey := Unit
  sign _ payload := signatureOf payload
  verify _ signature payload := signature == signatureOf payload
  publicKey key := key
  publicBytes _ := []

attribute [local instance] ed25519

def zeroDigits : Str := List.replicate 64 (Json.ch '0')

def legacyClient : TurnMemoryStore where
  namespaceFingerprint := str "sha256:" ++ zeroDigits
  isDigest := by decide +kernel
  signer := ⟨str "k", ()⟩
  identityProfile := .legacy

theorem lawful : legacyClient.signer.Lawful where
  length payload := by
    show (signatureOf payload).length = 64
    unfold signatureOf
    split <;> rfl
  verify payload := beq_self_eq_true (signatureOf payload)

def opening : Call × Instant :=
  (.openTurn (str "m") (str "t") (str "u") zeroDigits none (some (str "2026-01-01T00:00:00Z")) true,
    0)

theorem opened : (run legacyClient.execute Tables.empty [opening]).registrations.length = 1 := by
  decide +kernel

end Sample

open Sample in
attribute [local instance] Sample.ed25519 in
/-- One opened turn and its coverage. -/
theorem opened_turn_covered :
    (run legacyClient.execute Tables.empty [opening]).registrations.length = 1 ∧
      ∃ answer, legacyClient.coverage none none 100
          (run legacyClient.execute Tables.empty [opening])
          (run legacyClient.execute Tables.empty [opening]) = .ok answer ∧
        answer.counts.registered = answer.counts.terminal + answer.counts.unresolved := by
  obtain ⟨-, -, -, -, -, -, hcoverage⟩ := @turn_memory_state_machine _ legacyClient lawful
    0 Tables.empty rfl [opening]
  have hreport := hcoverage [] none none 100 (by decide) rfl rfl
  rw [run_nil] at hreport
  obtain ⟨answer, hanswer, -, hsum, -⟩ := hreport
  exact ⟨opened, answer, hanswer, hsum⟩

end IntegrityGuardian.TurnMemory.TurnMemoryStore
