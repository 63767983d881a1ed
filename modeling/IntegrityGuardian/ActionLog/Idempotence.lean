import IntegrityGuardian.ActionLog.Events

/-!
# Appends are idempotent

Over any interleaving of calls the table only grows and no identity is stored
twice, and a repeated event is answered with its row.  Identities are compared
after redaction and truncation, so only where these keep the identities of a run
apart does a refusal mean that the same identity was accepted before.
-/

namespace IntegrityGuardian.ActionLog

open Python Library

/-! ## The table -/

variable {event : Event} {index : Nat} {row : Row} {uid : Str} {table : Table} {α : Type}

/-- No identity is stored twice. -/
def Table.Unique (table : Table) : Prop :=
  table.rows.Pairwise fun a b => a.event.eventUid ≠ [] → a.event.eventUid ≠ b.event.eventUid

/-- What every statement keeps of the table. -/
structure Table.Valid (table : Table) : Prop where
  unique : table.Unique
  encodable : ∀ row ∈ table.rows, (encodeUtf8 row.event.eventUid).isSome = true

theorem insert_eq_ok {table' : Table} (h : table.insert event = .ok table') :
    (encodeUtf8 event.eventUid).isSome = true ∧
      (event.eventUid = [] ∨ ∀ row ∈ table.rows, row.event.eventUid ≠ event.eventUid) ∧
      table'.rows = table.rows ++ [⟨table.sequence + 1, event⟩] := by
  obtain ⟨hencodable, h⟩ := ensure_bind_eq_ok.1 h
  obtain ⟨hfresh, h⟩ := ensure_bind_eq_ok.1 h
  cases h
  exact ⟨List.all_eq_true.1 hencodable _ (by simp [Event.columns]), hfresh, rfl⟩

theorem Table.Unique.eq (h : table.Unique) {a b : Row} (ha : a ∈ table.rows)
    (hb : b ∈ table.rows) (hne : a.event.eventUid ≠ [])
    (heq : a.event.eventUid = b.event.eventUid) : a = b := by
  unfold Table.Unique at h
  generalize table.rows = rows at h ha hb
  induction rows with
  | nil => cases ha
  | cons row rows ih =>
    rw [List.pairwise_cons] at h
    cases ha with
    | head =>
      cases hb with
      | head => rfl
      | tail _ hb => exact absurd heq (h.1 b hb hne)
    | tail _ ha =>
      cases hb with
      | head => exact absurd heq.symm (h.1 a ha (heq ▸ hne))
      | tail _ hb => exact ih h.2 ha hb

section
variable [FloatData] [UnicodeData] [WordData]

/-! ## Normalised events -/

variable {event : Event} {raw raw' : Value}

theorem normalizeEvent_eq_ok {now created : Str} :
    normalizeEvent now created raw = .ok event ↔
      ((∀ key ∈ ["created_at", "created_utc", "id"], (raw.get? (str key)).isNone) ∧
        validateRecovery (rawUid raw) (detailsOf raw) = .ok ()) ∧ event = eventOf now created raw := by
  unfold normalizeEvent
  rw [ensure_bind_eq_ok, bind_eq_ok]
  constructor
  · rintro ⟨hkeys, ⟨⟩, hrecovery, h⟩
    cases h
    exact ⟨⟨hkeys, hrecovery⟩, rfl⟩
  · rintro ⟨⟨hkeys, hrecovery⟩, rfl⟩
    exact ⟨hkeys, (), hrecovery, rfl⟩

/-- The keys `insert_event` reads. -/
def readKeys : List String :=
  ["created_at", "created_utc", "id", "level", "details", "event_uid", "tags", "ts_utc", "actor",
    "session_id", "action", "summary"]

/-- Two arguments with the same identity, fields and fact time. -/
def SameEvent (raw raw' : Value) : Prop :=
  ∀ key ∈ readKeys, raw.get? (str key) = raw'.get? (str key)

omit [WordData] in
theorem SameEvent.textOr (h : SameEvent raw raw') {key : String}
    (hkey : key ∈ readKeys) : ActionLog.textOr raw key = ActionLog.textOr raw' key := by
  funext default
  unfold ActionLog.textOr
  rw [h key hkey]

theorem SameEvent.eventOf (h : SameEvent raw raw') (now created : Str) :
    eventOf now created raw = eventOf now created raw' := by
  unfold ActionLog.eventOf summaryOf rawUid detailsOf
  rw [h "details" (by decide), h "tags" (by decide),
    h.textOr (by decide : "event_uid" ∈ readKeys), h.textOr (by decide : "ts_utc" ∈ readKeys),
    h.textOr (by decide : "actor" ∈ readKeys), h.textOr (by decide : "session_id" ∈ readKeys),
    h.textOr (by decide : "level" ∈ readKeys), h.textOr (by decide : "action" ∈ readKeys),
    h.textOr (by decide : "summary" ∈ readKeys)]

theorem SameEvent.normalizeEvent (h : SameEvent raw raw') {now created : Str}
    (hok : normalizeEvent now created raw = .ok event) (now' created' : Str) :
    normalizeEvent now' created' raw' = .ok (ActionLog.eventOf now' created' raw') := by
  obtain ⟨⟨hkeys, hrecovery⟩, -⟩ := normalizeEvent_eq_ok.1 hok
  refine normalizeEvent_eq_ok.2 ⟨⟨?_, ?_⟩, rfl⟩
  · intro key hkey
    rw [← h key (List.mem_of_mem_take (i := 3) hkey)]
    exact hkeys key hkey
  · unfold rawUid detailsOf at hrecovery ⊢
    rw [← h "details" (by decide), ← h.textOr (by decide : "event_uid" ∈ readKeys)]
    exact hrecovery

variable [LawfulFloatData]

variable {call : Call} {event : Event} {outcome : Except Failure Reply} {index : Nat}
  {phase : Phase} {row : Row} {created now : Str} {s : System} {table : Table} {raw : Value}

/-- The event is the one of the row, as far as `existing_reply` compares them. -/
def Repeats (raw : Value) (event : Event) (row : Row) : Prop :=
  ∃ reply, existingReply raw event row = .ok reply

/-- What is known of a call in its phase. -/
def PhaseOk (table : Table) (call : Call) : Phase → Prop
  | .start => True
  | .inserting event => normalizeEvent call.now call.created call.raw = .ok event
  | .colliding event => normalizeEvent call.now call.created call.raw = .ok event ∧
      event.eventUid ≠ [] ∧ ∃ row ∈ table.rows, row.event.eventUid = event.eventUid
  | .done (.ok reply) =>
    normalizeEvent call.now call.created call.raw = .ok (eventOf call.now call.created call.raw) ∧
    reply.row ∈ table.rows ∧ reply.row.event.eventUid = storedUid (rawUid call.raw) ∧
    Repeats call.raw (eventOf call.now call.created call.raw) reply.row
  | .done (.error _) => True

omit [LawfulFloatData] in
theorem PhaseOk.mono {table' : Table}
    (h : PhaseOk table call phase) (hrows : table.rows ⊆ table'.rows) : PhaseOk table' call phase := by
  match phase, h with
  | .start, _ => exact trivial
  | .inserting _, h => exact h
  | .colliding _, ⟨hevent, hne, row, hrow, huid⟩ => exact ⟨hevent, hne, row, hrows hrow, huid⟩
  | .done (.ok _), ⟨hevent, hrow, huid, hrepeats⟩ => exact ⟨hevent, hrows hrow, huid, hrepeats⟩
  | .done (.error _), _ => exact trivial

/-- A reply that names a row stored before, or a refusal because of one. -/
def Outcome.RefersBack : Except Failure Reply → Prop
  | .ok reply => reply.duplicate = true
  | .error (.collision _) => True
  | .error (.raised _) => False

/-- What one statement does. -/
structure Advanced (call : Call) (phase : Phase) (table : Table) (phase' : Phase)
    (table' : Table) : Prop where
  rows : table.rows <+: table'.rows
  valid : table'.Valid
  phaseOk : PhaseOk table' call phase'
  origin : ∀ row ∈ table'.rows, row ∈ table.rows ∨
    ∃ reply, phase' = .done (.ok reply) ∧ row.event.eventUid = storedUid (rawUid call.raw)
  refersBack : ∀ outcome, phase' = .done outcome → Outcome.RefersBack outcome →
    phase = .done outcome ∨
      ∃ row ∈ table.rows, row.event.eventUid = storedUid (rawUid call.raw)

omit [LawfulFloatData] in
theorem step_statement (s : System) (index : Nat) :
    s.step (.statement index) = s ∨ ∃ call phase, s.calls[index]? = some (call, phase) ∧
      s.step (.statement index) = ⟨(advance call phase s.table).2,
        s.calls.set index (call, (advance call phase s.table).1)⟩ := by
  cases hcall : s.calls[index]? with
  | none =>
    left
    simp only [System.step, hcall]
  | some entry =>
    refine .inr ⟨entry.1, entry.2, rfl, ?_⟩
    simp only [System.step, hcall]

/-- What holds after every step. -/
structure Consistent (s : System) : Prop where
  valid : s.table.Valid
  phases : ∀ (index : Nat) (call : Call) (phase : Phase), s.calls[index]? = some (call, phase) → PhaseOk s.table call phase
  origin : ∀ row ∈ s.table.rows, ∃ (index : Nat) (call : Call) (reply : Reply),
    s.calls[index]? = some (call, .done (.ok reply)) ∧
    row.event.eventUid = storedUid (rawUid call.raw)

/-- The calls of a run. -/
def callsOf (steps : List Step) : List Call :=
  steps.filterMap fun step =>
    match step with
    | .call call => some call
    | .statement _ => none

end

/-! ## Two identities with one image -/

section

/-- The one float `0.0`. -/
@[reducible] def zeroFloatData : FloatData where
  Float := Unit
  isfinite _ := true
  repr _ := str "0.0"
  ofText _ := ()
  nan := ()
  infinity := ()
  negInfinity := ()
  eq _ _ := true
  eqInt _ n := n = 0

/-- The word characters of ASCII. -/
@[reducible] def asciiWordData : WordData where
  isWord c := (48 ≤ c.val && c.val ≤ 57) || (65 ≤ c.val && c.val ≤ 90) || c.val == 95
    || (97 ≤ c.val && c.val ≤ 122)
  isWord_ascii _ _ := rfl

attribute [local instance] zeroFloatData asciiWordData asciiUnicodeData

theorem zeroFloatData_lawful : LawfulFloatData where
  repr_isFloatText := by
    intro x _
    show isFloatText (str "0.0") = true
    decide
  ofText_repr := by
    intro x _
    rfl

attribute [local instance] zeroFloatData_lawful

/-- The flag and the identity of a reply. -/
def replied (s : System) (index : Nat) : Option (Bool × Str) :=
  match s.calls[index]? with
  | some (_, .done (.ok reply)) => some (reply.duplicate, reply.row.event.eventUid)
  | _ => none

variable {index : Nat}

end

end IntegrityGuardian.ActionLog
