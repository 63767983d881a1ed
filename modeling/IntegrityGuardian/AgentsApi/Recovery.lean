import IntegrityGuardian.AgentsApi.Journal

/-!
# What a recovery computes

`reconcile` of `lifecycle.py`, `aggregate_usage` of `contracts.py`, and the
paginated reads and the comparison `recover` makes of them.
-/

namespace IntegrityGuardian.AgentsApi

open Python Library

section
variable [FloatData]

/-- `value[key]`. -/
def item (value : Value) (key : String) : Except Error Value :=
  match value.get? (str key) with
  | some member => .ok member
  | none => .error .raised

/-- `identifier` of any object. -/
def identifierOf : Value → Except Error Str
  | .str s => identifier s
  | _ => .error (reject "invalid_identifier")

/-- `number` of any object. -/
def numberOf (value : Value) (low : Int := 0) (high : Int := 9007199254740991) :
    Except Error Int :=
  match value with
  | .int n => number n low high
  | _ => .error (reject "invalid_integer")

/-- `identifier(value["id"])`. -/
def idOf (value : Value) : Except Error Str := do
  let id ← item value "id"
  identifierOf id

/-- `frozen`: the same value, once its encoding is within the bounds. -/
def frozen (value : Value) : Except Error Value := do
  let _ ← encode value
  .ok value

/-- `encode(value) == encode(other)`. -/
def sameEncoding (value other : Value) : Except Error Bool := do
  let left ← encode value
  let right ← encode other
  .ok (left == right)

/-- `FINAL`. -/
def final : List Str := [str "completed", str "failed", str "cancelled", str "incomplete"]

/-- `value.get("status") in FINAL`. -/
def isFinal (value : Value) : Except Error Bool :=
  match value.get? (str "status") with
  | some (.str s) => .ok (final.contains s)
  | some (.arr _) => .error .raised
  | some (.obj _) => .error .raised
  | _ => .ok false

/-! ## Usage -/

structure Usage where
  inputTokens : Int
  outputTokens : Int
  unknownTurns : List Str
  completeObservation : Bool

/-- The optional part of a usage report. -/
def checkDetails (usage : Value) (details part : String) (bound : Int) : Except Error Unit :=
  match usage.get? (str details) with
  | none => .ok ()
  | some (.obj members) => do
    let _ ← numberOf ((members.lookup (str part)).getD (.int 0)) 0 bound
    .ok ()
  | some _ => .error .raised

/-- The input and output tokens of a turn, if it reports them. -/
def turnUsage (turn : Value) : Except Error (Option (Int × Int)) :=
  match turn.get? (str "usage") with
  | none | some .null => .ok none
  | some (.obj members) => do
    let usage := Value.obj members
    let inputs ← item usage "input_tokens" >>= numberOf
    let outputs ← item usage "output_tokens" >>= numberOf
    let total ← item usage "total_tokens" >>= numberOf
    ensure (total = inputs + outputs) (reject "usage_inconsistent")
    checkDetails usage "input_tokens_details" "cached_tokens" inputs
    checkDetails usage "output_tokens_details" "reasoning_tokens" outputs
    .ok (some (inputs, outputs))
  | some _ => .error (reject "usage_type")

/-- The loop of `aggregate_usage`. -/
def addTurn (state : List Str × Usage) (turn : Value) : Except Error (List Str × Usage) := do
  let key ← idOf turn
  ensure (key ∉ state.1) (reject "duplicate_usage_turn")
  let usage ← turnUsage turn
  match usage with
  | none => .ok (key :: state.1, { state.2 with unknownTurns := state.2.unknownTurns ++ [key] })
  | some (inputs, outputs) => .ok (key :: state.1, { state.2 with
      inputTokens := state.2.inputTokens + inputs
      outputTokens := state.2.outputTokens + outputs })

/-- `aggregate_usage`. -/
def aggregateUsage (turns : List Value) : Except Error Usage := do
  let (_, usage) ← turns.foldlM addTurn ([], ⟨0, 0, [], false⟩)
  .ok { usage with completeObservation := usage.unknownTurns == [] && turns.length != 0 }

/-! ## Reconciliation -/

/-- `table[key] = value`. -/
def assign (table : List (Str × Value)) (key : Str) (value : Value) : List (Str × Value) :=
  if table.any (·.1 = key) then table.map fun entry => if entry.1 = key then (key, value) else entry
  else table ++ [(key, value)]

/-- The dictionaries of `reconcile`. -/
structure Reconciliation where
  saved : List (Str × Value)
  seenEvents : List (Str × Str)
  roots : List (Str × Value)
  unsupported : List Str

/-- A persisted item or turn. -/
def addSaved (code : String) (table : List (Str × Value)) (value : Value) :
    Except Error (List (Str × Value)) := do
  let key ← idOf value
  ensure (table.lookup key = none) (reject code)
  let value ← frozen value
  .ok (assign table key value)

def addRoot (table : List (Str × Value)) (turn : Value) : Except Error (List (Str × Value)) := do
  let key ← idOf turn
  ensure (table.lookup key = none) (reject "duplicate_turn")
  match turn.get? (str "status") with
  | some (.str _) => do
    let turn ← frozen turn
    .ok (assign table key turn)
  | _ => .error (reject "turn_status_missing")

/-- The members of a turn but its usage. -/
def identityOf : Value → Value
  | .obj members => .obj (members.filter fun member => member.1 ≠ str "usage")
  | other => other

/-- A streamed item or turn: a terminal one is kept, and only confirmed. -/
def mergeUpdate (identity : Value → Value) (code : String) (table : List (Str × Value))
    (value : Value) : Except Error (List (Str × Value)) := do
  let key ← idOf value
  match table.lookup key with
  | none => do
    let value ← frozen value
    .ok (assign table key value)
  | some prior => do
    let settled ← isFinal prior
    if settled then do
      let terminal ← isFinal value
      if terminal then do
        let same ← sameEncoding (identity prior) (identity value)
        ensure (same = true) (reject code)
        .ok table
      else .ok table
    else do
      let value ← frozen value
      .ok (assign table key value)

/-- The turn an event carries has the status the event names. -/
def checkTurnEvent (type : Str) (turn : Value) : Except Error Unit := do
  ensure (turn.get? (str "subagent_id") ≠ none) (reject "turn_attribution_missing")
  if type = str "agent.session.turn.started" then do
    let terminal ← isFinal turn
    ensure (terminal = false) (reject "event_turn_status_mismatch")
  else
    match turn.get? (str "status") with
    | some (.str status) =>
      ensure (type = str "agent.session.turn." ++ status) (reject "event_turn_status_mismatch")
    | _ => .error (reject "event_turn_status_mismatch")

def itemEvents : List Str :=
  [str "agent.session.turn.item.added", str "agent.session.turn.item.done"]

def turnEvents : List Str :=
  [str "agent.session.turn.completed", str "agent.session.turn.failed",
    str "agent.session.turn.cancelled", str "agent.session.turn.started"]

def hintEvents : List Str :=
  [str "agent.session.idle", str "agent.session.requires_action", str "agent.session.created",
    str "agent.session.environment.connected", str "agent.session.environment.pending",
    str "agent.session.environment.failed", str "agent.session.turn.output_text.delta",
    str "agent.session.turn.output_text.done", str "agent.session.subagent.created"]

/-- A buffered event that was not seen before. -/
def applyNewEvent (r : Reconciliation) (key : Str) (event : Value) :
    Except Error Reconciliation :=
  match event.get? (str "type") with
  | some (.str type) =>
    if itemEvents.contains type then do
      let value ← item event "item"
      let saved ← mergeUpdate id "conflicting_terminal_item" r.saved value
      .ok { r with saved }
    else if turnEvents.contains type then do
      let turn ← item event "turn"
      let _ ← idOf turn
      checkTurnEvent type turn
      let roots ← mergeUpdate identityOf "conflicting_terminal_turn" r.roots turn
      .ok { r with roots }
    else if hintEvents.contains type then .ok r
    else .ok { r with unsupported := r.unsupported ++ [key] }
  | _ => .ok { r with unsupported := r.unsupported ++ [key] }

/-- The loop over the buffered events. -/
def applyEvent (sessionId : Str) (r : Reconciliation) (event : Value) :
    Except Error Reconciliation := do
  let raw ← encode event
  ensure ((event.get? (str "session_id")).any (·.eq (.str sessionId)) = true)
    (reject "foreign_event")
  let eventId ← item event "event_id"
  let key ← identifierOf eventId
  match r.seenEvents.lookup key with
  | some fingerprint => do
    ensure (fingerprint = sha256Digest raw) (reject "event_identity_conflict")
    .ok r
  | none =>
    applyNewEvent { r with seenEvents := (key, sha256Digest raw) :: r.seenEvents } key event

/-- `reconcile`. -/
def reconcile (sessionId : Str) (items turns buffered : List Value) :
    Except Error Reconciliation := do
  let sessionId ← identifier sessionId
  ensure (items.length ≤ 4096 ∧ turns.length ≤ 4096 ∧ buffered.length ≤ 1024)
    (reject "recovery_limit")
  let saved ← items.foldlM (addSaved "duplicate_saved_item") []
  let roots ← turns.foldlM addRoot []
  buffered.foldlM (applyEvent sessionId) ⟨saved, [], roots, []⟩

/-- `turn["status"] not in FINAL or "subagent_id" not in turn`. -/
def activeOrUnknown (turn : Value) : Except Error Bool := do
  let _ ← item turn "status"
  let terminal ← isFinal turn
  .ok (!terminal || (turn.get? (str "subagent_id")).isNone)

/-- `projection["active_or_unknown_turns"]`. -/
def Reconciliation.activeOrUnknownTurns (r : Reconciliation) : Except Error (List Str) := do
  let active ← r.roots.mapM fun (key, turn) => do
    let active ← activeOrUnknown turn
    .ok (key, active)
  .ok ((active.filter (·.2)).map Prod.fst)

/-! ## Snapshots -/

/-- `boundary`. -/
def boundary (snapshot : Value) : Value :=
  .obj ([str "id", str "status", str "required_actions", str "environment"].map fun key =>
    (key, (snapshot.get? key).getD .null))

/-- What `snapshot` accepts as the state of a session. -/
def checkSnapshot (session : Str) (document : Value) : Except Error Value := do
  ensure ((document.get? (str "id")).any (·.eq (.str session)) = true)
    (reject "session_response_identity")
  match document.get? (str "required_actions") with
  | none | some (.arr _) => frozen document
  | some _ => .error (reject "required_actions_shape")

/-- `recover`, from its reads to the flag it asks the journal to set: the usage of the
session is complete and nothing is going on. -/
def settledUsage (session : Str) (first last : Value) (items turns buffered : List Value) :
    Except Error Bool := do
  let same ← sameEncoding (boundary first) (boundary last)
  ensure (same = true) (reject "session_changed_during_recovery")
  let projection ← reconcile session items turns buffered
  let active ← projection.activeOrUnknownTurns
  let usage ← aggregateUsage turns
  .ok (usage.completeObservation && (last.get? (str "status")).any (·.eq (.str (str "idle")))
    && !((last.get? (str "required_actions")).any (·.truthy)) && active == []
    && projection.unsupported == [])

/-! ## Pages -/

structure Page where
  data : List Value
  hasMore : Bool
  lastId : Value

/-- The loop state of `pages`. -/
structure Paging where
  cursor : Str
  cursors : List Str
  result : List Value
  ids : List Str
  count : Nat

/-- Before the first page. -/
def Paging.start : Paging := ⟨[], [], [], [], 0⟩

/-- The loop over the items of a page. -/
def addPaged (state : List Str × List Value) (value : Value) :
    Except Error (List Str × List Value) := do
  let key ← idOf value
  ensure (key ∉ state.1) (reject "duplicate_paginated_item")
  let value ← frozen value
  .ok (key :: state.1, state.2 ++ [value])

/-- What follows a page: the next request, or the whole collection. -/
def Paging.next (p : Paging) (page : Page) : Except Error (Paging ⊕ List Value) := do
  ensure (page.data.length ≤ 100) (reject "page_limit")
  let (ids, result) ← page.data.foldlM addPaged (p.ids, p.result)
  let _ ← encode (.arr result)
  if page.hasMore = false then .ok (.inr result)
  else do
    ensure (page.data ≠ []) (reject "empty_nonterminal_page")
    let cursor ← identifierOf page.lastId
    ensure (page.data.getLast?.any (fun v => (v.get? (str "id")).any (·.eq (.str cursor)))
        ∧ cursor ∉ p.cursors) (reject "cursor_conflict")
    ensure (p.count + 1 < 20) (.unknown (str "history_page_limit_no_partial_success"))
    .ok (.inl ⟨cursor, cursor :: p.cursors, result, ids, p.count + 1⟩)

end

end IntegrityGuardian.AgentsApi
