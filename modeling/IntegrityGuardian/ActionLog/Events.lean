import IntegrityGuardian.ActionLog.Recovery
import IntegrityGuardian.ActionLog.Redaction

/-!
# Appending an event

`normalize_event` and `insert_event` of `codex_action_log.py`.  A call looks its
identity up, inserts, and after a violated constraint looks it up again; each of
the three is one SQL statement, and other calls may come between them.
-/

namespace IntegrityGuardian.ActionLog

open Python Library
open Json (ch)

variable [FloatData] [UnicodeData] [WordData]

/-! ## Normalisation -/

/-- `str(raw.get(key) or default)`. -/
def textOr (raw : Value) (key : String) (default : Str) : Str :=
  match raw.get? (str key) with
  | some v => if v.truthy then v.text else default
  | none => default

/-- `level.lower()` where it is one of `LEVELS`; none of their letters has another capital. -/
def normalizeLevel (level : Str) : Str :=
  let lower := level.map fun c => if h : 65 ≤ c.val ∧ c.val ≤ 90 then ⟨c.val + 32, by omega⟩ else c
  if lower ∈ ["debug", "info", "warning", "error"].map str then lower else str "info"

/-- `normalize_details`. -/
def normalizeDetails (details : Option Value) : Value :=
  match details with
  | none | some .null => .obj []
  | some (.str s) =>
    if s.strip = [] then .obj []
    else
      match Value.loads s.strip with
      | .ok v => redactValue [] v
      | .error _ => .obj [(str "text", .str (redactText s.strip))]
  | some v => redactValue [] v

/-- `re.split(r"[,;\s]+", tags)`. -/
def splitTags (tags : Str) : List Str :=
  let isSeparator := fun c : CodePoint => c == ch ',' || c == ch ';' || c.isspace
  tags.splitBy (fun a b => isSeparator a == isSeparator b) |>.filter fun part =>
    !part.any isSeparator

/-- The loop of `normalize_tags`. -/
def collectTags (items : List Str) : List Str :=
  items.foldl (fun result item =>
    if item.strip ≠ [] ∧ item.strip ∉ result then result ++ [redactText item.strip]
    else result) []

/-- `normalize_tags`. -/
def normalizeTags (tags : Option Value) : List Str :=
  match tags with
  | none | some .null => []
  | some (.str s) => collectTags (splitTags s)
  | some (.arr items) => collectTags (items.map Value.text)
  | some v => collectTags [v.text]

/-- The columns of an event but its number. -/
structure Event where
  tsUtc : Str
  actor : Str
  sessionId : Str
  level : Str
  action : Str
  summary : Str
  details : Str
  tags : Str
  eventUid : Str
  createdUtc : Str
  deriving DecidableEq

/-- The identity an event is stored under. -/
def storedUid (uid : Str) : Str := (redactText uid).take 160

/-- `str(raw.get("event_uid") or "")`. -/
def rawUid (raw : Value) : Str := textOr raw "event_uid" []

/-- The details of an event. -/
def detailsOf (raw : Value) : Value := normalizeDetails (raw.get? (str "details"))

/-- The summary of an event. -/
def summaryOf (raw : Value) : Str :=
  let summary := (redactText (textOr raw "summary" [])).take 2000
  if summary = [] then str "(no summary)" else summary

/-- The dictionary `normalize_event` builds. -/
def eventOf (now created : Str) (raw : Value) : Event where
  tsUtc := textOr raw "ts_utc" now
  actor := (redactText (textOr raw "actor" (str "codex"))).take 120
  sessionId := (redactText (textOr raw "session_id" [])).take 200
  level := normalizeLevel (textOr raw "level" (str "info"))
  action := (redactText (textOr raw "action" (str "note"))).take 160
  summary := summaryOf raw
  details := (detailsOf raw).compact
  tags := (Value.arr ((normalizeTags (raw.get? (str "tags"))).map .str)).compact
  eventUid := storedUid (rawUid raw)
  createdUtc := created

/-- `normalize_event`, with the two readings of the clock. -/
def normalizeEvent (now created : Str) (raw : Value) : Except Exc Event := do
  ensure (∀ key ∈ ["created_at", "created_utc", "id"], (raw.get? (str key)).isNone)
    (refuse "event identity and creation time are server-owned")
  validateRecovery (rawUid raw) (detailsOf raw)
  .ok (eventOf now created raw)

/-! ## The table -/

/-- A row of `events`. -/
structure Row where
  id : Nat
  event : Event
  deriving DecidableEq

/-- The table, and the greatest number `AUTOINCREMENT` has given. -/
structure Table where
  rows : List Row
  sequence : Nat

/-- The texts `sqlite3` is asked to store. -/
def Event.columns (event : Event) : List Str :=
  [event.tsUtc, event.actor, event.sessionId, event.level, event.action, event.summary,
    event.details, event.tags, event.eventUid, event.createdUtc]

/-- `SELECT * FROM events WHERE event_uid = ?`. -/
def Table.lookup (table : Table) (uid : Str) : Except Exc (Option Row) := do
  ensure (encodeUtf8 uid).isSome .unicodeEncodeError
  .ok (table.rows.find? fun row => row.event.eventUid = uid)

/-- `INSERT INTO events`: a repeated identity violates the unique index. -/
def Table.insert (table : Table) (event : Event) : Except Exc Table := do
  ensure (event.columns.all fun column => (encodeUtf8 column).isSome) .unicodeEncodeError
  ensure (event.eventUid = [] ∨ ∀ row ∈ table.rows, row.event.eventUid ≠ event.eventUid)
    (.integrityError (str "events.event_uid"))
  .ok ⟨table.rows ++ [⟨table.sequence + 1, event⟩], table.sequence + 1⟩

/-! ## Replies -/

/-- What a call returns: its flag, the row, and the row's two JSON columns. -/
structure Reply where
  duplicate : Bool
  row : Row
  details : Value
  tags : Value

/-- Why a call fails. -/
inductive Failure where
  /-- The identity is taken by other content. -/
  | collision (message : Str)
  | raised (e : Exc)
  deriving DecidableEq

/-- `json.loads` of a JSON column. -/
def column (text : Str) : Except Failure Value :=
  match Value.loads text with
  | .ok v => .ok v
  | .error e => .error (.raised e)

/-- A JSON column in `rows_to_events`, where a text that is no JSON stays. -/
def columnOrText (text : Str) : Value :=
  match Value.loads text with
  | .ok v => v
  | .error _ => .str text

/-- `existing_reply`. -/
def existingReply (raw : Value) (event : Event) (existing : Row) : Except Failure Reply := do
  ensure (existing.event.actor = event.actor ∧ existing.event.sessionId = event.sessionId ∧
      existing.event.level = event.level ∧ existing.event.action = event.action ∧
      existing.event.summary = event.summary ∧ existing.event.tags = event.tags)
    (.collision (str "event_uid collides with different immutable content"))
  let stored ← column existing.event.details
  let given ← column event.details
  ensure (stored.dumpsSorted = given.dumpsSorted)
    (.collision (str "event_uid collides with different immutable content"))
  ensure (¬(raw.get? (str "ts_utc")).any Value.truthy ∨ existing.event.tsUtc = event.tsUtc)
    (.collision (str "event_uid collides with different immutable fact time"))
  .ok ⟨true, existing, columnOrText existing.event.details, columnOrText existing.event.tags⟩

/-- The reply to an event that was inserted. -/
def insertedReply (row : Row) : Except Failure Reply := do
  let details ← column row.event.details
  let tags ← column row.event.tags
  .ok ⟨false, row, details, tags⟩

/-! ## Calls, one statement at a time -/

/-- The argument of `insert_event`, and the clock as the call reads it. -/
structure Call where
  raw : Value
  now : Str
  created : Str
  isDict : ∃ members, raw = .obj members
  plain : raw.plain = true

/-- The next statement of a call, or its outcome. -/
inductive Phase where
  | start
  | inserting (event : Event)
  | colliding (event : Event)
  | done (outcome : Except Failure Reply)

/-- The outcome of a lookup that found a row. -/
def Phase.reply (raw : Value) (event : Event) (existing : Row) : Phase :=
  .done (existingReply raw event existing)

/-- Executes the next statement of a call. -/
def advance (call : Call) (phase : Phase) (table : Table) : Phase × Table :=
  match phase with
  | .start =>
    match normalizeEvent call.now call.created call.raw with
    | .error e => (.done (.error (.raised e)), table)
    | .ok event =>
      if event.eventUid = [] then (.inserting event, table)
      else
        match table.lookup event.eventUid with
        | .error e => (.done (.error (.raised e)), table)
        | .ok (some existing) => (.reply call.raw event existing, table)
        | .ok none => (.inserting event, table)
  | .inserting event =>
    match table.insert event with
    | .ok table' => (.done (insertedReply ⟨table.sequence + 1, event⟩), table')
    | .error (.integrityError constraint) =>
      if event.eventUid = [] then (.done (.error (.raised (.integrityError constraint))), table)
      else (.colliding event, table)
    | .error e => (.done (.error (.raised e)), table)
  | .colliding event =>
    match table.lookup event.eventUid with
    | .ok (some existing) => (.reply call.raw event existing, table)
    | .ok none => (.done (.error (.raised (.integrityError (str "events.event_uid")))), table)
    | .error e => (.done (.error (.raised e)), table)
  | .done outcome => (.done outcome, table)

/-- The table and every call made so far, in the order they were made. -/
structure System where
  table : Table
  calls : List (Call × Phase)

/-- What happens next: a new call, or the next statement of an old one. -/
inductive Step where
  | call (call : Call)
  | statement (index : Nat)

/-- One step. -/
def System.step (s : System) : Step → System
  | .call call => { s with calls := s.calls ++ [(call, .start)] }
  | .statement index =>
    match s.calls[index]? with
    | none => s
    | some (call, phase) =>
      let (phase', table) := advance call phase s.table
      ⟨table, s.calls.set index (call, phase')⟩

/-- An empty table and no calls. -/
def System.empty : System := ⟨⟨[], 0⟩, []⟩

/-- Any interleaving of calls. -/
def System.run (s : System) (steps : List Step) : System := steps.foldl System.step s

end IntegrityGuardian.ActionLog
