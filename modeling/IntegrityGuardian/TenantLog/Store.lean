import IntegrityGuardian.Python.StrictJson

/-!
# The tenant Action Log

`TenantActionLogStore` of `tenant_action_log.py`: one file of events, read and written as a
whole inside the state lock.
-/

namespace IntegrityGuardian.TenantLog

open Python Library
open Python.Json (ch)

def maxActionLogBytes : Nat := 128 * 1024 * 1024

def maxActionLogEvents : Nat := 100000

def maxEventLineBytes : Nat := 96 * 1024

inductive Error where
  /-- `ActionLogProjectionError`. -/
  | projection (message : Str)
  /-- An exception the store lets through. -/
  | raised (e : Exc)
  deriving DecidableEq

def refuse (message : String) : Error := .projection (str message)

/-- What the path leads to; `none` while there is no file. -/
abbrev File := Option Bytes

section
variable [FloatData]

/-! ## Events -/

/-- The control characters a text may have. -/
def isBreak (c : CodePoint) : Bool := c == ch '\t' || c == ch '\n' || c == ch '\r'

/-- `_safe_text`. -/
def safeText (value : Option Value) (maximum : Nat) (field : String) : Except Error Str :=
  match value with
  | some (.str s) =>
    if s.strip = [] ∨ maximum < s.length ∨ s.any (fun c => c.val < 32 && !isBreak c) then
      .error (.projection (str "Action Log " ++ str field ++ str " is invalid"))
    else .ok s.strip
  | _ => .error (.projection (str "Action Log " ++ str field ++ str " is invalid"))

def allowedKeys : List Str :=
  ["actor", "level", "action", "summary", "details", "tags", "event_uid"].map str

/-- `set(payload)` is the set of the allowed keys. -/
def hasAllowedKeys (members : List (Str × Value)) : Bool :=
  (members.all fun m => allowedKeys.contains m.1)
    && allowedKeys.all fun key => (members.map Prod.fst).contains key

/-- A tag of a write. -/
def tagText : Value → Option Str
  | .str s => if s ≠ [] ∧ s.length ≤ 64 then some s else none
  | _ => none

/-- What is checked of a payload. -/
structure Payload where
  actor : Str
  level : Str
  action : Str
  summary : Str
  details : List (Str × Value)
  tags : List Str
  eventUid : Str

/-- The members of a payload. -/
def payloadMembers : Value → Except Error (List (Str × Value))
  | .obj members => .ok members
  | .foreign true _ => .error (refuse "Action Log write fields are invalid")
  | _ => .error (refuse "Action Log write is invalid")

/-- The details of a payload: a mapping whose keys are texts. -/
def detailsOf (payload : Value) : Except Error (List (Str × Value)) :=
  match payload.get? (str "details") with
  | some (.obj details) => .ok details
  | _ => .error (refuse "Action Log details are invalid")

/-- The tags of a payload. -/
def tagsOf (payload : Value) : Except Error (List Str) :=
  match payload.get? (str "tags") with
  | some (.arr items) =>
    match if items.length ≤ 32 then items.mapM tagText else none with
    | some tags => .ok tags
    | none => .error (refuse "Action Log tags are invalid")
  | _ => .error (refuse "Action Log tags are invalid")

/-- The event uid of a payload. -/
def eventUidOf (payload : Value) : Except Error Str :=
  match payload.get? (str "event_uid") with
  | some (.str s) =>
    if s.length ≤ 256 then .ok s else .error (refuse "Action Log event uid is invalid")
  | _ => .error (refuse "Action Log event uid is invalid")

/-- The checks of `write_json`. -/
def readPayload (path : Str) (payload : Value) : Except Error Payload := do
  ensure (path = str "/api/events") (refuse "Action Log write is invalid")
  let members ← payloadMembers payload
  ensure (hasAllowedKeys members) (refuse "Action Log write fields are invalid")
  let actor ← safeText (payload.get? (str "actor")) 128 "actor"
  let level ← safeText (payload.get? (str "level")) 32 "level"
  let action ← safeText (payload.get? (str "action")) 128 "action"
  let summary ← safeText (payload.get? (str "summary")) 2000 "summary"
  let details ← detailsOf payload
  let tags ← tagsOf payload
  let eventUid ← eventUidOf payload
  .ok ⟨actor, level, action, summary, details, tags, eventUid⟩

/-- `datetime.now(timezone.utc).isoformat(timespec="seconds").replace("+00:00", "Z")`. -/
def stamp (now : Instant) : Str := now.render.take 19 ++ [ch 'Z']

/-- The event a write stores; `random` is what `token_hex` draws. -/
def eventOf (payload : Payload) (id : Nat) (now : Instant) (random : Bytes) : Value :=
  .obj
    [(str "id", .int id),
      (str "ts_utc", .str (stamp now)),
      (str "actor", .str payload.actor),
      (str "level", .str payload.level),
      (str "action", .str payload.action),
      (str "summary", .str payload.summary),
      (str "details", .obj payload.details),
      (str "tags", .arr (payload.tags.eraseDups.map .str)),
      (str "event_uid", .str
        (if payload.eventUid = [] then str "tenant-memory:" ++ hex random else payload.eventUid))]

/-- `_encoded_event`. -/
def encodedEvent (event : Value) : Except Error Bytes :=
  match event.dumps with
  | .ok text =>
    match encodeUtf8 (text ++ [ch '\n']) with
    | some encoded =>
      if encoded.length ≤ maxEventLineBytes then .ok encoded
      else .error (refuse "Action Log event is too large")
    | none => .error (refuse "Action Log event is invalid")
  | .error (.valueError _) | .error .typeError | .error .unicodeEncodeError =>
    .error (refuse "Action Log event is invalid")
  | .error e => .error (.raised e)

section
variable [UnicodeData]

/-! ## Reading the file -/

/-- `not raw_line.strip()`. -/
def isBlank (line : Bytes) : Bool := line.all fun b => (9 ≤ b.toNat && b.toNat ≤ 13) || b == 32

/-- One line, with the events before it and the id of the last of them. -/
def readLine (found : List Value × Int) (line : Bytes) : Except Error (List Value × Int) :=
  if maxEventLineBytes < line.length then
    .error (refuse "tenant Action Log contains an oversized event")
  else if isBlank line then .ok found
  else
    match decodeUtf8Strict line with
    | none => .error (refuse "tenant Action Log contains invalid JSON")
    | some text =>
      match Value.loadsJsonStrict text with
      | .error _ => .error (refuse "tenant Action Log contains invalid JSON")
      | .ok (.obj members) =>
        match (Value.obj members).get? (str "id") with
        | some (.int id) =>
          if id ≠ found.2 + 1 then
            .error (refuse "tenant Action Log event sequence is invalid")
          else if maxActionLogEvents < found.1.length + 1 then
            .error (refuse "tenant Action Log has too many events")
          else .ok (found.1 ++ [.obj members], id)
        | _ => .error (refuse "tenant Action Log event sequence is invalid")
      | .ok _ => .error (refuse "tenant Action Log contains an invalid event")

/-- `_read_unlocked`. -/
def readUnlocked : File → Except Error (List Value)
  | none => .ok []
  | some data => do
    ensure (data.length ≤ maxActionLogBytes) (refuse "tenant Action Log is too large")
    let found ← (lines (10 : UInt8) data).foldlM readLine ([], 0)
    .ok found.1

/-! ## Writing -/

/-- The content `_replace_unlocked` leaves. -/
def replaceUnlocked (events : List Value) : Except Error Bytes := do
  let encoded ← events.mapM encodedEvent
  .ok encoded.flatten

structure WriteReply where
  id : Value
  duplicate : Bool

/-- The stored event with an event uid; there is none for the empty one. -/
def withUid (events : List Value) (eventUid : Str) : Option Value :=
  if eventUid = [] then none
  else events.find? fun event => (event.get? (str "event_uid")).any fun uid =>
    Value.eq uid (.str eventUid)

/-- `write_json`: the answer, and the file behind it. -/
def writeJson (path : Str) (payload : Value) (now : Instant) (random : Bytes) (file : File) :
    Except Error (WriteReply × File) := do
  let p ← readPayload path payload
  let events ← readUnlocked file
  match withUid events p.eventUid with
  | some existing =>
    match existing.get? (str "id") with
    | some id => .ok (⟨id, true⟩, file)
    | none => .error (.raised (.keyError (str "id")))
  | none => do
    ensure (events.length < maxActionLogEvents)
      (refuse "tenant Action Log event limit reached")
    let event := eventOf p (events.length + 1) now random
    let _ ← encodedEvent event
    let content ← replaceUnlocked (events ++ [event])
    .ok (⟨.int (events.length + 1), false⟩, some content)

/-! ## Requests -/

/-- `text.casefold().replace("ё", "е")`. -/
def folded (text : Str) : Str :=
  (text.flatMap UnicodeData.casefold).map fun c => if c.val = 0x451 then ⟨0x435, by omega⟩ else c

/-- `query_folded in searchable` of an event. -/
def searches (query : Str) (event : Value) : Bool :=
  decide (folded query <:+: folded (Value.compact event.sortKeys))

/-- `isinstance(value, Mapping)`. -/
def isMapping : Value → Bool
  | .obj _ | .foreign true _ => true
  | _ => false

/-- The answers of `request_json`. -/
inductive RequestReply where
  | selected (events : List Value)
  | page (events : List Value) (snapshotEventId : Int) (hasMore : Bool)
      (nextBeforeId : Option Value)

/-- `isinstance(value, int)` of what is no `bool`. -/
def intOf : Value → Option Int
  | .int n => some n
  | _ => none

/-- `event["id"] >= before` is false, or there is no `before`. -/
def isBefore (before : Option Int) (event : Value) : Bool :=
  match before with
  | none => true
  | some b =>
    match event.get? (str "id") with
    | some (.int id) => id < b
    | _ => false

/-- The pages of a query. -/
def pageOf (events : List Value) (query : Str) (snapshot : Int) (before : Option Int)
    (limit : Nat) : RequestReply :=
  let found := ((events.take snapshot.toNat).reverse.filter (isBefore before)).filter
    (searches query)
  let page := found.take limit
  let hasMore := decide (page.length < found.length)
  .page page snapshot hasMore
    (if hasMore then page.getLast?.bind fun event => event.get? (str "id") else none)

/-- The query of a request. -/
def queryOf (params : Value) : Except Error Str :=
  match params.get? (str "q") with
  | some (.str q) =>
    if q.strip ≠ [] ∧ q.length ≤ 4096 then .ok q
    else .error (refuse "Action Log query is invalid")
  | _ => .error (refuse "Action Log query is invalid")

/-- The snapshot of a request on a log of `count` events. -/
def snapshotOf (params : Value) (count : Nat) : Except Error Int :=
  match intOf ((params.get? (str "snapshot_event_id")).getD (.int count)) with
  | some n =>
    if 0 ≤ n ∧ n ≤ count then .ok n else .error (refuse "Action Log snapshot is invalid")
  | none => .error (refuse "Action Log snapshot is invalid")

/-- The event a page ends before. -/
def beforeOf (params : Value) : Except Error (Option Int) :=
  match params.get? (str "before_id") with
  | none | some .null => .ok none
  | some v =>
    match intOf v with
    | some n => if 1 ≤ n then .ok (some n) else .error (refuse "Action Log pagination is invalid")
    | none => .error (refuse "Action Log pagination is invalid")

/-- The size of a page. -/
def limitOf (params : Value) : Except Error Nat :=
  match intOf ((params.get? (str "page_size")).getD
    ((params.get? (str "limit")).getD (.int 20))) with
  | some n =>
    if 1 ≤ n ∧ n ≤ 20 then .ok n.toNat else .error (refuse "Action Log page size is invalid")
  | none => .error (refuse "Action Log page size is invalid")

/-- A request without an event id. -/
def searchPage (events : List Value) (params : Value) : Except Error RequestReply := do
  let query ← queryOf params
  let snapshot ← snapshotOf params events.length
  let before ← beforeOf params
  let limit ← limitOf params
  .ok (pageOf events query snapshot before limit)

/-- `request_json`. -/
def requestJson (path : Str) (params : Value) (file : File) : Except Error RequestReply := do
  ensure (path = str "/api/events" ∧ isMapping params) (refuse "Action Log request is invalid")
  let events ← readUnlocked file
  match params.get? (str "id") with
  | none | some .null => searchPage events params
  | some v =>
    match intOf v with
    | some id => .ok (.selected (events.filter fun event => (event.get? (str "id")).any fun w =>
      Value.eq w (.int id)))
    | none => .error (refuse "Action Log event id is invalid")

end

end

end IntegrityGuardian.TenantLog
