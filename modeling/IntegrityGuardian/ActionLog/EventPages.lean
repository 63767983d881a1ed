import IntegrityGuardian.ActionLog.Idempotence
import IntegrityGuardian.Library.Keyset
import IntegrityGuardian.Python.Calendar
import IntegrityGuardian.Python.Integers

/-!
# Reading the log in pages

`query_events` and `query_events_page` of `codex_action_log.py`.  The first page reads
the greatest number of the table, then runs its query in a second connection; other
calls may insert events in between, and between the pages.
-/

namespace IntegrityGuardian.ActionLog

open Python Library
open Json (ch decimal)

/-- `str.lower` on an ASCII character. -/
def lowerAscii (c : CodePoint) : CodePoint := if 65 ≤ c.val ∧ c.val ≤ 90 then c + 32 else c

/-- The character data and the SQL functions the query uses. -/
class QueryData extends DigitData where
  /-- `str.lower`. -/
  lower : Str → Str
  lower_ascii : ∀ text : Str, (text.all fun c => c.val < 128) = true →
    lower text = text.map lowerAscii
  /-- `column LIKE pattern ESCAPE '\'`. -/
  like : Str → Str → Bool
  /-- `EXISTS (SELECT 1 FROM json_each(…) WHERE value = tag)` on the tags of a row. -/
  jsonEach : Str → Str → Bool

/-! ## Parameters -/

/-- `dict[str, list[str]]`; the first entry under a name counts. -/
abbrev Params := List (String × List Str)

/-- `first`. -/
def first (params : Params) (name : String) : Option Str := (params.lookup name).bind List.head?

/-- `params[name] = values`. -/
def Params.set (params : Params) (name : String) (values : List Str) : Params :=
  (name, values) :: params

/-- `value or default`. -/
def orDefault (value : Option Str) (default : Str) : Str :=
  match value with
  | some (c :: rest) => c :: rest
  | _ => default

/-- `(first(params, name) or "").strip()`. -/
def textParam (params : Params) (name : String) : Str := (orDefault (first params name) []).strip

section
variable [QueryData]

def maxLimit : Int := 1000

/-- `parse_limit`. -/
def parseLimit (value : Option Str) (default : Int) : Int :=
  match value with
  | some (c :: rest) =>
    match toInt (c :: rest) with
    | some limit => max 1 (min limit maxLimit)
    | none => default
  | _ => max 1 (min default maxLimit)

/-- `parse_int_param` with its minimum of zero. -/
def parseIntParam (value : Option Str) : Nat :=
  match value with
  | some (c :: rest) => ((toInt (c :: rest)).getD 0).toNat
  | _ => 0

/-- `now` minus a span, as `parse_window` writes it. -/
def windowStart (now : Instant) (seconds : Nat) : Except Exc Str := do
  let start ← instant (now.val - now.val % 1000000 - seconds * 1000000)
  .ok start.isoformatZ

/-- The amount and the unit of a relative window. -/
def windowSpan (raw : Str) : Option Nat :=
  let isDecimal (c : CodePoint) : Bool := (DigitData.digit c).isSome
  let digits := raw.takeWhile isDecimal
  match (raw.dropWhile isDecimal).dropWhile CodePoint.isspace, natural digits with
  | [unit], some amount =>
    if unit = ch 'm' ∨ unit = ch 'M' then some (amount * 60)
    else if unit = ch 'h' ∨ unit = ch 'H' then some (amount * 3600)
    else if unit = ch 'd' ∨ unit = ch 'D' then some (amount * 86400)
    else none
  | _, _ => none

/-- `parse_window` with its default of 24 hours. -/
def parseWindow (now : Instant) (spec : Option Str) : Except Exc Str :=
  let raw := (orDefault spec (str "24h")).strip
  if QueryData.lower raw ∈ ["all", "beginning", "start", "0", "*"].map str then
    .ok (str "0001-01-01T00:00:00Z")
  else
    match windowSpan raw with
    | some seconds => windowStart now seconds
    | none =>
      match Datetime.fromisoformat raw with
      | some parsed => do
        let moment := parsed.moment (parsed.utcoffset.getD 0)
        let start ← instant (moment - moment % 1000000)
        .ok start.isoformatZ
      | none => windowStart now 86400

/-- `order == "asc"`. -/
def isAscending (params : Params) : Bool :=
  QueryData.lower (orDefault (first params "order") (str "desc")).strip == str "asc"

/-! ## The query -/

/-- `f"%{escaped}%"`. -/
def likePattern (q : Str) : Str :=
  ch '%' :: (q.flatMap fun c =>
    if c = ch '\\' ∨ c = ch '%' ∨ c = ch '_' then [ch '\\', c] else [c]) ++ [ch '%']

/-- The columns `q` is looked for in. -/
def searchedColumns (event : Event) : List Str :=
  [event.actor, event.sessionId, event.level, event.action, event.summary, event.details,
    event.tags]

/-- A filter that is left out when it is empty. -/
def unlessEmpty (text : Str) (check : Bool) : Bool := text == [] || check

/-- The conditions on the content of a row. -/
def attributesMatch (params : Params) (event : Event) : Bool :=
  let q := textParam params "q"
  let tag := textParam params "tag"
  let actor := textParam params "actor"
  let sessionId := textParam params "session_id"
  let action := textParam params "action"
  let level := QueryData.lower (textParam params "level")
  unlessEmpty q ((searchedColumns event).any fun column => QueryData.like column (likePattern q))
    && unlessEmpty tag (QueryData.jsonEach event.tags tag)
    && unlessEmpty actor (event.actor == actor)
    && unlessEmpty sessionId (event.sessionId == sessionId)
    && unlessEmpty action (event.action == action)
    && unlessEmpty level (event.level == level)

/-- A bound that is left out when it is zero. -/
def unlessZero (bound : Nat) (check : Bool) : Bool := bound == 0 || check

/-- The filters name one event. -/
def isIdentified (params : Params) : Bool :=
  0 < parseIntParam (first params "id") || textParam params "event_uid" != []

/-- The conditions on the identity, the time and the number of a row. -/
def rangeMatches (params : Params) (since : Str) (row : Row) : Bool :=
  if 0 < parseIntParam (first params "id") then row.id == parseIntParam (first params "id")
  else if textParam params "event_uid" ≠ [] then
    row.event.eventUid == (textParam params "event_uid").take 160
  else
    decide (since ≤ row.event.tsUtc)
      && unlessZero (parseIntParam (first params "before_id"))
        (row.id < parseIntParam (first params "before_id"))
      && unlessZero (parseIntParam (first params "after_id"))
        (parseIntParam (first params "after_id") < row.id)
      && unlessZero (parseIntParam (first params "snapshot_event_id"))
        (row.id ≤ parseIntParam (first params "snapshot_event_id"))

/-- The `WHERE` clause. -/
def rowMatches (params : Params) (since : Str) (row : Row) : Bool :=
  rangeMatches params since row && attributesMatch params row.event

/-- Rows are read by this key when they are ordered by `id`. -/
def orderKey (ascending : Bool) (row : Row) : Int := if ascending then row.id else -row.id

/-- `ORDER BY`. -/
def ordered (byId ascending : Bool) (rows : List Row) : List Row :=
  if byId then rows.insertionSort fun a b => orderKey ascending a ≤ orderKey ascending b
  else rows.insertionSort fun a b =>
    if ascending then a.event.tsUtc < b.event.tsUtc ∨
      (a.event.tsUtc = b.event.tsUtc ∧ a.id ≤ b.id)
    else b.event.tsUtc < a.event.tsUtc ∨ (a.event.tsUtc = b.event.tsUtc ∧ b.id ≤ a.id)

/-- The numbers the statement binds. -/
def boundNumbers (params : Params) : List Nat :=
  let number (name : String) : Nat := parseIntParam (first params name)
  if 0 < number "id" then [number "id", number "offset"]
  else if textParam params "event_uid" ≠ [] then [number "offset"]
  else [number "before_id", number "after_id", number "snapshot_event_id", number "offset"]

/-- The texts the statement binds. -/
def boundTexts (params : Params) : List Str :=
  (if 0 < parseIntParam (first params "id") then []
    else [(textParam params "event_uid").take 160])
    ++ ["q", "tag", "actor", "session_id", "action", "level"].map (textParam params)

/-- `query_events`. -/
def queryEvents (params : Params) (now : Instant) (table : Table) : Except Exc (List Row) := do
  let since ← parseWindow now (first params "since")
  ensure (∀ n ∈ boundNumbers params, n < 2 ^ 63) .overflowError
  ensure (∀ text ∈ boundTexts params, (encodeUtf8 text).isSome = true) .unicodeEncodeError
  let byId := QueryData.lower (orDefault (first params "sort") (str "time")).strip == str "id"
  let limit := parseLimit (first params "limit") 100
  let offset := parseIntParam (first params "offset")
  let rows := ordered byId (isAscending params) (table.rows.filter (rowMatches params since))
  .ok ((rows.drop offset).take limit.toNat)

/-! ## Pages -/

/-- `COALESCE(MAX(id), 0)`. -/
def Table.maxId (table : Table) : Nat := (table.rows.map Row.id).foldr max 0

/-- What `query_events_page` returns. -/
structure Page where
  rows : List Row
  snapshotEventId : Nat
  pageSize : Nat
  hasMore : Bool
  nextBeforeId : Option Nat
  nextAfterId : Option Nat

/-- `page_size` of a request. -/
def pageSizeOf (params : Params) : Nat :=
  let value := match first params "page_size" with
    | some (c :: rest) => some (c :: rest)
    | _ => first params "limit"
  (min 200 (parseLimit value 50)).toNat

/-- `page_params`. -/
def pageParams (params : Params) (snapshot : Nat) : Params :=
  ((params.set "snapshot_event_id" [decimal snapshot]).set "sort" [str "id"]).set "limit"
    [decimal (min 1000 (pageSizeOf params + 1))]

/-- `query_events_page`, with the tables of its two connections. -/
def queryEventsPage (params : Params) (now : Instant) (atBound atQuery : Table) :
    Except Exc Page := do
  let requested := parseIntParam (first params "snapshot_event_id")
  let snapshot := if requested = 0 then atBound.maxId else requested
  let rows ← queryEvents (pageParams params snapshot) now atQuery
  let pageSize := pageSizeOf params
  let hasMore := decide (pageSize < rows.length)
  let page := rows.take pageSize
  let last := page.getLast?.map Row.id
  .ok
    { rows := page
      snapshotEventId := snapshot
      pageSize, hasMore
      nextBeforeId := if !isAscending params && hasMore then last else none
      nextAfterId := if isAscending params && hasMore then last else none }

/-- The next request of a reader: the reported bound and cursor. -/
def follow (params : Params) (page : Page) : Params :=
  let bound := params.set "snapshot_event_id" [decimal page.snapshotEventId]
  match page.nextAfterId, page.nextBeforeId with
  | some next, _ => bound.set "after_id" [decimal next]
  | none, some next => bound.set "before_id" [decimal next]
  | none, none => bound

variable [FloatData] [UnicodeData] [WordData]

/-- What happens around a request: its clock, the steps of other calls between its two
connections, and those before the next request. -/
structure Turn where
  now : Instant
  inside : List Step
  after : List Step

/-- A reader follows the pages until `has_more` is false; with `none` it is not done after
these turns. -/
def readPages : List Turn → Params → System → Except Exc (Option (List Page))
  | [], _, _ => .ok none
  | turn :: turns, params, s => do
    let page ← queryEventsPage params turn.now s.table (s.run turn.inside).table
    if page.hasMore then
      let pages ← readPages turns (follow params page) ((s.run turn.inside).run turn.after)
      .ok (pages.map fun pages => page :: pages)
    else .ok (some [page])

end

end IntegrityGuardian.ActionLog
