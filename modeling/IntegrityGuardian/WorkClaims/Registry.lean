import IntegrityGuardian.Canonical
import IntegrityGuardian.Library.SnapshotLoop

/-!
# The work-claim registry

`work_claims.py`: agents declare the resources an action may touch before they
write, and one SQLite database decides who acquires, waits or is rejected.
`Registry` holds the three tables.  Rows stay in `seq` order, since `seq` is an
`AUTOINCREMENT` key and no row is ever deleted; the columns `resources_json`
and the three timestamps are held decoded.  Every public operation is one
transaction: a raised exception drops all of its writes.
-/

namespace IntegrityGuardian.WorkClaims

open Python Library
open Json (ch)

/-! ## Requests -/

inductive Error where
  | workClaimError (message : Str)
  | staleFenceError (message : Str)
  | raised (e : Exc)
  deriving DecidableEq

def liftExc {α : Type} (x : Except Exc α) : Except Error α := x.mapError .raised

/-- A normalized resource `kind:value`; the colon makes `split(":", 1)` total. -/
structure Resource where
  text : Str
  colon : ch ':' ∈ text
  deriving DecidableEq

namespace Resource

def kind (r : Resource) : Str := r.text.beforeColon

def value (r : Resource) : Str := r.text.afterColon

end Resource

/-- `_KIND`, `[a-z][a-z0-9-]{0,63}`. -/
def isKind (s : Str) : Bool :=
  match s with
  | [] => false
  | c :: rest =>
    (97 ≤ c.val && c.val ≤ 122) && rest.length ≤ 63
      && rest.all fun d => (97 ≤ d.val && d.val ≤ 122) || Json.isDigit d || d == ch '-'

def isAlphanumeric (c : CodePoint) : Bool :=
  (65 ≤ c.val && c.val ≤ 90) || (97 ≤ c.val && c.val ≤ 122) || Json.isDigit c

/-- `_AGENT`: an alphanumeric character, then up to 255 of those or of `.`, `_`, `:`, `@`, `/`, `-`. -/
def isAgent (s : Str) : Bool :=
  match s with
  | [] => false
  | c :: rest =>
    isAlphanumeric c && rest.length ≤ 255
      && rest.all fun d => isAlphanumeric d || (str "._:@/-").contains d

/-- `_agent`. -/
def agent (agentId : Str) : Except Error Str :=
  if isAgent agentId then .ok agentId
  else .error (.workClaimError (str "agent_id must be a token of 1..256 safe characters"))

def maxResources : Nat := 64

def maxTtlSeconds : Int := 86400

/-- `_ttl`. -/
def ttl (ttlSeconds : Int) : Except Error Int :=
  if 1 ≤ ttlSeconds ∧ ttlSeconds ≤ maxTtlSeconds then .ok ttlSeconds
  else .error (.workClaimError (str "ttl_seconds must be between 1 and 86400"))

/-- The `now` argument of a call, with what the clock shows when it is omitted. -/
structure Now where
  value : Option Datetime
  clock : Instant
  deriving DecidableEq

/-- `_time`. -/
def time (now : Now) : Except Error Instant :=
  match now.value with
  | none => .ok now.clock
  | some d =>
    match d.utcoffset with
    | none => .error (.workClaimError (str "claim time must include a timezone"))
    | some offset => liftExc (instant (d.reading.val - offset))

section
variable [UnicodeData]

/-- `normalize_resource`. -/
def normalizeResource (resource : Str) : Except Error Resource :=
  if ch ':' ∉ resource then
    .error (.workClaimError (str "resource must be written as kind:value"))
  else if !isKind resource.beforeColon then
    .error (.workClaimError (str "invalid resource kind: " ++ Str.repr resource.beforeColon))
  else
    let value := Str.strip (resource.afterColon.map fun c => if c = ch '\\' then ch '/' else c)
    if value = [] ∨ value.any (fun c => c.isspace || !UnicodeData.isprintable c) then
      .error (.workClaimError
        (str "resource value must be a printable token without whitespace"))
    else
      let parts := value.splitOn (ch '/')
      if parts.any (fun part => part = str "." ∨ part = str "..") then
        .error (.workClaimError (str "resource value may not contain . or .. segments"))
      else
        let kept := parts.head?.toList ++ parts.tail.filter (· ≠ [])
        let collapsed := List.intercalate [ch '/'] kept
        let collapsed := if 1 < collapsed.length then
            (collapsed.reverse.dropWhile (· == ch '/')).reverse
          else collapsed
        .ok ⟨resource.beforeColon ++ ch ':' :: collapsed.flatMap UnicodeData.casefold,
          by simp⟩

end

/-- `_contains`. -/
def contains (parent child : Str) : Bool :=
  let containing := if [ch '/'].isSuffixOf parent then parent else parent ++ [ch '/']
  containing.isPrefixOf child

/-- `resources_overlap`. -/
def resourcesOverlap (left right : Resource) : Bool :=
  if left.kind ≠ right.kind then false
  else if left.value = right.value then true
  else contains left.value right.value || contains right.value left.value

/-- `_sets_overlap`. -/
def setsOverlap (left right : List Resource) : Bool :=
  left.any fun a => right.any fun b => resourcesOverlap a b

/-! ## Tables -/

inductive ClaimStatus where
  | acquired
  | waiting
  | rejected
  | released
  | expired
  | cancelled
  | handedOff
  deriving DecidableEq, Repr

namespace ClaimStatus

/-- The `StrEnum` value. -/
def value : ClaimStatus → Str
  | acquired => str "acquired"
  | waiting => str "waiting"
  | rejected => str "rejected"
  | released => str "released"
  | expired => str "expired"
  | cancelled => str "cancelled"
  | handedOff => str "handed_off"

/-- Membership in `_OPEN`. -/
def isOpen : ClaimStatus → Bool
  | acquired => true
  | waiting => true
  | _ => false

end ClaimStatus

/-- A row of `work_claims`. -/
structure Row where
  seq : Nat
  claimId : Str
  agentId : Str
  resources : List Resource
  status : ClaimStatus
  fenceToken : Option Int
  ttlSeconds : Int
  requestedAt : Instant
  expiresAt : Option Instant
  closedAt : Option Instant
  deriving DecidableEq

namespace Row

def closed (r : Row) (status : ClaimStatus) (current : Instant) : Row :=
  { r with status := status, closedAt := some current }

def granted (r : Row) (fenceToken : Int) (expiresAt : Instant) : Row :=
  { r with status := .acquired, fenceToken := some fenceToken, expiresAt := some expiresAt }

def extended (r : Row) (expiresAt : Instant) (ttlSeconds : Int) : Row :=
  { r with expiresAt := some expiresAt, ttlSeconds := ttlSeconds }

/-- The row `handoff` inserts in place of `r`; `seq` is assigned by the `INSERT`. -/
def handedTo (r : Row) (successor newId : Str) (fence : Int) (current expiresAt : Instant) : Row where
  seq := 0
  claimId := newId
  agentId := successor
  resources := r.resources
  status := .acquired
  fenceToken := some fence
  ttlSeconds := r.ttlSeconds
  requestedAt := current
  expiresAt := some expiresAt
  closedAt := none

end Row

/-- A row of `work_claim_events`; `event_seq` is the position. -/
structure EventRow where
  eventDigest : Str
  previousDigest : Option Str
  eventJson : Bytes
  deriving DecidableEq

/-- The database: claims in `seq` order with the `AUTOINCREMENT` counter, the
`work_claim_fence` singleton and the event log. -/
structure Registry where
  workClaims : List Row
  sqliteSequence : Nat
  lastFence : Int
  events : List EventRow

/-- The database after `__init__` on a new file. -/
def Registry.empty : Registry := ⟨[], 0, 0, []⟩

structure ClaimDecision where
  status : ClaimStatus
  claimId : Str
  agentId : Str
  resources : List Resource
  fenceToken : Option Int := none
  expiresAt : Option Instant := none
  blockedBy : List Str := []
  reason : Str := []
  deriving DecidableEq

namespace Registry

/-- `SELECT * FROM work_claims WHERE claim_id = ?`. -/
def find? (s : Registry) (claimId : Str) : Option Row :=
  s.workClaims.find? fun row => row.claimId == claimId

/-- `_open_rows`. -/
def openRows (s : Registry) : List Row := s.workClaims.filter fun row => row.status.isOpen

/-- `UPDATE work_claims SET ... WHERE claim_id = ?`. -/
def update (s : Registry) (claimId : Str) (f : Row → Row) : Registry :=
  { s with workClaims := updateKey Row.claimId claimId f s.workClaims }

/-- `_close`. -/
def close (s : Registry) (claimId : Str) (status : ClaimStatus) (current : Instant) : Registry :=
  s.update claimId fun row => row.closed status current

/-- The `UPDATE` of `_try_promote`, after `_next_fence`. -/
def promote (s : Registry) (claimId : Str) (expiresAt : Instant) : Registry :=
  { s with lastFence := s.lastFence + 1 }.update claimId fun row =>
    row.granted (s.lastFence + 1) expiresAt

/-- The `UPDATE` of `poll` and `renew`. -/
def touch (s : Registry) (claimId : Str) (expiresAt : Instant) (ttlSeconds : Int) : Registry :=
  s.update claimId fun row => row.extended expiresAt ttlSeconds

/-- `INSERT INTO work_claims`; the row's `seq` is assigned here. -/
def insert (s : Registry) (row : Row) : Registry :=
  { s with
    workClaims := s.workClaims ++ [{ row with seq := s.sqliteSequence + 1 }]
    sqliteSequence := s.sqliteSequence + 1 }

/-- `_next_seq`, `COALESCE(MAX(seq), 0) + 1`. -/
def nextSeq (s : Registry) : Nat := (s.workClaims.map Row.seq).foldl max 0 + 1

/-- The rows `_try_promote` counts as blockers of `row`. -/
def blockers (s : Registry) (row : Row) : List Row :=
  s.openRows.filter fun other =>
    other.claimId != row.claimId && (other.status == .acquired || other.seq < row.seq)
      && setsOverlap row.resources other.resources

end Registry

/-- `_decision`. -/
def decision (row : Row) (blockedBy : List Str := []) (reason : Str := []) : ClaimDecision where
  status := row.status
  claimId := row.claimId
  agentId := row.agentId
  resources := row.resources
  fenceToken := row.fenceToken
  expiresAt := row.expiresAt
  blockedBy := blockedBy
  reason := reason

/-! ## Statements -/

abbrev Statement := Tx Registry Error

/-- `_row`. -/
def row (claimId : Str) : Statement Row := do
  match (← get).find? claimId with
  | some r => pure r
  | none => throw (.workClaimError (str "unknown claim " ++ claimId))

def jsonOption (x : Option Json) : Json := x.getD .null

/-- The event object of `_append_event`, before it is digested. -/
def eventObject (kind : Str) (d : ClaimDecision) (current : Instant) (previous : Option Str)
    (extra : List (Str × Json)) : Json :=
  .obj ([(str "protocol", .str (str "integrity-guardian/work-claim/v1")),
    (str "kind", .str kind),
    (str "at", .str current.render),
    (str "claim_id", .str d.claimId),
    (str "agent_id", .str d.agentId),
    (str "status", .str d.status.value),
    (str "resources", .arr (d.resources.map fun r => .str r.text)),
    (str "fence_token", jsonOption (d.fenceToken.map .int)),
    (str "blocked_by", .arr (d.blockedBy.map .str)),
    (str "previous_digest", jsonOption (previous.map .str))] ++ extra)

/-- `EVENT_DOMAIN`. -/
def eventDomain : Str := str "work-claim-event-v1"

/-- `_held`'s refusal. -/
def staleFence {α : Type} (claimId agentId : Str) (fenceToken : Int) : Except Error α :=
  .error (.staleFenceError (claimId ++ str " is not held by " ++ agentId ++ str " under fence "
    ++ Json.renderInt fenceToken))

/-- `current + timedelta(seconds=ttl)`. -/
def deadline (current : Instant) (ttlSeconds : Int) : Except Error Instant :=
  liftExc (current.addSeconds ttlSeconds)

section
variable [UnicodeData]

/-- `_append_event`. -/
def appendEvent (kind : Str) (d : ClaimDecision) (current : Instant)
    (extra : List (Str × Json) := []) : Statement Json := do
  let s ← get
  let previous := s.events.getLast?.map EventRow.eventDigest
  let event := eventObject kind d current previous extra
  let digest ← Tx.lift (liftExc (digestObject event eventDomain))
  let eventJson ← Tx.lift (liftExc (canonicalBytes event))
  if digest ∈ s.events.map EventRow.eventDigest then
    throw (.raised (.integrityError (str "work_claim_events.event_digest")))
  set { s with events := s.events ++ [EventRow.mk digest previous eventJson] }
  match event with
  | .obj members => pure (.obj (members ++ [(str "event_digest", .str digest)]))
  | other => pure other

/-- `_try_promote`. -/
def tryPromote (claimId : Str) (current : Instant) : Statement ClaimDecision := do
  let r ← row claimId
  let s ← get
  match s.blockers r with
  | [] => do
    let expiresAt ← Tx.lift (deadline current r.ttlSeconds)
    set (s.promote claimId expiresAt)
    pure (decision (← row claimId))
  | blockers =>
    pure (decision r (blockers.map Row.claimId)
      (str "overlapping blast radius is held or queued earlier"))

/-- One iteration of `_promote_waiters`. -/
def promoteWaiter (current : Instant) (r : Row) : Statement PUnit := do
  if r.status = .waiting then
    let d ← tryPromote r.claimId current
    if d.status = .acquired then
      let _ ← appendEvent (str "claim-acquired") d current
      pure ⟨⟩
    else pure ⟨⟩
  else pure ⟨⟩

/-- `_promote_waiters`: one pass over the rows open at its start. -/
def promoteWaiters (current : Instant) : Statement PUnit := do
  (← get).openRows.forM (promoteWaiter current)

/-- `_parse(row["expires_at"]) <= current`; parsing a missing value raises. -/
def lapsed (r : Row) (current : Instant) : Except Error Bool :=
  match r.expiresAt with
  | none => .error (.raised .typeError)
  | some t => .ok (t ≤ current)

/-- One iteration of the loop in `_expire`. -/
def expireRow (current : Instant) (r : Row) : Statement PUnit := do
  if ← Tx.lift (lapsed r current) then
    modify fun s => s.close r.claimId .expired current
    let _ ← appendEvent (str "claim-expired") (decision (← row r.claimId)) current
    pure ⟨⟩
  else pure ⟨⟩

/-- `_expire`.  The flag `expired` is set exactly when some open row had lapsed. -/
def expire (current : Instant) : Statement PUnit := do
  let rows := (← get).openRows
  rows.forM (expireRow current)
  if rows.any fun r => lapsed r current == .ok true then promoteWaiters current else pure ⟨⟩

/-- `_held`. -/
def held (claimId agentId : Str) (fenceToken : Int) (current : Instant) : Statement Row := do
  expire current
  let r ← row claimId
  if r.status ≠ .acquired ∨ r.agentId ≠ agentId ∨ r.fenceToken ≠ some fenceToken then
    Tx.lift (staleFence claimId agentId fenceToken)
  else pure r

/-- `"claim:" + digest_object(value, domain="work-claim-id-v1").split(":", 1)[1]`. -/
def claimIdOf (value : Json) : Except Error Str := do
  let digest ← liftExc (digestObject value (str "work-claim-id-v1"))
  .ok (str "claim:" ++ digest.afterColon)

/-- `INSERT`, with the `UNIQUE` constraint on `claim_id`. -/
def insertRow (r : Row) : Statement PUnit := do
  if (← get).find? r.claimId ≠ none then
    throw (.raised (.integrityError (str "work_claims.claim_id")))
  modify fun s => s.insert r

/-! ## Operations -/

/-- `tuple(sorted({normalize_resource(item) for item in resources}))`. -/
def normalizeAll (resources : List Str) : Except Error (List Resource) := do
  let items ← resources.mapM normalizeResource
  .ok (items.dedup.insertionSort fun a b => a.text ≤ b.text)

/-- `WorkClaimRegistry.claim`. -/
def claim (agentId : Str) (resources : List Str) (ttlSeconds : Int) (now : Now) :
    Statement ClaimDecision := do
  let agent ← Tx.lift (agent agentId)
  let ttl ← Tx.lift (ttl ttlSeconds)
  let normalized ← Tx.lift (normalizeAll resources)
  if normalized = [] ∨ maxResources < normalized.length then
    throw (.workClaimError (str "a claim must name 1..64 resources"))
  let current ← Tx.lift (time now)
  expire current
  let s ← get
  let own := s.openRows.filter fun r =>
    r.agentId == agent && setsOverlap normalized r.resources
  if own ≠ [] then
    let d : ClaimDecision :=
      { status := .rejected, claimId := [], agentId := agent, resources := normalized
        blockedBy := own.map Row.claimId
        reason := str "overlaps a claim this agent already holds or awaits" }
    let _ ← appendEvent (str "claim-rejected") d current
    pure d
  else
    let claimId ← Tx.lift (claimIdOf (.obj [
      (str "agent_id", .str agent),
      (str "resources", .arr (normalized.map fun r => .str r.text)),
      (str "requested_at", .str current.render),
      (str "nonce", .int s.nextSeq)]))
    let expiresAt ← Tx.lift (deadline current ttl)
    insertRow
      { seq := 0, claimId := claimId, agentId := agent, resources := normalized
        status := .waiting, fenceToken := none, ttlSeconds := ttl, requestedAt := current
        expiresAt := some expiresAt, closedAt := none }
    let d ← tryPromote claimId current
    let _ ← appendEvent
      (if d.status = .acquired then str "claim-acquired" else str "claim-waiting") d current
    pure d

/-- `WorkClaimRegistry.poll`. -/
def poll (claimId : Str) (now : Now) : Statement ClaimDecision := do
  let current ← Tx.lift (time now)
  expire current
  let r ← row claimId
  if r.status ≠ .waiting then pure (decision r)
  else
    let expiresAt ← Tx.lift (deadline current r.ttlSeconds)
    modify fun s => s.touch claimId expiresAt r.ttlSeconds
    tryPromote claimId current

/-- `WorkClaimRegistry.renew`. -/
def renew (claimId agentId : Str) (fenceToken : Int) (ttlSeconds : Option Int) (now : Now) :
    Statement ClaimDecision := do
  let current ← Tx.lift (time now)
  let r ← held claimId agentId fenceToken current
  let ttl ← Tx.lift (match ttlSeconds with
    | none => .ok r.ttlSeconds
    | some t => ttl t)
  let expiresAt ← Tx.lift (deadline current ttl)
  modify fun s => s.touch claimId expiresAt ttl
  let d := decision (← row claimId)
  let _ ← appendEvent (str "claim-renewed") d current
  pure d

/-- `WorkClaimRegistry.release`. -/
def release (claimId agentId : Str) (fenceToken : Int) (outcome : Str) (now : Now) :
    Statement Json := do
  if Str.strip outcome = [] then
    throw (.workClaimError (str "release outcome is required"))
  let current ← Tx.lift (time now)
  let _ ← held claimId agentId fenceToken current
  modify fun s => s.close claimId .released current
  let receipt ← appendEvent (str "claim-released") (decision (← row claimId)) current
    [(str "outcome", .str outcome)]
  promoteWaiters current
  pure receipt

/-- `WorkClaimRegistry.cancel`. -/
def cancel (claimId agentId : Str) (now : Now) : Statement PUnit := do
  let current ← Tx.lift (time now)
  let r ← row claimId
  if r.agentId ≠ agentId ∨ r.status ≠ .waiting then
    throw (.workClaimError (str "only the requester can cancel its waiting claim"))
  modify fun s => s.close claimId .cancelled current
  let _ ← appendEvent (str "claim-cancelled") (decision (← row claimId)) current
  promoteWaiters current

/-- `WorkClaimRegistry.handoff`. -/
def handoff (claimId agentId : Str) (fenceToken : Int) (successorId note : Str) (now : Now) :
    Statement ClaimDecision := do
  let successor ← Tx.lift (agent successorId)
  let current ← Tx.lift (time now)
  let r ← held claimId agentId fenceToken current
  if successor = agentId then
    throw (.workClaimError (str "handoff successor must differ from the holder"))
  modify fun s => s.close claimId .handedOff current
  let newId ← Tx.lift (claimIdOf (.obj [
    (str "handoff_from", .str claimId),
    (str "successor", .str successor),
    (str "at", .str current.render)]))
  let expiresAt ← Tx.lift (deadline current r.ttlSeconds)
  modify fun s => { s with lastFence := s.lastFence + 1 }
  let s ← get
  insertRow (r.handedTo successor newId s.lastFence current expiresAt)
  let d := decision (← row newId)
  let _ ← appendEvent (str "claim-handed-off") d current
    [(str "from_claim_id", .str claimId), (str "from_agent_id", .str agentId),
      (str "note", .str note)]
  pure d

end

/-- `WorkClaimRegistry.assert_fence`, which reads without a transaction. -/
def assertFence (claimId agentId : Str) (fenceToken : Int) (now : Now) (s : Registry) :
    Except Error ClaimDecision := do
  let current ← time now
  match s.find? claimId with
  | none => .error (.workClaimError (str "unknown claim " ++ claimId))
  | some r =>
    if r.status ≠ .acquired ∨ r.agentId ≠ agentId ∨ r.fenceToken ≠ some fenceToken then
      staleFence claimId agentId fenceToken
    else
      match r.expiresAt with
      | none => staleFence claimId agentId fenceToken
      | some t => if t ≤ current then staleFence claimId agentId fenceToken else .ok (decision r)

/-- `WorkClaimRegistry.verify_events`: the loop over the log, with `previous` and `count`. -/
def verifyEventsFrom [UnicodeData] : Option Str → Nat → List EventRow → Except Error Nat
  | _, count, [] => .ok count
  | previous, count, e :: rest =>
    match parseJsonStrict e.eventJson with
    | .error _ => .error (.raised (.valueError (str "invalid JSON")))
    | .ok (.obj members) =>
      let event := Json.obj members
      if (event.get? (str "previous_digest")).getD .null ≠ jsonOption (previous.map .str)
          ∨ e.previousDigest ≠ previous then
        .error (.workClaimError (str "work claim event chain is broken"))
      else
        match digestObject event eventDomain with
        | .error x => .error (.raised x)
        | .ok digest =>
          if digest ≠ e.eventDigest then
            .error (.workClaimError (str "work claim event digest mismatch"))
          else verifyEventsFrom (some e.eventDigest) (count + 1) rest
    | .ok _ => .error (.raised .attributeError)

def verifyEvents [UnicodeData] (s : Registry) : Except Error Nat := verifyEventsFrom none 0 s.events

/-! ## Calls -/

/-- One call of the public interface, by any agent at any time. -/
inductive Call where
  | claim (agentId : Str) (resources : List Str) (ttlSeconds : Int) (now : Now)
  | poll (claimId : Str) (now : Now)
  | renew (claimId agentId : Str) (fenceToken : Int) (ttlSeconds : Option Int) (now : Now)
  | release (claimId agentId : Str) (fenceToken : Int) (outcome : Str) (now : Now)
  | cancel (claimId agentId : Str) (now : Now)
  | handoff (claimId agentId : Str) (fenceToken : Int) (successorId note : Str) (now : Now)

inductive Reply where
  | decision (d : ClaimDecision)
  | receipt (event : Json)
  | done

def Call.now : Call → Now
  | .claim _ _ _ now => now
  | .poll _ now => now
  | .renew _ _ _ _ now => now
  | .release _ _ _ _ now => now
  | .cancel _ _ now => now
  | .handoff _ _ _ _ _ now => now

section
variable [UnicodeData]

/-- The statements a call runs inside its transaction. -/
def body : Call → Statement Reply
  | .claim agentId resources ttlSeconds now => .decision <$> claim agentId resources ttlSeconds now
  | .poll claimId now => .decision <$> poll claimId now
  | .renew claimId agentId fenceToken ttlSeconds now =>
    .decision <$> renew claimId agentId fenceToken ttlSeconds now
  | .release claimId agentId fenceToken outcome now =>
    .receipt <$> release claimId agentId fenceToken outcome now
  | .cancel claimId agentId now => (fun _ => .done) <$> cancel claimId agentId now
  | .handoff claimId agentId fenceToken successorId note now =>
    .decision <$> handoff claimId agentId fenceToken successorId note now

def exec (call : Call) (s : Registry) : Except Error (Reply × Registry) := body call s

/-- The database after any calls by any agents, in the order their transactions commit. -/
def reached (calls : List Call) : Registry := run exec Registry.empty calls

end

end IntegrityGuardian.WorkClaims
