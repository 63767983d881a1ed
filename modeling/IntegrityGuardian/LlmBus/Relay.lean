import IntegrityGuardian.LlmBus.Lifecycle
import IntegrityGuardian.Library.Interleaving
import IntegrityGuardian.Python.Uuid

/-!
# The relay of the local bus

A relay process reads `relay-journal.json` when it is constructed, takes
`relay.lock`, and then runs `once` any number of times.  The journal in memory is
written back whole: before a batch goes to its sender, and again with the outcome.

The state here is that of one state directory, with every relay process, and a
step is what one process does between two of its effects on that directory.
-/

namespace IntegrityGuardian.LlmBus

open Python Library

namespace Relay

/-! ## The journal -/

/-- `batch["state"]`. -/
inductive BatchState where
  | sending
  | accepted
  | rejected
  | unknown
  | baseline
  deriving DecidableEq

/-- A batch of the journal; `detail` has the members that the outcome adds. -/
structure Batch where
  state : BatchState
  target : Str
  ids : List Str
  timestamp : Int
  delivery : Option Delivery
  deliveryIgnored : List Str
  detail : List (Str × Json)

/-- `journal["batches"]`. -/
abbrev Journal := List (Str × Batch)

/-- `journal["batches"][key] = batch`. -/
def Journal.put (key : Str) (batch : Batch) : Journal → Journal
  | [] => [(key, batch)]
  | item :: journal =>
    if item.1 = key then (key, batch) :: journal else item :: Journal.put key batch journal

def Journal.keys (journal : Journal) : List Str := journal.map Prod.fst

/-- `{mid for batch in journal["batches"].values() for mid in batch["ids"]}`. -/
def Journal.ids (journal : Journal) : List Str := journal.flatMap fun item => item.2.ids

/-! ## One batch -/

def quotaWindowSeconds : Int := 3600

def maxBatchBytes : Nat := 44 * 1024

def namespaceOctets : Bytes :=
  [0xd2, 0x90, 0xc2, 0x30, 0x5a, 0x92, 0x43, 0x9d, 0x97, 0x42, 0x99, 0xd1, 0xdc, 0xae, 0x1f, 0x04]

/-- The arguments of `once`, with the addresses `is_codex` accepts. -/
structure Limits where
  codexTargets : List Str
  minGap : Int
  maxCalls : Int
  onlyIds : Option (List Str)

/-- `codex_delivery`. -/
def codexDelivery (row : Row) : Delivery := row.delivery.getD .steer

def optionText (render : α → Str) : Option α → Str
  | none => str "null"
  | some value => render value

/-- A message of `_row`, as `json.dumps` writes it with its default separators. -/
def messageText (row : Row) : Str :=
  str "\x7b\"id\": " ++ Json.renderStr row.id ++ str ", \"from\": " ++ Json.renderStr row.sender
    ++ str ", \"to\": " ++ Json.renderStr row.recipient ++ str ", \"body\": "
    ++ Json.renderStr row.body ++ str ", \"reply_to\": " ++ optionText Json.renderStr row.replyTo
    ++ str ", \"status\": " ++ Json.renderStr row.status.value ++ str ", \"created_at\": "
    ++ Json.renderInt row.createdAt ++ str ", \"expires_at\": " ++ Json.renderInt row.expiresAt
    ++ str ", \"acked_at\": " ++ optionText Json.renderInt row.ackedAt ++ str ", \"replied_at\": "
    ++ optionText Json.renderInt row.repliedAt ++ str ", \"delivery\": "
    ++ optionText (fun mode => Json.renderStr mode.value) row.delivery ++ str "\x7d"

/-- `json.dumps(messages, ensure_ascii=False)`. -/
def messagesText (rows : List Row) : Str :=
  str "[" ++ (str ", ").intercalate (rows.map messageText) ++ str "]"

/-- The prior batches of a target. -/
def prior (journal : Journal) (target : Str) : List Batch :=
  (journal.map Prod.snd).filter fun batch => batch.target = target ∧ batch.state ≠ .baseline

/-- The quota and the gap between two sends; `now` is in microseconds. -/
def limited (limits : Limits) (journal : Journal) (target : Str) (now : Int) : Bool :=
  let recent := (prior journal target).filter fun batch =>
    now - batch.timestamp * 1000000 < quotaWindowSeconds * 1000000
  limits.maxCalls ≤ recent.length
    || (prior journal target).any fun batch =>
      now - batch.timestamp * 1000000 < limits.minGap * 1000000

/-- A row that the query returns: `expires_at > int(now)`. -/
def waits (target : Str) (now : Int) (row : Row) : Bool :=
  row.recipient = target ∧ row.status = .pending ∧ now.tdiv 1000000 < row.expiresAt

/-- The first twelve rows not attempted before. -/
def candidates (limits : Limits) (attempted : List Str) (store : Store) (target : Str)
    (now : Int) : List Row :=
  ((store.rows.filter (waits target now)).filter fun row =>
    row.id ∉ attempted ∧ ∀ ids ∈ limits.onlyIds, row.id ∈ ids).take 12

/-- The candidates up to the first with another delivery than the first of all. -/
def contiguous (rows : List Row) : List Row :=
  match rows with
  | [] => []
  | first :: _ => rows.takeWhile fun row => codexDelivery row = codexDelivery first

/-- The messages that fit; the first always does.  Without a result, `encode` raises. -/
def pack (messages : List Row) : List Row → Option (List Row)
  | [] => some messages
  | message :: rest => do
    let octets ← encodeUtf8 (messagesText (messages ++ [message]))
    if messages ≠ [] ∧ maxBatchBytes < octets.length then some messages
    else pack (messages ++ [message]) rest

/-- `uuid5(NAMESPACE, target + ":" + ":".join(sorted(ids)))`. -/
def requestId (target : Str) (ids : List Str) : Option Str :=
  uuid5 namespaceOctets
    (target ++ str ":" ++ (str ":").intercalate (ids.insertionSort fun a b => a ≤ b))

/-- A batch under its request id, with its messages. -/
structure Dispatch where
  requestId : Str
  batch : Batch
  messages : List Row

/-- What one target's turn comes to. -/
inductive Choice where
  | raises
  | skip
  | dispatch (dispatch : Dispatch)

/-- The messages of one target's turn. -/
def select (limits : Limits) (attempted : List Str) (store : Store) (target : Str) (now : Int) :
    Option (List Row) :=
  let found := candidates limits attempted store target now
  pack [] (if target ∈ limits.codexTargets then contiguous found else found)

def newBatch (limits : Limits) (target : Str) (messages : List Row) (stamp : Int) : Batch where
  state := .sending
  target
  ids := messages.map Row.id
  timestamp := stamp
  delivery := if target ∈ limits.codexTargets then messages.head?.map codexDelivery else none
  deliveryIgnored := if target ∈ limits.codexTargets then []
    else (messages.filter fun row => row.delivery.isSome).map Row.id
  detail := []

/-- The body of the loop in `once` up to the first `save`. -/
def choose (limits : Limits) (journal : Journal) (attempted : List Str) (store : Store)
    (target : Str) (now stamp : Int) : Choice :=
  if limited limits journal target now then .skip
  else
    match select limits attempted store target now with
    | none => .raises
    | some [] => .skip
    | some messages =>
      match requestId target (messages.map Row.id) with
      | none => .raises
      | some key => .dispatch ⟨key, newBatch limits target messages stamp, messages⟩

/-- How a sender ends. -/
inductive Outcome where
  | accepted (receipt : Json)
  | httpError (status : Int)
  | valueError (errorType : Str) (errorCode : Option Str)
  | otherError (errorType : Str)

/-- The batch with the outcome of its send. -/
def Batch.settle (batch : Batch) : Outcome → Batch
  | .accepted receipt => { batch with state := .accepted, detail := [(str "receipt", receipt)] }
  | .httpError status =>
    { batch with
      state := .rejected
      detail := [(str "error_type", .str (str "HTTPError")), (str "http_status", .int status)] }
  | .valueError errorType errorCode =>
    { batch with
      state := .rejected
      detail := (str "error_type", .str errorType) ::
        errorCode.toList.map fun code => (str "error_code", .str code) }
  | .otherError errorType =>
    { batch with state := .unknown, detail := [(str "error_type", .str errorType)] }

/-! ## Processes on one state directory -/

/-- `once` between two targets. -/
structure Pass where
  limits : Limits
  journal : Journal
  attempted : List Str
  targets : List Str

/-- Where a relay process is, with the journal it has in memory. -/
inductive Phase where
  /-- Constructed, before `exclusive_lock`. -/
  | loaded (journal : Journal)
  /-- Between two runs of `once`. -/
  | held (journal : Journal)
  | passing (pass : Pass)
  /-- The batch is saved, and goes to its sender next. -/
  | sending (pass : Pass) (dispatch : Dispatch)
  /-- The sender has been called. -/
  | sent (pass : Pass) (dispatch : Dispatch)

/-- Messages handed to a sender. -/
structure Sent where
  target : Str
  delivery : Option Delivery
  requestId : Str
  messages : List Row

/-- A state directory, the clock in microseconds, and everything ever sent. -/
structure World where
  store : Store
  clock : Int
  file : Option Journal
  holder : Option Nat
  phases : Nat → Option Phase
  history : List Sent

def World.initial : World := ⟨.empty, 0, none, none, fun _ => none, []⟩

/-- The journal in the file, or the empty one. -/
def World.stored (w : World) : Journal := w.file.getD []

def World.enter (w : World) (p : Nat) (phase : Phase) : World :=
  { w with phases := Function.update w.phases p (some phase) }

/-- The end of a process, by return, exception or kill; the system frees its lock. -/
def World.leave (w : World) (p : Nat) : World :=
  { w with
    phases := Function.update w.phases p none
    holder := if w.holder = some p then none else w.holder }

@[simp] theorem World.enter_phases (w : World) (p : Nat) (phase : Phase) :
    (w.enter p phase).phases = Function.update w.phases p (some phase) := rfl

@[simp] theorem World.leave_phases (w : World) (p : Nat) :
    (w.leave p).phases = Function.update w.phases p none := rfl

/-- `save`. -/
def World.save (w : World) (journal : Journal) : World := { w with file := some journal }

inductive Step where
  /-- A transaction of an agent. -/
  | call (call : Call)
  | tick (now : Int)
  /-- `Relay.__init__`. -/
  | start (p : Nat)
  /-- `exclusive_lock`. -/
  | acquire (p : Nat)
  /-- `once` is called. -/
  | once (p : Nat) (targets : List Str) (limits : Limits)
  /-- The next target of `once`; the batch's time is read again, as `stamp`. -/
  | next (p : Nat) (stamp : Int)
  | send (p : Nat)
  /-- No sender has the target's name. -/
  | unroutable (p : Nat)
  | finish (p : Nat) (outcome : Outcome)
  | leave (p : Nat)

/-- The batch with its outcome, saved; the pass goes on. -/
def World.conclude (w : World) (p : Nat) (pass : Pass) (dispatch : Dispatch) (outcome : Outcome) :
    World :=
  let journal := pass.journal.put dispatch.requestId (dispatch.batch.settle outcome)
  (w.save journal).enter p
    (.passing { pass with journal, attempted := pass.attempted ++ dispatch.batch.ids })

/-- What a step does, where it is possible. -/
def perform (w : World) : Step → Option World
  | .call call => some { w with store := after exec w.store call }
  | .tick now => some { w with clock := now }
  | .start p =>
    match w.phases p with
    | none => some (w.enter p (.loaded w.stored))
    | some _ => none
  | .acquire p =>
    match w.phases p, w.holder with
    | some (.loaded journal), none => some ({ w with holder := some p }.enter p (.held journal))
    -- the lock is taken without waiting: a process that finds it held ends
    | some (.loaded _), some _ => some (w.leave p)
    | _, _ => none
  | .once p targets limits =>
    match w.phases p with
    | some (.held journal) =>
      some (w.enter p (.passing ⟨limits, journal, journal.ids, targets⟩))
    | _ => none
  | .next p stamp =>
    match w.phases p with
    | some (.passing ⟨_, journal, _, []⟩) => some (w.enter p (.held journal))
    | some (.passing ⟨limits, journal, attempted, target :: targets⟩) =>
      match choose limits journal attempted w.store target w.clock stamp with
      | .raises => some (w.leave p)
      | .skip => some (w.enter p (.passing ⟨limits, journal, attempted, targets⟩))
      | .dispatch dispatch =>
        let journal := journal.put dispatch.requestId dispatch.batch
        some ((w.save journal).enter p (.sending ⟨limits, journal, attempted, targets⟩ dispatch))
    | _ => none
  | .send p =>
    match w.phases p with
    | some (.sending pass dispatch) =>
      some ({ w with
        history := w.history ++ [Sent.mk dispatch.batch.target dispatch.batch.delivery
          dispatch.requestId dispatch.messages] }.enter p (.sent pass dispatch))
    | _ => none
  | .unroutable p =>
    match w.phases p with
    | some (.sending pass dispatch) =>
      some (w.conclude p pass dispatch (.otherError (str "KeyError")))
    | _ => none
  | .finish p outcome =>
    match w.phases p with
    | some (.sent pass dispatch) => some (w.conclude p pass dispatch outcome)
    | _ => none
  | .leave p =>
    match w.phases p with
    | some _ => some (w.leave p)
    | none => none

/-- A possible step. -/
def Performs (w : World) (step : Step) (w' : World) : Prop := perform w step = some w'

/-- The ids of the messages handed to senders, in the order of the sends. -/
def World.sentIds (w : World) : List Str :=
  w.history.flatMap fun entry => entry.messages.map Row.id

end Relay

end IntegrityGuardian.LlmBus
