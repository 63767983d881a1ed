import IntegrityGuardian.Python.JsonFields
import IntegrityGuardian.Schemas

/-!
# The message store of the local bus

`MessageStore` keeps one SQLite table of messages between agents.  Every call
opens a connection and runs one transaction, which is rolled back when the call
raises.  The clock is read before the transaction starts, so calls may commit in
another order than that of their readings.
-/

namespace IntegrityGuardian.LlmBus

open Python Library

/-- What the store raises. -/
inductive Error where
  | valueError (message : Str)
  | fileExistsError (message : Str)
  | unicodeEncodeError
  | integrityError
  | typeError
  deriving DecidableEq

/-! ## Messages -/

/-- `DELIVERY_MODES`. -/
inductive Delivery where
  | steer
  | queue
  deriving DecidableEq

def Delivery.value : Delivery → Str
  | .steer => str "steer"
  | .queue => str "queue"

/-- `ID_RE`. -/
def idRe (s : Str) : Bool :=
  Schemas.between 1 128 (fun c => Schemas.isAlphanumeric c || (str "._:-").contains c) s

def maxBodyBytes : Nat := 32 * 1024

/-- `MESSAGE_KEYS`. -/
def messageKeys : List Str := [str "id", str "from", str "to", str "body", str "reply_to"]

/-- A message that `_validate_message` has returned. -/
structure Message where
  id : Str
  sender : Str
  recipient : Str
  body : Str
  replyTo : Option Str
  delivery : Option Delivery
  id_valid : idRe id = true
  recipient_ne : recipient ≠ sender
  body_ne : body ≠ []

/-- `value.get("delivery")`, one of the modes or `None`. -/
def readDelivery (value : Json) : Except Error (Option Delivery) :=
  match value.get? (str "delivery") with
  | none | some .null => .ok none
  | some (.str s) =>
    if s = Delivery.steer.value then .ok (some .steer)
    else if s = Delivery.queue.value then .ok (some .queue)
    else .error (.valueError (str "delivery must be steer or queue"))
  | some _ => .error (.valueError (str "delivery must be steer or queue"))

/-- `value["reply_to"]`, an identity or `None`. -/
def readReplyTo (value : Json) : Except Error (Option Str) :=
  match value.get? (str "reply_to") with
  | some .null => .ok none
  | some (.str parent) =>
    if idRe parent then .ok (some parent) else .error (.valueError (str "invalid reply_to"))
  | _ => .error (.valueError (str "invalid reply_to"))

/-- The keys of a message. -/
def hasMessageKeys (value : Json) : Bool :=
  match value with
  | .obj members =>
    messageKeys.all (fun key => key ∈ members.map Prod.fst)
      && (members.map Prod.fst).all fun key => key ∈ messageKeys ∨ key = str "delivery"
  | _ => false

/-- `_validate_message`, with the addresses `all_agents` lists. -/
def validateMessage (value : Json) (sender : Str) (agents : List Str) : Except Error Message := do
  ensure (hasMessageKeys value = true)
    (.valueError (str "message needs id, from, to, body and reply_to (optional delivery)"))
  let delivery ← readDelivery value
  match value.get? (str "id"), value.get? (str "to"), value.get? (str "body") with
  | some (.str id), recipient, body =>
    if hid : idRe id = true then do
      ensure (value.get? (str "from") = some (.str sender))
        (.valueError (str "from must match authenticated agent"))
      match recipient with
      | some (.str address) =>
        if hother : address ∈ agents ∧ address ≠ sender then
          match body with
          | some (.str text) =>
            if htext : text ≠ [] then
              match encodeUtf8 text with
              | none => .error .unicodeEncodeError
              | some octets => do
                ensure (octets.length ≤ maxBodyBytes) (.valueError (str "body is too large"))
                let replyTo ← readReplyTo value
                .ok ⟨id, sender, address, text, replyTo, delivery, hid, hother.2, htext⟩
            else .error (.valueError (str "body must be a nonempty string"))
          | _ => .error (.valueError (str "body must be a nonempty string"))
        else .error (.valueError (str "to must be another configured agent"))
      | _ => .error (.valueError (str "to must be another configured agent"))
    else .error (.valueError (str "invalid message id"))
  | _, _, _ => .error (.valueError (str "invalid message id"))

/-! ## The table -/

inductive Status where
  | pending
  | acked
  | replied
  deriving DecidableEq

def Status.value : Status → Str
  | .pending => str "pending"
  | .acked => str "acked"
  | .replied => str "replied"

/-- A row of `messages`. -/
structure Row where
  seq : Nat
  id : Str
  sender : Str
  recipient : Str
  body : Str
  replyTo : Option Str
  status : Status
  createdAt : Int
  expiresAt : Int
  ackedAt : Option Int
  repliedAt : Option Int
  delivery : Option Delivery
  deriving DecidableEq

/-- The columns no statement updates. -/
structure Content where
  id : Str
  sender : Str
  recipient : Str
  body : Str
  replyTo : Option Str
  delivery : Option Delivery
  createdAt : Int
  expiresAt : Int
  deriving DecidableEq

def Row.content (row : Row) : Content :=
  ⟨row.id, row.sender, row.recipient, row.body, row.replyTo, row.delivery, row.createdAt,
    row.expiresAt⟩

/-- The table in the order of `seq`, and the last `seq` ever given out. -/
structure Store where
  rows : List Row
  sequence : Nat
  deriving DecidableEq

def Store.empty : Store := ⟨[], 0⟩

/-- `SELECT * FROM messages WHERE id = ?`. -/
def Store.byId (store : Store) (id : Str) : Option Row := store.rows.find? fun row => row.id = id

/-- `_prune`. -/
def Store.prune (now : Int) (store : Store) : Store :=
  { store with rows := store.rows.filter fun row => ¬row.expiresAt ≤ now }

/-- `UPDATE messages SET … WHERE id = ?`. -/
def Store.update (id : Str) (change : Row → Row) (store : Store) : Store :=
  { store with rows := store.rows.map fun row => if row.id = id then change row else row }

/-- `status = 'replied', replied_at = COALESCE(replied_at, ?)`. -/
def Row.markReplied (now : Int) (row : Row) : Row :=
  { row with status := .replied, repliedAt := some (row.repliedAt.getD now) }

/-- `status = 'acked', acked_at = ?`. -/
def Row.markAcked (now : Int) (row : Row) : Row :=
  { row with status := .acked, ackedAt := some now }

/-- The row `INSERT INTO messages` adds. -/
def Message.row (message : Message) (now expiresAt : Int) (seq : Nat) : Row where
  seq
  id := message.id
  sender := message.sender
  recipient := message.recipient
  body := message.body
  replyTo := message.replyTo
  status := .pending
  createdAt := now
  expiresAt
  ackedAt := none
  repliedAt := none
  delivery := message.delivery

/-- `INSERT INTO messages`: `id` is unique, and `seq` was never given out before. -/
def Store.insert (message : Message) (now expiresAt : Int) (store : Store) : Except Error Store :=
  if message.id ∈ store.rows.map Row.id then .error .integrityError
  else .ok
    { rows := store.rows ++ [message.row now expiresAt (store.sequence + 1)]
      sequence := store.sequence + 1 }

/-! ## The calls -/

/-- A stored row has the content of a message. -/
def Row.same (row : Row) (message : Message) : Bool :=
  row.sender = message.sender ∧ row.recipient = message.recipient ∧ row.body = message.body ∧
    row.replyTo = message.replyTo ∧ row.delivery = message.delivery

/-- The statements of `post` for the message replied to. -/
def answerParent (message : Message) (now : Int) : Tx Store Error Unit :=
  match message.replyTo with
  | none => pure ()
  | some parentId => do
    let store ← get
    match store.byId parentId with
    | none =>
      throw (.valueError (str "reply_to must reference a message received from the addressee"))
    | some parent =>
      if parent.recipient ≠ message.sender ∨ parent.sender ≠ message.recipient then
        throw (.valueError (str "reply_to must reference a message received from the addressee"))
      else modify (Store.update parentId (Row.markReplied now))

/-- `post`. -/
def post (message : Message) (ttlSeconds now : Int) : Tx Store Error (Row × Bool) := do
  modify (Store.prune now)
  let store ← get
  match store.byId message.id with
  | some existing =>
    if existing.same message then pure (existing, true)
    else throw (.fileExistsError (str "message id is already used for different content"))
  | none => do
    answerParent message now
    let store ← get
    let store ← Tx.lift (store.insert message now (now + ttlSeconds))
    set store
    match store.byId message.id with
    | some row => pure (row, false)
    | none => throw .typeError

/-- `inbox`; SQLite takes a negative limit for none. -/
def inbox (recipient status : Str) (limit now : Int) : Tx Store Error (List Row) := do
  modify (Store.prune now)
  let store ← get
  let rows := store.rows.filter fun row =>
    row.recipient = recipient ∧ (status = str "all" ∨ row.status.value = status)
  pure (if limit < 0 then rows else rows.take limit.toNat)

/-- `ack`. -/
def ack (mid recipient : Str) (now : Int) : Tx Store Error (Option Row) := do
  modify (Store.prune now)
  let store ← get
  match store.rows.find? fun row => row.id = mid ∧ row.recipient = recipient with
  | none => pure none
  | some row =>
    if row.status = .pending then do
      modify (Store.update mid (Row.markAcked now))
      let store ← get
      pure (store.byId mid)
    else pure (some row)

/-- The rows of `queue_view`, without what it reads from the relay's files. -/
def queueView (recipient : Str) (limit afterSeq : Nat) (now : Int) (store : Store) : List Row :=
  (store.rows.filter fun row =>
    row.recipient = recipient ∧ row.status = .pending ∧ now < row.expiresAt ∧
      afterSeq < row.seq).take limit

/-- `queue_page`: the rows of the page and the `seq` to go on after. -/
def queuePage (recipient : Str) (limit afterSeq now : Int) :
    Tx Store Error (List Row × Option Nat) := do
  Tx.lift (ensure (1 ≤ limit ∧ limit ≤ 50) (.valueError (str "limit must be 1-50")))
  Tx.lift (ensure (0 ≤ afterSeq ∧ afterSeq ≤ 2 ^ 63 - 1)
    (.valueError (str "after-seq must be a nonnegative SQLite integer")))
  let store ← get
  let rows := queueView recipient (limit.toNat + 1) afterSeq.toNat now store
  let page := rows.take limit.toNat
  pure (page, if limit.toNat < rows.length then page.getLast?.map Row.seq else none)

/-- A transaction of an agent, with its reading of the clock. -/
inductive Call where
  /-- A request of `sender`, with the addresses known and the lifetime the store was opened with. -/
  | post (value : Json) (sender : Str) (agents : List Str) (ttlSeconds now : Int)
  | ack (mid recipient : Str) (now : Int)
  | inbox (recipient status : Str) (limit now : Int)
  | queuePage (recipient : Str) (limit afterSeq now : Int)

def Call.now : Call → Int
  | .post _ _ _ _ now | .ack _ _ now | .inbox _ _ _ now | .queuePage _ _ _ now => now

/-- What a call returns. -/
inductive Reply where
  | posted (row : Row) (duplicate : Bool)
  | acknowledged (row : Option Row)
  | listed (rows : List Row)
  | page (rows : List Row) (next : Option Nat)

def exec : Call → Store → Except Error (Reply × Store)
  | .post value sender agents ttlSeconds now, store => do
    let message ← validateMessage value sender agents
    let ((row, duplicate), store) ← post message ttlSeconds now store
    .ok (.posted row duplicate, store)
  | .ack mid recipient now, store =>
    (ack mid recipient now store).map fun result => (.acknowledged result.1, result.2)
  | .inbox recipient status limit now, store =>
    (inbox recipient status limit now store).map fun result => (.listed result.1, result.2)
  | .queuePage recipient limit afterSeq now, store =>
    (queuePage recipient limit afterSeq now store).map fun result =>
      (.page result.1.1 result.1.2, result.2)

end IntegrityGuardian.LlmBus
