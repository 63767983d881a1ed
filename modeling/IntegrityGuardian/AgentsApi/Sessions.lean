import IntegrityGuardian.AgentsApi.Recovery

/-!
# Sessions and their provider

`Sessions.start`, `message` and `recover` of `lifecycle.py` over one journal and
one provider.  A call is the sequence of its transactions and requests; the
calls of all processes interleave at these points.  A billable request, once its
claim is committed, reaches the provider at any later moment or never, whatever
became of its caller.
-/

namespace IntegrityGuardian.AgentsApi

open Python Library

section
variable [FloatData]

/-! ## Requests -/

/-- The keys of a `dict` are these. -/
def hasKeys (value : Value) (keys : List String) : Bool :=
  match value with
  | .obj members =>
    keys.all (fun key => (members.lookup (str key)).isSome)
      && members.all fun member => keys.any fun key => member.1 = str key
  | _ => false

/-- `digest` of any object. -/
def digestOf : Value → Except Error Str
  | .str s => do
    ensure (Schemas.digestBody s = true) (reject "invalid_digest")
    .ok s
  | _ => .error (reject "invalid_digest")

def classifications : List Value :=
  [.str (str "synthetic"), .str (str "public"), .str (str "reviewed_project_extract")]

/-- The loop of `context_capsule`. -/
def addExtract (seen : List Str) (entry : Value) : Except Error (List Str) := do
  ensure (hasKeys entry ["source_ref", "sha256", "classification", "text"] = true)
    (reject "object_fields")
  let source ← item entry "source_ref" >>= identifierOf
  ensure (source ∉ seen) (reject "duplicate_source")
  let classification ← item entry "classification"
  ensure (classifications.any (·.eq classification) = true) (reject "restricted_context")
  let text ← item entry "text"
  let hash ← item entry "sha256"
  match text with
  | .str text =>
    match encodeUtf8 text with
    | none => .error .raised
    | some raw => do
      let hash ← digestOf hash
      ensure (sha256Digest raw = hash) (reject "context_hash")
      .ok (source :: seen)
  | _ => .error (reject "context_text")

/-- `context_capsule`. -/
def contextCapsule (taskRef snapshotSha256 extracts : Value) : Except Error Value := do
  let _ ← identifierOf taskRef
  let _ ← digestOf snapshotSha256
  match extracts with
  | .arr entries => do
    ensure (entries.length ≤ 32) (reject "context_count")
    let _ ← entries.foldlM addExtract []
    let result := Value.obj [(str "schema", .str (str "integrity-context-capsule/v1")),
      (str "task_ref", taskRef), (str "snapshot_sha256", snapshotSha256),
      (str "extracts", extracts), (str "content_is_authority", .bool false)]
    let _ ← encode result 32768
    frozen result
  | _ => .error (reject "context_count")

/-- `Request.descriptor` of a `POST`. -/
def descriptor (namespaceName path : Str) (body : Bytes) : Value :=
  .obj [(str "schema", .str (str "integrity-agents-request/v1")),
    (str "namespace", .str namespaceName), (str "operation", .str (str "POST " ++ path)),
    (str "input_sha256", .str (sha256Digest body))]

/-- `"/v1/agents/sessions/" + session`. -/
def sessionPath (session : Str) : Str := str "/v1/agents/sessions/" ++ session

/-- The body of a message. -/
def messageBody (capsule : Value) : Except Error Bytes := do
  let _ ← encode capsule
  let text ← capsule.dumps.mapError fun _ => .raised
  encode (.obj [(str "events", .arr [.obj [
    (str "type", .str (str "agent.session.input.message")),
    (str "input", .arr [.obj [(str "role", .str (str "user")),
      (str "content", .arr [.obj [(str "type", .str (str "input_text")),
        (str "text", .str text)]])]])]])])

/-- The usage scope of a session that is being created. -/
def pendingScopeOf (operation taskRef : Str) : Except Error Str := do
  let raw ← encode (.arr [.str operation, .str taskRef])
  .ok (str "create-" ++ (sha256Digest raw).drop 7)

/-- The output of a create. -/
def createOutput (session : Str) (environment : Option Str) : Except Error Bytes :=
  encode (.obj [(str "id", .str session),
    (str "environment_id", (environment.map Value.str).getD .null)])

/-- The output of a message. -/
def messageOutput : Except Error Bytes :=
  encode (.obj [(str "provider_acknowledged_request", .bool true),
    (str "operation_completed", .bool false)])

/-- The session and environment of a retained create. -/
def readOutput (output : Bytes) : Except Error (Str × Option Str) := do
  let value ← (Value.loadsBytes output).mapError fun _ => reject "invalid_json"
  let session ← item value "id" >>= identifierOf
  let environment ← item value "environment_id"
  match environment with
  | .null => .ok (session, none)
  | environment => do
    let environment ← identifierOf environment
    .ok (session, some environment)

/-! ## State -/

/-- A row of `bindings`. -/
structure Binding where
  session : Str
  task : Str
  configuration : Str
  environment : Option Str
  deriving DecidableEq

/-- A session at the provider. -/
structure ProviderSession where
  id : Str
  document : Value
  items : List Value
  turns : List Value

/-- What a `Sessions` object is constructed with. -/
structure Client where
  configuration : Bytes
  taskRef : Str

/-- `configuration_sha256`. -/
def Client.configurationSha256 (client : Client) : Str := sha256Digest client.configuration

/-- What a billable request asks for. -/
inductive Target where
  | create (client : Client) (taskRef pendingScope : Str)
  | post (session : Str)

/-- A billable request on its way. -/
structure Request where
  operation : Str
  epoch : Int
  target : Target

/-- How far a `start` or `message` call is. -/
inductive SendPhase where
  | sending
  /-- The created session is known. -/
  | answered (session : Str) (environment : Option Str)
  /-- Its binding is committed. -/
  | bound (session : Str)

structure Sender where
  operation : Str
  binding : Str
  target : Target
  phase : SendPhase

/-- How far a `recover` call is with its reads. -/
inductive Reading where
  | first
  | items (first : Value) (paging : Paging)
  | turns (first : Value) (items : List Value) (paging : Paging)
  | last (first : Value) (items turns : List Value)
  | observe (settled : Bool)

/-- A `recover` call after its checkpoint. -/
structure Recover where
  id : Nat
  client : Client
  session : Str
  buffered : List Value
  scope : Str
  epoch : Int
  reading : Reading

/-- What happened, in order. -/
inductive Happening where
  | claimed (operation : Str) (epoch : Int)
  | accepted (operation : Str) (epoch : Int)
  /-- A recovery read the provider. -/
  | read (recover : Nat)
  /-- A recovery settled the usage of its checkpoint. -/
  | settled (recover : Nat) (epoch : Int)
  deriving DecidableEq

structure World where
  db : Database
  bindings : List Binding
  provider : List ProviderSession
  requests : List Request
  /-- The operation, session and environment of each accepted request. -/
  responses : List (Str × Str × Option Str)
  senders : List Sender
  recovers : List Recover
  nextRecover : Nat
  history : List Happening

/-- `require_session`. -/
def World.requireSession (w : World) (session : Str) : Except Error Binding := do
  let session ← identifier session
  match w.bindings.find? (·.session = session) with
  | none => .error (reject "foreign_session")
  | some binding => .ok binding

/-- `_bound`. -/
def World.bound (w : World) (client : Client) (session : Str) : Except Error Unit := do
  let row ← w.requireSession session
  ensure (row.configuration = client.configurationSha256) (reject "foreign_session_configuration")

/-! ## Billable calls -/

/-- `run_once` up to its claim, for a request to a target. -/
def World.opened (w : World) (operation : Str) (target : Target) :
    Claim × Database → Except Error World
  | (.claimed binding, db) => .ok { w with
      db
      senders := w.senders ++ [⟨operation, binding, target, .sending⟩]
      requests := w.requests ++ [⟨operation, db.metadata.usageEpoch, target⟩]
      history := w.history ++ [.claimed operation db.metadata.usageEpoch] }
  | (.retained output, db) =>
    match target with
    | .post _ => .ok { w with db }
    | .create _ _ _ => do
      let (session, environment) ← readOutput output
      .ok { w with
        db
        senders := w.senders ++ [⟨operation, [], target, .answered session environment⟩] }

/-- `start`, up to the commit of its claim. -/
def World.start (w : World) (namespaceName : Str) (client : Client) (operation taskRef : Str)
    (reserveMicrousd : Int) : Except Error World := do
  let taskRef ← identifier taskRef
  ensure (taskRef = client.taskRef) (reject "task_capsule_binding_mismatch")
  let reserveMicrousd ← number reserveMicrousd 1
  let pendingScope ← pendingScopeOf operation taskRef
  let document := Value.obj [
    (str "request", descriptor namespaceName (str "/v1/agents/sessions") client.configuration),
    (str "task_ref", .str taskRef)]
  let claimed ← claim namespaceName operation document reserveMicrousd pendingScope w.db
  w.opened operation (.create client taskRef pendingScope) claimed

/-- `message`, up to the commit of its claim. -/
def World.message (w : World) (namespaceName : Str) (client : Client) (operation session : Str)
    (capsule : Value) (reserveMicrousd : Int) : Except Error World := do
  let reserveMicrousd ← number reserveMicrousd 1
  let taskRef ← item capsule "task_ref"
  let snapshotSha256 ← item capsule "snapshot_sha256"
  let extracts ← item capsule "extracts"
  let capsule ← contextCapsule taskRef snapshotSha256 extracts
  let row ← w.requireSession session
  ensure (taskRef.eq (.str row.task) = true) (reject "task_binding")
  w.bound client session
  let body ← messageBody capsule
  let document := descriptor namespaceName (sessionPath session ++ str "/events") body
  let claimed ← claim namespaceName operation document reserveMicrousd session w.db
  w.opened operation (.post session) claimed

/-- The response of the provider is the result of the call at an index. -/
def World.answer (w : World) (index : Nat) (sender : Sender) (session : Str)
    (environment : Option Str) : Except Error World :=
  match sender.target with
  | .create _ _ _ => do
    let session ← identifier session
    let output ← createOutput session environment
    let db ← storeResult sender.operation sender.binding output w.db
    .ok { w with
      db
      senders := w.senders.modify index fun call =>
        { call with phase := .answered session environment } }
  | .post _ => do
    let output ← messageOutput
    let db ← storeResult sender.operation sender.binding output w.db
    .ok { w with db, senders := w.senders.eraseIdx index }

/-- `bind_session`. -/
def bindSession (rows : List Binding) (desired : Binding) : Except Error (List Binding) := do
  let _ ← identifier desired.session
  match rows.find? (·.session = desired.session) with
  | none => .ok (rows ++ [desired])
  | some prior => do
    ensure (prior = desired) (reject "session_binding_changed")
    .ok rows

/-! ## Provider -/

/-- The turns a session shows. -/
def ProviderSession.turnIds (session : ProviderSession) : List Str :=
  session.turns.filterMap fun turn =>
    match turn.get? (str "id") with
    | some (.str id) => some id
    | _ => none

/-- The provider can show a session so later: its turns are still there. -/
def ProviderSession.Continues (old new : ProviderSession) : Prop :=
  new.id = old.id ∧ ∀ id ∈ old.turnIds, id ∈ new.turnIds

instance (old new : ProviderSession) : Decidable (old.Continues new) :=
  inferInstanceAs (Decidable (_ ∧ _))

/-- Accepting a request shows its turn, in a new session or in the one it names. -/
def World.Accepts (w : World) (target : Target) (view : ProviderSession) : Prop :=
  match target with
  | .create _ _ _ => (∀ p ∈ w.provider, p.id ≠ view.id) ∧ view.turnIds ≠ []
  | .post session => ∃ old ∈ w.provider, old.id = session ∧ old.Continues view ∧
      ∃ id ∈ view.turnIds, id ∉ old.turnIds

instance (w : World) (target : Target) (view : ProviderSession) :
    Decidable (w.Accepts target view) := by
  unfold World.Accepts
  cases target <;> infer_instance

/-- The provider's sessions with one of them as shown. -/
def putSession (provider : List ProviderSession) (view : ProviderSession) :
    List ProviderSession :=
  provider.filter (·.id ≠ view.id) ++ [view]

/-- The page of a collection after a cursor. -/
def pageOf (collection : List Value) (cursor : Str) : Page :=
  let idOf (v : Value) := (v.get? (str "id")).getD .null
  let rest :=
    if cursor = [] then collection
    else (collection.dropWhile fun v => !(idOf v).eq (.str cursor)).drop 1
  let data := rest.take 100
  ⟨data, 100 < rest.length, (data.getLast?.map idOf).getD .null⟩

/-- One read of a recovery, and what it does next. -/
def World.read (w : World) (call : Recover) : Except Error Reading := do
  w.bound call.client call.session
  match w.provider.find? (·.id = call.session) with
  | none => .error (.unknown (str "provider_outcome_unknown_no_retry"))
  | some view =>
    match call.reading with
    | .first => do
      let document ← checkSnapshot call.session view.document
      .ok (.items document .start)
    | .items first paging => do
      let next ← paging.next (pageOf view.items paging.cursor)
      match next with
      | .inl paging => .ok (.items first paging)
      | .inr items => .ok (.turns first items .start)
    | .turns first items paging => do
      let next ← paging.next (pageOf view.turns paging.cursor)
      match next with
      | .inl paging => .ok (.turns first items paging)
      | .inr turns => .ok (.last first items turns)
    | .last first items turns => do
      let document ← checkSnapshot call.session view.document
      let settled ← settledUsage call.session first document items turns call.buffered
      .ok (.observe settled)
    -- no read is left
    | .observe _ => .error .raised

/-! ## Steps -/

inductive Step where
  | start (client : Client) (operation taskRef : Str) (reserveMicrousd : Int)
  | message (client : Client) (operation session : Str) (capsule : Value) (reserveMicrousd : Int)
  /-- The provider accepts a request, and shows the session so. -/
  | accept (index : Nat) (view : ProviderSession) (environment : Option Str)
  /-- A session at the provider goes on. -/
  | progress (view : ProviderSession)
  /-- The response reaches its caller, who commits the result. -/
  | answer (index : Nat)
  /-- The caller gives up; the update of its error handler may fail. -/
  | giveUp (index : Nat) (fault : Bool)
  | bindSession (index : Nat)
  | attachUsage (index : Nat)
  /-- The process of a `start` or `message` call is gone. -/
  | kill (index : Nat)
  /-- `recover`, up to its checkpoint. -/
  | recover (client : Client) (session : Str) (buffered : List Value)
  /-- The next read of a recovery. -/
  | read (index : Nat)
  /-- The end of a recovery: `usage_observed`. -/
  | observe (index : Nat)
  /-- A recovery raises, or its process is gone. -/
  | abandon (index : Nat)

/-- `usage_observed`, as `recover` calls it. -/
def World.observe (w : World) (index : Nat) (call : Recover) (settled : Bool) : World :=
  if call.scope = call.session then
    match usageObserved settled (.ofSession call.session call.epoch) w.db with
    | .ok (true, db) => { w with
        db
        recovers := w.recovers.eraseIdx index
        history := w.history ++ if settled then [.settled call.id call.epoch] else [] }
    | _ => { w with recovers := w.recovers.eraseIdx index }
  else { w with recovers := w.recovers.eraseIdx index }

/-- One step; a step nobody can take changes nothing. -/
def World.step (namespaceName : Str) (w : World) : Step → World
  | .start client operation taskRef reserveMicrousd =>
    (w.start namespaceName client operation taskRef reserveMicrousd).toOption.getD w
  | .message client operation session capsule reserveMicrousd =>
    (w.message namespaceName client operation session capsule reserveMicrousd).toOption.getD w
  | .accept index view environment =>
    match w.requests[index]? with
    | none => w
    | some request =>
      if w.Accepts request.target view then { w with
        requests := w.requests.eraseIdx index
        provider := putSession w.provider view
        responses := w.responses ++ [(request.operation, view.id, environment)]
        history := w.history ++ [.accepted request.operation request.epoch] }
      else w
  | .progress view =>
    if ∃ old ∈ w.provider, old.Continues view then
      { w with provider := putSession w.provider view }
    else w
  | .answer index =>
    match w.senders[index]? with
    | some ⟨operation, binding, target, .sending⟩ =>
      match w.responses.lookup operation with
      | none => w
      | some (session, environment) =>
        (w.answer index ⟨operation, binding, target, .sending⟩ session environment).toOption.getD w
    | _ => w
  | .giveUp index fault =>
    match w.senders[index]? with
    | some ⟨operation, _, _, .sending⟩ => { w with
        db := if fault then w.db else markUnknown operation w.db
        senders := w.senders.eraseIdx index }
    | _ => w
  | .bindSession index =>
    match w.senders[index]? with
    | some ⟨_, _, .create client taskRef _, .answered session environment⟩ =>
      match AgentsApi.bindSession w.bindings
          ⟨session, taskRef, client.configurationSha256, environment⟩ with
      | .ok bindings => { w with
          bindings
          senders := w.senders.modify index fun call => { call with phase := .bound session } }
      | .error _ => { w with senders := w.senders.eraseIdx index }
    | _ => w
  | .attachUsage index =>
    match w.senders[index]? with
    | some ⟨_, _, .create _ _ pendingScope, .bound session⟩ => { w with
        db := (AgentsApi.attachUsage pendingScope session w.db).toOption.getD w.db
        senders := w.senders.eraseIdx index }
    | _ => w
  | .kill index => { w with senders := w.senders.eraseIdx index }
  | .recover client session buffered => { w with
      recovers := w.recovers ++ [⟨w.nextRecover, client, session, buffered,
        w.db.metadata.usageScope, w.db.metadata.usageEpoch, .first⟩]
      nextRecover := w.nextRecover + 1 }
  | .read index =>
    match w.recovers[index]? with
    | none => w
    | some call =>
      match w.read call with
      | .error _ => { w with recovers := w.recovers.eraseIdx index }
      | .ok reading => { w with
          recovers := w.recovers.modify index fun call => { call with reading }
          history := w.history ++ [.read call.id] }
  | .observe index =>
    match w.recovers[index]? with
    | some ⟨id, client, session, buffered, scope, epoch, .observe settled⟩ =>
      w.observe index ⟨id, client, session, buffered, scope, epoch, .observe settled⟩ settled
    | _ => w
  | .abandon index => { w with recovers := w.recovers.eraseIdx index }

/-- The world after a schedule of steps. -/
def World.run (namespaceName : Str) (w : World) (schedule : List Step) : World :=
  schedule.foldl (World.step namespaceName) w

/-- A fresh journal, and a provider with any sessions. -/
def World.initial (db : Database) (provider : List ProviderSession) : World :=
  ⟨db, [], provider, [], [], [], [], 0, []⟩

end

end IntegrityGuardian.AgentsApi
