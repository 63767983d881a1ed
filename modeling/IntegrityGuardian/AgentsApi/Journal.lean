import IntegrityGuardian.Python.Value
import IntegrityGuardian.Schemas
import IntegrityGuardian.Canonical

/-!
# The agents-API journal

`journal.py` and what it uses of `contracts.py`.  A `run_once` call claims its
operation in one transaction, runs the effect outside of any, and stores the
result in another; every other call is one transaction.  The processes that use
one journal interleave at these points, and each may be killed between them.
-/

namespace IntegrityGuardian.AgentsApi

open Python Library
open Python.Json (ch)

/-! ## Contracts -/

inductive Error where
  /-- `Rejected`. -/
  | rejected (code : Str)
  /-- `Unknown`. -/
  | unknown (code : Str)
  /-- An exception of the language, such as `KeyError`. -/
  | raised
  deriving DecidableEq

def reject (code : String) : Error := .rejected (str code)

/-- `MAX_BYTES`. -/
def maxBytes : Nat := 262144

/-- `number`. -/
def number (value low : Int) (high : Int := 9007199254740991) : Except Error Int := do
  ensure (low ≤ value ∧ value ≤ high) (reject "invalid_integer")
  .ok value

/-- `[A-Za-z0-9_.-]{1,128}`. -/
def identifierBody (s : Str) : Bool :=
  Schemas.between 1 128 (fun c => Schemas.isAlphanumeric c || (str "_.-").contains c) s

/-- `identifier`. -/
def identifier (value : Str) : Except Error Str := do
  ensure (identifierBody value = true) (reject "invalid_identifier")
  ensure (value ≠ str "." ∧ value ≠ str "..") (reject "dot_identifier")
  .ok value

section
variable [FloatData]

mutual
/-- `visit`: the bounds `encode` sets on a value at a depth. -/
def visit (limit : Nat) : Nat → Value → Bool
  | depth, .obj members => depth ≤ 32 && members.length ≤ 4096 && visitMembers limit depth members
  | depth, .arr items => depth ≤ 32 && items.length ≤ 4096 && visitItems limit depth items
  | depth, .int n => depth ≤ 32 && n.natAbs < 2 ^ 128
  | depth, .float x => depth ≤ 32 && FloatData.isfinite x
  | depth, .str s => depth ≤ 32 && s.length ≤ limit
  | depth, .null => depth ≤ 32
  | depth, .bool _ => depth ≤ 32
  | _, .foreign _ _ => false

def visitItems (limit : Nat) : Nat → List Value → Bool
  | _, [] => true
  | depth, v :: vs => visit limit (depth + 1) v && visitItems limit depth vs

def visitMembers (limit : Nat) : Nat → List (Str × Value) → Bool
  | _, [] => true
  | depth, (key, v) :: ms =>
    depth + 1 ≤ 32 && key.length ≤ limit && visit limit (depth + 1) v
      && visitMembers limit depth ms
end

/-- `encode`. -/
def encode (value : Value) (limit : Nat := maxBytes) : Except Error Bytes := do
  ensure (visit limit 0 value = true) (reject "invalid_json")
  let raw ← value.dumpsBytes.mapError fun _ => reject "invalid_json"
  ensure (raw.length ≤ limit) (reject "json_bytes")
  .ok raw

/-- The identity of an operation and its input. -/
def bindingOf (namespaceName operation : Str) (document : Value) : Except Error Str := do
  let raw ← encode (.obj [(str "namespace", .str namespaceName),
    (str "operation", .str operation), (str "input", document)])
  .ok (sha256Digest raw)

end

/-! ## Tables -/

/-- `metadata`, one row. -/
structure Metadata where
  budget : Int
  reserved : Int
  maxBillable : Int
  billable : Int
  usageUnknown : Bool
  usageScope : Str
  usageEpoch : Int
  deriving DecidableEq

inductive OperationState where
  | claimed
  | done
  | unknown
  deriving DecidableEq

/-- A row of `operations`. -/
structure Operation where
  key : Str
  binding : Str
  state : OperationState
  output : Option Bytes
  outputSha256 : Option Str
  deriving DecidableEq

structure Database where
  metadata : Metadata
  operations : List Operation
  deriving DecidableEq

/-- The rows `Journal.create` leaves behind. -/
def Database.create (budgetMicrousd maxBillable : Int) : Except Error Database := do
  let budget ← number budgetMicrousd 1
  let maxBillable ← number maxBillable 1 100
  .ok ⟨⟨budget, 0, maxBillable, 0, false, [], 0⟩, []⟩

def Database.find (db : Database) (key : Str) : Option Operation :=
  db.operations.find? fun op => op.key = key

/-! ## Transactions -/

/-- What the first transaction of `run_once` ends in. -/
inductive Claim where
  /-- The output of an earlier run. -/
  | retained (output : Bytes)
  /-- The operation is claimed, under this binding. -/
  | claimed (binding : Str)
  deriving DecidableEq

/-- The answer to a call for an operation that is in the table. -/
def retainedOutput (op : Operation) (binding : Str) : Except Error Bytes := do
  ensure (op.binding = binding) (reject "operation_identity_reused")
  ensure (op.state = .done) (.unknown (str "prior_outcome_unknown_no_retry"))
  match op.output with
  | none => .error (reject "retained_result_corrupt")
  | some output => do
    ensure (some (sha256Digest output) = op.outputSha256) (reject "retained_result_corrupt")
    .ok output

/-- The metadata after a claim: a billable one is checked against the budget. -/
def Metadata.reserve (m : Metadata) (reserveMicrousd : Int) (usageScope : Str) :
    Except Error Metadata :=
  if reserveMicrousd = 0 then .ok m
  else do
    ensure (m.usageUnknown = false) (reject "usage_unknown_blocks_new_work")
    ensure (m.reserved + reserveMicrousd ≤ m.budget ∧ m.billable < m.maxBillable)
      (reject "budget_exhausted")
    .ok { m with
      reserved := m.reserved + reserveMicrousd
      billable := m.billable + 1
      usageUnknown := true
      usageScope := usageScope
      usageEpoch := m.usageEpoch + 1 }

/-- The claim transaction of `run_once`, for a binding. -/
def claimTransaction (operation binding : Str) (reserveMicrousd : Int) (usageScope : Str)
    (db : Database) : Except Error (Claim × Database) :=
  match db.find operation with
  | some prior => do
    let output ← retainedOutput prior binding
    .ok (.retained output, db)
  | none => do
    ensure (db.operations.length < 1024) (reject "journal_capacity")
    let metadata ← db.metadata.reserve reserveMicrousd usageScope
    .ok (.claimed binding,
      ⟨metadata, db.operations ++ [⟨operation, binding, .claimed, none, none⟩]⟩)

section
variable [FloatData]

/-- `run_once` up to the commit of its claim. -/
def claim (namespaceName operation : Str) (document : Value) (reserveMicrousd : Int)
    (usageScope : Str) (db : Database) : Except Error (Claim × Database) := do
  let operation ← identifier operation
  let reserveMicrousd ← number reserveMicrousd 0
  let usageScope ← identifier usageScope
  let binding ← bindingOf namespaceName operation document
  claimTransaction operation binding reserveMicrousd usageScope db

/-- `retained`. -/
def retained (namespaceName operation : Str) (document : Value) (db : Database) :
    Except Error Bytes := do
  let operation ← identifier operation
  let binding ← bindingOf namespaceName operation document
  match db.find operation with
  | none => .error (reject "no_retained_result")
  | some op => retainedOutput op binding

end

/-- The rows a claimed operation is updated in. -/
def Database.update (db : Database) (key : Str) (change : Operation → Operation) : Database :=
  { db with operations := db.operations.map fun op => if op.key = key then change op else op }

/-- The result transaction of `run_once`. -/
def storeResult (operation binding : Str) (output : Bytes) (db : Database) :
    Except Error Database := do
  ensure (∃ op ∈ db.operations, op.key = operation ∧ op.binding = binding ∧ op.state = .claimed)
    (reject "operation_state_conflict")
  .ok (db.update operation fun op =>
    if op.binding = binding ∧ op.state = .claimed then
      { op with state := .done, output := some output, outputSha256 := some (sha256Digest output) }
    else op)

/-- The update in the error handler of `run_once`. -/
def markUnknown (operation : Str) (db : Database) : Database :=
  db.update operation fun op => if op.state = .claimed then { op with state := .unknown } else op

/-- `attach_usage`. -/
def attachUsage (pendingScope session : Str) (db : Database) : Except Error Database := do
  let pendingScope ← identifier pendingScope
  let session ← identifier session
  .ok (if db.metadata.usageScope = pendingScope then
      { db with metadata := { db.metadata with usageScope := session } } else db)

/-- The two ways to call `usage_observed`: for a session and an epoch, or unscoped. -/
inductive Observation where
  | ofSession (session : Str) (expectedEpoch : Int)
  | unscoped

/-- `usage_observed`. -/
def usageObserved (complete : Bool) (observation : Observation) (db : Database) :
    Except Error (Bool × Database) :=
  let applied : Database := { db with metadata := { db.metadata with usageUnknown := !complete } }
  match observation with
  | .unscoped => do
    ensure (db.metadata.usageScope = [] ∨ db.metadata.usageScope = str "local")
      (reject "scoped_usage_observation_required")
    .ok (true, applied)
  | .ofSession session expectedEpoch => do
    let session ← identifier session
    let expectedEpoch ← number expectedEpoch 0
    .ok (if db.metadata.usageScope = session ∧ db.metadata.usageEpoch = expectedEpoch then
        (true, applied) else (false, db))

/-! ## Processes -/

/-- A `run_once` call between its claim and its end. -/
inductive Phase where
  /-- The claim is committed. -/
  | claimed
  /-- The effect returned a value: its bytes, or `none` for something else. -/
  | executed (output : Option Bytes)
  /-- An exception is being handled. -/
  | failed
  deriving DecidableEq

structure Running where
  operation : Str
  binding : Str
  phase : Phase
  deriving DecidableEq

/-- What has happened, for every operation key. -/
inductive Event where
  | claimed (key : Str) (reserveMicrousd : Int)
  | executed (key : Str)
  | stored (key : Str) (output : Bytes)
  | returned (key : Str) (output : Bytes)
  deriving DecidableEq

structure System where
  db : Database
  running : List Running
  history : List Event

/-- A step of some process. -/
inductive Action [FloatData] where
  /-- `run_once`, up to the commit of its claim. -/
  | runOnce (operation : Str) (document : Value) (reserveMicrousd : Int) (usageScope : Str)
  /-- The effect runs; `none` when it raises. -/
  | execute (index : Nat) (result : Option (Option Bytes))
  /-- The result is checked and stored; a storage fault raises before the commit. -/
  | store (index : Nat) (fault : Bool)
  /-- The result was committed, but the call raises all the same. -/
  | storeAndFail (index : Nat)
  /-- The error handler, whose own update may fail. -/
  | handle (index : Nat) (fault : Bool)
  /-- The process is gone. -/
  | kill (index : Nat)
  | retained (operation : Str) (document : Value)
  | attachUsage (pendingScope session : Str)
  | usageObserved (complete : Bool) (observation : Observation)

section
variable [FloatData]

/-- The journal a process uses, and the check `decode` makes of a result. -/
structure Journal where
  namespaceName : Str
  decodes : Bytes → Bool

/-- The result passes the checks in front of the result transaction. -/
def Journal.admits (journal : Journal) (output : Bytes) : Bool :=
  output.length ≤ maxBytes && journal.decodes output

/-- The call at an index moves on to a phase. -/
def System.advance (s : System) (index : Nat) (phase : Phase) : System :=
  { s with running := s.running.modify index fun call => { call with phase } }

/-- The call at an index is over. -/
def System.finish (s : System) (index : Nat) : System :=
  { s with running := s.running.eraseIdx index }

/-- The result transaction of the call at an index commits. -/
def System.commitResult (s : System) (call : Running) (output : Bytes) (db : Database) : System :=
  { s with db, history := s.history ++ [.stored call.operation output] }

/-- One step; a step no process can take changes nothing. -/
def Journal.step (journal : Journal) (s : System) : Action → System
  | .runOnce operation document reserveMicrousd usageScope =>
    match claim journal.namespaceName operation document reserveMicrousd usageScope s.db with
    | .error _ => s
    | .ok (.retained output, db) =>
      { s with db, history := s.history ++ [.returned operation output] }
    | .ok (.claimed binding, db) =>
      ⟨db, s.running ++ [⟨operation, binding, .claimed⟩],
        s.history ++ [.claimed operation reserveMicrousd]⟩
  | .execute index result =>
    match s.running[index]? with
    | some ⟨operation, _, .claimed⟩ =>
      let phase :=
        match result with
        | none => .failed
        | some output => .executed output
      { s.advance index phase with history := s.history ++ [.executed operation] }
    | _ => s
  | .store index fault =>
    match s.running[index]? with
    | some ⟨operation, binding, .executed (some output)⟩ =>
      if fault ∨ journal.admits output = false then s.advance index .failed
      else
        match storeResult operation binding output s.db with
        | .error _ => s.advance index .failed
        | .ok db =>
          { (s.commitResult ⟨operation, binding, .executed (some output)⟩ output db).finish index
            with history := s.history ++ [.stored operation output, .returned operation output] }
    | some ⟨_, _, .executed none⟩ => s.advance index .failed
    | _ => s
  | .storeAndFail index =>
    match s.running[index]? with
    | some ⟨operation, binding, .executed (some output)⟩ =>
      if journal.admits output = false then s.advance index .failed
      else
        match storeResult operation binding output s.db with
        | .error _ => s.advance index .failed
        | .ok db =>
          (s.commitResult ⟨operation, binding, .executed (some output)⟩ output db).advance index
            .failed
    | _ => s
  | .handle index fault =>
    match s.running[index]? with
    | some ⟨operation, _, .failed⟩ =>
      if fault then s.finish index
      else { s.finish index with db := markUnknown operation s.db }
    | _ => s
  | .kill index => s.finish index
  | .retained operation document =>
    match AgentsApi.retained journal.namespaceName operation document s.db with
    | .error _ => s
    | .ok output => { s with history := s.history ++ [.returned operation output] }
  | .attachUsage pendingScope session =>
    match AgentsApi.attachUsage pendingScope session s.db with
    | .error _ => s
    | .ok db => { s with db }
  | .usageObserved complete observation =>
    match AgentsApi.usageObserved complete observation s.db with
    | .error _ => s
    | .ok (_, db) => { s with db }

/-- The system after a schedule of steps. -/
def Journal.run (journal : Journal) (s : System) (schedule : List Action) : System :=
  schedule.foldl journal.step s

end

end IntegrityGuardian.AgentsApi
