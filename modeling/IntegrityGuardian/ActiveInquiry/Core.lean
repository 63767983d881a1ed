import IntegrityGuardian.Ledger.Merkle
import IntegrityGuardian.Library.Disagreement
import IntegrityGuardian.Library.Durable
import IntegrityGuardian.Python.ValueText
import Mathlib.Data.List.MinMax
import Mathlib.Data.Rat.Defs
import Mathlib.Algebra.Order.Field.Rat

/-!
# Active inquiry

`integrity_active_inquiry/core.py`: an inquiry plans probes over a finite model
of worlds, reserves their budgets and narrows the worlds by the facts it is
told.  What `__post_init__` and `__init__` check is carried by the structures.
-/

namespace IntegrityGuardian.ActiveInquiry

open Python Library Library.Disagreement Library.Durable
open IntegrityGuardian.Ledger (isDigest)

/-- How the methods raise. -/
inductive Failure where
  | raised (e : Exc)
  | stopIteration
  deriving DecidableEq

/-- `raise ValueError(message)`. -/
def valueError (message : String) : Failure := .raised (.valueError (str message))

/-! ## Canonical documents -/

/-- `canonical`. -/
def canonical (value : Json) : Bytes := ((Json.dumps value).flatMap asciiEscape).flatMap utf8Octets

/-- `digest`. -/
def digest (value : Json) : Str :=
  sha256Digest ((str "integrity-active-inquiry-v1").flatMap utf8Octets ++ [0] ++ canonical value)

def isAlphanumeric (c : CodePoint) : Bool :=
  (48 ≤ c.val && c.val ≤ 57) || (65 ≤ c.val && c.val ≤ 90) || (97 ≤ c.val && c.val ≤ 122)

/-- `ID.fullmatch`. -/
def isIdentifier : Str → Bool
  | [] => false
  | first :: rest => isAlphanumeric first && rest.length ≤ 255 &&
      rest.all fun c => isAlphanumeric c || c ∈ str "._:/@-"

/-- `integer`. -/
def integer (value low high : Int) : Except Failure Unit :=
  ensure (low ≤ value ∧ value ≤ high) (valueError "integer outside bound")

/-! ## Goals and probes -/

inductive Basis where
  | synthetic
  | reported
  | witnessed
  deriving DecidableEq

def Basis.text : Basis → Str
  | .synthetic => str "synthetic"
  | .reported => str "reported"
  | .witnessed => str "witnessed"

/-- `Goal`, with the checks of `__post_init__`. -/
structure Goal where
  goalId : Str
  tenantId : Str
  subject : Str
  environment : Str
  revision : Str
  predicateId : Str
  contextDigest : Str
  requiredBasis : Basis
  maxSteps : Nat
  maxCost : Nat
  maxDurationMs : Nat
  maxOutputBytes : Nat
  identifiers : ∀ name ∈ [goalId, tenantId, subject, environment, revision, predicateId],
    isIdentifier name = true
  context : isDigest contextDigest = true
  maxSteps_mem : 1 ≤ maxSteps ∧ maxSteps ≤ 64
  maxCost_mem : 1 ≤ maxCost ∧ maxCost ≤ 1000000
  maxDurationMs_mem : 1 ≤ maxDurationMs ∧ maxDurationMs ≤ 3600000
  maxOutputBytes_mem : 1 ≤ maxOutputBytes ∧ maxOutputBytes ≤ 1048576

/-- `asdict(goal)`. -/
def Goal.document (goal : Goal) : Json :=
  .obj [(str "goal_id", .str goal.goalId), (str "tenant_id", .str goal.tenantId),
    (str "subject", .str goal.subject), (str "environment", .str goal.environment),
    (str "revision", .str goal.revision), (str "predicate_id", .str goal.predicateId),
    (str "context_digest", .str goal.contextDigest),
    (str "required_basis", .str goal.requiredBasis.text), (str "max_steps", .int goal.maxSteps),
    (str "max_cost", .int goal.maxCost), (str "max_duration_ms", .int goal.maxDurationMs),
    (str "max_output_bytes", .int goal.maxOutputBytes)]

inductive Availability where
  | available
  | unavailable
  | denied
  | proposed
  deriving DecidableEq

def Availability.text : Availability → Str
  | .available => str "available"
  | .unavailable => str "unavailable"
  | .denied => str "denied"
  | .proposed => str "proposed"

/-- A prediction token within the bounds of its probe. -/
def isToken (maxOutputBytes : Nat) (token : Str) : Bool :=
  match encodeUtf8 token with
  | some octets => 1 ≤ octets.length && octets.length ≤ 64 && octets.length ≤ maxOutputBytes
  | none => false

/-- `Probe`, with the checks of `__post_init__`; its predictions are sorted by world. -/
structure Probe where
  probeId : Str
  edgeId : Str
  capabilityId : Str
  manifestDigest : Str
  operationDigest : Str
  responseSchemaDigest : Str
  predictions : List (Str × Str)
  cost : Nat
  timeoutMs : Nat
  maxOutputBytes : Nat
  safetyRank : List Int
  availability : Availability
  identifiers : ∀ name ∈ [probeId, edgeId, capabilityId], isIdentifier name = true
  checksums : ∀ name ∈ [manifestDigest, operationDigest, responseSchemaDigest],
    isDigest name = true
  cost_mem : 1 ≤ cost ∧ cost ≤ 1000000
  timeoutMs_mem : 1 ≤ timeoutMs ∧ timeoutMs ≤ 3600000
  maxOutputBytes_mem : 1 ≤ maxOutputBytes ∧ maxOutputBytes ≤ 4096
  safetyRank_length : safetyRank.length = 4
  safetyRank_mem : ∀ part ∈ safetyRank, 0 ≤ part ∧ part ≤ 1000000
  predictions_length : 1 ≤ predictions.length ∧ predictions.length ≤ 64
  predictions_sorted : (predictions.map Prod.fst).Pairwise (· < ·)
  predictions_valid : ∀ item ∈ predictions,
    isIdentifier item.1 = true ∧ isToken maxOutputBytes item.2 = true

/-- `probe.predictions[world]`; the table covers the model. -/
def Probe.predict (probe : Probe) (world : Str) : Str := (probe.predictions.lookup world).getD []

/-- `Probe.document`. -/
def Probe.document (probe : Probe) : Json :=
  .obj [(str "probe_id", .str probe.probeId), (str "edge_id", .str probe.edgeId),
    (str "capability_id", .str probe.capabilityId),
    (str "manifest_digest", .str probe.manifestDigest),
    (str "operation_digest", .str probe.operationDigest),
    (str "response_schema_digest", .str probe.responseSchemaDigest),
    (str "predictions", .obj (probe.predictions.map fun item => (item.1, .str item.2))),
    (str "cost", .int probe.cost), (str "timeout_ms", .int probe.timeoutMs),
    (str "max_output_bytes", .int probe.maxOutputBytes),
    (str "safety_rank", .arr (probe.safetyRank.map .int)),
    (str "availability", .str probe.availability.text)]

/-! ## Inquiries -/

/-- What `Inquiry.__init__` fixes, with its checks; answers and probes are sorted. -/
structure Inquiry where
  goal : Goal
  answers : List (Str × Bool)
  probes : List Probe
  sessionId : Str
  taskAllowed : Bool
  answers_length : 1 ≤ answers.length ∧ answers.length ≤ 64
  probes_length : 1 ≤ probes.length ∧ probes.length ≤ 32
  worlds_valid : ∀ item ∈ answers, isIdentifier item.1 = true
  answers_sorted : (answers.map Prod.fst).Pairwise (· < ·)
  probes_sorted : (probes.map Probe.probeId).Pairwise (· < ·)
  covers : ∀ probe ∈ probes, probe.predictions.map Prod.fst = answers.map Prod.fst
  session_valid : isIdentifier sessionId = true

/-- The binding of a reserved step, without its identity. -/
structure Reservation where
  sessionId : Str
  goalDigest : Str
  contextDigest : Str
  modelDigest : Str
  probeId : Str
  manifestDigest : Str
  operationDigest : Str
  responseSchemaDigest : Str
  requestDigest : Str
  sequence : Nat
  deriving DecidableEq

def Reservation.members (r : Reservation) : List (Str × Json) :=
  [(str "session_id", .str r.sessionId), (str "goal_digest", .str r.goalDigest),
    (str "context_digest", .str r.contextDigest), (str "model_digest", .str r.modelDigest),
    (str "probe_id", .str r.probeId), (str "manifest_digest", .str r.manifestDigest),
    (str "operation_digest", .str r.operationDigest),
    (str "response_schema_digest", .str r.responseSchemaDigest),
    (str "request_digest", .str r.requestDigest), (str "sequence", .int r.sequence)]

/-- `binding["operation_id"]`. -/
def Reservation.operationId (r : Reservation) : Str := digest (.obj r.members)

/-- The items of the binding that is handed out. -/
def Reservation.binding (r : Reservation) : List (Str × Json) :=
  r.members ++ [(str "operation_id", .str r.operationId)]

inductive Stage where
  | ack
  | ready
  | completed
  | unknown
  | syntheticFact
  deriving DecidableEq

def Stage.text : Stage → Str
  | .ack => str "ack"
  | .ready => str "ready"
  | .completed => str "completed"
  | .unknown => str "unknown"
  | .syntheticFact => str "synthetic-fact"

def stages : List Stage := [.ack, .ready, .completed, .unknown, .syntheticFact]

/-- The stage a text names. -/
def Stage.ofText (text : Str) : Option Stage := stages.find? fun stage => stage.text = text

/-- What stands in `_events`. -/
inductive Event where
  | start (binding : Reservation)
  | received (stage : Stage) (binding : Reservation) (token : Option Str)
  deriving DecidableEq

/-- `_terminal`. -/
inductive Terminal where
  | responseLimit
  | eventLimit
  | unknownOutcome
  | modelMismatch
  deriving DecidableEq

def Terminal.text : Terminal → Str
  | .responseLimit => str "RESPONSE_LIMIT_NO_RETRY"
  | .eventLimit => str "EVENT_LIMIT_NO_RETRY"
  | .unknownOutcome => str "UNKNOWN_OUTCOME_NO_RETRY"
  | .modelMismatch => str "MODEL_MISMATCH_NO_RETRY"

/-- The attributes that change. -/
structure State where
  remaining : Finset Str
  steps : Nat
  cost : Nat
  reservedMs : Nat
  reservedBytes : Nat
  used : Finset Str
  pending : Option Reservation
  terminal : Option Terminal
  events : List Event
  deriving DecidableEq

namespace Inquiry

variable (q : Inquiry)

/-- The worlds of the model. -/
def worlds : Finset Str := (q.answers.map Prod.fst).toFinset

/-- `answers[world]`; every remaining world is one of the model. -/
def answer (world : Str) : Bool := (q.answers.lookup world).getD false

/-- The state after `__init__`. -/
def start : State := ⟨q.worlds, 0, 0, 0, 0, ∅, none, none, []⟩

/-- `model_digest`. -/
def modelDigest : Str :=
  digest (.obj [(str "answers", .obj (q.answers.map fun item => (item.1, .bool item.2))),
    (str "probes", .arr (q.probes.map Probe.document))])

/-- `_fits`. -/
def fits (s : State) (probe : Probe) : Bool :=
  s.steps < q.goal.maxSteps && s.cost + probe.cost ≤ q.goal.maxCost
    && s.reservedMs + probe.timeoutMs ≤ q.goal.maxDurationMs
    && s.reservedBytes + probe.maxOutputBytes ≤ q.goal.maxOutputBytes

/-- `_pairs`. -/
def pairs (items : Finset Str) : Nat := disagreements q.answer items

/-- `_quality`; `max` raises where no world remains. -/
def quality (s : State) (probe : Probe) : Except Failure (Nat × Int) := do
  ensure s.remaining.Nonempty (valueError "max() arg is an empty sequence")
  .ok ((s.remaining.image probe.predict).sup fun token =>
      q.pairs (fibre s.remaining probe.predict token),
    q.pairs s.remaining - confused q.answer s.remaining probe.predict)

/-! ## Planning -/

/-- A planning gate: the ranks of some probes. -/
abbrev Gate := List (Str × List Int)

/-- The checks of a gate. -/
def checkGate : Option Gate → Except Failure Unit
  | none => .ok ()
  | some gate => do
    ensure (∀ item ∈ gate, item.1 ∈ q.probes.map Probe.probeId)
      (valueError "unknown probe in planning gate")
    gate.forM fun item => do
      ensure (item.2.length = 4) (valueError "invalid gate rank")
      item.2.forM fun part => integer part 0 1000000

/-- Why a probe is not considered. -/
def excludedReason (s : State) (gate : Option Gate) (probe : Probe) :
    Except Failure (Option Str) := do
  if probe.availability ≠ .available then
    return some probe.availability.text
  else if ∃ ranks ∈ gate, probe.probeId ∉ ranks.map Prod.fst then
    return some (str "synapse-unavailable")
  else if probe.probeId ∈ s.used then
    return some (str "already-observed")
  else
    let (_, gain) ← q.quality s probe
    return if gain = 0 then some (str "no-goal-discrimination") else none

/-- The rank of a probe. -/
def rank (gate : Option Gate) (probe : Probe) : List Int :=
  match gate with
  | some ranks => (ranks.lookup probe.probeId).getD []
  | none => probe.safetyRank

/-- The key candidates are compared by. -/
def candidateKey (s : State) (gate : Option Gate) (probe : Probe) :
    Except Failure (List Int ×ₗ Nat ×ₗ ℚ ×ₗ Nat ×ₗ Nat ×ₗ Str) := do
  let (worst, gain) ← q.quality s probe
  .ok (toLex (rank gate probe, toLex (worst, toLex (-((gain : ℚ) / probe.cost),
    toLex (probe.cost, toLex (probe.maxOutputBytes, probe.probeId))))))

inductive Status where
  | terminal (reason : Terminal)
  | taskDenied
  | waiting
  | answeredInModel (value : Bool)
  | externalEvidenceRequired (value : Bool)
  | needsObservation
  | budgetExhausted
  | proposed (probe : Probe) (worst : Nat)

/-- Two remaining worlds with opposite answers that no available probe tells apart. -/
def indistinct (s : State) (available : List Probe) : Bool :=
  let signature := fun world => available.map fun probe => probe.predict world
  decide (∃ group ∈ s.remaining.image signature,
    1 < ((fibre s.remaining signature group).image q.answer).card)

/-- The branch of `plan` that looks for the next probe, with what it excludes. -/
def choose (s : State) (gate : Option Gate) : Except Failure (Status × List (Str × Str)) := do
  let reasons ← q.probes.mapM (q.excludedReason s gate)
  let considered := q.probes.zip reasons
  let available := (considered.filter fun item => item.2.isNone).map Prod.fst
  let candidates := available.filter (q.fits s)
  let excluded := considered.filterMap fun item =>
    match item.2 with
    | some reason => some (item.1.probeId, reason)
    | none => if q.fits s item.1 then none else some (item.1.probeId, str "budget")
  let keys ← candidates.mapM (q.candidateKey s gate)
  if q.indistinct s available then
    return (.needsObservation, excluded)
  else
    match (candidates.zip keys).argmin Prod.snd with
    | none => return (.budgetExhausted, excluded)
    | some (selected, _) => do
      let (worst, _) ← q.quality s selected
      return (.proposed selected worst, excluded)

/-- The status once the remaining worlds agree on the answer. -/
def decided (value : Bool) : Status :=
  if q.goal.requiredBasis = .synthetic then .answeredInModel value
  else .externalEvidenceRequired value

/-- The status of the plan. -/
def status (s : State) (gate : Option Gate) : Except Failure (Status × List (Str × Str)) :=
  match s.terminal, s.pending with
  | some reason, _ => .ok (.terminal reason, [])
  | none, pending =>
    if ¬q.taskAllowed then .ok (.taskDenied, [])
    else if pending.isSome then .ok (.waiting, [])
    else if s.remaining.image q.answer = {true} then .ok (q.decided true, [])
    else if s.remaining.image q.answer = {false} then .ok (q.decided false, [])
    else q.choose s gate

/-- The items a status adds to the plan. -/
def Status.members (pending : Option Reservation) : Status → List (Str × Json)
  | .terminal reason => (str "status", .str reason.text) ::
      match pending with
      | some r => [(str "operation_id", .str r.operationId)]
      | none => []
  | .taskDenied => [(str "status", .str (str "TASK_DENIED"))]
  | .waiting => (str "status", .str (str "WAITING")) ::
      match pending with
      | some r => [(str "operation_id", .str r.operationId)]
      | none => []
  | .answeredInModel value =>
    [(str "status", .str (str "ANSWERED_IN_MODEL")), (str "answer", .bool value)]
  | .externalEvidenceRequired value =>
    [(str "status", .str (str "EXTERNAL_EVIDENCE_REQUIRED")), (str "model_answer", .bool value)]
  | .needsObservation => [(str "status", .str (str "NEEDS_OBSERVATION"))]
  | .budgetExhausted => [(str "status", .str (str "BUDGET_EXHAUSTED"))]
  | .proposed probe worst =>
    [(str "status", .str (str "PROPOSED")), (str "probe_id", .str probe.probeId),
      (str "edge_id", .str probe.edgeId), (str "operation_digest", .str probe.operationDigest),
      (str "response_schema_digest", .str probe.responseSchemaDigest),
      (str "worst_goal_disagreements", .int worst)]

/-- The plan without its digest. -/
def planDocument (s : State) (status : Status) (excluded : List (Str × Str)) : Json :=
  .obj ([(str "protocol", .str (str "integrity-active-inquiry/plan/v1")),
    (str "execution_authority", .bool false),
    (str "evidence_basis", .str (str "synthetic-finite-model")),
    (str "goal_id", .str q.goal.goalId), (str "context_digest", .str q.goal.contextDigest),
    (str "model_digest", .str q.modelDigest),
    (str "remaining", .arr ((ascending s.remaining).map .str)),
    (str "excluded", .obj (excluded.map fun item => (item.1, .str item.2))),
    (str "reserved", .obj [(str "steps", .int s.steps), (str "cost", .int s.cost),
      (str "duration_ms", .int s.reservedMs), (str "payload_bytes", .int s.reservedBytes)])]
    ++ status.members s.pending)

/-- `plan`: the status and the digest of the document. -/
def plan (s : State) (gate : Option Gate) : Except Failure (Status × Str) := do
  q.checkGate gate
  let (status, excluded) ← q.status s gate
  .ok (status, digest (q.planDocument s status excluded))

/-! ## The simulated lifecycle -/

/-- The comparison with the digest a caller expects. -/
def checkExpected (expected : Option Str) (planDigest : Str) : Except Failure Unit :=
  match expected with
  | none => .ok ()
  | some text => do
    ensure (isDigest text = true) (valueError "expected qualified SHA-256")
    ensure (planDigest = text) (valueError "stale synthetic plan; no reservation made")

/-- The probe with an identity. -/
def probeNamed (probeId : Str) : Except Failure Probe :=
  match q.probes.find? fun probe => probe.probeId = probeId with
  | some probe => .ok probe
  | none => .error .stopIteration

/-- The probe a plan proposes. -/
def proposedProbe (status : Status) : Except Failure Probe :=
  match status with
  | .proposed probe _ => q.probeNamed probe.probeId
  | _ => .error (valueError "no next synthetic step")

/-- The budgets of a step, reserved. -/
def reserve (s : State) (probe : Probe) : State :=
  { s with
    steps := s.steps + 1
    cost := s.cost + probe.cost
    reservedMs := s.reservedMs + probe.timeoutMs
    reservedBytes := s.reservedBytes + probe.maxOutputBytes }

/-- The binding of a step. -/
def reservation (probe : Probe) (planDigest : Str) (sequence : Nat) : Reservation where
  sessionId := q.sessionId
  goalDigest := digest q.goal.document
  contextDigest := q.goal.contextDigest
  modelDigest := q.modelDigest
  probeId := probe.probeId
  manifestDigest := probe.manifestDigest
  operationDigest := probe.operationDigest
  responseSchemaDigest := probe.responseSchemaDigest
  requestDigest := planDigest
  sequence := sequence

/-- `begin_simulation`. -/
def beginSimulation (gate : Option Gate) (expectedPlanDigest : Option Str) :
    Durable State Failure (List (Str × Json)) := do
  let s ← get
  let (status, planDigest) ← lift (q.plan s gate)
  lift (checkExpected expectedPlanDigest planDigest)
  let probe ← lift (q.proposedProbe status)
  let reserved := reserve s probe
  set reserved
  let binding := q.reservation probe planDigest reserved.steps
  set { reserved with
    pending := some binding
    events := s.events ++ [Event.start binding] }
  return binding.binding

/-- The checks on a stage and its token. -/
def checkStage (stage : Str) (token : Option Str) : Except Failure Stage :=
  match Stage.ofText stage with
  | none => .error (valueError "unsupported synthetic stage")
  | some named => do
    ensure (named = .syntheticFact ∨ token = none)
      (valueError "only fact stage accepts a token")
    .ok named

/-- The length in octets of a fact's token; zero for the other stages. -/
def tokenLength (stage : Stage) (token : Option Str) : Except Failure Nat :=
  match stage, token with
  | .syntheticFact, none => .error (valueError "fact token required")
  | .syntheticFact, some [] => .error (valueError "fact token required")
  | .syntheticFact, some text =>
    match encodeUtf8 text with
    | some octets => .ok octets.length
    | none => .error (.raised .unicodeEncodeError)
  | _, _ => .ok 0

/-- The remaining worlds that predict a token. -/
def narrowed (s : State) (probe : Probe) (token : Str) : Finset Str :=
  fibre s.remaining probe.predict token

/-- What a received stage does once its checks have passed. -/
def settle (s : State) (pending : Reservation) (probe : Probe) (stage : Stage)
    (token : Option Str) (length : Nat) : State :=
  if probe.maxOutputBytes < length then { s with terminal := some .responseLimit }
  else if 256 ≤ s.events.length then { s with terminal := some .eventLimit }
  else
    let recorded := { s with events := s.events ++ [.received stage pending token] }
    match stage with
    | .ack | .ready | .completed => recorded
    | .unknown => { recorded with terminal := some .unknownOutcome }
    | .syntheticFact =>
      let worlds := narrowed s probe (token.getD [])
      if worlds = ∅ then { recorded with terminal := some .modelMismatch }
      else
        { recorded with
          used := insert probe.probeId s.used
          remaining := worlds
          pending := none }

/-- The open attempt. -/
def openAttempt (s : State) : Except Failure Reservation :=
  match s.terminal, s.pending with
  | none, some pending => .ok pending
  | _, _ => .error (valueError "no open attempt; replay rejected")

/-- `receive_simulation`. -/
def receiveSimulation (binding : List (Str × Json)) (stage : Str) (token : Option Str) :
    Durable State Failure Unit := do
  let s ← get
  let pending ← lift (openAttempt s)
  lift (ensure (canonical (.obj binding) = canonical (.obj pending.binding))
    (valueError "exact operation/context/contract binding mismatch"))
  let named ← lift (checkStage stage token)
  let probe ← lift (q.probeNamed pending.probeId)
  let length ← lift (tokenLength named token)
  set (settle s pending probe named token length)

end Inquiry

end IntegrityGuardian.ActiveInquiry
