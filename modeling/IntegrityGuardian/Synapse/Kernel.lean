import IntegrityGuardian.Library.BestFirst
import IntegrityGuardian.Synapse.Graph
import Mathlib.Data.List.MinMax

/-!
# The synapse kernel

`SynapseKernel` of `synapse.py`: availability of an edge in a context, routes
found by best-first search and their simulation.  The kernel reads a graph that
was verified when it was built.
-/

namespace IntegrityGuardian.Synapse

open Python Library

/-! ## Policies and contexts -/

/-- `_parse_rfc3339`, as the instant that is compared. -/
def parseRfc3339 (text : Str) : Option Int :=
  match Datetime.fromisoformat text with
  | some d => d.utcoffset.map d.moment
  | none => none

structure SynapseEvidence where
  observedAt : Str
  digest : Str
  observedAt_valid : (parseRfc3339 observedAt).isSome = true
  digest_valid : Schemas.digestBody digest = true

/-- What `_ordered_unique` returns. -/
def OrderedUnique (ids : List Str) : Prop := ids.Pairwise (· < ·) ∧ [] ∉ ids

structure SynapsePolicy where
  allowedSubsystems : List Str
  allowedCapabilityIds : List Str
  grantedAuthorityIds : List Str
  maxTransitionKind : TransitionKind
  maxBlastRadius : BlastRadius
  allowedSubsystems_ordered : OrderedUnique allowedSubsystems
  allowedCapabilityIds_ordered : OrderedUnique allowedCapabilityIds
  grantedAuthorityIds_ordered : OrderedUnique grantedAuthorityIds

abbrev Facts := Dict Str Json

def factsJson (facts : Facts) : Json := .obj facts.toList

structure SynapseContext where
  tenantId : Str
  currentNodeId : Str
  asOf : Str
  policy : SynapsePolicy
  facts : Facts
  evidence : Dict Str SynapseEvidence
  tenantId_canonical : (str "tenant:").isPrefixOf tenantId = true
  currentNodeId_canonical : (str "synapse-node:").isPrefixOf currentNodeId = true
  asOf_valid : (parseRfc3339 asOf).isSome = true
  facts_wf : (factsJson facts).wf = true
  facts_encodable : (factsJson facts).encodable = true
  evidence_named : evidence[([] : Str)]? = none

def SynapseContext.instant (context : SynapseContext) : Int :=
  (parseRfc3339 context.asOf).get context.asOf_valid

def SynapseEvidence.instant (record : SynapseEvidence) : Int :=
  (parseRfc3339 record.observedAt).get record.observedAt_valid

/-! ## Conditions -/

/-- Equality of a fact and a primitive; `True` and `1` are equal, as are `False` and `0`. -/
def Primitive.equals : Primitive → Json → Bool
  | .text s, .str t => s == t
  | .int n, .int m => n == m
  | .int n, .bool c => n == (if c then 1 else 0)
  | .bool b, .int m => (if b then 1 else 0) == m
  | .bool b, .bool c => b == c
  | .none, .null => true
  | _, _ => false

/-- `_condition_holds`. -/
def conditionHolds (condition : Condition) (facts : Facts) : Bool :=
  match condition.operator with
  | .equals =>
    match facts[condition.fact]? with
    | some v => condition.value.equals v
    | none => false
  | .notEquals =>
    match facts[condition.fact]? with
    | some v => !condition.value.equals v
    | none => true
  | .present => (facts[condition.fact]?).isSome
  | .absent => (facts[condition.fact]?).isNone

/-- One round of `_apply_postconditions`. -/
def applyPostcondition (facts : Facts) (condition : Condition) : Option Facts :=
  match condition.operator with
  | .equals => some (facts.insert condition.fact condition.value.json)
  | .absent => some (facts.erase condition.fact)
  | .present => if (facts[condition.fact]?).isSome then some facts else none
  | .notEquals =>
    -- `result.get(fact)` is `None` for a fact that is not there.
    if condition.value.equals ((facts[condition.fact]?).getD .null) then none else some facts

/-- `_apply_postconditions`. -/
def applyPostconditions (facts : Facts) (conditions : List Condition) : Option Facts :=
  conditions.foldlM applyPostcondition facts

/-! ## Scores -/

abbrev Score := List Nat

/-- `_edge_score`. -/
def edgeScore (edge : Edge) : Score :=
  [edge.kind.rank, edge.blastRadius.rank, edge.mode.rank, edge.requiredAuthorityIds.length,
    edge.cost.modelCalls, edge.cost.toolCalls, edge.cost.latencyMs, edge.cost.resourceUnits,
    edge.cost.contextBytes, 1]

/-- `_path_score`; the ranks are natural, so the maxima of no edges are zero. -/
def pathScore (edges : List Edge) : Score :=
  [(edges.map fun edge => edge.kind.rank).foldr max 0,
    (edges.map fun edge => edge.blastRadius.rank).foldr max 0,
    (edges.map fun edge => edge.mode.rank).sum,
    (edges.map fun edge => edge.requiredAuthorityIds.length).sum,
    (edges.map fun edge => edge.cost.modelCalls).sum,
    (edges.map fun edge => edge.cost.toolCalls).sum,
    (edges.map fun edge => edge.cost.latencyMs).sum,
    (edges.map fun edge => edge.cost.resourceUnits).sum,
    (edges.map fun edge => edge.cost.contextBytes).sum,
    edges.length]

/-- `_score_object`. -/
def scoreObject (score : Score) : Json :=
  Json.fields
    (["transition_rank", "blast_radius_rank", "reversibility_penalty", "authority_count",
      "estimated_model_calls", "estimated_tool_calls", "estimated_latency_ms", "resource_units",
      "context_bytes", "hop_count"].zip (score.map fun n => Json.int n))

/-! ## Availability -/

section
variable (context : SynapseContext)

/-- The reasons the policy has against an edge. -/
def policyReasons (edge : Edge) : List Str :=
  let policy := context.policy
  (if str "*" ∉ policy.allowedSubsystems ∧ edge.subsystem ∉ policy.allowedSubsystems then
      [str "policy:subsystem-denied"] else [])
    ++ (if str "*" ∉ policy.allowedCapabilityIds ∧ edge.capabilityId ∉ policy.allowedCapabilityIds
      then [str "policy:capability-denied"] else [])
    ++ (if edge.kind.rank > policy.maxTransitionKind.rank then
      [str "policy:transition-kind-denied"] else [])
    ++ (if edge.blastRadius.rank > policy.maxBlastRadius.rank then
      [str "policy:blast-radius-denied"] else [])

/-- The authorities an edge lacks. -/
def authorityReasons (edge : Edge) : List Str :=
  (ascending (edge.requiredAuthorityIds.toFinset \ context.policy.grantedAuthorityIds.toFinset)).map
      (str "authority:missing:" ++ ·)
    ++ (if edge.productionAuthority then [str "authority:production-unavailable"] else [])
    ++ (if ProvenanceClass.declared ∉ edge.provenance then [str "provenance:not-declared"] else [])

/-- What is wrong with the evidence for one requirement; the age is in microseconds. -/
def evidenceReasons (requirement : EvidenceRequirement) : List Str :=
  match context.evidence[requirement.evidenceId]? with
  | none => [str "evidence:missing:" ++ requirement.evidenceId]
  | some record =>
    let age := context.instant - record.instant
    if age < 0 then [str "evidence:future:" ++ requirement.evidenceId]
    else if age > requirement.maxAgeSeconds * 1000000 then
      [str "evidence:stale:" ++ requirement.evidenceId]
    else []

/-- The preconditions that fail. -/
def preconditionReasons (edge : Edge) (facts : Facts) : List Str :=
  (edge.preconditions.filter fun condition => !conditionHolds condition facts).map
    fun condition => str "precondition:failed:" ++ condition.fact

/-- `_availability`: the reasons against an edge. -/
def availability (edge : Edge) (facts : Facts) : List Str :=
  policyReasons context edge ++ authorityReasons context edge
    ++ edge.evidenceRequirements.flatMap (evidenceReasons context)
    ++ preconditionReasons edge facts

/-- The facts after an edge that is available and whose postconditions apply. -/
def move (edge : Edge) (facts : Facts) : Option Facts :=
  if availability context edge facts = [] then applyPostconditions facts edge.postconditions
  else none

end

/-! ## Routes -/

section
variable [UnicodeData]

/-- A verified graph, as `SynapseKernel.__init__` leaves it. -/
structure SynapseKernel where
  document : Document
  graph : Graph
  verified : verifiedGraph document.value = .ok graph

/-- `SynapseKernel.__init__`. -/
def SynapseKernel.init (document : Document) : Except Error SynapseKernel :=
  match h : verifiedGraph document.value with
  | .ok graph => .ok ⟨document, graph, h⟩
  | .error e => .error e

/-- The key edges are ordered by. -/
def edgeKey (edge : Edge) : Score ×ₗ Str := toLex (edgeScore edge, edge.edgeId)

/-- `_outbound` of a node. -/
def outbound (graph : Graph) (nodeId : Str) : List Edge :=
  (graph.edges.filter fun edge => edge.fromNodeId == nodeId).insertionSort
    fun a b => edgeKey a ≤ edgeKey b

/-- `_direct` of two nodes. -/
def direct (graph : Graph) (fromNodeId toNodeId : Str) : List Edge :=
  (graph.edges.filter fun edge => edge.fromNodeId == fromNodeId && edge.toNodeId == toNodeId)
    |>.insertionSort fun a b => edgeKey a ≤ edgeKey b

/-- `_validate_context`. -/
def validateContext (graph : Graph) (context : SynapseContext) : Except Error Unit := do
  ensure (context.tenantId = graph.tenantId) (.policy (str "cross-tenant Synapse context"))
  ensure (context.currentNodeId ∈ graph.nodes.map Node.nodeId)
    (.policy (str "current Synapse node does not exist"))

def factsDigest (facts : Facts) : Except Exc Str :=
  digestObject (factsJson facts) (str "synapse-facts-v1")

/-- The evidence inside a context digest. -/
def evidenceJson (evidence : Dict Str SynapseEvidence) : Json :=
  .obj (evidence.toList.map fun item =>
    (item.1, Json.fields
      [("observed_at", .str item.2.observedAt), ("digest", .str item.2.digest)]))

/-- The policy inside a context digest. -/
def policyJson (policy : SynapsePolicy) : Json :=
  Json.fields
    [("allowed_subsystems", .arr (policy.allowedSubsystems.map .str)),
      ("allowed_capability_ids", .arr (policy.allowedCapabilityIds.map .str)),
      ("granted_authority_ids", .arr (policy.grantedAuthorityIds.map .str)),
      ("max_transition_kind", .str (str policy.maxTransitionKind.value)),
      ("max_blast_radius", .str (str policy.maxBlastRadius.value)),
      ("production_authority", .bool false)]

/-- What a context digest is taken of. -/
def contextJson (context : SynapseContext) : Json :=
  Json.fields
    [("tenant_id", .str context.tenantId), ("current_node_id", .str context.currentNodeId),
      ("as_of", .str context.asOf), ("policy", policyJson context.policy),
      ("facts", factsJson context.facts), ("evidence", evidenceJson context.evidence)]

/-- `_context_digest`. -/
def contextDigest (context : SynapseContext) : Except Exc Str :=
  digestObject (contextJson context) (str "synapse-context-v1")

/-- `_CONTROL_PLANE_CALLS`. -/
def controlPlaneCalls : Json := Json.fields [("model_calls", .int 0), ("tool_calls", .int 0)]

/-- `[self._edges[edge_id] for edge_id in edge_ids]`. -/
def selectedEdges (graph : Graph) (edgeIds : List Str) : Except Exc (List Edge) :=
  edgeIds.mapM fun edgeId =>
    match edgeById graph.edges edgeId with
    | some edge => .ok edge
    | none => .error (.keyError edgeId)

/-- The fields of a route receipt but for its identity. -/
def routeCore (graph : Graph) (context : SynapseContext) (targetNodeId : Str)
    (edgeIds nodeIds : List Str) (edges : List Edge) (digest : Str) : List (String × Json) :=
  [("protocol", .str (str "integrity-guardian/synapse-route/v1")),
    ("graph_id", .str graph.graphId),
    ("tenant_id", .str context.tenantId),
    ("context_digest", .str digest),
    ("start_node_id", .str context.currentNodeId),
    ("target_node_id", .str targetNodeId),
    ("edge_ids", .arr (edgeIds.map .str)),
    ("node_ids", .arr (nodeIds.map .str)),
    ("score", scoreObject (pathScore edges)),
    ("verifier_ids", .arr ((edges.filter fun edge => edge.verifierRequired).map
      fun edge => Json.ofOptionalText edge.verifierId)),
    ("rollback_edge_ids", .arr ((edges.reverse.filterMap fun edge => edge.rollbackEdgeId).map .str)),
    ("control_plane_calls", controlPlaneCalls),
    ("execution_authority", .bool false)]

/-- `_route_receipt`. -/
def routeReceipt (graph : Graph) (context : SynapseContext) (targetNodeId : Str)
    (edgeIds nodeIds : List Str) : Except Exc Json := do
  let edges ← selectedEdges graph edgeIds
  let digest ← contextDigest context
  let core := routeCore graph context targetNodeId edgeIds nodeIds edges digest
  let routeId ← digestObject (Json.fields core) (str "synapse-route-v1")
  let route := Json.fields (("route_id", .str routeId) :: core)
  Schemas.validate Schemas.synapseRoute route
  .ok route

/-! ## Planning -/

/-- An element of the search queue. -/
structure Entry where
  score : Score
  tie : List Str
  depth : Nat
  nodeId : Str
  facts : Facts
  edgeIds : List Str
  nodeIds : List Str

/-- The key of the queue and of `best`. -/
abbrev DecisionKey := Score ×ₗ List Str

/-- The keys of `best`. -/
abbrev StateKey := Str ×ₗ Str ×ₗ Nat

/-- An entry with the facts digest `best` is keyed by. -/
structure Candidate extends Entry where
  digest : Str

/-- The candidate an available edge leads to. -/
def extend (graph : Graph) (entry : Candidate) (step : Edge × Facts) : Except Exc Candidate := do
  let edgeIds := entry.edgeIds ++ [step.1.edgeId]
  let edges ← selectedEdges graph edgeIds
  let digest ← factsDigest step.2
  .ok { score := pathScore edges
        tie := edgeIds
        depth := entry.depth + 1
        nodeId := step.1.toNodeId
        facts := step.2
        edgeIds
        nodeIds := entry.nodeIds ++ [step.1.toNodeId]
        digest }

/-- The available edges out of a node, with the facts after them. -/
def moves (graph : Graph) (context : SynapseContext) (nodeId : Str) (facts : Facts) :
    List (Edge × Facts) :=
  (outbound graph nodeId).filterMap fun edge => (move context edge facts).map (edge, ·)

/-- What the loop of `plan_route` searches. -/
def planSpace (graph : Graph) (context : SynapseContext) (targetNodeId : Str) (maxHops : Nat) :
    BestFirst.Space Candidate DecisionKey StateKey Exc where
  children entry := (moves graph context entry.nodeId entry.facts).mapM (extend graph entry)
  key entry := toLex (entry.score, entry.tie)
  state entry := toLex (entry.nodeId, toLex (entry.digest, entry.depth))
  goal entry := entry.nodeId == targetNodeId
  closed entry := maxHops ≤ entry.depth

/-- The first element of the queue; no state of it is ever looked up. -/
def startEntry (context : SynapseContext) : Candidate where
  score := pathScore []
  tie := []
  depth := 0
  nodeId := context.currentNodeId
  facts := context.facts
  edgeIds := []
  nodeIds := [context.currentNodeId]
  digest := []

/-- The loop of `plan_route`, with room for every entry it can queue. -/
def planSearch (graph : Graph) (context : SynapseContext) (targetNodeId : Str)
    (maxHops maxExpansions : Nat) : Except Exc (BestFirst.Outcome Candidate) :=
  BestFirst.search (planSpace graph context targetNodeId maxHops) maxExpansions
    (2 + maxExpansions * graph.edges.length) [startEntry context] ∅ 0 false

/-- The direct edge that bypasses the search: free of risk and of authority. -/
def directRoute (graph : Graph) (context : SynapseContext) (targetNodeId : Str) (maxHops : Nat) :
    Option Edge :=
  if 0 < maxHops then
    match ((direct graph context.currentNodeId targetNodeId).filter fun edge =>
        (move context edge context.facts).isSome).argmin edgeKey with
    | some selected => if (edgeScore selected).take 4 = [0, 0, 0, 0] then some selected else none
    | none => none
  else none

/-- What the search answers. -/
def searchedRoute (graph : Graph) (context : SynapseContext) (targetNodeId : Str) :
    BestFirst.Outcome Candidate → Except Error Json
  | .found entry _ => raising (routeReceipt graph context targetNodeId entry.edgeIds entry.nodeIds)
  | .exhausted _ => .error (.route (str "no policy-compliant route within bounded search"))
  -- Equal keys make the heap compare dictionaries.
  | .clash => .error (.raised .typeError)
  | .unfinished => .error (.raised .baseException)

/-- `plan_route`. -/
def planRoute (kernel : SynapseKernel) (context : SynapseContext) (targetNodeId : Str)
    (maxHops maxExpansions : Int) : Except Error Json := do
  let graph := kernel.graph
  validateContext graph context
  ensure (targetNodeId ∈ graph.nodes.map Node.nodeId)
    (.route (str "target Synapse node does not exist"))
  ensure (0 ≤ maxHops ∧ maxHops ≤ 32)
    (.route (str "max_hops is outside the bounded kernel limit"))
  ensure (1 ≤ maxExpansions ∧ maxExpansions ≤ 4096)
    (.route (str "max_expansions is outside the bounded kernel limit"))
  if targetNodeId = context.currentNodeId then
    raising (routeReceipt graph context targetNodeId [] [context.currentNodeId])
  else
    match directRoute graph context targetNodeId maxHops.toNat with
    | some selected =>
      raising (routeReceipt graph context targetNodeId [selected.edgeId]
        [context.currentNodeId, targetNodeId])
    | none => do
      let outcome ← raising
        (planSearch graph context targetNodeId maxHops.toNat maxExpansions.toNat)
      searchedRoute graph context targetNodeId outcome

/-! ## Simulation -/

/-- An element of the trace. -/
def traceStep (index : Nat) (edge : Edge) (digest : Str) : Json :=
  Json.fields
    [("index", .int index), ("edge_id", .str edge.edgeId), ("from_node_id", .str edge.fromNodeId),
      ("to_node_id", .str edge.toNodeId), ("verifier_id", Json.ofOptionalText edge.verifierId),
      ("rollback_edge_id", Json.ofOptionalText edge.rollbackEdgeId), ("facts_digest", .str digest)]

/-- The edge of one round, with the facts after it. -/
def simulateStep (graph : Graph) (context : SynapseContext) (nodeIds : List Str) (index : Nat)
    (edgeId currentNodeId : Str) (facts : Facts) : Except Error (Edge × Facts) :=
  match edgeById graph.edges edgeId with
  | none => .error (.route (str "route contains invented edge"))
  | some edge => do
    ensure (edge.fromNodeId = currentNodeId) (.route (str "route edges are not contiguous"))
    ensure (nodeIds[index]? = some edge.fromNodeId ∧ nodeIds[index + 1]? = some edge.toNodeId)
      (.route (str "route node sequence does not match its edges"))
    match availability context edge facts with
    | reason :: _ => .error (.route (str "route edge is unavailable: " ++ reason))
    | [] =>
      match applyPostconditions facts edge.postconditions with
      | none => .error (.route (str "route postcondition cannot be simulated"))
      | some nextFacts => .ok (edge, nextFacts)

/-- The loop of `simulate_route`: the trace, the last node and the last facts. -/
def simulateEdges (graph : Graph) (context : SynapseContext) (nodeIds : List Str) :
    Nat → List Str → Str → Facts → Except Error (List Json × Str × Facts)
  | _, [], currentNodeId, facts => .ok ([], currentNodeId, facts)
  | index, edgeId :: edgeIds, currentNodeId, facts => do
    let (edge, nextFacts) ← simulateStep graph context nodeIds index edgeId currentNodeId facts
    let digest ← raising (factsDigest nextFacts)
    let (trace, lastNodeId, lastFacts) ←
      simulateEdges graph context nodeIds (index + 1) edgeIds edge.toNodeId nextFacts
    .ok (traceStep index edge digest :: trace, lastNodeId, lastFacts)

/-- The receipt a route must be, with the error of an unknown edge translated. -/
def expectedRoute (graph : Graph) (context : SynapseContext) (targetNodeId : Str)
    (edgeIds nodeIds : List Str) : Except Error Json :=
  (routeReceipt graph context targetNodeId edgeIds nodeIds).mapError fun e =>
    match e with
    | .keyError _ => .route (str "route contains invented edge")
    | e => .raised e

/-- The fields of a simulation but for its identity. -/
def simulationCore (graph : Graph) (context : SynapseContext)
    (routeId targetNodeId start final : Str) (trace rollbackEdgeIds : List Json) :
    List (String × Json) :=
  [("protocol", .str (str "integrity-guardian/synapse-simulation/v1")),
    ("graph_id", .str graph.graphId),
    ("route_id", .str routeId),
    ("tenant_id", .str context.tenantId),
    ("start_node_id", .str context.currentNodeId),
    ("target_node_id", .str targetNodeId),
    ("start_facts_digest", .str start),
    ("final_facts_digest", .str final),
    ("trace", .arr trace),
    ("rollback_edge_ids", .arr rollbackEdgeIds),
    ("status", .str (str "simulated")),
    ("execution_performed", .bool false),
    ("production_mutated", .bool false),
    ("control_plane_calls", controlPlaneCalls)]

/-- `simulate_route`. -/
def simulateRoute (kernel : SynapseKernel) (context : SynapseContext) (route : Json) :
    Except Error Json := do
  let graph := kernel.graph
  validateContext graph context
  (Schemas.validate Schemas.synapseRoute route).mapError fun _ =>
    .route (str "invalid route schema: ")
  let routeId ← raising (route.textItem (str "route_id"))
  let expectedId ← raising (digestObject (route.pop (str "route_id")) (str "synapse-route-v1"))
  ensure (routeId = expectedId) (.route (str "route identity mismatch"))
  let graphId ← raising (route.textItem (str "graph_id"))
  ensure (graphId = graph.graphId) (.route (str "route belongs to another graph"))
  let tenantId ← raising (route.textItem (str "tenant_id"))
  ensure (tenantId = context.tenantId) (.route (str "route belongs to another tenant"))
  let routeContext ← raising (route.textItem (str "context_digest"))
  let digest ← raising (contextDigest context)
  ensure (routeContext = digest)
    (.route (str "route belongs to another policy or evidence context"))
  let startNodeId ← raising (route.textItem (str "start_node_id"))
  ensure (startNodeId = context.currentNodeId)
    (.route (str "route does not start at the current node"))
  let edgeIds ← raising (readArray Json.asText route (str "edge_ids"))
  let nodeIds ← raising (readArray Json.asText route (str "node_ids"))
  ensure (nodeIds.length = edgeIds.length + 1)
    (.route (str "route node and edge counts are inconsistent"))
  ensure (nodeIds.head? = some context.currentNodeId)
    (.route (str "route node sequence has the wrong start"))
  let targetNodeId ← raising (route.textItem (str "target_node_id"))
  let expected ← expectedRoute graph context targetNodeId edgeIds nodeIds
  let candidateBytes ← raising (canonicalBytes route)
  let expectedBytes ← raising (canonicalBytes expected)
  ensure (candidateBytes = expectedBytes) (.route (str "route semantic receipt mismatch"))
  let start ← raising (factsDigest context.facts)
  let (trace, lastNodeId, lastFacts) ←
    simulateEdges graph context nodeIds 0 edgeIds context.currentNodeId context.facts
  ensure (lastNodeId = targetNodeId)
    (.route (str "route target does not match its edge sequence"))
  let final ← raising (factsDigest lastFacts)
  let rollbackEdgeIds ← raising (route.arrayItem (str "rollback_edge_ids"))
  let core := simulationCore graph context routeId lastNodeId start final trace rollbackEdgeIds
  let simulationId ← raising (digestObject (Json.fields core) (str "synapse-simulation-v1"))
  let simulation := Json.fields (("simulation_id", .str simulationId) :: core)
  raising (Schemas.validate Schemas.synapseSimulation simulation)
  .ok simulation

end

end IntegrityGuardian.Synapse
