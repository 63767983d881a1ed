import IntegrityGuardian.Schemas.Synapse
import IntegrityGuardian.Canonical

/-!
# Synapse graphs

The capability graph of `synapse.py`: content-addressed nodes and edges and the
verification of a graph document.  An edge is kept with its document and the
fields the kernel reads of it.
-/

namespace IntegrityGuardian.Synapse

open Python Library

inductive Error where
  /-- `SynapseGraphError`. -/
  | graph (message : Str)
  /-- `SynapsePolicyError`. -/
  | policy (message : Str)
  /-- `SynapseRouteError`. -/
  | route (message : Str)
  | raised (e : Exc)
  deriving DecidableEq

/-- An exception that `synapse.py` does not raise itself. -/
def raising {α : Type} (x : Except Exc α) : Except Error α := x.mapError .raised

theorem raising_eq_ok {α : Type} {x : Except Exc α} {a : α} : raising x = .ok a ↔ x = .ok a :=
  mapError_eq_ok

/-! ## Enumerations -/

inductive TransitionKind where
  | observe
  | analyze
  | plan
  | disposableMutation
  | productionMutation
  | verify
  | rollback
  deriving DecidableEq

namespace TransitionKind

def value : TransitionKind → String
  | .observe => "observe"
  | .analyze => "analyze"
  | .plan => "plan"
  | .disposableMutation => "disposable_mutation"
  | .productionMutation => "production_mutation"
  | .verify => "verify"
  | .rollback => "rollback"

def all : List TransitionKind :=
  [.observe, .analyze, .plan, .disposableMutation, .productionMutation, .verify, .rollback]

/-- `_TRANSITION_RANK`. -/
def rank : TransitionKind → Nat
  | .observe => 0
  | .analyze => 0
  | .plan => 0
  | .verify => 0
  | .disposableMutation => 1
  | .rollback => 1
  | .productionMutation => 2

end TransitionKind

inductive BlastRadius where
  | none
  | process
  | host
  | tenant
  | network
  deriving DecidableEq

namespace BlastRadius

def value : BlastRadius → String
  | .none => "none"
  | .process => "process"
  | .host => "host"
  | .tenant => "tenant"
  | .network => "network"

def all : List BlastRadius := [.none, .process, .host, .tenant, .network]

/-- `_BLAST_RANK`. -/
def rank : BlastRadius → Nat
  | .none => 0
  | .process => 1
  | .host => 2
  | .tenant => 3
  | .network => 4

end BlastRadius

inductive ReversibilityMode where
  | notApplicable
  | automatic
  | manual
  | irreversible
  deriving DecidableEq

namespace ReversibilityMode

def value : ReversibilityMode → String
  | .notApplicable => "not_applicable"
  | .automatic => "automatic"
  | .manual => "manual"
  | .irreversible => "irreversible"

def all : List ReversibilityMode := [.notApplicable, .automatic, .manual, .irreversible]

/-- `_REVERSIBILITY_RANK`. -/
def rank : ReversibilityMode → Nat
  | .notApplicable => 0
  | .automatic => 0
  | .manual => 1
  | .irreversible => 2

end ReversibilityMode

inductive ProvenanceClass where
  | declared
  | observed
  | derived
  | learned
  | proposed
  deriving DecidableEq

namespace ProvenanceClass

def value : ProvenanceClass → String
  | .declared => "DECLARED"
  | .observed => "OBSERVED"
  | .derived => "DERIVED"
  | .learned => "LEARNED"
  | .proposed => "PROPOSED"

def all : List ProvenanceClass := [.declared, .observed, .derived, .learned, .proposed]

end ProvenanceClass

/-- The operators of a condition. -/
inductive Operator where
  | equals
  | notEquals
  | present
  | absent
  deriving DecidableEq

namespace Operator

def value : Operator → String
  | .equals => "equals"
  | .notEquals => "not_equals"
  | .present => "exists"
  | .absent => "absent"

def all : List Operator := [.equals, .notEquals, .present, .absent]

end Operator

/-! ## Edges -/

/-- The values a condition can name. -/
inductive Primitive where
  | text (s : Str)
  | int (n : Int)
  | bool (b : Bool)
  | none
  deriving DecidableEq

def Primitive.json : Primitive → Json
  | .text s => .str s
  | .int n => .int n
  | .bool b => .bool b
  | .none => .null

def readPrimitive : Json → Except Exc Primitive
  | .str s => .ok (.text s)
  | .int n => .ok (.int n)
  | .bool b => .ok (.bool b)
  | .null => .ok .none
  | _ => .error .typeError

structure Condition where
  fact : Str
  operator : Operator
  value : Primitive
  deriving DecidableEq

structure EvidenceRequirement where
  evidenceId : Str
  maxAgeSeconds : Nat
  deriving DecidableEq

structure Cost where
  latencyMs : Nat
  contextBytes : Nat
  modelCalls : Nat
  toolCalls : Nat
  resourceUnits : Nat
  deriving DecidableEq

/-- What an edge says about the transition it declares. -/
structure Transition where
  capabilityId : Str
  subsystem : Str
  kind : TransitionKind
  requiredAuthorityIds : List Str
  productionAuthority : Bool
  evidenceRequirements : List EvidenceRequirement
  preconditions : List Condition
  postconditions : List Condition
  verifierId : Option Str
  verifierRequired : Bool
  mode : ReversibilityMode
  blastRadius : BlastRadius
  cost : Cost
  deriving DecidableEq

structure Edge extends Transition where
  document : Json
  edgeId : Str
  fromNodeId : Str
  toNodeId : Str
  rollbackEdgeId : Option Str
  provenance : List ProvenanceClass
  deriving DecidableEq

def readCondition (v : Json) : Except Exc Condition := do
  let fact ← v.textItem (str "fact")
  let operator ← memberItem Operator.all Operator.value v (str "operator")
  let value ← v.item (str "value")
  let value ← readPrimitive value
  .ok { fact, operator, value }

def readEvidenceRequirement (v : Json) : Except Exc EvidenceRequirement := do
  let evidenceId ← v.textItem (str "evidence_id")
  let maxAgeSeconds ← v.naturalItem (str "max_age_seconds")
  .ok { evidenceId, maxAgeSeconds }

def readCost (v : Json) : Except Exc Cost := do
  let latencyMs ← v.naturalItem (str "latency_ms")
  let contextBytes ← v.naturalItem (str "context_bytes")
  let modelCalls ← v.naturalItem (str "model_calls")
  let toolCalls ← v.naturalItem (str "tool_calls")
  let resourceUnits ← v.naturalItem (str "resource_units")
  .ok { latencyMs, contextBytes, modelCalls, toolCalls, resourceUnits }

/-- `value[key]`, an array, with every item read. -/
def readArray {α : Type} (read : Json → Except Exc α) (v : Json) (key : Str) :
    Except Exc (List α) := do
  let items ← v.arrayItem key
  items.mapM read

def readTransition (v : Json) : Except Exc Transition := do
  let capabilityId ← v.textItem (str "capability_id")
  let subsystem ← v.textItem (str "subsystem")
  let kind ← memberItem TransitionKind.all TransitionKind.value v (str "transition_kind")
  let authority ← v.item (str "authority")
  let requiredAuthorityIds ← readArray Json.asText authority (str "required_authority_ids")
  let productionAuthority ← authority.boolItem (str "production_authority")
  let evidenceRequirements ← readArray readEvidenceRequirement v (str "evidence_requirements")
  let preconditions ← readArray readCondition v (str "preconditions")
  let postconditions ← readArray readCondition v (str "postconditions")
  let verifier ← v.item (str "verifier")
  let verifierId ← verifier.optionalTextItem (str "verifier_id")
  let verifierRequired ← verifier.boolItem (str "required")
  let reversibility ← v.item (str "reversibility")
  let mode ← memberItem ReversibilityMode.all ReversibilityMode.value reversibility (str "mode")
  let blastRadius ← memberItem BlastRadius.all BlastRadius.value v (str "blast_radius")
  let cost ← v.item (str "cost")
  let cost ← readCost cost
  .ok { capabilityId, subsystem, kind, requiredAuthorityIds, productionAuthority,
        evidenceRequirements, preconditions, postconditions, verifierId, verifierRequired, mode,
        blastRadius, cost }

def readProvenanceClass (v : Json) : Except Exc ProvenanceClass :=
  memberItem ProvenanceClass.all ProvenanceClass.value v (str "class")

def readEdge (document : Json) : Except Exc Edge := do
  let transition ← readTransition document
  let edgeId ← document.textItem (str "edge_id")
  let fromNodeId ← document.textItem (str "from_node_id")
  let toNodeId ← document.textItem (str "to_node_id")
  let reversibility ← document.item (str "reversibility")
  let rollbackEdgeId ← reversibility.optionalTextItem (str "rollback_edge_id")
  let provenance ← readArray readProvenanceClass document (str "provenance")
  .ok { transition with document, edgeId, fromNodeId, toNodeId, rollbackEdgeId, provenance }

/-! ## Nodes -/

/-- A node, as far as its identity goes. -/
structure Node where
  nodeId : Str
  kind : Str
  ref : Str
  deriving DecidableEq

def readNode (v : Json) : Except Exc Node := do
  let nodeId ← v.textItem (str "node_id")
  let kind ← v.textItem (str "kind")
  let ref ← v.textItem (str "ref")
  .ok { nodeId, kind, ref }

section
variable [UnicodeData]

/-! ## Identities -/

/-- The `node_id` of `build_synapse_node`. -/
def synapseNodeId (tenantId kind ref : Str) : Except Exc Str := do
  let identity ← digestObject
    (Json.fields [("tenant_id", .str tenantId), ("kind", .str kind), ("ref", .str ref)])
    (str "synapse-node-identity-v1")
  .ok (str "synapse-node:" ++ identity.afterColon)

/-- `_edge_identity_core`. -/
def edgeIdentityCore (edge : Json) : Json :=
  let core := edge.pop (str "edge_id")
  match core.get? (str "reversibility") with
  | some (.obj members) =>
    -- The reference to the rollback edge is left out: an edge and its rollback name each other.
    core.set (str "reversibility") ((Json.obj members).set (str "rollback_edge_id") .null)
  | _ => core

/-- The `edge_id` of `build_synapse_edge`. -/
def synapseEdgeId (edge : Json) : Except Exc Str := do
  let identity ← digestObject (edgeIdentityCore edge) (str "synapse-edge-identity-v1")
  .ok (str "synapse-edge:" ++ identity.afterColon)

/-- `synapse_graph_digest`. -/
def synapseGraphDigest (graph : Json) : Except Exc Str :=
  digestObject (graph.pop (str "graph_id")) (str "synapse-graph-v1")

/-! ## Verification -/

/-- A verified graph. -/
structure Graph where
  graphId : Str
  tenantId : Str
  nodes : List Node
  edges : List Edge
  deriving DecidableEq

/-- `_OFFLINE_CAPABILITIES`. -/
def offlineCapabilities : Json :=
  Json.fields
    [("credentials", .bool false), ("execution", .bool false), ("model_sdk", .bool false),
      ("network", .bool false), ("production_authority", .bool false)]

/-- `edge_by_id.get(edge_id)`; verified edges have different identities. -/
def edgeById (edges : List Edge) (edgeId : Str) : Option Edge :=
  edges.find? fun edge => edge.edgeId == edgeId

def verifyNode (tenantId : Str) (node : Node) : Except Error Unit := do
  let expected ← raising (synapseNodeId tenantId node.kind node.ref)
  ensure (node.nodeId = expected) (.graph (str "Synapse node identity mismatch"))

/-- The production authority of an edge. -/
def verifyAuthority (edge : Edge) : Except Error Unit :=
  if edge.kind = .productionMutation then
    ensure edge.productionAuthority
      (.graph (str "production edge lacks production authority requirement"))
  else
    ensure (!edge.productionAuthority)
      (.graph (str "non-production edge requests production authority"))

/-- The rollback edge an edge names. -/
def verifyRollback (edges : List Edge) (edge : Edge) : Except Error Unit :=
  match edge.rollbackEdgeId with
  | none => .ok ()
  | some rollbackEdgeId =>
    match edgeById edges rollbackEdgeId with
    | none => .error (.graph (str "rollback edge does not exist"))
    | some rollback =>
      ensure
        (rollback.fromNodeId = edge.toNodeId ∧ rollback.toNodeId = edge.fromNodeId ∧
          rollback.kind = .rollback)
        (.graph (str "rollback edge does not reverse its transition"))

def verifyEdge (nodes : List Node) (edges : List Edge) (edge : Edge) : Except Error Unit := do
  ensure (edge.fromNodeId ∈ nodes.map Node.nodeId ∧ edge.toNodeId ∈ nodes.map Node.nodeId)
    (.graph (str "Synapse edge endpoint does not exist"))
  let expected ← raising (synapseEdgeId edge.document)
  ensure (edge.edgeId = expected) (.graph (str "Synapse edge identity mismatch"))
  verifyAuthority edge
  ensure
    (edge.kind ∈ [TransitionKind.disposableMutation, .productionMutation] →
      edge.verifierRequired ∧ edge.verifierId ≠ none)
    (.graph (str "mutation edge requires an explicit verifier"))
  ensure (edge.mode ∈ [ReversibilityMode.automatic, .manual] → edge.rollbackEdgeId ≠ none)
    (.graph (str "reversible edge lacks rollback edge"))
  ensure (edge.mode ∈ [ReversibilityMode.notApplicable, .irreversible] →
      edge.rollbackEdgeId = none)
    (.graph (str "non-reversible edge declares rollback edge"))
  verifyRollback edges edge

/-- The body of `verify_synapse_graph`.  The text of the validator that follows
the first message is left out. -/
def verifiedGraph (graph : Json) : Except Error Graph := do
  (Schemas.validate Schemas.synapseGraph graph).mapError fun _ =>
    .graph (str "invalid Synapse graph schema: ")
  let expected ← raising (synapseGraphDigest graph)
  let graphId ← raising (graph.textItem (str "graph_id"))
  ensure (graphId = expected) (.graph (str "Synapse graph identity mismatch"))
  let capabilities ← raising (graph.item (str "capabilities"))
  ensure (capabilities.sortKeys = offlineCapabilities.sortKeys)
    (.graph (str "Synapse offline capability boundary mismatch"))
  let tenantId ← raising (graph.textItem (str "tenant_id"))
  let nodes ← raising (readArray readNode graph (str "nodes"))
  let edges ← raising (readArray readEdge graph (str "edges"))
  -- A list is its own stable sort exactly when its keys ascend.
  ensure ((nodes.map Node.nodeId).Pairwise (· ≤ ·))
    (.graph (str "Synapse nodes are not in canonical order"))
  ensure ((edges.map Edge.edgeId).Pairwise (· ≤ ·))
    (.graph (str "Synapse edges are not in canonical order"))
  ensure (nodes.map Node.nodeId).Nodup (.graph (str "duplicate Synapse node identity"))
  ensure (edges.map Edge.edgeId).Nodup (.graph (str "duplicate Synapse edge identity"))
  ensure (nodes.length ≤ 10000 ∧ edges.length ≤ 25000)
    (.graph (str "Synapse graph limit exceeded"))
  nodes.forM (verifyNode tenantId)
  edges.forM (verifyEdge nodes edges)
  .ok { graphId, tenantId, nodes, edges }

/-- `verify_synapse_graph`. -/
def verifySynapseGraph (graph : Json) : Except Error Json := do
  let verified ← verifiedGraph graph
  .ok (Json.fields
    [("ok", .bool true), ("graph_id", .str verified.graphId),
      ("tenant_id", .str verified.tenantId), ("node_count", .int verified.nodes.length),
      ("edge_count", .int verified.edges.length), ("production_authority", .bool false)])

/-! ## Assembly -/

/-- `sorted(items, key=lambda item: item[key])`. -/
def sortedByText (key : Str) (items : List Json) : Except Exc (List Json) := do
  let keyed ← items.mapM fun item => do
    let text ← item.textItem key
    .ok (text, item)
  .ok ((keyed.insertionSort fun a b => a.1 ≤ b.1).map Prod.snd)

/-- The fields of a graph but for its identity. -/
def graphCore (tenantId : Str) (nodes edges : List Json) : List (String × Json) :=
  [("protocol", .str (str "integrity-guardian/synapse-graph/v1")),
    ("tenant_id", .str tenantId),
    ("nodes", .arr nodes),
    ("edges", .arr edges),
    ("capabilities", offlineCapabilities)]

/-- `build_synapse_graph`. -/
def buildSynapseGraph (tenantId : Str) (nodes edges : List Json) : Except Error Json := do
  let nodes ← raising (sortedByText (str "node_id") nodes)
  let edges ← raising (sortedByText (str "edge_id") edges)
  let core := graphCore tenantId nodes edges
  let graphId ← raising (synapseGraphDigest (Json.fields core))
  let graph := Json.fields (("graph_id", .str graphId) :: core)
  let _ ← verifySynapseGraph graph
  .ok graph

end

end IntegrityGuardian.Synapse
