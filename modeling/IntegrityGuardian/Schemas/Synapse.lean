import IntegrityGuardian.Schemas.Discovery

/-!
# The synapse schemas

The graph, route and simulation documents under `schema/`.
-/

namespace IntegrityGuardian.Schemas

open Python

/-- `#/$defs/node_id`. -/
def nodeId : Schema := matching (hashBody "synapse-node:")

/-- `#/$defs/edge_id`. -/
def edgeId : Schema := matching (hashBody "synapse-edge:")

/-- `#/$defs/primitive`. -/
def primitive : Schema :=
  .oneOf
    [.keywords [.ofType .string, .text fun s => s.length ≤ 4096], .ofType .integer,
      .ofType .boolean, .ofType .null]

/-- What a node is about. -/
def nodeKind : Schema :=
  .enum ["current_state", "intent", "evidence", "artifact", "decision", "action",
    "verification", "rollback"]

/-- How a node is known. -/
def truthStatus : Schema :=
  .enum ["reported", "observed", "verified", "derived", "proposed", "unknown", "stale"]

/-- `#/$defs/node`. -/
def synapseNode : Schema :=
  .closed ["node_id", "kind", "ref", "label", "truth_status", "attributes"]
    [("node_id", nodeId),
      ("kind", nodeKind),
      ("ref", boundedText 4096),
      ("label", boundedText 4096),
      ("truth_status", truthStatus),
      ("attributes", .mapping primitive)]

/-- `#/$defs/condition`. -/
def condition : Schema :=
  .closed ["fact", "operator", "value"]
    [("fact", id),
      ("operator", .enum ["equals", "not_equals", "exists", "absent"]),
      ("value", primitive)]

/-- `#/$defs/provenance`. -/
def provenance : Schema :=
  .closed ["class", "source_id", "source_digest", "explanation"]
    [("class", .enum ["DECLARED", "OBSERVED", "DERIVED", "LEARNED", "PROPOSED"]),
      ("source_id", id),
      ("source_digest", digest),
      ("explanation", boundedText 4096)]

/-- The kinds of a transition. -/
def transitionKind : Schema :=
  .enum ["observe", "analyze", "plan", "disposable_mutation", "production_mutation", "verify",
    "rollback"]

/-- An array without repetitions. -/
def setOf (item : Schema) : Schema := .keywords [.ofType .array, .uniqueItems, .items item]

/-- The authority of a transition. -/
def authority : Schema :=
  .closed ["required_authority_ids", "production_authority"]
    [("required_authority_ids", setOf id),
      ("production_authority", .ofType .boolean)]

/-- One element of `evidence_requirements`. -/
def evidenceRequirement : Schema :=
  .closed ["evidence_id", "max_age_seconds"]
    [("evidence_id", id), ("max_age_seconds", boundedNatural 31536000)]

/-- An identifier or `null`. -/
def optionalId : Schema := .oneOf [id, .ofType .null]

/-- An edge identifier or `null`. -/
def optionalEdgeId : Schema := .oneOf [edgeId, .ofType .null]

/-- The verifier of a transition. -/
def verifier : Schema :=
  .closed ["verifier_id", "required"] [("verifier_id", optionalId), ("required", .ofType .boolean)]

/-- The modes of `reversibility`. -/
def reversibilityMode : Schema :=
  .enum ["not_applicable", "automatic", "manual", "irreversible"]

/-- The blast radii. -/
def blastRadius : Schema := .enum ["none", "process", "host", "tenant", "network"]

/-- The cost of a transition. -/
def cost : Schema :=
  .closed ["latency_ms", "context_bytes", "model_calls", "tool_calls", "resource_units"]
    [("latency_ms", natural), ("context_bytes", natural), ("model_calls", natural),
      ("tool_calls", natural), ("resource_units", natural)]

/-- The provenance of a transition. -/
def provenances : Schema :=
  .keywords [.ofType .array, .minItems 1, .uniqueItems, .items provenance]

/-- `#/$defs/edge`. -/
def synapseEdge : Schema :=
  .closed
    ["edge_id", "from_node_id", "to_node_id", "capability_id", "subsystem", "transition_kind",
      "authority", "evidence_requirements", "preconditions", "postconditions", "verifier",
      "reversibility", "blast_radius", "cost", "provenance"]
    [("edge_id", edgeId),
      ("from_node_id", nodeId),
      ("to_node_id", nodeId),
      ("capability_id", id),
      ("subsystem", id),
      ("transition_kind", transitionKind),
      ("authority", authority),
      ("evidence_requirements", setOf evidenceRequirement),
      ("preconditions", setOf condition),
      ("postconditions", setOf condition),
      ("verifier", verifier),
      ("reversibility", .closed ["mode", "rollback_edge_id"]
        [("mode", reversibilityMode), ("rollback_edge_id", optionalEdgeId)]),
      ("blast_radius", blastRadius),
      ("cost", cost),
      ("provenance", provenances)]

/-- `synapse-graph.schema.json`. -/
def synapseGraph : Schema :=
  .closed ["protocol", "graph_id", "tenant_id", "nodes", "edges", "capabilities"]
    [("protocol", .const "integrity-guardian/synapse-graph/v1"),
      ("graph_id", digest),
      ("tenant_id", tenantId),
      ("nodes", boundedArray 10000 synapseNode),
      ("edges", boundedArray 25000 synapseEdge),
      ("capabilities", offlineBoundary)]

/-- `#/$defs/control_plane_calls`. -/
def controlPlaneCalls : Schema :=
  .closed ["model_calls", "tool_calls"] [("model_calls", .constInt 0), ("tool_calls", .constInt 0)]

/-- The score of a route. -/
def routeScore : Schema :=
  .closed
    ["transition_rank", "blast_radius_rank", "reversibility_penalty", "authority_count",
      "estimated_model_calls", "estimated_tool_calls", "estimated_latency_ms", "resource_units",
      "context_bytes", "hop_count"]
    [("transition_rank", boundedNatural 2), ("blast_radius_rank", boundedNatural 4),
      ("reversibility_penalty", natural), ("authority_count", natural),
      ("estimated_model_calls", natural), ("estimated_tool_calls", natural),
      ("estimated_latency_ms", natural), ("resource_units", natural),
      ("context_bytes", natural), ("hop_count", boundedNatural 32)]

/-- An array. -/
def arrayOf (item : Schema) : Schema := .keywords [.ofType .array, .items item]

/-- `synapse-route.schema.json`. -/
def synapseRoute : Schema :=
  .closed
    ["protocol", "route_id", "graph_id", "tenant_id", "context_digest", "start_node_id",
      "target_node_id", "edge_ids", "node_ids", "score", "verifier_ids", "rollback_edge_ids",
      "control_plane_calls", "execution_authority"]
    [("protocol", .const "integrity-guardian/synapse-route/v1"),
      ("route_id", digest),
      ("graph_id", digest),
      ("tenant_id", tenantId),
      ("context_digest", digest),
      ("start_node_id", nodeId),
      ("target_node_id", nodeId),
      ("edge_ids", boundedArray 32 edgeId),
      ("node_ids", .keywords [.ofType .array, .minItems 1, .maxItems 33, .items nodeId]),
      ("score", routeScore),
      ("verifier_ids", arrayOf id),
      ("rollback_edge_ids", arrayOf edgeId),
      ("control_plane_calls", controlPlaneCalls),
      ("execution_authority", .constBool false)]

/-- One element of a simulation's `trace`. -/
def simulationStep : Schema :=
  .closed
    ["index", "edge_id", "from_node_id", "to_node_id", "verifier_id", "rollback_edge_id",
      "facts_digest"]
    [("index", boundedNatural 31),
      ("edge_id", edgeId),
      ("from_node_id", nodeId),
      ("to_node_id", nodeId),
      ("verifier_id", optionalId),
      ("rollback_edge_id", optionalEdgeId),
      ("facts_digest", digest)]

/-- `synapse-simulation.schema.json`. -/
def synapseSimulation : Schema :=
  .closed
    ["protocol", "simulation_id", "graph_id", "route_id", "tenant_id", "start_node_id",
      "target_node_id", "start_facts_digest", "final_facts_digest", "trace", "rollback_edge_ids",
      "status", "execution_performed", "production_mutated", "control_plane_calls"]
    [("protocol", .const "integrity-guardian/synapse-simulation/v1"),
      ("simulation_id", digest),
      ("graph_id", digest),
      ("route_id", digest),
      ("tenant_id", tenantId),
      ("start_node_id", nodeId),
      ("target_node_id", nodeId),
      ("start_facts_digest", digest),
      ("final_facts_digest", digest),
      ("trace", boundedArray 32 simulationStep),
      ("rollback_edge_ids", arrayOf edgeId),
      ("status", .const "simulated"),
      ("execution_performed", .constBool false),
      ("production_mutated", .constBool false),
      ("control_plane_calls", controlPlaneCalls)]

end IntegrityGuardian.Schemas
