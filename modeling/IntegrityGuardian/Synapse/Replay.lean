import IntegrityGuardian.Synapse.Receipts

/-!
# Planner and simulator

`simulate_route` replays a route edge by edge.  It accepts the receipts of
compliant walks and nothing else, and a search that ends without an answer
within its bound has seen every state a compliant walk can reach.
-/

namespace IntegrityGuardian.Synapse

open Python Library

section
variable [UnicodeData] {graph : Graph} {context : SynapseContext} {targetNodeId : Str}
  {nodeIds : List Str}

/-! ## Replaying a walk -/

variable {edge : Edge} {facts : Facts} {fields : List (String × Json)} {edges : List Edge}
  {trace : List Json} {edgeIds : List Str} {index : Nat} {nodeId : Str} {key : String}

theorem factsDigest_of_canonical (h : CanonicalFacts facts) :
    ∃ payload, factsDigest facts = .ok (sha256Digest payload) :=
  Schemas.digestObject_of_encodable (encodable_factsJson h)
    (@validateDomain_of_ascii _ (str "synapse-facts-v1") (by decide) (by decide))

omit [UnicodeData] in
theorem simulateStep_eq_ok {edgeId : Str} {next : Facts} :
    simulateStep graph context nodeIds index edgeId nodeId facts = .ok (edge, next) ↔
      edgeById graph.edges edgeId = some edge ∧ edge.fromNodeId = nodeId ∧
        (nodeIds[index]? = some edge.fromNodeId ∧ nodeIds[index + 1]? = some edge.toNodeId) ∧
        move context edge facts = some next := by
  unfold simulateStep
  rw [move_eq_some]
  cases edgeById graph.edges edgeId with
  | none => simp
  | some found =>
    simp only [Option.some.injEq, ensure_bind_eq_ok]
    constructor
    · rintro ⟨hfrom, hnodes, h⟩
      split at h
      · cases h
      · rename_i havailable
        split at h
        · cases h
        · rename_i happly
          cases h
          exact ⟨rfl, hfrom, hnodes, havailable, happly⟩
    · rintro ⟨rfl, hfrom, hnodes, havailable, happly⟩
      refine ⟨hfrom, hnodes, ?_⟩
      rw [havailable, happly]

omit [UnicodeData] in
theorem encodable_of_optional {item : Schema} {t : Option Str}
    (hitem : ∀ s, item.accepts (.str s) = true → (Json.str s).encodable = true)
    (h : (Schema.oneOf [item, .ofType .null]).accepts (Json.ofOptionalText t) = true) :
    (Json.ofOptionalText t).encodable = true := by
  cases t with
  | none => rfl
  | some s =>
    apply hitem
    cases haccepts : item.accepts (.str s) with
    | true => rfl
    | false =>
      simp [Schema.oneOf, Json.ofOptionalText, haccepts, Schema.ofType, JsonType.of] at h

omit [UnicodeData] in
theorem encodable_traceStep (h : edge.Valid) (index : Nat) (payload : Bytes) :
    (traceStep index edge (sha256Digest payload)).encodable = true := by
  apply Json.encodable_fields
  simp only [List.forall_mem_cons, List.not_mem_nil, false_imp_iff, implies_true, and_true]
  exact ⟨rfl, encodable_of_edgeId h.edgeId, encodable_of_nodeId h.fromNodeId,
    encodable_of_nodeId h.toNodeId,
    encodable_of_optional (fun _ => Schemas.encodable_of_id) h.verifierId,
    encodable_of_optional (fun _ => encodable_of_edgeId) h.rollbackEdgeId,
    Schemas.encodable_sha256Digest payload⟩

omit [UnicodeData] in
theorem accepts_traceStep (h : edge.Valid) (hindex : index ≤ 31) (payload : Bytes) :
    Schemas.simulationStep.accepts (traceStep index edge (sha256Digest payload)) = true := by
  apply Schema.accepts_closed_fields.2
  refine ⟨by simp, by simp [List.lookup_cons], ?_⟩
  simp only [List.forall_mem_cons, List.not_mem_nil, false_imp_iff, implies_true, and_true]
  exact ⟨Schema.accepts_of_lookup rfl (accepts_boundedNatural (by exact_mod_cast hindex)),
    Schema.accepts_of_lookup rfl h.edgeId, Schema.accepts_of_lookup rfl h.fromNodeId,
    Schema.accepts_of_lookup rfl h.toNodeId, Schema.accepts_of_lookup rfl h.verifierId,
    Schema.accepts_of_lookup rfl h.rollbackEdgeId,
    Schema.accepts_of_lookup rfl (Schemas.accepts_sha256Digest payload)⟩

/-- The loop follows a walk whose nodes the route lists. -/
theorem simulateEdges_of_walk (hsound : graph.Sound) {edges : List Edge}
    (hmem : ∀ edge ∈ edges, edge ∈ graph.edges) {nodeId : Str} {facts : Facts}
    {last : Str × Facts} (hcanonical : CanonicalFacts facts)
    (hwalk : walk context edges nodeId facts = some last) (index : Nat)
    (hnodes : ∀ i, i ≤ edges.length →
      nodeIds[index + i]? = (nodeId :: edges.map Edge.toNodeId)[i]?) :
    ∃ trace, simulateEdges graph context nodeIds index (edges.map Edge.edgeId) nodeId facts =
        .ok (trace, last) ∧ CanonicalFacts last.2 ∧ trace.length = edges.length ∧
      ∀ step ∈ trace, step.encodable = true ∧
        (index + edges.length ≤ 32 → Schemas.simulationStep.accepts step = true) := by
  induction edges generalizing nodeId facts index with
  | nil =>
    cases hwalk
    exact ⟨[], rfl, hcanonical, rfl, by simp⟩
  | cons edge edges ih =>
    obtain ⟨hedge, hrest⟩ := List.forall_mem_cons.1 hmem
    have hvalid := hsound.valid edge hedge
    simp only [walk] at hwalk
    split at hwalk
    · rename_i hfrom
      obtain ⟨next, hmove, hwalk⟩ := Option.bind_eq_some_iff.1 hwalk
      have hfirst := hnodes 0 (Nat.zero_le _)
      have hsecond := hnodes 1 (by simp)
      have hnext : CanonicalFacts next :=
        applyPostconditions_canonical hcanonical hvalid.postconditions (move_eq_some.1 hmove).2
      obtain ⟨payload, hdigest⟩ := factsDigest_of_canonical hnext
      obtain ⟨trace, htrace, hlast, hlength, hsteps⟩ := ih hrest hnext hwalk (index + 1) (by
        intro i hi
        have hlater := hnodes (i + 1) (by simpa using hi)
        rw [show index + 1 + i = index + (i + 1) by omega, hlater]
        rfl)
      have hstep : simulateStep graph context nodeIds index edge.edgeId nodeId facts =
          .ok (edge, next) := by
        refine simulateStep_eq_ok.2 ⟨edgeById_of_mem hsound hedge, hfrom, ⟨?_, hsecond⟩, hmove⟩
        rw [hfrom]
        exact hfirst
      refine ⟨traceStep index edge (sha256Digest payload) :: trace, ?_, hlast, by simp [hlength],
        ?_⟩
      · simp only [List.map_cons, simulateEdges]
        rw [hstep, ok_bind, hdigest]
        show (simulateEdges graph context nodeIds (index + 1) (edges.map Edge.edgeId)
          edge.toNodeId next >>= _) = _
        rw [htrace]
        rfl
      · rw [List.forall_mem_cons]
        refine ⟨⟨encodable_traceStep hvalid index payload, ?_⟩, ?_⟩
        · intro hbound
          simp only [List.length_cons] at hbound
          exact accepts_traceStep hvalid (by omega) payload
        · intro step hstep
          obtain ⟨hencodable, haccepts⟩ := hsteps step hstep
          refine ⟨hencodable, ?_⟩
          intro hbound
          simp only [List.length_cons] at hbound
          exact haccepts (by omega)
    · cases hwalk

theorem walk_of_simulateEdges {last : Str × Facts}
    (h : simulateEdges graph context nodeIds index edgeIds nodeId facts = .ok (trace, last)) :
    ∃ edges, (∀ edge ∈ edges, edge ∈ graph.edges) ∧ edges.map Edge.edgeId = edgeIds ∧
      walk context edges nodeId facts = some last := by
  induction edgeIds generalizing index nodeId facts trace with
  | nil =>
    cases h
    exact ⟨[], by simp, rfl, rfl⟩
  | cons edgeId edgeIds ih =>
    simp only [simulateEdges] at h
    obtain ⟨⟨edge, next⟩, hstep, h⟩ := bind_eq_ok.1 h
    obtain ⟨digest, -, h⟩ := bind_eq_ok.1 h
    obtain ⟨⟨rest, last'⟩, hrest, h⟩ := bind_eq_ok.1 h
    cases h
    obtain ⟨hfound, hfrom, -, hmove⟩ := simulateStep_eq_ok.1 hstep
    obtain ⟨hedge, rfl⟩ := mem_of_edgeById hfound
    obtain ⟨edges, hmem, rfl, hwalk⟩ := ih hrest
    refine ⟨edge :: edges, List.forall_mem_cons.2 ⟨hedge, hmem⟩, rfl, ?_⟩
    simp only [walk, if_pos hfrom, hmove]
    exact hwalk

/-! ## Receipts of walks are accepted -/

omit [UnicodeData] in
theorem mapM_asText (texts : List Str) : (texts.map Json.str).mapM Json.asText = .ok texts := by
  rw [mapM_eq_ok, List.forall₂_map_left_iff, List.forall₂_same]
  intro text _
  rfl

omit [UnicodeData] in
theorem readArray_fields {texts : List Str} (h : fields.lookup key = some (.arr (texts.map .str))) :
    readArray Json.asText (Json.fields fields) (str key) = .ok texts :=
  bind_eq_ok.2 ⟨_, Json.arrayItem_fields h, mapM_asText texts⟩

/-- A simulation of valid parts passes its schema. -/
theorem simulation_returns {routeId start final : Str} {rollbackEdgeIds : List Json}
    (hsound : graph.Sound) (htenant : context.tenantId = graph.tenantId)
    (hrouteId : Schemas.digest.accepts (.str routeId) = true)
    (hstartNode : Schemas.nodeId.accepts (.str context.currentNodeId) = true)
    (htarget : Schemas.nodeId.accepts (.str targetNodeId) = true)
    (hstart : Schemas.digest.accepts (.str start) = true)
    (hfinal : Schemas.digest.accepts (.str final) = true) (hlength : trace.length ≤ 32)
    (htrace : ∀ step ∈ trace, step.encodable = true ∧ Schemas.simulationStep.accepts step = true)
    (hrollbacks : (Schemas.arrayOf Schemas.edgeId).accepts (.arr rollbackEdgeIds) = true)
    (hencodable : (Json.arr rollbackEdgeIds).encodable = true) : ∃ simulationId,
      digestObject (Json.fields (simulationCore graph context routeId targetNodeId start final trace
        rollbackEdgeIds)) (str "synapse-simulation-v1") = .ok simulationId ∧
      Schemas.synapseSimulation.accepts (Json.fields (("simulation_id", .str simulationId) ::
        simulationCore graph context routeId targetNodeId start final trace rollbackEdgeIds)) =
          true := by
  have hcore : (Json.fields (simulationCore graph context routeId targetNodeId start final trace
      rollbackEdgeIds)).encodable = true := by
    apply Json.encodable_fields
    simp only [simulationCore, List.forall_mem_cons, List.not_mem_nil, false_imp_iff, implies_true,
      and_true]
    refine ⟨by decide, encodable_of_digest hsound.graphId, encodable_of_digest hrouteId,
      encodable_of_tenantId (htenant ▸ hsound.tenantId), encodable_of_nodeId hstartNode,
      encodable_of_nodeId htarget, encodable_of_digest hstart, encodable_of_digest hfinal, ?_,
      hencodable, by decide, rfl, rfl, rfl⟩
    rw [Json.encodable, Json.encodableItems_iff]
    exact fun step hstep => (htrace step hstep).1
  obtain ⟨payload, hdigest⟩ := Schemas.digestObject_of_encodable hcore
    (@validateDomain_of_ascii _ (str "synapse-simulation-v1") (by decide) (by decide))
  refine ⟨sha256Digest payload, hdigest, ?_⟩
  apply Schema.accepts_closed_fields.2
  refine ⟨by simp [simulationCore], by simp [simulationCore, List.lookup_cons], ?_⟩
  simp only [List.forall_mem_cons, List.not_mem_nil, false_imp_iff, implies_true, and_true]
  exact ⟨Schema.accepts_of_lookup rfl (Schemas.accepts_const _),
    Schema.accepts_of_lookup rfl (Schemas.accepts_sha256Digest _),
    Schema.accepts_of_lookup rfl hsound.graphId, Schema.accepts_of_lookup rfl hrouteId,
    Schema.accepts_of_lookup rfl (htenant ▸ hsound.tenantId),
    Schema.accepts_of_lookup rfl hstartNode, Schema.accepts_of_lookup rfl htarget,
    Schema.accepts_of_lookup rfl hstart, Schema.accepts_of_lookup rfl hfinal,
    Schema.accepts_of_lookup rfl (Schemas.accepts_boundedArray.2
      ⟨hlength, fun step hstep => (htrace step hstep).2⟩),
    Schema.accepts_of_lookup rfl hrollbacks, Schema.accepts_of_lookup rfl (Schemas.accepts_const _),
    Schema.accepts_of_lookup rfl rfl, Schema.accepts_of_lookup rfl rfl,
    Schema.accepts_of_lookup rfl (by decide)⟩

omit [UnicodeData] in
theorem pop_cons_fields (h : key ∉ fields.map Prod.fst) (w : Json) :
    (Json.fields ((key, w) :: fields)).pop (str key) = Json.fields fields := by
  rw [Json.pop_fields, List.filter_cons_of_neg (by simp)]
  congr 1
  rw [List.filter_eq_self]
  intro field hfield
  exact bne_iff_ne.2 fun heq => h (heq ▸ List.mem_map_of_mem hfield)

omit [UnicodeData] in
theorem encodable_cons_fields {w : Json}
    (hw : w.encodable = true) (h : (Json.fields fields).encodable = true) :
    (Json.fields ((key, w) :: fields)).encodable = true := by
  rw [Json.fields, Json.encodable, List.map_cons, Json.encodableMembers, hw, any_isSurrogate_str]
  exact h

omit [UnicodeData] in
theorem accepts_of_receipt {routeId digest : Str}
    (h : Schemas.synapseRoute.accepts (Json.fields (("route_id", .str routeId) ::
      routeCore graph context targetNodeId edgeIds nodeIds edges digest)) = true) :
    Schemas.nodeId.accepts (.str context.currentNodeId) = true ∧
      Schemas.nodeId.accepts (.str targetNodeId) = true ∧ edgeIds.length ≤ 32 ∧
      (Schemas.arrayOf Schemas.edgeId).accepts
        (.arr ((edges.reverse.filterMap fun edge => edge.rollbackEdgeId).map .str)) = true := by
  have hfields := (Schema.accepts_closed_fields.1 h).2.2
  have hedges := hfields ("edge_ids", Schemas.boundedArray 32 Schemas.edgeId) (by simp) _ rfl
  refine ⟨hfields ("start_node_id", Schemas.nodeId) (by simp) _ rfl,
    hfields ("target_node_id", Schemas.nodeId) (by simp) _ rfl, ?_,
    hfields ("rollback_edge_ids", Schemas.arrayOf Schemas.edgeId) (by simp) _ rfl⟩
  simpa using (Schemas.accepts_boundedArray.1 hedges).1

/-- The simulator accepts the receipt of a compliant walk and ends at its target. -/
theorem simulateRoute_of_receipt {kernel : SynapseKernel}
    {route : Json} (hcontext : validateContext kernel.graph context = .ok ())
    (hcompliant : Compliant kernel.graph context edges targetNodeId facts)
    (hreceipt : routeReceipt kernel.graph context targetNodeId (edges.map Edge.edgeId)
      (context.currentNodeId :: edges.map Edge.toNodeId) = .ok route) :
    route.get? (str "target_node_id") = some (.str targetNodeId) ∧
      ∃ simulation, simulateRoute kernel context route = .ok simulation ∧
        simulation.get? (str "target_node_id") = some (.str targetNodeId) := by
  have hsound := kernel.sound
  have htenant : context.tenantId = kernel.graph.tenantId := (ensure_bind_eq_ok.1 hcontext).1
  obtain ⟨selected, digest, routeId, hselected, hdigest, hrouteId, hroute, haccepts⟩ :=
    routeReceipt_eq_ok hreceipt
  rw [selectedEdges_map hsound hcompliant.mem] at hselected
  cases hselected
  obtain ⟨core, hcoreBytes, hpayload⟩ := digestObject_eq_ok hrouteId
  have hrouteDigest : Schemas.digest.accepts (.str routeId) = true :=
    hpayload ▸ Schemas.accepts_sha256Digest _
  have hencodable : route.encodable = true := by
    rw [hroute]
    exact encodable_cons_fields (encodable_of_digest hrouteDigest)
      (encodable_of_canonicalBytes hcoreBytes)
  obtain ⟨bytes, hbytes⟩ := canonicalBytes_of_encodable hencodable
  have hpop : digestObject (route.pop (str "route_id")) (str "synapse-route-v1") = .ok routeId := by
    rw [hroute, pop_cons_fields]
    · exact hrouteId
    · show "route_id" ∉ ["protocol", "graph_id", "tenant_id", "context_digest", "start_node_id",
        "target_node_id", "edge_ids", "node_ids", "score", "verifier_ids", "rollback_edge_ids",
        "control_plane_calls", "execution_authority"]
      decide
  obtain ⟨hstartNode, htarget, hlength, hrollbacks⟩ := accepts_of_receipt (hroute ▸ haccepts)
  rw [List.length_map] at hlength
  obtain ⟨startPayload, hstart⟩ := factsDigest_of_canonical context.canonicalFacts
  obtain ⟨trace, htrace, hlast, htraceLength, hsteps⟩ := @simulateEdges_of_walk _ kernel.graph
    context (context.currentNodeId :: edges.map Edge.toNodeId) hsound edges hcompliant.mem _ _ _
    context.canonicalFacts hcompliant.walk 0 (by simp)
  obtain ⟨finalPayload, hfinal⟩ := factsDigest_of_canonical hlast
  have hrollbackTexts : (Json.arr ((edges.reverse.filterMap fun edge => edge.rollbackEdgeId).map
      .str)).encodable = true := by
    have hroutes := (encodable_of_canonicalBytes hcoreBytes)
    have hget := Json.get?_fields (routeCore kernel.graph context targetNodeId
      (edges.map Edge.edgeId) (context.currentNodeId :: edges.map Edge.toNodeId) edges digest)
      "rollback_edge_ids"
    exact encodable_of_get? hroutes hget
  obtain ⟨simulationId, hsimulationId, hvalid⟩ := simulation_returns hsound htenant hrouteDigest
    hstartNode htarget (Schemas.accepts_sha256Digest startPayload)
    (Schemas.accepts_sha256Digest finalPayload) (htraceLength ▸ hlength)
    (fun step hstep => ⟨(hsteps step hstep).1, (hsteps step hstep).2 (by omega)⟩) hrollbacks
    hrollbackTexts
  have htext : ∀ {key : String} {t : Str}, (("route_id", Json.str routeId) :: routeCore
      kernel.graph context targetNodeId (edges.map Edge.edgeId)
        (context.currentNodeId :: edges.map Edge.toNodeId) edges digest).lookup key =
          some (.str t) → raising (route.textItem (str key)) = .ok t := by
    intro key t hlookup
    rw [hroute]
    exact raising_eq_ok.2 (Json.textItem_fields hlookup)
  have htexts : ∀ {key : String} {texts : List Str}, (("route_id", Json.str routeId) :: routeCore
      kernel.graph context targetNodeId (edges.map Edge.edgeId)
        (context.currentNodeId :: edges.map Edge.toNodeId) edges digest).lookup key =
          some (.arr (texts.map .str)) →
            raising (readArray Json.asText route (str key)) = .ok texts := by
    intro key texts hlookup
    rw [hroute]
    exact raising_eq_ok.2 (readArray_fields hlookup)
  refine ⟨by rw [hroute, Json.get?_fields]; rfl, Json.fields (("simulation_id", .str simulationId)
    :: simulationCore kernel.graph context routeId targetNodeId (sha256Digest startPayload)
      (sha256Digest finalPayload) trace ((edges.reverse.filterMap fun edge =>
        edge.rollbackEdgeId).map .str)), ?_, by rw [Json.get?_fields]; rfl⟩
  unfold simulateRoute
  refine bind_eq_ok.2 ⟨(), hcontext, ?_⟩
  refine bind_eq_ok.2 ⟨(), mapError_eq_ok.2 (Schemas.validate_eq_ok.2 haccepts), ?_⟩
  refine bind_eq_ok.2 ⟨routeId, htext rfl, ?_⟩
  refine bind_eq_ok.2 ⟨routeId, raising_eq_ok.2 hpop, ensure_bind_eq_ok.2 ⟨rfl, ?_⟩⟩
  refine bind_eq_ok.2 ⟨_, htext rfl, ensure_bind_eq_ok.2 ⟨rfl, ?_⟩⟩
  refine bind_eq_ok.2 ⟨_, htext rfl, ensure_bind_eq_ok.2 ⟨rfl, ?_⟩⟩
  refine bind_eq_ok.2 ⟨digest, htext rfl, ?_⟩
  refine bind_eq_ok.2 ⟨digest, raising_eq_ok.2 hdigest, ensure_bind_eq_ok.2 ⟨rfl, ?_⟩⟩
  refine bind_eq_ok.2 ⟨_, htext rfl, ensure_bind_eq_ok.2 ⟨rfl, ?_⟩⟩
  refine bind_eq_ok.2 ⟨edges.map Edge.edgeId, htexts rfl, ?_⟩
  refine bind_eq_ok.2 ⟨context.currentNodeId :: edges.map Edge.toNodeId, htexts rfl, ?_⟩
  refine ensure_bind_eq_ok.2 ⟨by simp, ensure_bind_eq_ok.2 ⟨rfl, ?_⟩⟩
  refine bind_eq_ok.2 ⟨targetNodeId, htext rfl, ?_⟩
  refine bind_eq_ok.2 ⟨route, mapError_eq_ok.2 hreceipt, ?_⟩
  refine bind_eq_ok.2 ⟨bytes, raising_eq_ok.2 hbytes, ?_⟩
  refine bind_eq_ok.2 ⟨bytes, raising_eq_ok.2 hbytes, ensure_bind_eq_ok.2 ⟨rfl, ?_⟩⟩
  refine bind_eq_ok.2 ⟨_, raising_eq_ok.2 hstart, ?_⟩
  refine bind_eq_ok.2 ⟨_, htrace, ensure_bind_eq_ok.2 ⟨rfl, ?_⟩⟩
  refine bind_eq_ok.2 ⟨_, raising_eq_ok.2 hfinal, ?_⟩
  refine bind_eq_ok.2 ⟨_, raising_eq_ok.2 (by rw [hroute]; exact Json.arrayItem_fields rfl), ?_⟩
  refine bind_eq_ok.2 ⟨simulationId, raising_eq_ok.2 hsimulationId, ?_⟩
  exact bind_eq_ok.2 ⟨(), raising_eq_ok.2 (Schemas.validate_eq_ok.2 hvalid), rfl⟩

end

end IntegrityGuardian.Synapse
