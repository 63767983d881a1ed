import IntegrityGuardian.Library.SnapshotLoop
import IntegrityGuardian.Schemas.Texts
import IntegrityGuardian.Synapse.Kernel

/-!
# What a verified graph guarantees

The edges of a verified graph have different identities and fields of the
shape the receipts ask for.
-/

namespace IntegrityGuardian.Synapse

open Python Library

/-! ## Reading validated documents -/

section Reading

variable {required : List String} {properties : List (String × Schema)} {v : Json} {s : Schema}

theorem accepts_of_get? (h : (Schema.closed required properties).accepts v = true) (key : String)
    (hkey : key ∈ required) (hs : (key, s) ∈ properties) {w : Json}
    (hget : v.get? (str key) = some w) : s.accepts w = true := by
  obtain ⟨w', hget', hw'⟩ := Schema.get?_of_closed h hkey hs
  rw [hget] at hget'
  cases hget'
  exact hw'

end Reading

section Shapes

variable {keywords : List Schema} {w : Json} {item : Schema}

theorem eq_str_of_keywords (h : (Schema.keywords (.ofType .string :: keywords)).accepts w = true) :
    ∃ t, w = .str t :=
  Schema.eq_str_of_string (Schema.accepts_keywords h (List.mem_cons_self ..))

theorem eq_arr_of_keywords (hitem : Schema.items item ∈ keywords)
    (h : (Schema.keywords (.ofType .array :: keywords)).accepts w = true) :
    ∃ ws, w = .arr ws ∧ ∀ w ∈ ws, item.accepts w = true := by
  have hitems := Schema.accepts_keywords h (List.mem_cons_of_mem _ hitem)
  have harray := Schema.accepts_keywords h (List.mem_cons_self ..)
  cases w with
  | arr ws => exact ⟨ws, rfl, List.all_eq_true.1 hitems⟩
  | _ => cases harray

theorem eq_str_of_id (h : Schemas.id.accepts w = true) : ∃ t, w = .str t := eq_str_of_keywords h

theorem eq_arr_of_boundedArray {most : Nat}
    (h : (Schemas.boundedArray most item).accepts w = true) :
    ∃ ws, w = .arr ws ∧ ∀ w ∈ ws, item.accepts w = true :=
  eq_arr_of_keywords (by simp) h

end Shapes

variable {v : Json} {s : Str} {α : Type}

/-! ## Valid edges -/

/-- The fields of an edge that reach a receipt have the shape its schema asks for. -/
structure Edge.Valid (edge : Edge) : Prop where
  edgeId : Schemas.edgeId.accepts (.str edge.edgeId) = true
  fromNodeId : Schemas.nodeId.accepts (.str edge.fromNodeId) = true
  toNodeId : Schemas.nodeId.accepts (.str edge.toNodeId) = true
  verifierId : Schemas.optionalId.accepts (Json.ofOptionalText edge.verifierId) = true
  rollbackEdgeId : Schemas.optionalEdgeId.accepts (Json.ofOptionalText edge.rollbackEdgeId) = true
  postconditions : ∀ c ∈ edge.postconditions,
    (Json.str c.fact).encodable = true ∧ c.value.json.encodable = true

theorem encodable_of_get? {w : Json} {key : Str} (h : v.encodable = true)
    (hget : v.get? key = some w) : w.encodable = true := by
  cases v with
  | obj members =>
    obtain ⟨a, b, hab, -⟩ := List.lookup_eq_some_iff.1 hget
    rw [Json.encodable, Json.encodableMembers_iff] at h
    exact (h (key, w) (hab ▸ by simp)).2
  | _ => cases hget

theorem json_of_readPrimitive {p : Primitive} (h : readPrimitive v = .ok p) : p.json = v := by
  cases v with
  | arr vs => cases h
  | obj ms => cases h
  | _ =>
    cases h
    rfl

theorem encodable_of_readCondition {c : Condition} (hencodable : v.encodable = true)
    (h : readCondition v = .ok c) :
    (Json.str c.fact).encodable = true ∧ c.value.json.encodable = true := by
  unfold readCondition at h
  obtain ⟨fact, hfact, h⟩ := bind_eq_ok.1 h
  obtain ⟨operator, hoperator, h⟩ := bind_eq_ok.1 h
  obtain ⟨w, hw, h⟩ := bind_eq_ok.1 h
  obtain ⟨value, hvalue, h⟩ := bind_eq_ok.1 h
  cases h
  have hget := Json.textItem_eq_ok.1 hfact
  refine ⟨encodable_of_get? hencodable hget, ?_⟩
  rw [json_of_readPrimitive hvalue]
  exact encodable_of_get? hencodable (Json.item_eq_ok.1 hw)

theorem readTransition_eq_ok {t : Transition} (h : readTransition v = .ok t) :
    (∃ w, v.get? (str "verifier") = some w ∧
      w.get? (str "verifier_id") = some (Json.ofOptionalText t.verifierId)) ∧
      readArray readCondition v (str "postconditions") = .ok t.postconditions := by
  unfold readTransition at h
  obtain ⟨capabilityId, -, h⟩ := bind_eq_ok.1 h
  obtain ⟨subsystem, -, h⟩ := bind_eq_ok.1 h
  obtain ⟨kind, -, h⟩ := bind_eq_ok.1 h
  obtain ⟨authority, -, h⟩ := bind_eq_ok.1 h
  obtain ⟨ids, -, h⟩ := bind_eq_ok.1 h
  obtain ⟨production, -, h⟩ := bind_eq_ok.1 h
  obtain ⟨evidence, -, h⟩ := bind_eq_ok.1 h
  obtain ⟨pre, -, h⟩ := bind_eq_ok.1 h
  obtain ⟨post, hpost, h⟩ := bind_eq_ok.1 h
  obtain ⟨verifier, hverifier, h⟩ := bind_eq_ok.1 h
  obtain ⟨verifierId, hverifierId, h⟩ := bind_eq_ok.1 h
  obtain ⟨needed, -, h⟩ := bind_eq_ok.1 h
  obtain ⟨reversibility, -, h⟩ := bind_eq_ok.1 h
  obtain ⟨mode, -, h⟩ := bind_eq_ok.1 h
  obtain ⟨blast, -, h⟩ := bind_eq_ok.1 h
  obtain ⟨cost, -, h⟩ := bind_eq_ok.1 h
  obtain ⟨read, -, h⟩ := bind_eq_ok.1 h
  cases h
  exact ⟨⟨verifier, Json.item_eq_ok.1 hverifier, Json.optionalTextItem_eq_ok.1 hverifierId⟩, hpost⟩

theorem readEdge_valid {edge : Edge} (haccepts : Schemas.synapseEdge.accepts v = true)
    (hencodable : v.encodable = true) (h : readEdge v = .ok edge) : edge.Valid := by
  unfold readEdge at h
  obtain ⟨transition, htransition, h⟩ := bind_eq_ok.1 h
  obtain ⟨edgeId, hedge, h⟩ := bind_eq_ok.1 h
  obtain ⟨fromNode, hfrom, h⟩ := bind_eq_ok.1 h
  obtain ⟨toNode, hto, h⟩ := bind_eq_ok.1 h
  obtain ⟨reversibility, hreversibility, h⟩ := bind_eq_ok.1 h
  obtain ⟨rollback, hrollback, h⟩ := bind_eq_ok.1 h
  obtain ⟨provenance, -, h⟩ := bind_eq_ok.1 h
  cases h
  obtain ⟨⟨verifier, hverifier, hverifierId⟩, hpost⟩ := readTransition_eq_ok htransition
  obtain ⟨items, hitems, hread⟩ := bind_eq_ok.1 hpost
  have hverified : Schemas.verifier.accepts verifier = true :=
    accepts_of_get? haccepts "verifier" (by simp) (by simp) hverifier
  refine ⟨?_, ?_, ?_, ?_, ?_, ?_⟩
  · exact accepts_of_get? haccepts "edge_id" (by simp) (by simp)
      (Json.textItem_eq_ok.1 hedge)
  · exact accepts_of_get? haccepts "from_node_id" (by simp) (by simp)
      (Json.textItem_eq_ok.1 hfrom)
  · exact accepts_of_get? haccepts "to_node_id" (by simp) (by simp)
      (Json.textItem_eq_ok.1 hto)
  · exact accepts_of_get? hverified "verifier_id" (by simp) (by simp) hverifierId
  · have hreversible := accepts_of_get? haccepts "reversibility" (by simp) (by simp; rfl)
      (Json.item_eq_ok.1 hreversibility)
    exact accepts_of_get? hreversible "rollback_edge_id" (by simp) (by simp)
      (Json.optionalTextItem_eq_ok.1 hrollback)
  · intro c hc
    have hitem : (Json.arr items).encodable = true :=
      encodable_of_get? hencodable (Json.arrayItem_eq_ok.1 hitems)
    rw [Json.encodable, Json.encodableItems_iff] at hitem
    obtain ⟨w, hw, hread⟩ := exists_of_mem_right (mapM_eq_ok.1 hread) hc
    exact encodable_of_readCondition (hitem w hw) hread

/-! ## Acceptance of the fields of a receipt -/

theorem encodable_of_nodeId (h : Schemas.nodeId.accepts (.str s) = true) :
    (Json.str s).encodable = true :=
  Schemas.encodable_of_matching
    (fun _ => @Schemas.ascii_of_hashBody "synapse-node:" _ (by decide)) h

theorem encodable_of_edgeId (h : Schemas.edgeId.accepts (.str s) = true) :
    (Json.str s).encodable = true :=
  Schemas.encodable_of_matching
    (fun _ => @Schemas.ascii_of_hashBody "synapse-edge:" _ (by decide)) h

theorem encodable_of_tenantId (h : Schemas.tenantId.accepts (.str s) = true) :
    (Json.str s).encodable = true :=
  Schemas.encodable_of_matching (fun _ => Schemas.ascii_of_tenantBody) h

theorem encodable_of_digest (h : Schemas.digest.accepts (.str s) = true) :
    (Json.str s).encodable = true :=
  Schemas.encodable_of_matching (fun _ => Schemas.ascii_of_digestBody) h

theorem encodable_arr_map {f : α → Json} {xs : List α}
    (h : ∀ x ∈ xs, (f x).encodable = true) : (Json.arr (xs.map f)).encodable = true := by
  rw [Json.encodable, Json.encodableItems_iff]
  exact List.forall_mem_map.2 h

theorem accepts_natural (n : Nat) : Schemas.natural.accepts (.int n) = true := by
  simp [Schemas.natural, Schema.keywords, Schema.ofType, Schema.minimum, JsonType.of]

theorem accepts_boundedNatural {n : Nat} {greatest : Int} (h : (n : Int) ≤ greatest) :
    (Schemas.boundedNatural greatest).accepts (.int n) = true := by
  simp [Schemas.boundedNatural, Schema.keywords, Schema.ofType, Schema.minimum, Schema.maximum,
    JsonType.of, h]

theorem accepts_arrayOf {item : Schema} {f : α → Json} {xs : List α}
    (h : ∀ x ∈ xs, item.accepts (f x) = true) :
    (Schemas.arrayOf item).accepts (.arr (xs.map f)) = true := by
  simp only [Schemas.arrayOf, Schema.keywords, Schema.ofType, Schema.items, JsonType.of,
    List.all_cons, List.all_nil, Bool.and_true, beq_self_eq_true, Bool.true_and, List.all_eq_true]
  exact List.forall_mem_map.2 h

section
variable [UnicodeData]

/-- What the kernel relies on. -/
structure Graph.Sound (graph : Graph) : Prop where
  graphId : Schemas.digest.accepts (.str graph.graphId) = true
  tenantId : Schemas.tenantId.accepts (.str graph.tenantId) = true
  nodup : (graph.edges.map Edge.edgeId).Nodup
  valid : ∀ edge ∈ graph.edges, edge.Valid

theorem verifiedGraph_sound {v : Json} {graph : Graph} (hwf : v.wf = true)
    (h : verifiedGraph v = .ok graph) : graph.Sound := by
  unfold verifiedGraph at h
  obtain ⟨⟨⟩, hvalid, h⟩ := bind_eq_ok.1 h
  obtain ⟨expected, hexpected, h⟩ := bind_eq_ok.1 h
  obtain ⟨graphId, hgraphId, h⟩ := bind_eq_ok.1 h
  obtain ⟨-, h⟩ := ensure_bind_eq_ok.1 h
  obtain ⟨capabilities, -, h⟩ := bind_eq_ok.1 h
  obtain ⟨-, h⟩ := ensure_bind_eq_ok.1 h
  obtain ⟨tenantId, htenant, h⟩ := bind_eq_ok.1 h
  obtain ⟨nodes, -, h⟩ := bind_eq_ok.1 h
  obtain ⟨edges, hedges, h⟩ := bind_eq_ok.1 h
  obtain ⟨-, h⟩ := ensure_bind_eq_ok.1 h
  obtain ⟨-, h⟩ := ensure_bind_eq_ok.1 h
  obtain ⟨-, h⟩ := ensure_bind_eq_ok.1 h
  obtain ⟨hnodup, h⟩ := ensure_bind_eq_ok.1 h
  obtain ⟨-, h⟩ := ensure_bind_eq_ok.1 h
  obtain ⟨⟨⟩, -, h⟩ := bind_eq_ok.1 h
  obtain ⟨⟨⟩, -, h⟩ := bind_eq_ok.1 h
  cases h
  have haccepts := Schemas.validate_eq_ok.1 (mapError_eq_ok.1 hvalid)
  obtain ⟨items, hitems, hread⟩ := bind_eq_ok.1 (raising_eq_ok.1 hedges)
  have hget := Json.arrayItem_eq_ok.1 hitems
  have hencodable : (Json.arr items).encodable = true := by
    obtain ⟨b, hb, -⟩ := digestObject_eq_ok (raising_eq_ok.1 hexpected)
    have hedges : (v.pop (str "graph_id")).get? (str "edges") = some (.arr items) := by
      rw [Json.get?_pop hwf, if_neg (by simp [str_inj]), hget]
    exact encodable_of_get? (encodable_of_canonicalBytes hb) hedges
  refine ⟨?_, ?_, hnodup, ?_⟩
  · exact accepts_of_get? haccepts "graph_id" (by simp) (by simp)
      (Json.textItem_eq_ok.1 (raising_eq_ok.1 hgraphId))
  · exact accepts_of_get? haccepts "tenant_id" (by simp) (by simp)
      (Json.textItem_eq_ok.1 (raising_eq_ok.1 htenant))
  · intro edge hedge
    have harray := accepts_of_get? haccepts "edges" (by simp) (by simp; rfl) hget
    obtain ⟨ws, hws, hall⟩ := eq_arr_of_boundedArray harray
    cases hws
    rw [Json.encodable, Json.encodableItems_iff] at hencodable
    obtain ⟨w, hw, hread⟩ := exists_of_mem_right (mapM_eq_ok.1 hread) hedge
    exact readEdge_valid (hall w hw) (hencodable w hw) hread

/-- A graph document is verified when its parts are; its own identity always fits. -/
theorem verifiedGraph_fields {tenantId : Str} {nodes edges : List Json} {readNodes : List Node}
    {readEdges : List Edge}
    (hencodable : (Json.fields (graphCore tenantId nodes edges)).encodable = true)
    (htenant : Schemas.tenantId.accepts (.str tenantId) = true)
    (hnodes : (Schemas.boundedArray 10000 Schemas.synapseNode).accepts (.arr nodes) = true)
    (hedges : (Schemas.boundedArray 25000 Schemas.synapseEdge).accepts (.arr edges) = true)
    (hreadNodes : nodes.mapM readNode = .ok readNodes)
    (hreadEdges : edges.mapM readEdge = .ok readEdges)
    (hnodeOrder : (readNodes.map Node.nodeId).Pairwise (· < ·))
    (hedgeOrder : (readEdges.map Edge.edgeId).Pairwise (· < ·))
    (hnode : ∀ node ∈ readNodes, verifyNode tenantId node = .ok ())
    (hedge : ∀ edge ∈ readEdges, verifyEdge readNodes readEdges edge = .ok ()) :
    ∃ graphId, verifiedGraph (Json.fields (("graph_id", .str graphId) ::
      graphCore tenantId nodes edges)) = .ok ⟨graphId, tenantId, readNodes, readEdges⟩ := by
  obtain ⟨payload, hdigest⟩ := Schemas.digestObject_of_encodable hencodable
    (@validateDomain_of_ascii _ (str "synapse-graph-v1") (by decide) (by decide))
  refine ⟨sha256Digest payload, ?_⟩
  have hpop : (Json.fields (("graph_id", .str (sha256Digest payload)) ::
      graphCore tenantId nodes edges)).pop (str "graph_id") =
        Json.fields (graphCore tenantId nodes edges) := by
    rw [Json.pop_fields]
    simp [graphCore]
  have hlengths : readNodes.length ≤ 10000 ∧ readEdges.length ≤ 25000 := by
    rw [← (mapM_eq_ok.1 hreadNodes).length_eq, ← (mapM_eq_ok.1 hreadEdges).length_eq]
    exact ⟨(Schemas.accepts_boundedArray.1 hnodes).1, (Schemas.accepts_boundedArray.1 hedges).1⟩
  have haccepts : Schemas.synapseGraph.accepts (Json.fields
      (("graph_id", .str (sha256Digest payload)) :: graphCore tenantId nodes edges)) = true := by
    apply Schema.accepts_closed_fields.2
    refine ⟨by simp [graphCore], by simp [graphCore, List.lookup_cons], ?_⟩
    simp only [List.forall_mem_cons, List.not_mem_nil, false_imp_iff, implies_true, and_true]
    exact ⟨Schema.accepts_of_lookup rfl (Schemas.accepts_const _),
      Schema.accepts_of_lookup rfl (Schemas.accepts_sha256Digest _),
      Schema.accepts_of_lookup rfl htenant, Schema.accepts_of_lookup rfl hnodes,
      Schema.accepts_of_lookup rfl hedges, Schema.accepts_of_lookup rfl (by decide)⟩
  unfold verifiedGraph
  refine bind_eq_ok.2 ⟨(), mapError_eq_ok.2 (Schemas.validate_eq_ok.2 haccepts), ?_⟩
  refine bind_eq_ok.2 ⟨_, raising_eq_ok.2 (by rw [synapseGraphDigest, hpop, hdigest]), ?_⟩
  refine bind_eq_ok.2 ⟨_, raising_eq_ok.2 (Json.textItem_fields rfl), ?_⟩
  refine ensure_bind_eq_ok.2 ⟨rfl, ?_⟩
  refine bind_eq_ok.2 ⟨_, raising_eq_ok.2 (Json.item_fields rfl), ?_⟩
  refine ensure_bind_eq_ok.2 ⟨rfl, ?_⟩
  refine bind_eq_ok.2 ⟨_, raising_eq_ok.2 (Json.textItem_fields rfl), ?_⟩
  refine bind_eq_ok.2 ⟨readNodes, raising_eq_ok.2
    (bind_eq_ok.2 ⟨_, Json.arrayItem_fields rfl, hreadNodes⟩), ?_⟩
  refine bind_eq_ok.2 ⟨readEdges, raising_eq_ok.2
    (bind_eq_ok.2 ⟨_, Json.arrayItem_fields rfl, hreadEdges⟩), ?_⟩
  refine ensure_bind_eq_ok.2 ⟨hnodeOrder.imp fun h => h.le, ?_⟩
  refine ensure_bind_eq_ok.2 ⟨hedgeOrder.imp fun h => h.le, ?_⟩
  refine ensure_bind_eq_ok.2 ⟨hnodeOrder.imp fun h => h.ne, ?_⟩
  refine ensure_bind_eq_ok.2 ⟨hedgeOrder.imp fun h => h.ne, ?_⟩
  refine ensure_bind_eq_ok.2 ⟨hlengths, ?_⟩
  refine bind_eq_ok.2 ⟨(), forM_eq_ok.2 hnode, ?_⟩
  exact bind_eq_ok.2 ⟨(), forM_eq_ok.2 hedge, rfl⟩

theorem SynapseKernel.sound (kernel : SynapseKernel) : kernel.graph.Sound :=
  verifiedGraph_sound kernel.document.wf kernel.verified

end

end IntegrityGuardian.Synapse
