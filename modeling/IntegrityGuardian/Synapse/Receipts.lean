import IntegrityGuardian.Synapse.Search

/-!
# Route receipts

Where the routes of `plan_route` come from, what a receipt holds, and that the
receipt of a walk passes its schema.
-/

namespace IntegrityGuardian.Synapse

open Python Library

section
variable [UnicodeData] {graph : Graph} {context : SynapseContext} {targetNodeId : Str}

/-! ## Where routes come from -/

variable {route : Json}

theorem planRoute_eq_ok {kernel : SynapseKernel} {maxHops maxExpansions : Int}
    (h : planRoute kernel context targetNodeId maxHops maxExpansions = .ok route) :
    validateContext kernel.graph context = .ok () ∧
      targetNodeId ∈ kernel.graph.nodes.map Node.nodeId ∧
      ((targetNodeId = context.currentNodeId ∧
          routeReceipt kernel.graph context targetNodeId [] [context.currentNodeId] = .ok route) ∨
        (targetNodeId ≠ context.currentNodeId ∧ ∃ selected,
          directRoute kernel.graph context targetNodeId maxHops.toNat = some selected ∧
          routeReceipt kernel.graph context targetNodeId [selected.edgeId]
            [context.currentNodeId, targetNodeId] = .ok route) ∨
        (targetNodeId ≠ context.currentNodeId ∧
          directRoute kernel.graph context targetNodeId maxHops.toNat = none ∧
          ∃ entry bounded,
            planSearch kernel.graph context targetNodeId maxHops.toNat maxExpansions.toNat =
              .ok (.found entry bounded) ∧
            routeReceipt kernel.graph context targetNodeId entry.edgeIds entry.nodeIds =
              .ok route)) := by
  unfold planRoute at h
  obtain ⟨⟨⟩, hcontext, h⟩ := bind_eq_ok.1 h
  obtain ⟨htarget, h⟩ := ensure_bind_eq_ok.1 h
  obtain ⟨-, h⟩ := ensure_bind_eq_ok.1 h
  obtain ⟨-, h⟩ := ensure_bind_eq_ok.1 h
  refine ⟨hcontext, htarget, ?_⟩
  split at h
  · rename_i heq
    exact .inl ⟨heq, raising_eq_ok.1 h⟩
  · rename_i hne
    split at h
    · rename_i selected hdirect
      exact .inr (.inl ⟨hne, selected, hdirect, raising_eq_ok.1 h⟩)
    · rename_i hdirect
      obtain ⟨outcome, houtcome, h⟩ := bind_eq_ok.1 h
      cases outcome with
      | found entry bounded =>
        exact .inr (.inr ⟨hne, hdirect, entry, bounded, raising_eq_ok.1 houtcome,
          raising_eq_ok.1 h⟩)
      | exhausted bounded => cases h
      | clash => cases h
      | unfinished => cases h

theorem routeReceipt_eq_ok {edgeIds nodeIds : List Str}
    (h : routeReceipt graph context targetNodeId edgeIds nodeIds = .ok route) :
    ∃ edges digest routeId,
      selectedEdges graph edgeIds = .ok edges ∧ contextDigest context = .ok digest ∧
      digestObject (Json.fields (routeCore graph context targetNodeId edgeIds nodeIds edges digest))
        (str "synapse-route-v1") = .ok routeId ∧
      route = Json.fields (("route_id", .str routeId) ::
        routeCore graph context targetNodeId edgeIds nodeIds edges digest) ∧
      Schemas.synapseRoute.accepts route = true := by
  unfold routeReceipt at h
  obtain ⟨edges, hedges, h⟩ := bind_eq_ok.1 h
  obtain ⟨digest, hdigest, h⟩ := bind_eq_ok.1 h
  obtain ⟨routeId, hrouteId, h⟩ := bind_eq_ok.1 h
  obtain ⟨⟨⟩, hvalid, h⟩ := bind_eq_ok.1 h
  cases h
  exact ⟨edges, digest, routeId, hedges, hdigest, hrouteId, rfl, Schemas.validate_eq_ok.1 hvalid⟩

/-! ## Receipts of walks -/

omit [UnicodeData] in
theorem foldr_max_le {xs : List Nat} {most : Nat} (h : ∀ x ∈ xs, x ≤ most) :
    xs.foldr max 0 ≤ most := by
  induction xs with
  | nil => exact Nat.zero_le _
  | cons x xs ih =>
    obtain ⟨hx, hxs⟩ := List.forall_mem_cons.1 h
    exact max_le hx (ih hxs)

omit [UnicodeData] in
theorem accepts_scoreObject {edges : List Edge} (h : edges.length ≤ 32) :
    Schemas.routeScore.accepts (scoreObject (pathScore edges)) = true := by
  have hkind : (edges.map fun edge => edge.kind.rank).foldr max 0 ≤ 2 := by
    apply foldr_max_le
    intro x hx
    obtain ⟨edge, -, rfl⟩ := List.mem_map.1 hx
    cases edge.kind <;> decide
  have hblast : (edges.map fun edge => edge.blastRadius.rank).foldr max 0 ≤ 4 := by
    apply foldr_max_le
    intro x hx
    obtain ⟨edge, -, rfl⟩ := List.mem_map.1 hx
    cases edge.blastRadius <;> decide
  apply Schema.accepts_closed_fields.2
  refine ⟨by simp [pathScore], by simp [pathScore, List.lookup_cons], ?_⟩
  simp only [List.forall_mem_cons, List.not_mem_nil, false_imp_iff, implies_true, and_true]
  exact ⟨Schema.accepts_of_lookup rfl (accepts_boundedNatural (by exact_mod_cast hkind)),
    Schema.accepts_of_lookup rfl (accepts_boundedNatural (by exact_mod_cast hblast)),
    Schema.accepts_of_lookup rfl (accepts_natural _),
    Schema.accepts_of_lookup rfl (accepts_natural _),
    Schema.accepts_of_lookup rfl (accepts_natural _),
    Schema.accepts_of_lookup rfl (accepts_natural _),
    Schema.accepts_of_lookup rfl (accepts_natural _),
    Schema.accepts_of_lookup rfl (accepts_natural _),
    Schema.accepts_of_lookup rfl (accepts_natural _),
    Schema.accepts_of_lookup rfl (accepts_boundedNatural (by exact_mod_cast h))⟩

omit [UnicodeData] in
theorem encodable_scoreObject (score : Score) : (scoreObject score).encodable = true := by
  apply Json.encodable_fields
  rintro ⟨key, v⟩ hf
  obtain ⟨n, -, rfl⟩ := List.mem_map.1 (List.of_mem_zip hf).2
  rfl

/-- The receipt of a walk of at most 32 edges, every required verifier of which is
named. -/
theorem routeReceipt_returns (hsound : graph.Sound) (htenant : context.tenantId = graph.tenantId)
    (hstart : Schemas.nodeId.accepts (.str context.currentNodeId) = true)
    (htarget : Schemas.nodeId.accepts (.str targetNodeId) = true) {digest : Str}
    (hdigest : contextDigest context = .ok digest) {edges : List Edge}
    (hmem : ∀ edge ∈ edges, edge ∈ graph.edges) (hlength : edges.length ≤ 32)
    (hverifiers : ∀ edge ∈ edges, edge.verifierRequired = true → edge.verifierId ≠ none) :
    ∃ route, routeReceipt graph context targetNodeId (edges.map Edge.edgeId)
      (context.currentNodeId :: edges.map Edge.toNodeId) = .ok route := by
  have hcontext : Schemas.digest.accepts (.str digest) = true := by
    obtain ⟨b, -, rfl⟩ := digestObject_eq_ok hdigest
    exact Schemas.accepts_sha256Digest _
  have hvalid : ∀ edge ∈ edges, edge.Valid := fun edge hedge => hsound.valid edge (hmem edge hedge)
  have hnodes : ∀ nodeId ∈ context.currentNodeId :: edges.map Edge.toNodeId,
      Schemas.nodeId.accepts (.str nodeId) = true := by
    rw [List.forall_mem_cons, List.forall_mem_map]
    exact ⟨hstart, fun edge hedge => (hvalid edge hedge).toNodeId⟩
  have hedges : ∀ edgeId ∈ edges.map Edge.edgeId,
      Schemas.edgeId.accepts (.str edgeId) = true := by
    rw [List.forall_mem_map]
    exact fun edge hedge => (hvalid edge hedge).edgeId
  have hverifier : ∀ edge ∈ edges.filter fun edge => edge.verifierRequired,
      Schemas.id.accepts (Json.ofOptionalText edge.verifierId) = true := by
    intro edge hedge
    obtain ⟨hedge, hneeded⟩ := List.mem_filter.1 hedge
    have hoptional := (hvalid edge hedge).verifierId
    obtain ⟨verifierId, hverifierId⟩ := Option.ne_none_iff_exists'.1 (hverifiers edge hedge hneeded)
    rw [hverifierId] at hoptional ⊢
    cases haccepts : Schemas.id.accepts (.str verifierId) with
    | true => exact haccepts
    | false =>
      simp [Schemas.optionalId, Schema.oneOf, Json.ofOptionalText, haccepts, Schema.ofType,
        JsonType.of] at hoptional
  have hrollbacks : ∀ edgeId ∈ edges.reverse.filterMap fun edge => edge.rollbackEdgeId,
      Schemas.edgeId.accepts (.str edgeId) = true := by
    intro edgeId hedgeId
    obtain ⟨edge, hedge, hrollback⟩ := List.mem_filterMap.1 hedgeId
    have hoptional := (hvalid edge (List.mem_reverse.1 hedge)).rollbackEdgeId
    rw [hrollback] at hoptional
    cases haccepts : Schemas.edgeId.accepts (.str edgeId) with
    | true => rfl
    | false =>
      simp [Schemas.optionalEdgeId, Schema.oneOf, Json.ofOptionalText, haccepts, Schema.ofType,
        JsonType.of] at hoptional
  have hencodable : (Json.fields (routeCore graph context targetNodeId (edges.map Edge.edgeId)
      (context.currentNodeId :: edges.map Edge.toNodeId) edges digest)).encodable = true := by
    apply Json.encodable_fields
    simp only [routeCore, List.forall_mem_cons, List.not_mem_nil, false_imp_iff, implies_true,
      and_true]
    refine ⟨by decide, encodable_of_digest hsound.graphId,
      encodable_of_tenantId (htenant ▸ hsound.tenantId), encodable_of_digest hcontext,
      encodable_of_nodeId hstart, encodable_of_nodeId htarget,
      encodable_arr_map fun edgeId h => encodable_of_edgeId (hedges edgeId h),
      encodable_arr_map fun nodeId h => encodable_of_nodeId (hnodes nodeId h),
      encodable_scoreObject _, encodable_arr_map ?_,
      encodable_arr_map fun edgeId h => encodable_of_edgeId (hrollbacks edgeId h), rfl, rfl⟩
    intro edge hedge
    obtain ⟨t, ht⟩ := eq_str_of_id (hverifier edge hedge)
    have haccepts := hverifier edge hedge
    rw [ht] at haccepts ⊢
    exact Schemas.encodable_of_id haccepts
  obtain ⟨payload, hrouteId⟩ := Schemas.digestObject_of_encodable hencodable
    (@validateDomain_of_ascii _ (str "synapse-route-v1") (by decide) (by decide))
  have haccepts : Schemas.synapseRoute.accepts (Json.fields (("route_id",
      .str (sha256Digest payload)) :: routeCore graph context targetNodeId (edges.map Edge.edgeId)
        (context.currentNodeId :: edges.map Edge.toNodeId) edges digest)) = true := by
    apply Schema.accepts_closed_fields.2
    refine ⟨by simp [routeCore], by simp [routeCore, List.lookup_cons], ?_⟩
    simp only [List.forall_mem_cons, List.not_mem_nil, false_imp_iff, implies_true, and_true]
    refine ⟨Schema.accepts_of_lookup rfl (Schemas.accepts_const _),
      Schema.accepts_of_lookup rfl (Schemas.accepts_sha256Digest _),
      Schema.accepts_of_lookup rfl hsound.graphId,
      Schema.accepts_of_lookup rfl (htenant ▸ hsound.tenantId),
      Schema.accepts_of_lookup rfl hcontext, Schema.accepts_of_lookup rfl hstart,
      Schema.accepts_of_lookup rfl htarget,
      Schema.accepts_of_lookup rfl (Schemas.accepts_boundedArray.2 ⟨by simpa using hlength,
        List.forall_mem_map.2 hedges⟩),
      Schema.accepts_of_lookup rfl ?_, Schema.accepts_of_lookup rfl (accepts_scoreObject hlength),
      Schema.accepts_of_lookup rfl (accepts_arrayOf hverifier),
      Schema.accepts_of_lookup rfl (accepts_arrayOf hrollbacks),
      Schema.accepts_of_lookup rfl (by decide), Schema.accepts_of_lookup rfl rfl⟩
    simp only [Schema.keywords, Schema.ofType, Schema.minItems, Schema.maxItems, Schema.items,
      JsonType.of, List.all_cons, List.all_nil, Bool.and_true, Bool.and_eq_true,
      decide_eq_true_eq, beq_self_eq_true, true_and, List.all_eq_true]
    refine ⟨by simp, ?_, List.forall_mem_map.2 hnodes⟩
    rw [List.length_map, List.length_cons, List.length_map]
    omega
  refine ⟨Json.fields (("route_id", .str (sha256Digest payload)) :: routeCore graph context
    targetNodeId (edges.map Edge.edgeId) (context.currentNodeId :: edges.map Edge.toNodeId) edges
    digest), ?_⟩
  unfold routeReceipt
  refine bind_eq_ok.2 ⟨edges, selectedEdges_map hsound hmem, ?_⟩
  refine bind_eq_ok.2 ⟨digest, hdigest, ?_⟩
  refine bind_eq_ok.2 ⟨_, hrouteId, ?_⟩
  exact bind_eq_ok.2 ⟨(), Schemas.validate_eq_ok.2 haccepts, rfl⟩

end

end IntegrityGuardian.Synapse
