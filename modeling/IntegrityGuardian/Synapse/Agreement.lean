import IntegrityGuardian.Synapse.Replay
import IntegrityGuardian.Synapse.BestRoute

/-!
# Planner and simulator agree

A planned route is the receipt of a compliant walk, so the simulator accepts it.
A search that ends without an answer and within its bound has kept, for every
compliant walk, an entry of the same node and length with the same facts; the
states are told apart by the digests of their facts, so this is where SHA-256
must not collide on them.
-/

namespace IntegrityGuardian.Synapse

open Python Library

section
variable [UnicodeData]

/-! ## Facts and their digests -/

/-- The messages hashed for the facts of compliant walks within the hop bound. -/
def factFrames (graph : Graph) (context : SynapseContext) (maxHops : Nat) : Set Bytes :=
  {m | ∃ edges nodeId facts b, edges.length ≤ maxHops ∧
    Compliant graph context edges nodeId facts ∧ canonicalBytes (factsJson facts) = .ok b ∧
    m = digestPrefix (str "synapse-facts-v1") ++ b}

variable {graph : Graph} {context : SynapseContext} {targetNodeId : Str} {maxHops : Nat}

omit [UnicodeData] in
theorem get?_factsJson (facts : Facts) (key : Str) : (factsJson facts).get? key = facts[key]? := by
  ext v
  show facts.toList.lookup key = some v ↔ _
  rw [Json.lookup_eq_some_iff_mem (Dict.keys_toList_nodup facts), Dict.mem_toList]

theorem factsAlike_of_digest (hsound : graph.Sound)
    (hsha : Set.InjOn sha256 (factFrames graph context maxHops)) {edges edges' : List Edge}
    {nodeId nodeId' digest : Str} {facts facts' : Facts} (hle : edges.length ≤ maxHops)
    (hle' : edges'.length ≤ maxHops) (h : Compliant graph context edges nodeId facts)
    (h' : Compliant graph context edges' nodeId' facts') (hdigest : factsDigest facts = .ok digest)
    (hdigest' : factsDigest facts' = .ok digest) : FactsAlike facts facts' := by
  obtain ⟨b, hb, hd⟩ := digestObject_eq_ok hdigest
  obtain ⟨b', hb', hd'⟩ := digestObject_eq_ok hdigest'
  have hhash := sha256Digest_inj (hd.symm.trans hd')
  have hframes := hsha ⟨edges, nodeId, facts, b, hle, h, hb, rfl⟩
    ⟨edges', nodeId', facts', b', hle', h', hb', rfl⟩ hhash
  have hbytes : b = b' := List.append_cancel_left hframes
  subst hbytes
  have hwf := wf_factsJson (h.canonicalFacts hsound)
  have hwf' := wf_factsJson (h'.canonicalFacts hsound)
  have hsorted := sortKeys_eq_of_canonicalBytes_eq hwf hwf' hb hb'
  intro key
  rw [← get?_factsJson, ← get?_factsJson]
  exact Json.map_get?_of_sortKeys_eq hwf hwf' hsorted key

omit [UnicodeData] in
theorem FactsAlike.trans {facts₁ facts₂ facts₃ : Facts} (h : FactsAlike facts₁ facts₂)
    (h' : FactsAlike facts₂ facts₃) : FactsAlike facts₁ facts₃ :=
  fun key => (h key).trans (h' key)

/-! ## A search without an answer -/

/-- Every compliant walk within the hop bound is matched by a kept entry. -/
theorem exists_kept_of_exhausted (hsound : graph.Sound)
    (hsha : Set.InjOn sha256 (factFrames graph context maxHops)) {maxExpansions : Nat}
    (h : planSearch graph context targetNodeId maxHops maxExpansions = .ok (.exhausted false))
    {edges : List Edge} {nodeId : Str} {facts : Facts} (hle : edges.length ≤ maxHops)
    (hcompliant : Compliant graph context edges nodeId facts) :
    ∃ depth entry, BestFirst.Kept (planSpace graph context targetNodeId maxHops)
        (startEntry context) depth entry ∧ entry.nodeId = nodeId ∧
      FactsAlike facts entry.facts ∧ entry.depth = edges.length := by
  have hseen := BestFirst.search_exhausted (planSpace_lawful hsound) h
  -- The induction is on the last edge of the walk.
  induction edges using List.reverseRecOn generalizing nodeId facts with
  | nil =>
    cases hcompliant.walk
    exact ⟨0, startEntry context, rfl, rfl, fun _ => rfl, rfl⟩
  | append_singleton edges edge ih =>
    rw [List.length_append, List.length_singleton] at hle
    obtain ⟨hedge, rfl, facts₀, hprefix, hmove⟩ := compliant_snoc.1 hcompliant
    obtain ⟨depth, parent, hkept, hnode, halike, hdepth⟩ := ih (Nat.le_of_succ_le hle) hprefix
    have hopen : (planSpace graph context targetNodeId maxHops).closed parent = false :=
      decide_eq_false (by omega)
    obtain ⟨entries, hchildren, hentries⟩ := (hseen depth parent hkept).2 hopen
    obtain ⟨walked, hparent⟩ := exists_represents hsound hkept.reach
    obtain ⟨next, hnext, hnextAlike⟩ := move_congr halike hmove
    have hstep : (edge, next) ∈ moves graph context parent.nodeId parent.facts :=
      mem_moves.2 ⟨hedge, hnode.symm, hnext⟩
    obtain ⟨child, hchild, hextend⟩ := exists_of_mem_left (children_eq_ok.1 hchildren) hstep
    obtain ⟨hrepresents, hdigest⟩ :=
      (extend_eq_ok hsound hparent hedge hnode.symm hnext).1 hextend
    obtain ⟨depth', entry, hkept', hstate⟩ := hentries child hchild
    obtain ⟨walked', hentry⟩ := exists_represents hsound hkept'.reach
    have hstates := congrArg ofLex hstate
    have hnode' : entry.nodeId = child.nodeId := congrArg (fun s => s.1) hstates
    have hdigest' : entry.digest = child.digest :=
      congrArg (fun s => (ofLex s.2).1) hstates
    have hdepth' : entry.depth = child.depth := congrArg (fun s => (ofLex s.2).2) hstates
    have hfinal := hrepresents.compliant.walk
    obtain ⟨facts₁, -, hlast, hto⟩ := walk_snoc_eq_some.1 hfinal
    have hlength : walked.length = parent.depth := hparent.depth.symm
    have hchildDepth : child.depth = walked.length + 1 := by
      rw [hrepresents.depth, List.length_append, List.length_singleton]
    have hwalked' : walked'.length = edges.length + 1 := by
      rw [← hentry.depth]
      omega
    have hentryDigest : factsDigest entry.facts = .ok child.digest := by
      have hfacts := hentry.digest
      rw [if_neg (List.ne_nil_of_length_eq_add_one hwalked'), hdigest'] at hfacts
      exact hfacts
    have hchildFacts : child.facts = next := by
      obtain ⟨edges', -, hextend⟩ := bind_eq_ok.1 hextend
      obtain ⟨digest, -, hextend⟩ := bind_eq_ok.1 hextend
      cases hextend
      rfl
    have hsame : FactsAlike child.facts entry.facts :=
      factsAlike_of_digest hsound hsha
        (by rw [List.length_append, List.length_singleton]; omega) (by omega)
        hrepresents.compliant hentry.compliant (hchildFacts ▸ hdigest) hentryDigest
    refine ⟨depth', entry, hkept', hnode'.trans hto.symm, ?_, ?_⟩
    · exact hnextAlike.trans (hchildFacts ▸ hsame)
    · rw [List.length_append, List.length_singleton]
      omega

theorem no_route_of_exhausted (hsound : graph.Sound)
    (hsha : Set.InjOn sha256 (factFrames graph context maxHops)) {maxExpansions : Nat}
    (h : planSearch graph context targetNodeId maxHops maxExpansions = .ok (.exhausted false))
    (edges : List Edge) : ¬RouteTo graph context targetNodeId maxHops edges := by
  rintro ⟨hle, facts, hcompliant⟩
  obtain ⟨depth, entry, hkept, hnode, -, -⟩ :=
    exists_kept_of_exhausted hsound hsha h hle hcompliant
  have hgoal := (BestFirst.search_exhausted (planSpace_lawful hsound) h depth entry hkept).1
  simp [planSpace, hnode] at hgoal

theorem planSearch_ends (hsound : graph.Sound) (maxExpansions : Nat) :
    planSearch graph context targetNodeId maxHops maxExpansions ≠ .ok .clash ∧
      planSearch graph context targetNodeId maxHops maxExpansions ≠ .ok .unfinished := by
  refine ⟨BestFirst.search_no_clash (planSpace_lawful hsound), ?_⟩
  apply @BestFirst.search_finishes _ _ _ _ _ _ _ graph.edges.length
  · intro parent entries hchildren
    rw [← (children_eq_ok.1 hchildren).length_eq]
    exact length_moves_le parent.nodeId parent.facts
  · rw [List.length_singleton, Nat.sub_zero]
    omega

/-! ## Planned routes -/

omit [UnicodeData] in
theorem directRoute_eq_some {selected : Edge}
    (h : directRoute graph context targetNodeId maxHops = some selected) :
    ∃ facts, Compliant graph context [selected] targetNodeId facts := by
  unfold directRoute at h
  split at h
  · split at h
    · rename_i edge hargmin
      split at h
      · cases h
        obtain ⟨hdirect, hmove⟩ := List.mem_filter.1 (List.argmin_mem hargmin)
        obtain ⟨facts, hfacts⟩ := Option.isSome_iff_exists.1 hmove
        rw [direct, (List.perm_insertionSort _ _).mem_iff] at hdirect
        have hedge := List.mem_filter.1 hdirect
        have hends : selected.fromNodeId = context.currentNodeId ∧
            selected.toNodeId = targetNodeId := by simpa using hedge.2
        have hsnoc : Compliant graph context ([] ++ [selected]) targetNodeId facts :=
          compliant_snoc.2 ⟨hedge.1, hends.2, context.facts,
            hends.1 ▸ Compliant.nil graph context, hfacts⟩
        exact ⟨facts, hsnoc⟩
      · cases h
    · cases h
  · cases h

variable {maxHops : Int} {route : Json} {kernel : SynapseKernel}

theorem planRoute_is_walk {maxExpansions : Int}
    (h : planRoute kernel context targetNodeId maxHops maxExpansions = .ok route) :
    ∃ edges facts, Compliant kernel.graph context edges targetNodeId facts ∧
      routeReceipt kernel.graph context targetNodeId (edges.map Edge.edgeId)
        (context.currentNodeId :: edges.map Edge.toNodeId) = .ok route := by
  obtain ⟨-, -, ⟨heq, hreceipt⟩ | ⟨-, selected, hselected, hreceipt⟩ |
    ⟨-, -, entry, bounded, hsearch, hreceipt⟩⟩ := planRoute_eq_ok h
  · exact ⟨[], context.facts, heq ▸ Compliant.nil kernel.graph context, hreceipt⟩
  · obtain ⟨facts, hcompliant⟩ := directRoute_eq_some hselected
    refine ⟨[selected], facts, hcompliant, ?_⟩
    have hto : selected.toNodeId = targetNodeId := (compliant_snoc.1
      (show Compliant kernel.graph context ([] ++ [selected]) _ _ from hcompliant)).2.1
    rw [List.map_singleton, List.map_singleton, hto]
    exact hreceipt
  · obtain ⟨hreach, hgoal⟩ := BestFirst.search_sound _ _ _ _ _ (by
      intro q hq
      rw [List.mem_singleton.1 hq]
      exact .root) hsearch
    obtain ⟨edges, hentry⟩ := exists_represents kernel.sound hreach
    have hnode : entry.nodeId = targetNodeId := by simpa [planSpace] using hgoal
    refine ⟨edges, entry.facts, hnode ▸ hentry.compliant, ?_⟩
    rw [← hentry.edgeIds, ← hentry.nodeIds]
    exact hreceipt

/-- The message of a search without an answer. -/
def noRoute : Error := .route (str "no policy-compliant route within bounded search")

theorem planRoute_eq_noRoute {maxExpansions : Int}
    (h : planRoute kernel context targetNodeId maxHops maxExpansions = .error noRoute) :
    ∃ bounded, planSearch kernel.graph context targetNodeId maxHops.toNat maxExpansions.toNat =
      .ok (.exhausted bounded) := by
  have hraising : ∀ {α : Type} {x : Except Exc α}, raising x ≠ .error noRoute := by
    intro α x hx
    cases x <;> cases hx
  have hensure : ∀ {c : Prop} [Decidable c] {e : Error}, e ≠ noRoute →
      ensure c e ≠ .error noRoute := by
    intro c _ e hne h
    unfold ensure at h
    split at h
    · cases h
    · exact hne (Except.error.inj h)
  unfold planRoute at h
  rcases bind_eq_error.1 h with h | ⟨-, -, h⟩
  · unfold validateContext at h
    rcases bind_eq_error.1 h with h | ⟨-, -, h⟩
    · exact absurd h (hensure (by decide))
    · exact absurd h (hensure (by decide))
  rcases bind_eq_error.1 h with h | ⟨-, -, h⟩
  · exact absurd h (hensure (by decide))
  rcases bind_eq_error.1 h with h | ⟨-, -, h⟩
  · exact absurd h (hensure (by decide))
  rcases bind_eq_error.1 h with h | ⟨-, -, h⟩
  · exact absurd h (hensure (by decide))
  split at h
  · exact absurd h hraising
  · split at h
    · exact absurd h hraising
    · rcases bind_eq_error.1 h with h | ⟨outcome, houtcome, h⟩
      · exact absurd h hraising
      · cases outcome with
        | found entry bounded => exact absurd h hraising
        | exhausted bounded => exact ⟨bounded, raising_eq_ok.1 houtcome⟩
        | clash => cases h
        | unfinished => cases h

theorem compliant_of_simulateRoute {simulation : Json}
    {edgeIds : List Str} (h : simulateRoute kernel context route = .ok simulation)
    (hedgeIds : readArray Json.asText route (str "edge_ids") = .ok edgeIds)
    (htarget : route.textItem (str "target_node_id") = .ok targetNodeId) :
    ∃ edges facts, edges.map Edge.edgeId = edgeIds ∧
      Compliant kernel.graph context edges targetNodeId facts := by
  unfold simulateRoute at h
  obtain ⟨⟨⟩, -, h⟩ := bind_eq_ok.1 h
  obtain ⟨⟨⟩, -, h⟩ := bind_eq_ok.1 h
  obtain ⟨routeId, -, h⟩ := bind_eq_ok.1 h
  obtain ⟨expectedId, -, h⟩ := bind_eq_ok.1 h
  obtain ⟨-, h⟩ := ensure_bind_eq_ok.1 h
  obtain ⟨graphId, -, h⟩ := bind_eq_ok.1 h
  obtain ⟨-, h⟩ := ensure_bind_eq_ok.1 h
  obtain ⟨tenantId, -, h⟩ := bind_eq_ok.1 h
  obtain ⟨-, h⟩ := ensure_bind_eq_ok.1 h
  obtain ⟨routeContext, -, h⟩ := bind_eq_ok.1 h
  obtain ⟨digest, -, h⟩ := bind_eq_ok.1 h
  obtain ⟨-, h⟩ := ensure_bind_eq_ok.1 h
  obtain ⟨startNodeId, -, h⟩ := bind_eq_ok.1 h
  obtain ⟨-, h⟩ := ensure_bind_eq_ok.1 h
  obtain ⟨edgeIds', hedgeIds', h⟩ := bind_eq_ok.1 h
  obtain ⟨nodeIds, -, h⟩ := bind_eq_ok.1 h
  obtain ⟨-, h⟩ := ensure_bind_eq_ok.1 h
  obtain ⟨-, h⟩ := ensure_bind_eq_ok.1 h
  obtain ⟨target', htarget', h⟩ := bind_eq_ok.1 h
  obtain ⟨expected, -, h⟩ := bind_eq_ok.1 h
  obtain ⟨candidateBytes, -, h⟩ := bind_eq_ok.1 h
  obtain ⟨expectedBytes, -, h⟩ := bind_eq_ok.1 h
  obtain ⟨-, h⟩ := ensure_bind_eq_ok.1 h
  obtain ⟨start, -, h⟩ := bind_eq_ok.1 h
  obtain ⟨⟨trace, lastNodeId, lastFacts⟩, hedges, h⟩ := bind_eq_ok.1 h
  obtain ⟨hlast, -⟩ := ensure_bind_eq_ok.1 h
  rw [raising_eq_ok, hedgeIds] at hedgeIds'
  cases hedgeIds'
  rw [raising_eq_ok, htarget] at htarget'
  cases htarget'
  subst hlast
  obtain ⟨edges, hmem, hids, hwalk⟩ := walk_of_simulateEdges hedges
  exact ⟨edges, lastFacts, hids, hmem, hwalk⟩

/-- Every planned route is accepted by the simulator in the same context and ends
at its target; and where a search within its bound finds no route, the simulator
accepts no receipt to that target within the hop bound, provided SHA-256 does not
collide on the facts of the walks there are. -/
theorem planner_simulator_agree (kernel : SynapseKernel) (context : SynapseContext)
    (targetNodeId : Str) (maxHops maxExpansions : Int) :
    (planSearch kernel.graph context targetNodeId maxHops.toNat maxExpansions.toNat ≠ .ok .clash ∧
      planSearch kernel.graph context targetNodeId maxHops.toNat maxExpansions.toNat ≠
        .ok .unfinished) ∧
      (∀ route, planRoute kernel context targetNodeId maxHops maxExpansions = .ok route →
        route.get? (str "target_node_id") = some (.str targetNodeId) ∧
        ∃ simulation, simulateRoute kernel context route = .ok simulation ∧
          simulation.get? (str "target_node_id") = some (.str targetNodeId)) ∧
      (Set.InjOn sha256 (factFrames kernel.graph context maxHops.toNat) →
        planRoute kernel context targetNodeId maxHops maxExpansions = .error noRoute →
        (planSearch kernel.graph context targetNodeId maxHops.toNat
          maxExpansions.toNat).map BestFirst.Outcome.bounded = .ok false →
        ∀ route edgeIds, route.textItem (str "target_node_id") = .ok targetNodeId →
          readArray Json.asText route (str "edge_ids") = .ok edgeIds →
          edgeIds.length ≤ maxHops.toNat →
          ∀ simulation, simulateRoute kernel context route ≠ .ok simulation) := by
  refine ⟨planSearch_ends kernel.sound _, ?_, ?_⟩
  · intro route hplan
    obtain ⟨edges, facts, hcompliant, hreceipt⟩ := planRoute_is_walk hplan
    exact simulateRoute_of_receipt (planRoute_eq_ok hplan).1 hcompliant hreceipt
  · intro hsha hplan hbound route edgeIds htarget hedgeIds hlength simulation hsimulate
    obtain ⟨bounded, hsearch⟩ := planRoute_eq_noRoute hplan
    rw [hsearch] at hbound
    cases hbound
    obtain ⟨edges, facts, rfl, hcompliant⟩ := compliant_of_simulateRoute hsimulate hedgeIds htarget
    rw [List.length_map] at hlength
    exact no_route_of_exhausted kernel.sound hsha hsearch edges ⟨hlength, facts, hcompliant⟩

end

/-! ## The shortcut again -/

namespace Shortcut

attribute [local instance] asciiUnicodeData

variable {graph : Graph}

theorem facts_unchanged (hedges : graph.edges = [fast, slow, last])
    {edges : List Edge} {nodeId : Str} {facts : Facts}
    (h : Compliant graph context edges nodeId facts) : facts = ∅ := by
  induction edges using List.reverseRecOn generalizing nodeId facts with
  | nil =>
    cases h.walk
    rfl
  | append_singleton edges edge ih =>
    obtain ⟨hedge, -, facts', hprefix, hmove⟩ := compliant_snoc.1 h
    have happly := (move_eq_some.1 hmove).2
    have hnone : edge.postconditions = [] := by
      rw [hedges] at hedge
      simp only [List.mem_cons, List.not_mem_nil, or_false] at hedge
      rcases hedge with rfl | rfl | rfl <;> rfl
    rw [hnone, ih hprefix] at happly
    exact (Option.some.inj happly).symm

theorem factFrames_injOn (hedges : graph.edges = [fast, slow, last])
    (maxHops : Nat) : Set.InjOn sha256 (factFrames graph context maxHops) := by
  rintro m ⟨edges, nodeId, facts, b, -, h, hb, rfl⟩ m' ⟨edges', nodeId', facts', b', -, h', hb',
    rfl⟩ -
  rw [facts_unchanged hedges h] at hb
  rw [facts_unchanged hedges h', hb] at hb'
  cases hb'
  rfl

/-- With two hops the planned route is simulated; with one hop there is none, and the
simulator accepts none. -/
theorem planned_and_simulated :
    ∃ kernel : SynapseKernel,
      (∃ route simulation, planRoute kernel context target 2 8 = .ok route ∧
        simulateRoute kernel context route = .ok simulation) ∧
      planRoute kernel context target 1 8 = .error noRoute ∧
      ∀ route edgeIds, route.textItem (str "target_node_id") = .ok target →
        readArray Json.asText route (str "edge_ids") = .ok edgeIds → edgeIds.length ≤ 1 →
        ∀ simulation, simulateRoute kernel context route ≠ .ok simulation := by
  obtain ⟨kernel, htenant, hnodes, hedges⟩ := exists_kernel
  obtain ⟨hne, hdirect, -, route, hroute, -⟩ := planned htenant hnodes hedges
  obtain ⟨-, simulation, hsimulation, -⟩ :=
    (planner_simulator_agree kernel context target 2 8).2.1 route hroute
  obtain ⟨-, -, -, -, -, -, -, -, -, -, -, -, -, hnone⟩ := evaluated
  have hexhausted : planSearch kernel.graph context target 1 8 = .ok (.exhausted false) := by
    have hends := @planSearch_ends _ kernel.graph context target 1 kernel.sound 8
    rw [@planSearch_congr _ kernel.graph graph hedges] at hends ⊢
    cases houtcome : planSearch graph context target 1 8 with
    | error e =>
      rw [houtcome] at hnone
      cases hnone
    | ok outcome =>
      rw [houtcome] at hnone hends
      cases outcome with
      | found entry bounded => cases hnone
      | exhausted bounded =>
        cases bounded with
        | false => rfl
        | true => cases hnone
      | clash => exact absurd rfl hends.1
      | unfinished => exact absurd rfl hends.2
  have hdirect' : directRoute kernel.graph context target (1 : Int).toNat = none := hdirect
  have hplan : planRoute kernel context target 1 8 = .error noRoute := by
    unfold planRoute
    refine bind_eq_error.2 (.inr ⟨(), ?_, ?_⟩)
    · refine ensure_bind_eq_ok.2 ⟨htenant.symm, ensure_of ?_ _⟩
      rw [hnodes]
      simp [readNodes, context]
    · refine bind_eq_error.2 (.inr ⟨(), ensure_of (by rw [hnodes]; simp [readNodes]) _, ?_⟩)
      refine bind_eq_error.2 (.inr ⟨(), ensure_of (by decide) _, ?_⟩)
      refine bind_eq_error.2 (.inr ⟨(), ensure_of (by decide) _, ?_⟩)
      rw [if_neg (show ¬target = context.currentNodeId from hne), hdirect']
      exact bind_eq_error.2 (.inr ⟨_, raising_eq_ok.2 hexhausted, rfl⟩)
  refine ⟨kernel, ⟨route, simulation, hroute, hsimulation⟩, hplan, ?_⟩
  refine (planner_simulator_agree kernel context target 1 8).2.2 (factFrames_injOn hedges 1) hplan ?_
  show (planSearch kernel.graph context target 1 8).map _ = _
  rw [hexhausted]
  rfl

end Shortcut

end IntegrityGuardian.Synapse
