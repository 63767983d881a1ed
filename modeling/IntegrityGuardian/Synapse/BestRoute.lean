import IntegrityGuardian.Synapse.Receipts

/-!
# Which routes `plan_route` returns

The search compares walks that end in one state by their scores.  A score mixes
maxima and sums, so an extension can turn the order of two walks around, and the
walk that was passed over may be the one whose extension scores lower.  The
answer is therefore the best route exactly when a best route survives.
-/

namespace IntegrityGuardian.Synapse

open Python Library

section
variable [UnicodeData]

/-- A policy-compliant walk from the current node to a target. -/
def RouteTo (graph : Graph) (context : SynapseContext) (targetNodeId : Str) (maxHops : Nat)
    (edges : List Edge) : Prop :=
  edges.length ≤ maxHops ∧ ∃ facts, Compliant graph context edges targetNodeId facts

/-- No route to the target scores lower. -/
def BestScore (graph : Graph) (context : SynapseContext) (targetNodeId : Str) (maxHops : Nat)
    (edges : List Edge) : Prop :=
  ∀ edges', RouteTo graph context targetNodeId maxHops edges' →
    ¬pathScore edges' < pathScore edges

/-- At every step of the walk, no walk of the same length that is offered before
and ends in the same node with the same facts digest has a score and edge
identities no greater. -/
def Survives (graph : Graph) (context : SynapseContext) (targetNodeId : Str) (maxHops : Nat)
    (edges : List Edge) : Prop :=
  ∃ depth entry, BestFirst.Kept (planSpace graph context targetNodeId maxHops)
    (startEntry context) depth entry ∧ entry.edgeIds = edges.map Edge.edgeId

variable {graph : Graph} {context : SynapseContext} {targetNodeId : Str} {maxHops : Nat}

variable {entry : Candidate} {edges : List Edge} {depth : Nat}

theorem depth_le_of_kept
    (h : BestFirst.Kept (planSpace graph context targetNodeId maxHops) (startEntry context) depth
      entry) : entry.depth ≤ maxHops := by
  cases depth with
  | zero =>
    rw [show entry = startEntry context from h]
    exact Nat.zero_le _
  | succ depth =>
    obtain ⟨parent, before, after, -, hbranches, hchildren, -⟩ := h
    have hopen : ¬maxHops ≤ parent.depth := by simpa [planSpace] using hbranches.2
    obtain ⟨step, -, hextend⟩ := exists_of_mem_right (children_eq_ok.1 hchildren)
      (show entry ∈ before ++ entry :: after by simp)
    obtain ⟨edges, -, hextend⟩ := bind_eq_ok.1 hextend
    obtain ⟨digest, -, hextend⟩ := bind_eq_ok.1 hextend
    cases hextend
    exact Nat.lt_of_not_le hopen

theorem routeTo_of_kept
    (hkept : BestFirst.Kept (planSpace graph context targetNodeId maxHops) (startEntry context)
      depth entry) (hgoal : (planSpace graph context targetNodeId maxHops).goal entry = true)
    (hentry : Represents graph context entry edges) :
    RouteTo graph context targetNodeId maxHops edges := by
  have hnode : entry.nodeId = targetNodeId := by simpa [planSpace] using hgoal
  refine ⟨?_, entry.facts, hnode ▸ hentry.compliant⟩
  rw [← hentry.depth]
  exact depth_le_of_kept hkept

theorem kept_of_survives (hsound : graph.Sound)
    (hroute : RouteTo graph context targetNodeId maxHops edges)
    (h : Survives graph context targetNodeId maxHops edges) :
    ∃ depth entry, BestFirst.Kept (planSpace graph context targetNodeId maxHops)
        (startEntry context) depth entry ∧
      (planSpace graph context targetNodeId maxHops).goal entry = true ∧
      Represents graph context entry edges := by
  obtain ⟨depth, entry, hkept, hids⟩ := h
  obtain ⟨facts, hcompliant⟩ := hroute.2
  obtain ⟨edges', hentry⟩ := exists_represents hsound hkept.reach
  have hsame := edges_eq_of_ids hsound hentry.compliant.mem hcompliant.mem
    (hentry.edgeIds.symm.trans hids)
  subst hsame
  have hwalk := hentry.compliant.walk.symm.trans hcompliant.walk
  have hnode : entry.nodeId = targetNodeId := (Prod.mk.inj (Option.some.inj hwalk)).1
  exact ⟨depth, entry, hkept, by simp [planSpace, hnode], hentry⟩

theorem best_iff_survives (hsound : graph.Sound) {maxExpansions : Nat}
    (h : planSearch graph context targetNodeId maxHops maxExpansions = .ok (.found entry false))
    (hentry : Represents graph context entry edges) :
    BestScore graph context targetNodeId maxHops edges ↔
      ∃ edges', RouteTo graph context targetNodeId maxHops edges' ∧
        BestScore graph context targetNodeId maxHops edges' ∧
        Survives graph context targetNodeId maxHops edges' := by
  obtain ⟨⟨depth, hkept⟩, hgoal, hleast⟩ := BestFirst.search_found (planSpace_lawful hsound) h
  constructor
  · intro hbest
    exact ⟨edges, routeTo_of_kept hkept hgoal hentry, hbest, depth, entry, hkept,
      hentry.edgeIds⟩
  · rintro ⟨edges', hroute, hbest, hsurvives⟩ other hother hlt
    obtain ⟨depth', entry', hkept', hgoal', hentry'⟩ := kept_of_survives hsound hroute hsurvives
    have hkey := hleast depth' entry' hkept' hgoal'
    have hscore : pathScore edges ≤ pathScore edges' := by
      rw [← hentry.score, ← hentry'.score]
      rcases Prod.Lex.toLex_le_toLex.1 hkey with hlt | ⟨heq, -⟩
      · exact hlt.le
      · exact heq.le
    exact hbest other hother (hlt.trans_le hscore)

/-! ## Graphs with the same edges -/

theorem planSearch_congr {graph graph' : Graph} (h : graph.edges = graph'.edges)
    (context : SynapseContext) (targetNodeId : Str) (maxHops maxExpansions : Nat) :
    planSearch graph context targetNodeId maxHops maxExpansions =
      planSearch graph' context targetNodeId maxHops maxExpansions := by
  have hspace : planSpace graph context targetNodeId maxHops =
      planSpace graph' context targetNodeId maxHops := by
    unfold planSpace moves outbound extend selectedEdges
    rw [h]
  rw [planSearch, planSearch, hspace, h]

omit [UnicodeData] in
theorem directRoute_congr {graph graph' : Graph} (h : graph.edges = graph'.edges)
    (context : SynapseContext) (targetNodeId : Str) (maxHops : Nat) :
    directRoute graph context targetNodeId maxHops =
      directRoute graph' context targetNodeId maxHops := by
  unfold directRoute direct
  rw [h]

/-- For every context, target and bounds: a route returned by a search that did
not meet its expansion bound is a best route if and only if some best route
survives the pruning. -/
theorem plan_route_best_iff (kernel : SynapseKernel) (context : SynapseContext)
    (targetNodeId : Str) (maxHops maxExpansions : Int) (route : Json)
    (hne : targetNodeId ≠ context.currentNodeId)
    (hdirect : directRoute kernel.graph context targetNodeId maxHops.toNat = none)
    (hplan : planRoute kernel context targetNodeId maxHops maxExpansions = .ok route)
    (hbound : (planSearch kernel.graph context targetNodeId maxHops.toNat
      maxExpansions.toNat).map BestFirst.Outcome.bounded = .ok false) :
    ∃ edges, route.get? (str "edge_ids") = some (.arr (edges.map fun edge => .str edge.edgeId)) ∧
      RouteTo kernel.graph context targetNodeId maxHops.toNat edges ∧
      (BestScore kernel.graph context targetNodeId maxHops.toNat edges ↔
        ∃ edges', RouteTo kernel.graph context targetNodeId maxHops.toNat edges' ∧
          BestScore kernel.graph context targetNodeId maxHops.toNat edges' ∧
          Survives kernel.graph context targetNodeId maxHops.toNat edges') := by
  obtain ⟨-, -, ⟨heq, -⟩ | ⟨-, selected, hselected, -⟩ | ⟨-, -, entry, bounded, hsearch, hreceipt⟩⟩ :=
    planRoute_eq_ok hplan
  · exact absurd heq hne
  · rw [hdirect] at hselected
    cases hselected
  · rw [hsearch] at hbound
    cases hbound
    have hsound := kernel.sound
    obtain ⟨⟨depth, hkept⟩, hgoal, -⟩ :=
      BestFirst.search_found (planSpace_lawful hsound) hsearch
    obtain ⟨edges, hentry⟩ := exists_represents hsound hkept.reach
    refine ⟨edges, ?_, routeTo_of_kept hkept hgoal hentry,
      best_iff_survives hsound hsearch hentry⟩
    obtain ⟨_, digest, routeId, -, -, -, rfl, -⟩ := routeReceipt_eq_ok hreceipt
    rw [Json.get?_fields, hentry.edgeIds]
    simp [routeCore, List.lookup_cons]

end

/-! ## A shortcut that is passed over

Two edges lead from the first node to the second: one without blast radius that
takes ten milliseconds, one of process radius that takes none.  The first scores
lower, so the second is passed over; but the only edge on to the target is of
process radius too, and after it the order is the other way round. -/

namespace Shortcut

attribute [local instance] asciiUnicodeData

def node (nodeId : Str) (ref : String) : Json :=
  Json.fields
    [("node_id", .str nodeId), ("kind", .str (str "intent")), ("ref", .str (str ref)),
      ("label", .str (str ref)), ("truth_status", .str (str "observed")), ("attributes", .obj [])]

def edge (edgeId fromNodeId toNodeId : Str) (capabilityId blastRadius : String) (latency : Int) :
    Json :=
  Json.fields
    [("edge_id", .str edgeId),
      ("from_node_id", .str fromNodeId),
      ("to_node_id", .str toNodeId),
      ("capability_id", .str (str capabilityId)),
      ("subsystem", .str (str "x")),
      ("transition_kind", .str (str "observe")),
      ("authority", Json.fields
        [("required_authority_ids", .arr []), ("production_authority", .bool false)]),
      ("evidence_requirements", .arr []),
      ("preconditions", .arr []),
      ("postconditions", .arr []),
      ("verifier", Json.fields [("verifier_id", .null), ("required", .bool false)]),
      ("reversibility", Json.fields
        [("mode", .str (str "not_applicable")), ("rollback_edge_id", .null)]),
      ("blast_radius", .str (str blastRadius)),
      ("cost", Json.fields
        [("latency_ms", .int latency), ("context_bytes", .int 0), ("model_calls", .int 0),
          ("tool_calls", .int 0), ("resource_units", .int 0)]),
      ("provenance", .arr [Json.fields
        [("class", .str (str "DECLARED")), ("source_id", .str (str "s")),
          ("source_digest", .str (str "sha256:" ++ hexPad 64 0)),
          ("explanation", .str (str "x"))]])]

def first : Str :=
  str "synapse-node:"
    ++ hexPad 64 0x8f4f5c35195c5d27b8fcde2a7f05a3100245a839783fc253c7ee51ca1f2df909

def second : Str :=
  str "synapse-node:"
    ++ hexPad 64 0x3fb4aa0e1fe0f5a7937fb6b23575f9e4a07fd8977feeb753f9cf13c9b95f4d47

def target : Str :=
  str "synapse-node:"
    ++ hexPad 64 0xbff5b5417518b789a64128b246372a61ff58d02ec53c97f96ce80bd330bf256a

def fastId : Str :=
  str "synapse-edge:"
    ++ hexPad 64 0x8906c92f7e32ec66625fa414f8f9c643695ec4447cbca563ad843ae372ad1e4b

def slowId : Str :=
  str "synapse-edge:"
    ++ hexPad 64 0xe6c54aaa9fb052417e5dd25a81a0d89b5bf18b0cc6fb69e21aea031ffa92a8ed

def lastId : Str :=
  str "synapse-edge:"
    ++ hexPad 64 0xf3cac0969d8760ae3b609b732d9733e9ee6fb8f00784fce590eb7a05e25560f8

def nodes : List Json := [node second "m", node first "s", node target "g"]

def edges : List Json :=
  [edge fastId first second "b" "process" 0, edge slowId first second "a" "none" 10,
    edge lastId second target "c" "process" 0]

def readNodes : List Node :=
  [⟨second, str "intent", str "m"⟩, ⟨first, str "intent", str "s"⟩,
    ⟨target, str "intent", str "g"⟩]

def transition (capabilityId : String) (blastRadius : BlastRadius) (latency : Nat) : Transition where
  capabilityId := str capabilityId
  subsystem := str "x"
  kind := .observe
  requiredAuthorityIds := []
  productionAuthority := false
  evidenceRequirements := []
  preconditions := []
  postconditions := []
  verifierId := none
  verifierRequired := false
  mode := .notApplicable
  blastRadius
  cost := ⟨latency, 0, 0, 0, 0⟩

def fast : Edge where
  toTransition := transition "b" .process 0
  document := edge fastId first second "b" "process" 0
  edgeId := fastId
  fromNodeId := first
  toNodeId := second
  rollbackEdgeId := none
  provenance := [.declared]

def slow : Edge where
  toTransition := transition "a" .none 10
  document := edge slowId first second "a" "none" 10
  edgeId := slowId
  fromNodeId := first
  toNodeId := second
  rollbackEdgeId := none
  provenance := [.declared]

def last : Edge where
  toTransition := transition "c" .process 0
  document := edge lastId second target "c" "process" 0
  edgeId := lastId
  fromNodeId := second
  toNodeId := target
  rollbackEdgeId := none
  provenance := [.declared]

def policy : SynapsePolicy where
  allowedSubsystems := [str "*"]
  allowedCapabilityIds := [str "*"]
  grantedAuthorityIds := []
  maxTransitionKind := .plan
  maxBlastRadius := .process
  allowedSubsystems_ordered := by constructor <;> simp [str]
  allowedCapabilityIds_ordered := by constructor <;> simp [str]
  grantedAuthorityIds_ordered := by constructor <;> simp

/-- The graph but for its identity. -/
def graph : Graph := ⟨[], str "tenant:t", readNodes, [fast, slow, last]⟩

/-- The edges, the nodes and the flag of an answer. -/
def answer : BestFirst.Outcome Candidate → Option (List Str × List Str × Bool)
  | .found entry bounded => some (entry.edgeIds, entry.nodeIds, bounded)
  | .exhausted true => some ([], [], true)
  | _ => none

def context : SynapseContext where
  tenantId := str "tenant:t"
  currentNodeId := first
  asOf := str "2026-01-01T00:00:00Z"
  policy
  facts := ∅
  evidence := ∅
  tenantId_canonical := by decide
  currentNodeId_canonical := by decide
  asOf_valid := by decide
  facts_wf := by decide
  facts_encodable := by decide
  evidence_named := Dict.get_empty _

set_option synthInstance.maxHeartbeats 200000 in
set_option synthInstance.maxSize 1000 in
theorem evaluated :
    (nodes.mapM readNode = .ok readNodes ∧ edges.mapM readEdge = .ok [fast, slow, last]) ∧
      (∀ node ∈ readNodes, verifyNode (str "tenant:t") node = .ok ()) ∧
      (∀ edge ∈ [fast, slow, last],
        verifyEdge readNodes [fast, slow, last] edge = .ok ()) ∧
      Schemas.tenantId.accepts (.str (str "tenant:t")) = true ∧
      (Schemas.boundedArray 10000 Schemas.synapseNode).accepts (.arr nodes) = true ∧
      (Schemas.boundedArray 25000 Schemas.synapseEdge).accepts (.arr edges) = true ∧
      (Json.fields (graphCore (str "tenant:t") nodes edges)).encodable = true ∧
      (Json.fields (graphCore (str "tenant:t") nodes edges)).wf = true ∧
      ((contextJson context).encodable = true ∧ target ≠ first ∧
        Schemas.nodeId.accepts (.str first) = true ∧
        Schemas.nodeId.accepts (.str target) = true) ∧
      (availability context fast ∅ = [] ∧ availability context last ∅ = []) ∧
      ((readNodes.map Node.nodeId).Pairwise (· < ·) ∧
        ([fast, slow, last].map Edge.edgeId).Pairwise (· < ·)) ∧
      directRoute graph context target 2 = none ∧
      (planSearch graph context target 2 8).map
        answer = .ok (some ([slow.edgeId, last.edgeId], [first, second, target], false)) ∧
      (planSearch graph context target 1 8).map
        answer = .ok none := by
  decide +kernel

theorem exists_kernel : ∃ kernel : SynapseKernel, kernel.graph.tenantId = str "tenant:t" ∧
    kernel.graph.nodes = readNodes ∧ kernel.graph.edges = [fast, slow, last] := by
  obtain ⟨⟨hnodes, hedges⟩, hnode, hedge, htenant, hacceptsNodes, hacceptsEdges, hencodable, hwf,
    -, -, ⟨hnodeOrder, hedgeOrder⟩, -⟩ := evaluated
  obtain ⟨graphId, hverified⟩ := verifiedGraph_fields hencodable htenant hacceptsNodes
    hacceptsEdges hnodes hedges hnodeOrder hedgeOrder hnode hedge
  have hdocument : (Json.fields (("graph_id", .str graphId) ::
      graphCore (str "tenant:t") nodes edges)).wf = true := by
    apply Json.wf_fields
    · simp [graphCore]
    · rw [List.forall_mem_cons]
      refine ⟨rfl, ?_⟩
      intro field hfield
      exact (Json.wf_obj.1 hwf).2 (str field.1, field.2) (List.mem_map_of_mem hfield)
  exact ⟨⟨⟨_, hdocument⟩, _, hverified⟩, rfl, rfl, rfl⟩

theorem answer_eq_some {outcome : BestFirst.Outcome Candidate} {edgeIds nodeIds : List Str}
    (h : answer outcome = some (edgeIds, nodeIds, false)) :
    ∃ entry, outcome = .found entry false ∧ entry.edgeIds = edgeIds ∧ entry.nodeIds = nodeIds := by
  cases outcome with
  | found entry bounded =>
    cases h
    exact ⟨entry, rfl, rfl, rfl⟩
  | exhausted bounded => cases bounded <;> cases h
  | _ => cases h

variable {kernel : SynapseKernel}

/-- What is planned on the graph of the sample. -/
theorem planned (htenant : kernel.graph.tenantId = str "tenant:t")
    (hnodes : kernel.graph.nodes = readNodes) (hedges : kernel.graph.edges = [fast, slow, last]) :
    target ≠ context.currentNodeId ∧ directRoute kernel.graph context target 2 = none ∧
      (planSearch kernel.graph context target 2 8).map BestFirst.Outcome.bounded = .ok false ∧
      ∃ route, planRoute kernel context target 2 8 = .ok route ∧
        route.get? (str "edge_ids") = some (.arr [.str slow.edgeId, .str last.edgeId]) := by
  obtain ⟨-, -, -, -, -, -, -, -, ⟨hcontext, hne, hfirst, htarget⟩, -, -, hdirect, hsearch, -⟩ :=
    evaluated
  have hdirect' : directRoute kernel.graph context target 2 = none := by
    rw [@directRoute_congr kernel.graph graph hedges]
    exact hdirect
  have hsearch' : ∃ entry, planSearch kernel.graph context target 2 8 = .ok (.found entry false) ∧
      entry.edgeIds = [slow.edgeId, last.edgeId] ∧ entry.nodeIds = [first, second, target] := by
    rw [@planSearch_congr _ kernel.graph graph hedges]
    cases houtcome : planSearch graph context target 2 8 with
    | error e =>
      rw [houtcome] at hsearch
      cases hsearch
    | ok outcome =>
      rw [houtcome] at hsearch
      obtain ⟨entry, rfl, hids⟩ := answer_eq_some (Except.ok.inj hsearch)
      exact ⟨entry, rfl, hids⟩
  obtain ⟨entry, hfound, hedgeIds, hnodeIds⟩ := hsearch'
  obtain ⟨payload, hdigest⟩ := Schemas.digestObject_of_encodable hcontext
    (@validateDomain_of_ascii _ (str "synapse-context-v1") (by decide) (by decide))
  obtain ⟨route, hroute⟩ := @routeReceipt_returns _ kernel.graph context target kernel.sound
    htenant.symm hfirst htarget _ hdigest [slow, last] (by simp [hedges]) (by simp)
    (by simp [slow, last, transition])
  refine ⟨hne, hdirect', by rw [hfound]; rfl, route, ?_, ?_⟩
  · unfold planRoute
    refine bind_eq_ok.2 ⟨(), ?_, ?_⟩
    · refine ensure_bind_eq_ok.2 ⟨htenant.symm, ensure_of ?_ _⟩
      rw [hnodes]
      simp [readNodes, context]
    · refine ensure_bind_eq_ok.2 ⟨by rw [hnodes]; simp [readNodes], ?_⟩
      refine ensure_bind_eq_ok.2 ⟨by decide, ?_⟩
      refine ensure_bind_eq_ok.2 ⟨by decide, ?_⟩
      rw [if_neg (show ¬target = context.currentNodeId from hne)]
      have hdirect'' : directRoute kernel.graph context target (2 : Int).toNat = none := hdirect'
      rw [hdirect'']
      refine bind_eq_ok.2 ⟨_, raising_eq_ok.2 hfound, raising_eq_ok.2 ?_⟩
      rw [hedgeIds, hnodeIds]
      exact hroute
  · obtain ⟨_, digest, routeId, -, -, -, rfl, -⟩ := routeReceipt_eq_ok hroute
    rw [Json.get?_fields]
    simp [routeCore, List.lookup_cons]

theorem shortcut_scores_lower (hedges : kernel.graph.edges = [fast, slow, last]) :
    RouteTo kernel.graph context target 2 [fast, last] ∧
      pathScore [fast, last] < pathScore [slow, last] := by
  obtain ⟨-, -, -, -, -, -, -, -, -, ⟨hfast, hlast⟩, -⟩ := evaluated
  have hmove : move context fast context.facts = some ∅ := move_eq_some.2 ⟨hfast, rfl⟩
  have hmove' : move context last ∅ = some ∅ := move_eq_some.2 ⟨hlast, rfl⟩
  refine ⟨⟨le_rfl, ∅, ?_, ?_⟩, by decide⟩
  · rw [hedges]
    simp
  · have hfrom : fast.fromNodeId = context.currentNodeId := rfl
    have hnext : last.fromNodeId = fast.toNodeId := rfl
    simp only [walk, if_pos hfrom, hmove, if_pos hnext, hmove', Option.bind_some]
    rfl

/-- `plan_route` returns a route although another compliant route scores lower. -/
theorem plan_route_not_best :
    ∃ (kernel : SynapseKernel) (context : SynapseContext) (targetNodeId : Str)
      (maxHops maxExpansions : Int) (route : Json) (edges better : List Edge),
      targetNodeId ≠ context.currentNodeId ∧
      directRoute kernel.graph context targetNodeId maxHops.toNat = none ∧
      planRoute kernel context targetNodeId maxHops maxExpansions = .ok route ∧
      (planSearch kernel.graph context targetNodeId maxHops.toNat
        maxExpansions.toNat).map BestFirst.Outcome.bounded = .ok false ∧
      route.get? (str "edge_ids") = some (.arr (edges.map fun edge => .str edge.edgeId)) ∧
      RouteTo kernel.graph context targetNodeId maxHops.toNat better ∧
      pathScore better < pathScore edges := by
  obtain ⟨kernel, htenant, hnodes, hedges⟩ := exists_kernel
  obtain ⟨hne, hdirect, hbound, route, hroute, hids⟩ := planned htenant hnodes hedges
  obtain ⟨hbetter, hlt⟩ := shortcut_scores_lower hedges
  exact ⟨kernel, context, target, 2, 8, route, [slow, last], [fast, last], hne, hdirect, hroute,
    hbound, hids, hbetter, hlt⟩

/-- On this graph no best route survives. -/
theorem no_best_route_survives :
    ∃ kernel : SynapseKernel,
      ¬∃ edges, RouteTo kernel.graph context target 2 edges ∧
        BestScore kernel.graph context target 2 edges ∧
        Survives kernel.graph context target 2 edges := by
  obtain ⟨kernel, htenant, hnodes, hedges⟩ := exists_kernel
  obtain ⟨hne, hdirect, hbound, route, hroute, hids⟩ := planned htenant hnodes hedges
  obtain ⟨hbetter, hlt⟩ := shortcut_scores_lower hedges
  obtain ⟨edges, hedgeIds, ⟨-, facts, hcompliant⟩, hiff⟩ :=
    plan_route_best_iff kernel context target 2 8 route hne hdirect hroute hbound
  refine ⟨kernel, fun hsurvives => ?_⟩
  have hsame : ([slow, last].map Edge.edgeId).map Json.str =
      (edges.map Edge.edgeId).map Json.str := by
    rw [hids] at hedgeIds
    rw [List.map_map, List.map_map]
    exact Json.arr.inj (Option.some.inj hedgeIds)
  have hstr : Function.Injective Json.str := fun _ _ h => Json.str.inj h
  have hroutes := @edges_eq_of_ids _ kernel.sound [slow, last] edges (by simp [hedges])
    hcompliant.mem (List.map_injective_iff.2 hstr hsame)
  subst hroutes
  exact hiff.2 hsurvives [fast, last] hbetter hlt

end Shortcut

end IntegrityGuardian.Synapse
