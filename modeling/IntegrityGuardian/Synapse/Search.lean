import IntegrityGuardian.Synapse.Walks

/-!
# The search of `plan_route`

Every entry the search reaches stands for a compliant walk, and the search space
meets the laws of best-first search: scores grow along a walk and the edge
identities of a walk name it.
-/

namespace IntegrityGuardian.Synapse

open Python Library

section
variable {graph : Graph} {context : SynapseContext}

/-! ## Lookups -/

variable {edge : Edge} {nodeId : Str}

theorem edgeById_of_mem (hsound : graph.Sound) (h : edge ∈ graph.edges) :
    edgeById graph.edges edge.edgeId = some edge := by
  unfold edgeById
  cases hfind : graph.edges.find? fun e => e.edgeId == edge.edgeId with
  | none =>
    rw [List.find?_eq_none] at hfind
    exact absurd (beq_self_eq_true edge.edgeId) (hfind edge h)
  | some found =>
    have hmem := List.mem_of_find?_eq_some hfind
    have hid : found.edgeId = edge.edgeId := by simpa using List.find?_some hfind
    rw [List.inj_on_of_nodup_map hsound.nodup hmem h hid]

theorem mem_of_edgeById {edgeId : Str}
    (h : edgeById graph.edges edgeId = some edge) : edge ∈ graph.edges ∧ edge.edgeId = edgeId :=
  ⟨List.mem_of_find?_eq_some h, by simpa using List.find?_some h⟩

theorem selectedEdges_map (hsound : graph.Sound) {edges : List Edge}
    (h : ∀ edge ∈ edges, edge ∈ graph.edges) :
    selectedEdges graph (edges.map Edge.edgeId) = .ok edges := by
  unfold selectedEdges
  rw [mapM_eq_ok, List.forall₂_map_left_iff, List.forall₂_same]
  intro edge hedge
  rw [edgeById_of_mem hsound (h edge hedge)]

theorem mem_outbound :
    edge ∈ outbound graph nodeId ↔ edge ∈ graph.edges ∧ edge.fromNodeId = nodeId := by
  unfold outbound
  rw [(List.perm_insertionSort _ _).mem_iff, List.mem_filter, beq_iff_eq]

theorem mem_moves {facts facts' : Facts} : (edge, facts') ∈ moves graph context nodeId facts ↔
      edge ∈ graph.edges ∧ edge.fromNodeId = nodeId ∧ move context edge facts = some facts' := by
  simp only [moves, List.mem_filterMap, Option.map_eq_some_iff, mem_outbound]
  constructor
  · rintro ⟨e, ⟨hmem, hfrom⟩, f, hmove, heq⟩
    cases heq
    exact ⟨hmem, hfrom, hmove⟩
  · rintro ⟨hmem, hfrom, hmove⟩
    exact ⟨edge, ⟨hmem, hfrom⟩, facts', hmove, rfl⟩

theorem moves_fst_sublist (nodeId : Str) (facts : Facts) :
    ((moves graph context nodeId facts).map Prod.fst).Sublist (outbound graph nodeId) := by
  unfold moves
  induction outbound graph nodeId with
  | nil => exact List.Sublist.slnil
  | cons edge edges ih =>
    rw [List.filterMap_cons]
    cases hmove : move context edge facts with
    | none => exact ih.cons edge
    | some facts' => exact ih.cons_cons edge

theorem nodup_moves (hsound : graph.Sound) (nodeId : Str) (facts : Facts) :
    ((moves graph context nodeId facts).map fun step => step.1.edgeId).Nodup := by
  have hsublist := (@moves_fst_sublist graph context nodeId facts).map Edge.edgeId
  rw [List.map_map] at hsublist
  apply hsublist.nodup
  have hperm := List.perm_insertionSort (fun a b => edgeKey a ≤ edgeKey b)
    (graph.edges.filter fun edge => edge.fromNodeId == nodeId)
  rw [outbound, (hperm.map Edge.edgeId).nodup_iff]
  exact (List.filter_sublist.map Edge.edgeId).nodup hsound.nodup

theorem length_moves_le (nodeId : Str) (facts : Facts) :
    (moves graph context nodeId facts).length ≤ graph.edges.length := by
  have hsublist := (@moves_fst_sublist graph context nodeId facts).length_le
  rw [List.length_map] at hsublist
  have hperm := List.perm_insertionSort (fun a b => edgeKey a ≤ edgeKey b)
    (graph.edges.filter fun edge => edge.fromNodeId == nodeId)
  calc (moves graph context nodeId facts).length ≤ (outbound graph nodeId).length := hsublist
    _ = (graph.edges.filter fun edge => edge.fromNodeId == nodeId).length := hperm.length_eq
    _ ≤ graph.edges.length := List.length_filter_le _ _

variable [UnicodeData]

/-! ## Entries and walks -/

/-- An entry of the search and the walk it stands for. -/
structure Represents (graph : Graph) (context : SynapseContext) (entry : Candidate)
    (edges : List Edge) : Prop where
  compliant : Compliant graph context edges entry.nodeId entry.facts
  score : entry.score = pathScore edges
  tie : entry.tie = edges.map Edge.edgeId
  edgeIds : entry.edgeIds = edges.map Edge.edgeId
  depth : entry.depth = edges.length
  nodeIds : entry.nodeIds = context.currentNodeId :: edges.map Edge.toNodeId
  digest : if edges = [] then entry.digest = [] else factsDigest entry.facts = .ok entry.digest

theorem represents_start : Represents graph context (startEntry context) [] :=
  ⟨.nil graph context, rfl, rfl, rfl, rfl, rfl, rfl⟩

omit [UnicodeData] in
theorem edges_eq_of_ids (hsound : graph.Sound) {edges edges' : List Edge}
    (h : ∀ edge ∈ edges, edge ∈ graph.edges) (h' : ∀ edge ∈ edges', edge ∈ graph.edges)
    (hids : edges.map Edge.edgeId = edges'.map Edge.edgeId) : edges = edges' := by
  have hselected := selectedEdges_map hsound h
  rw [hids, selectedEdges_map hsound h'] at hselected
  exact (Except.ok.inj hselected).symm

variable {entry : Candidate} {edges : List Edge}

theorem Represents.unique {entry' : Candidate}
    (h : Represents graph context entry edges) (h' : Represents graph context entry' edges) :
    entry = entry' := by
  have hwalk := h.compliant.walk.symm.trans h'.compliant.walk
  obtain ⟨hnode, hfacts⟩ := Prod.mk.inj (Option.some.inj hwalk)
  have hdigest : entry.digest = entry'.digest := by
    have hd := h.digest
    have hd' := h'.digest
    by_cases hnil : edges = []
    · rw [if_pos hnil] at hd hd'
      rw [hd, hd']
    · rw [if_neg hnil] at hd hd'
      rw [hfacts, hd'] at hd
      exact (Except.ok.inj hd).symm
  obtain ⟨⟨score, tie, depth, nodeId, facts, edgeIds, nodeIds⟩, digest⟩ := entry
  obtain ⟨⟨score', tie', depth', nodeId', facts', edgeIds', nodeIds'⟩, digest'⟩ := entry'
  obtain ⟨-, rfl, rfl, rfl, rfl, rfl, -⟩ := h
  obtain ⟨-, rfl, rfl, rfl, rfl, rfl, -⟩ := h'
  cases hnode
  cases hfacts
  cases hdigest
  rfl

theorem extend_eq_ok (hsound : graph.Sound) {parent : Candidate}
    (hparent : Represents graph context parent edges) {edge : Edge} {facts : Facts}
    (hedge : edge ∈ graph.edges) (hfrom : edge.fromNodeId = parent.nodeId)
    (hmove : move context edge parent.facts = some facts) :
    extend graph parent (edge, facts) = .ok entry ↔
      Represents graph context entry (edges ++ [edge]) ∧ factsDigest facts = .ok entry.digest := by
  have hcompliant : Compliant graph context (edges ++ [edge]) edge.toNodeId facts :=
    compliant_snoc.2 ⟨hedge, rfl, parent.facts, hfrom ▸ hparent.compliant, hmove⟩
  have hids : parent.edgeIds ++ [edge.edgeId] = (edges ++ [edge]).map Edge.edgeId := by
    rw [hparent.edgeIds, List.map_append]
    rfl
  have hselected : selectedEdges graph (parent.edgeIds ++ [edge.edgeId]) =
      .ok (edges ++ [edge]) := by
    rw [hids]
    exact selectedEdges_map hsound hcompliant.mem
  have hne : edges ++ [edge] ≠ [] := by simp
  dsimp only [extend]
  rw [hselected, ok_bind, bind_eq_ok]
  constructor
  · rintro ⟨digest, hdigest, h⟩
    cases h
    refine ⟨⟨hcompliant, rfl, hids, hids, ?_, ?_, ?_⟩, hdigest⟩
    · simp [hparent.depth]
    · simp [hparent.nodeIds]
    · rw [if_neg hne]
      exact hdigest
  · rintro ⟨hentry, hdigest⟩
    refine ⟨entry.digest, hdigest, congrArg Except.ok ?_⟩
    refine Represents.unique ?_ hentry
    refine ⟨hcompliant, rfl, hids, hids, ?_, ?_, ?_⟩
    · simp [hparent.depth]
    · simp [hparent.nodeIds]
    · rw [if_neg hne]
      exact hdigest

/-! ## The laws of the search space -/

variable {targetNodeId : Str} {maxHops : Nat}

variable {entry parent : Candidate} {entries : List Candidate}

theorem children_eq_ok :
    (planSpace graph context targetNodeId maxHops).children parent = .ok entries ↔
      List.Forall₂ (fun step entry => extend graph parent step = .ok entry)
        (moves graph context parent.nodeId parent.facts) entries :=
  mapM_eq_ok

theorem mem_children (hsound : graph.Sound)
    {edges : List Edge} (hparent : Represents graph context parent edges)
    (h : (planSpace graph context targetNodeId maxHops).children parent = .ok entries) :
    entry ∈ entries ↔ ∃ edge, Represents graph context entry (edges ++ [edge]) := by
  have hall := children_eq_ok.1 h
  constructor
  · intro hentry
    obtain ⟨⟨edge, facts⟩, hstep, hextend⟩ := exists_of_mem_right hall hentry
    obtain ⟨hedge, hfrom, hmove⟩ := mem_moves.1 hstep
    exact ⟨edge, ((extend_eq_ok hsound hparent hedge hfrom hmove).1 hextend).1⟩
  · rintro ⟨edge, hentry⟩
    obtain ⟨hedge, hto, facts', hprefix, hmove⟩ := compliant_snoc.1 hentry.compliant
    have hsame := hprefix.walk.symm.trans hparent.compliant.walk
    obtain ⟨hfrom, hfacts⟩ := Prod.mk.inj (Option.some.inj hsame)
    rw [hfacts] at hmove
    have hstep : (edge, entry.facts) ∈ moves graph context parent.nodeId parent.facts :=
      mem_moves.2 ⟨hedge, hfrom, hmove⟩
    obtain ⟨child, hchild, hextend⟩ := exists_of_mem_left hall hstep
    obtain ⟨hrepresents, -⟩ := (extend_eq_ok hsound hparent hedge hfrom hmove).1 hextend
    exact hentry.unique hrepresents ▸ hchild

theorem edgeIds_of_extend {step : Edge × Facts} (h : extend graph parent step = .ok entry) :
    parent.edgeIds ++ [step.1.edgeId] = entry.edgeIds := by
  obtain ⟨edges, -, h⟩ := bind_eq_ok.1 h
  obtain ⟨digest, -, h⟩ := bind_eq_ok.1 h
  cases h
  rfl

theorem exists_represents (hsound : graph.Sound)
    (h : BestFirst.Reach (planSpace graph context targetNodeId maxHops) (startEntry context)
      entry) : ∃ edges, Represents graph context entry edges := by
  induction h with
  | root => exact ⟨[], represents_start⟩
  | child _ hchildren hmem ih =>
    obtain ⟨edges, hparent⟩ := ih
    obtain ⟨edge, hentry⟩ := (mem_children hsound hparent hchildren).1 hmem
    exact ⟨edges ++ [edge], hentry⟩

/-- The depth inside a state. -/
def stateDepth (state : StateKey) : Nat := (ofLex (ofLex state).2).2

theorem planSpace_lawful (hsound : graph.Sound) :
    BestFirst.Lawful (planSpace graph context targetNodeId maxHops) (startEntry context)
      stateDepth where
  key_lt {parent entry entries} hreach hchildren hmem := by
    obtain ⟨edges, hparent⟩ := exists_represents hsound hreach
    obtain ⟨edge, hentry⟩ := (mem_children hsound hparent hchildren).1 hmem
    apply Prod.Lex.toLex_lt_toLex.2
    left
    show parent.score < entry.score
    rw [hparent.score, hentry.score]
    exact pathScore_lt_append edges edge
  level_child {parent entry entries} hchildren hmem := by
    obtain ⟨step, -, hextend⟩ := exists_of_mem_right (children_eq_ok.1 hchildren) hmem
    obtain ⟨edges, -, hextend⟩ := bind_eq_ok.1 hextend
    obtain ⟨digest, -, hextend⟩ := bind_eq_ok.1 hextend
    cases hextend
    rfl
  nodup {parent entries} hreach hchildren := by
    have hall : List.Forall₂ (fun step entry => parent.edgeIds ++ [step.1.edgeId] = entry.edgeIds)
        (moves graph context parent.nodeId parent.facts) entries :=
      (children_eq_ok.1 hchildren).imp fun _ _ => edgeIds_of_extend
    have hids : (moves graph context parent.nodeId parent.facts).map
        (fun step => parent.edgeIds ++ [step.1.edgeId]) =
          entries.map fun entry => entry.edgeIds := by
      rw [← List.forall₂_eq_eq_eq, List.forall₂_map_left_iff, List.forall₂_map_right_iff]
      exact hall
    have hnodup := @nodup_moves graph context hsound parent.nodeId parent.facts
    apply List.Nodup.of_map fun entry : Candidate => entry.edgeIds
    rw [← hids]
    have hinj : Function.Injective fun edgeId => parent.edgeIds ++ [edgeId] := by
      intro a b hab
      simpa using hab
    have hmapped := hnodup.map hinj
    rw [List.map_map] at hmapped
    exact hmapped
  key_inj {e e'} hreach hreach' hkey := by
    obtain ⟨edges, hentry⟩ := exists_represents hsound hreach
    obtain ⟨edges', hentry'⟩ := exists_represents hsound hreach'
    have htie : e.tie = e'.tie := congrArg (fun k : DecisionKey => (ofLex k).2) hkey
    rw [hentry.tie, hentry'.tie] at htie
    have hsame := edges_eq_of_ids hsound hentry.compliant.mem hentry'.compliant.mem htie
    exact hentry.unique (hsame ▸ hentry')
  parent_inj {p p' entry entries entries'} hreach hreach' hchildren hchildren' hmem hmem' := by
    obtain ⟨edges, hp⟩ := exists_represents hsound hreach
    obtain ⟨edges', hp'⟩ := exists_represents hsound hreach'
    obtain ⟨edge, hentry⟩ := (mem_children hsound hp hchildren).1 hmem
    obtain ⟨edge', hentry'⟩ := (mem_children hsound hp' hchildren').1 hmem'
    have hsame := edges_eq_of_ids hsound hentry.compliant.mem hentry'.compliant.mem
      (hentry.edgeIds.symm.trans hentry'.edgeIds)
    obtain ⟨rfl, -⟩ := List.append_inj' hsame rfl
    exact hp.unique hp'

end

end IntegrityGuardian.Synapse
