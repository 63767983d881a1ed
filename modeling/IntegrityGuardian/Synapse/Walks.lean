import IntegrityGuardian.Synapse.Verified

/-!
# Policy-compliant walks

The walks a context can take through a graph, and the entries of the search as
the walks they stand for.
-/

namespace IntegrityGuardian.Synapse

open Python Library

/-! ## Scores of walks -/

theorem le_of_forall₂ {a b : List Nat} (h : List.Forall₂ (· ≤ ·) a b) : a ≤ b := by
  induction h with
  | nil => exact le_rfl
  | cons hxy _ ih =>
    rcases hxy.lt_or_eq with hlt | rfl
    · exact (List.cons_lt_cons_iff.2 (.inl hlt)).le
    · rcases ih.lt_or_eq with hlt | heq
      · exact (List.cons_lt_cons_iff.2 (.inr ⟨rfl, hlt⟩)).le
      · rw [heq]

theorem le_foldr_max_append (xs ys : List Nat) : xs.foldr max 0 ≤ (xs ++ ys).foldr max 0 := by
  induction xs with
  | nil => exact Nat.zero_le _
  | cons x xs ih => exact max_le_max le_rfl ih

theorem pathScore_lt_append (edges : List Edge) (edge : Edge) :
    pathScore edges < pathScore (edges ++ [edge]) := by
  apply lt_of_le_of_ne
  · apply le_of_forall₂
    simp only [pathScore, List.map_append, List.sum_append, List.length_append,
      List.forall₂_cons, List.Forall₂.nil, and_true]
    refine ⟨le_foldr_max_append _ _, le_foldr_max_append _ _, ?_⟩
    simp
  · intro h
    have hlength := congrArg (fun score : Score => score.getLast?) h
    simp [pathScore] at hlength

/-! ## Walks -/

/-- The node and the facts after a list of edges, when each is available in turn. -/
def walk (context : SynapseContext) : List Edge → Str → Facts → Option (Str × Facts)
  | [], nodeId, facts => some (nodeId, facts)
  | edge :: edges, nodeId, facts =>
    if edge.fromNodeId = nodeId then
      (move context edge facts).bind fun nextFacts => walk context edges edge.toNodeId nextFacts
    else none

theorem walk_append (context : SynapseContext) (edges edges' : List Edge) (nodeId : Str)
    (facts : Facts) :
    walk context (edges ++ edges') nodeId facts =
      (walk context edges nodeId facts).bind fun last => walk context edges' last.1 last.2 := by
  induction edges generalizing nodeId facts with
  | nil => rfl
  | cons edge edges ih =>
    simp only [List.cons_append, walk]
    split
    · cases move context edge facts with
      | none => rfl
      | some nextFacts => exact ih edge.toNodeId nextFacts
    · rfl

variable {c : Condition} {edge : Edge} {facts facts' next : Facts} {graph : Graph}
  {conditions : List Condition} {edges : List Edge} {nodeId : Str} {context : SynapseContext}

theorem walk_snoc_eq_some {last : Str × Facts} :
    walk context (edges ++ [edge]) nodeId facts = some last ↔
      ∃ facts', walk context edges nodeId facts = some (edge.fromNodeId, facts') ∧
        move context edge facts' = some last.2 ∧ edge.toNodeId = last.1 := by
  rw [walk_append]
  constructor
  · intro h
    obtain ⟨⟨nodeId', facts'⟩, hwalk, h⟩ := Option.bind_eq_some_iff.1 h
    simp only [walk] at h
    split at h
    · rename_i hnode
      obtain ⟨nextFacts, hmove, h⟩ := Option.bind_eq_some_iff.1 h
      cases h
      exact ⟨facts', hnode ▸ hwalk, hmove, rfl⟩
    · cases h
  · rintro ⟨facts', hwalk, hmove, hnode⟩
    refine Option.bind_eq_some_iff.2 ⟨(edge.fromNodeId, facts'), hwalk, ?_⟩
    simp only [walk, if_true, hmove, hnode]
    rfl

/-- A policy-compliant walk from the current node to `nodeId`. -/
structure Compliant (graph : Graph) (context : SynapseContext) (edges : List Edge) (nodeId : Str)
    (facts : Facts) : Prop where
  mem : ∀ edge ∈ edges, edge ∈ graph.edges
  walk : walk context edges context.currentNodeId context.facts = some (nodeId, facts)

theorem Compliant.nil (graph : Graph) (context : SynapseContext) :
    Compliant graph context [] context.currentNodeId context.facts :=
  ⟨by simp, rfl⟩

theorem compliant_snoc : Compliant graph context (edges ++ [edge]) nodeId facts ↔
      edge ∈ graph.edges ∧ edge.toNodeId = nodeId ∧ ∃ facts',
        Compliant graph context edges edge.fromNodeId facts' ∧
          move context edge facts' = some facts := by
  constructor
  · rintro ⟨hmem, hwalk⟩
    obtain ⟨facts', hwalk, hmove, hnode⟩ := walk_snoc_eq_some.1 hwalk
    exact ⟨hmem edge (by simp), hnode, facts',
      ⟨fun e he => hmem e (List.mem_append_left _ he), hwalk⟩, hmove⟩
  · rintro ⟨hedge, hnode, facts', ⟨hmem, hwalk⟩, hmove⟩
    refine ⟨?_, walk_snoc_eq_some.2 ⟨facts', hwalk, hmove, hnode⟩⟩
    intro e he
    rcases List.mem_append.1 he with he | he
    · exact hmem e he
    · exact (List.mem_singleton.1 he) ▸ hedge

/-! ## Facts -/

/-- The facts have a canonical form. -/
def CanonicalFacts (facts : Facts) : Prop :=
  ∀ (key : Str) (v : Json), facts[key]? = some v →
    (Json.str key).encodable = true ∧ v.encodable = true ∧ v.wf = true

theorem encodable_factsJson (h : CanonicalFacts facts) : (factsJson facts).encodable = true := by
  rw [factsJson, Json.encodable, Json.encodableMembers_iff]
  rintro ⟨key, v⟩ hitem
  obtain ⟨hkey, hv, -⟩ := h key v (Dict.mem_toList.1 hitem)
  exact ⟨by simpa [Json.encodable] using hkey, hv⟩

theorem wf_factsJson (h : CanonicalFacts facts) : (factsJson facts).wf = true := by
  apply Json.wf_obj.2
  refine ⟨Dict.keys_toList_nodup facts, ?_⟩
  rintro ⟨key, v⟩ hitem
  exact (h key v (Dict.mem_toList.1 hitem)).2.2

theorem SynapseContext.canonicalFacts (context : SynapseContext) :
    CanonicalFacts context.facts := by
  intro key v hget
  have hitem := Dict.mem_toList.2 hget
  have hencodable := context.facts_encodable
  rw [factsJson, Json.encodable, Json.encodableMembers_iff] at hencodable
  obtain ⟨hkey, hv⟩ := hencodable (key, v) hitem
  have hwf := (Json.wf_obj.1 context.facts_wf).2 (key, v) hitem
  exact ⟨by simpa [Json.encodable] using hkey, hv, hwf⟩

theorem canonicalFacts_insert (h : CanonicalFacts facts) {key : Str} {v : Json}
    (hkey : (Json.str key).encodable = true) (hv : v.encodable = true) (hwf : v.wf = true) :
    CanonicalFacts (facts.insert key v) := by
  intro k w hget
  rw [Dict.get_insert] at hget
  split at hget
  · rename_i heq
    cases hget
    exact ⟨heq ▸ hkey, hv, hwf⟩
  · exact h k w hget

theorem canonicalFacts_erase (h : CanonicalFacts facts) (key : Str) :
    CanonicalFacts (facts.erase key) := by
  intro k w hget
  rw [Dict.get_erase] at hget
  split at hget
  · cases hget
  · exact h k w hget

theorem applyPostcondition_canonical
    (h : CanonicalFacts facts) (hfact : (Json.str c.fact).encodable = true)
    (hvalue : c.value.json.encodable = true) (happly : applyPostcondition facts c = some facts') :
    CanonicalFacts facts' := by
  unfold applyPostcondition at happly
  split at happly
  · cases happly
    exact canonicalFacts_insert h hfact hvalue (by cases c.value <;> rfl)
  · cases happly
    exact canonicalFacts_erase h _
  · split at happly
    · cases happly
      exact h
    · cases happly
  · split at happly
    · cases happly
    · cases happly
      exact h

theorem applyPostconditions_canonical (h : CanonicalFacts facts) (hconditions : ∀ c ∈ conditions,
      (Json.str c.fact).encodable = true ∧ c.value.json.encodable = true)
    (happly : applyPostconditions facts conditions = some facts') : CanonicalFacts facts' := by
  induction conditions generalizing facts with
  | nil =>
    cases happly
    exact h
  | cons c conditions ih =>
    obtain ⟨⟨hfact, hvalue⟩, hrest⟩ := List.forall_mem_cons.1 hconditions
    obtain ⟨next, hnext, happly⟩ := Option.bind_eq_some_iff.1 happly
    exact ih (applyPostcondition_canonical h hfact hvalue hnext) hrest happly

theorem move_eq_some : move context edge facts = some facts' ↔
      availability context edge facts = [] ∧
        applyPostconditions facts edge.postconditions = some facts' := by
  unfold move
  split <;> simp_all

theorem Compliant.canonicalFacts (hsound : graph.Sound)
    (h : Compliant graph context edges nodeId facts) : CanonicalFacts facts := by
  induction edges using List.reverseRecOn generalizing nodeId facts with
  | nil =>
    cases h.walk
    exact context.canonicalFacts
  | append_singleton edges edge ih =>
    obtain ⟨hedge, -, facts', hprefix, hmove⟩ := compliant_snoc.1 h
    exact applyPostconditions_canonical (ih hprefix) (hsound.valid edge hedge).postconditions
      (move_eq_some.1 hmove).2

/-! ## Facts up to key order -/

/-- Facts that differ only in the key order inside their values. -/
def FactsAlike (facts facts' : Facts) : Prop :=
  ∀ key : Str, (facts[key]?).map Json.sortKeys = (facts'[key]?).map Json.sortKeys

theorem equals_sortKeys (p : Primitive) (v : Json) : p.equals v.sortKeys = p.equals v := by
  cases v <;> cases p <;> simp [Json.sortKeys, Primitive.equals]

theorem FactsAlike.isSome (h : FactsAlike facts facts') (key : Str) :
    (facts[key]?).isSome = (facts'[key]?).isSome := by
  have hkey := congrArg Option.isSome (h key)
  simpa using hkey

theorem FactsAlike.cases (h : FactsAlike facts facts') (key : Str) :
    (facts[key]? = none ∧ facts'[key]? = none) ∨
      ∃ v w, facts[key]? = some v ∧ facts'[key]? = some w ∧ v.sortKeys = w.sortKeys := by
  have hkey := h key
  cases hv : facts[key]? with
  | none =>
    cases hw : facts'[key]? with
    | none => exact .inl ⟨rfl, rfl⟩
    | some w => simp [hv, hw] at hkey
  | some v =>
    cases hw : facts'[key]? with
    | none => simp [hv, hw] at hkey
    | some w =>
      refine .inr ⟨v, w, rfl, rfl, ?_⟩
      simpa [hv, hw] using hkey

theorem equals_congr {p : Primitive} {v w : Json} (h : v.sortKeys = w.sortKeys) :
    p.equals v = p.equals w := by
  rw [← equals_sortKeys p v, h, equals_sortKeys]

theorem conditionHolds_congr (h : FactsAlike facts facts') (c : Condition) :
    conditionHolds c facts = conditionHolds c facts' := by
  unfold conditionHolds
  rcases h.cases c.fact with ⟨hv, hw⟩ | ⟨v, w, hv, hw, hsame⟩
  · rw [hv, hw]
  · rw [hv, hw]
    simp only [equals_congr hsame, Option.isSome_some, Option.isNone_some]

theorem applyPostcondition_congr (h : FactsAlike facts facts')
    (happly : applyPostcondition facts c = some next) :
    ∃ next', applyPostcondition facts' c = some next' ∧ FactsAlike next next' := by
  unfold applyPostcondition at happly ⊢
  split at happly
  · cases happly
    refine ⟨facts'.insert c.fact c.value.json, rfl, ?_⟩
    intro key
    rw [Dict.get_insert, Dict.get_insert]
    split
    · rfl
    · exact h key
  · cases happly
    refine ⟨facts'.erase c.fact, rfl, ?_⟩
    intro key
    rw [Dict.get_erase, Dict.get_erase]
    split
    · rfl
    · exact h key
  · split at happly
    · rename_i hsome
      cases happly
      rw [h.isSome] at hsome
      exact ⟨facts', by simp [hsome], h⟩
    · cases happly
  · split at happly
    · cases happly
    · rename_i hne
      cases happly
      have hsame : c.value.equals ((facts'[c.fact]?).getD .null) =
          c.value.equals ((facts[c.fact]?).getD .null) := by
        rcases h.cases c.fact with ⟨hv, hw⟩ | ⟨v, w, hv, hw, hsame⟩
        · rw [hv, hw]
        · rw [hv, hw]
          exact (equals_congr hsame).symm
      rw [← hsame] at hne
      exact ⟨facts', by simp [hne], h⟩

theorem applyPostconditions_congr (h : FactsAlike facts facts')
    (happly : applyPostconditions facts conditions = some next) :
    ∃ next', applyPostconditions facts' conditions = some next' ∧ FactsAlike next next' := by
  induction conditions generalizing facts facts' with
  | nil =>
    cases happly
    exact ⟨facts', rfl, h⟩
  | cons c conditions ih =>
    obtain ⟨mid, hmid, happly⟩ := Option.bind_eq_some_iff.1 happly
    obtain ⟨mid', hmid', halike⟩ := applyPostcondition_congr h hmid
    obtain ⟨next', hnext, hlast⟩ := ih halike happly
    exact ⟨next', Option.bind_eq_some_iff.2 ⟨mid', hmid', hnext⟩, hlast⟩

theorem move_congr (h : FactsAlike facts facts') (hmove : move context edge facts = some next) :
    ∃ next', move context edge facts' = some next' ∧ FactsAlike next next' := by
  obtain ⟨havailable, happly⟩ := move_eq_some.1 hmove
  obtain ⟨next', hnext, halike⟩ := applyPostconditions_congr h happly
  refine ⟨next', move_eq_some.2 ⟨?_, hnext⟩, halike⟩
  rw [← havailable]
  simp only [availability, preconditionReasons, conditionHolds_congr h]

end IntegrityGuardian.Synapse
