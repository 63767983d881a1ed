import IntegrityGuardian.SeedRelationships.Gates

/-!
# The order of the gates

A gate that was found relevant links its events, and later gates are tested against these
links.  The order is without effect exactly when no gate that is relevant from the start
strengthens an event of another one.
-/

namespace IntegrityGuardian.SeedRelationships

open Python Library

variable {index : Index} {eventId : Int}

/-! ## Links by what is compared -/

/-- What calls for some events with one relation and strength contribute. -/
def raise (index : Index) (eventId : Int) (targets : List Int) (relation : Str) (strength : Int)
    (t : Int) : WithBot (Int × Finset Str) :=
  if t ∈ targets ∧ t ≠ eventId ∧ t ∈ index.byId then ((strength, {relation}) : Int × Finset Str)
  else ⊥

variable {turn : GateRecord × Finset Int} {t : Int} {call : LinkCall} {links : Links}
  {records : List GateRecord}

theorem view_link (hstrength : 0 ≤ call.strength) : view (link index eventId links call)
      = view links ⊔ raise index eventId [call.targetId] call.relation call.strength := by
  ext1 t
  rw [Pi.sup_apply]
  unfold link raise
  by_cases hskip : call.targetId = eventId ∨ call.targetId ∉ index.byId
  · rw [if_pos hskip, if_neg, sup_bot_eq]
    rintro ⟨ht, hne, hmem⟩
    rw [List.mem_singleton.1 ht] at hne hmem
    exact hskip.elim hne fun h => h hmem
  · rw [if_neg hskip]
    obtain ⟨hne, hmem⟩ := not_or.1 hskip
    by_cases ht : t = call.targetId
    · rw [ht, if_pos ⟨List.mem_singleton_self _, hne, not_not.1 hmem⟩]
      unfold view
      rw [Function.update_self]
      cases links call.targetId with
      | none =>
        rw [bot_sup_eq]
        show (((max 0 call.strength, insert call.relation ∅) : Int × Finset Str) :
          WithBot (Int × Finset Str)) = _
        rw [max_eq_right hstrength, insert_empty_eq]
      | some l =>
        show (((max l.strength call.strength, insert call.relation l.relations) :
          Int × Finset Str) : WithBot (Int × Finset Str))
            = ((((l.strength, l.relations) : Int × Finset Str)) : WithBot (Int × Finset Str)) ⊔ _
        rw [← WithBot.coe_sup, Finset.insert_eq, Finset.union_comm]
        rfl
    · rw [if_neg fun h => ht (List.mem_singleton.1 h.1), sup_bot_eq]
      unfold view
      rw [Function.update_of_ne ht]

theorem strengthOf_link (t : Int) : strengthOf (link index eventId links call) t
      = if t = call.targetId ∧ t ≠ eventId ∧ t ∈ index.byId then
          max (strengthOf links t) call.strength
        else strengthOf links t := by
  unfold link
  by_cases hskip : call.targetId = eventId ∨ call.targetId ∉ index.byId
  · rw [if_pos hskip, if_neg]
    rintro ⟨rfl, hne, hmem⟩
    exact hskip.elim hne fun h => h hmem
  · rw [if_neg hskip]
    obtain ⟨hne, hmem⟩ := not_or.1 hskip
    unfold strengthOf
    by_cases ht : t = call.targetId
    · rw [ht, if_pos ⟨rfl, hne, not_not.1 hmem⟩, Function.update_self]
      cases links call.targetId <;> rfl
    · rw [if_neg fun h => ht h.1, Function.update_of_ne ht]

/-- Calls that differ in their event only. -/
def callsOf (targets : List Int) (relation : Str) (strength : Int) (reason : Json) :
    List LinkCall :=
  targets.map fun targetId => ⟨targetId, relation, strength, reason⟩

theorem linkAll_cons (links : Links) (target : Int) (targets : List Int) (relation : Str)
    (strength : Int) (reason : Json) :
    linkAll index eventId links (callsOf (target :: targets) relation strength reason)
      = linkAll index eventId (link index eventId links ⟨target, relation, strength, reason⟩)
        (callsOf targets relation strength reason) := rfl

theorem raise_cons (target : Int) (targets : List Int) (relation : Str) (strength : Int) :
    raise index eventId (target :: targets) relation strength
      = raise index eventId [target] relation strength
        ⊔ raise index eventId targets relation strength := by
  ext1 t
  rw [Pi.sup_apply]
  unfold raise
  by_cases hadmitted : t ≠ eventId ∧ t ∈ index.byId
  · by_cases htarget : t = target
    · rw [if_pos ⟨List.mem_cons.2 (.inl htarget), hadmitted⟩,
        if_pos ⟨List.mem_cons.2 (.inl htarget), hadmitted⟩]
      by_cases hmem : t ∈ targets
      · rw [if_pos ⟨hmem, hadmitted⟩, sup_idem]
      · rw [if_neg fun h => hmem h.1, sup_bot_eq]
    · simp [hadmitted, htarget]
  · rw [if_neg fun h => hadmitted h.2, if_neg fun h => hadmitted h.2,
      if_neg fun h => hadmitted h.2, sup_bot_eq]

theorem view_linkAll (targets : List Int) (relation : Str) {strength : Int}
    (reason : Json) (hstrength : 0 ≤ strength) :
    view (linkAll index eventId links (callsOf targets relation strength reason))
      = view links ⊔ raise index eventId targets relation strength := by
  induction targets generalizing links with
  | nil =>
    ext1 t
    simp [linkAll, callsOf, raise]
  | cons target targets ih => 
    rw [linkAll_cons, ih, view_link hstrength, raise_cons target targets, sup_assoc]

theorem strengthOf_linkAll (targets : List Int) (relation : Str) (strength : Int)
    (reason : Json) (t : Int) :
    strengthOf (linkAll index eventId links (callsOf targets relation strength reason)) t
      = if t ∈ targets ∧ t ≠ eventId ∧ t ∈ index.byId then max (strengthOf links t) strength
        else strengthOf links t := by
  induction targets generalizing links with
  | nil => simp [linkAll, callsOf]
  | cons target targets ih =>
    rw [linkAll_cons, ih, strengthOf_link]
    by_cases hadmitted : t ≠ eventId ∧ t ∈ index.byId
    · by_cases htarget : t = target
      · rw [if_pos (⟨htarget, hadmitted⟩ : t = target ∧ _),
          if_pos (⟨List.mem_cons.2 (.inl htarget), hadmitted⟩ : t ∈ target :: targets ∧ _)]
        by_cases hmem : t ∈ targets
        · rw [if_pos ⟨hmem, hadmitted⟩, max_assoc, max_self]
        · rw [if_neg fun h => hmem h.1]
      · simp [hadmitted, htarget]
    · rw [if_neg fun h => hadmitted h.2, if_neg fun h => hadmitted h.2,
        if_neg fun h => hadmitted h.2]

/-! ## The loop as a pass -/

/-- What is compared of a record. -/
def GateRecord.document (record : GateRecord) : GateRecord := { record with digest := [] }

def reads (record : GateRecord) : Finset Int := record.gate.externalEventIds.toFinset

/-- The events that a relevant gate makes supporting. -/
def adds (index : Index) (eventId : Int) (record : GateRecord) : Finset Int :=
  if 70 ≤ gateLinkStrength eventId record then
    (reads record).filter fun t => t ≠ eventId ∧ t ∈ index.byId
  else ∅

def supporting (index : Index) (eventId : Int) (links : Links) : Finset Int :=
  (insert eventId index.byId).filter (supports eventId links)

/-- Only known events have links. -/
def Known (index : Index) (links : Links) : Prop := ∀ t, links t ≠ none → t ∈ index.byId

theorem Known.link (h : Known index links) (call : LinkCall) :
    Known index (link index eventId links call) := by
  intro t ht
  unfold SeedRelationships.link at ht
  split at ht
  · exact h t ht
  · rename_i hskip
    by_cases htarget : t = call.targetId
    · rw [htarget]
      exact not_not.1 (not_or.1 hskip).2
    · rw [Function.update_of_ne htarget] at ht
      exact h t ht

theorem Known.linkAll (h : Known index links) (calls : List LinkCall) :
    Known index (linkAll index eventId links calls) := by
  induction calls generalizing links with
  | nil => exact h
  | cons call calls ih => exact ih (h.link call)

theorem mem_supporting (h : Known index links) :
    t ∈ supporting index eventId links ↔ supports eventId links t := by
  unfold supporting
  rw [Finset.mem_filter, and_iff_right_iff_imp]
  rintro (rfl | hstrength)
  · exact Finset.mem_insert_self _ _
  · refine Finset.mem_insert_of_mem (h t fun hnone => ?_)
    unfold strengthOf at hstrength
    rw [hnone] at hstrength
    exact absurd hstrength (by decide)

theorem gateLinkStrength_nonneg (record : GateRecord) : 0 ≤ gateLinkStrength eventId record := by
  unfold gateLinkStrength
  dsimp only
  split_ifs <;> decide

theorem supporting_gate (eventId : Int) (h : Known index links) (record : GateRecord) :
    supporting index eventId (linkAll index eventId links (gateCalls eventId record))
      = supporting index eventId links ∪ adds index eventId record := by
  have hknown : Known index (linkAll index eventId links (gateCalls eventId record)) :=
    h.linkAll _
  ext t
  rw [Finset.mem_union, mem_supporting hknown, mem_supporting h]
  have hstrength : strengthOf (linkAll index eventId links (gateCalls eventId record)) t = _ :=
    strengthOf_linkAll record.gate.externalEventIds (str "co-supports-gate")
      (gateLinkStrength eventId record) (gateReason record) t
  unfold supports
  rw [hstrength]
  unfold adds reads
  by_cases hadmitted : t ∈ record.gate.externalEventIds ∧ t ≠ eventId ∧ t ∈ index.byId
  · rw [if_pos hadmitted, le_max_iff, or_assoc]
    split
    · rename_i hstrong
      simp [hadmitted, hstrong]
    · rename_i hweak
      simp [hweak]
  · rw [if_neg hadmitted]
    split
    · rw [Finset.mem_filter, List.mem_toFinset]
      simp [hadmitted]
    · simp

theorem toFinset_supporting (h : Known index links) (record : GateRecord) :
    (record.gate.externalEventIds.filter (supports eventId links)).toFinset
      = reads record ∩ supporting index eventId links := by
  ext t
  rw [Finset.mem_inter, mem_supporting h, reads]
  simp

/-- What one relevant gate gives for comparison. -/
def gateOf (eventId : Int) (turn : GateRecord × Finset Int) : RelevantGate × Finset Int :=
  ({ gate := turn.1.gate
     sourceEventId := turn.1.sourceEventId
     sourcePath := turn.1.path
     bindingStatus := turn.1.bindingStatus
     relevance :=
       if eventId ∈ turn.1.gate.externalEventIds then .directExternalEvidence
       else .supportedThroughConnectedEvent
     relevanceEventIds := [] }, turn.2)

def raiseGate (index : Index) (eventId : Int) (record : GateRecord) :
    Int → WithBot (Int × Finset Str) :=
  raise index eventId record.gate.externalEventIds (str "co-supports-gate")
    (gateLinkStrength eventId record)

/-- The turns of the records, by what is compared of them. -/
def turnsOf (index : Index) (eventId : Int) (links : Links) (records : List GateRecord) :
    List (GateRecord × Finset Int) :=
  OnePass.turns reads (adds index eventId) (supporting index eventId links)
    (records.map GateRecord.document)

theorem turnsOf_cons (h : Known index links) (record : GateRecord) (records : List GateRecord) :
    turnsOf index eventId links (record :: records)
      = if record.gate.externalEventIds.filter (supports eventId links) = [] then
          turnsOf index eventId links records
        else
          (record.document, (record.gate.externalEventIds.filter (supports eventId links)).toFinset)
            :: turnsOf index eventId (linkAll index eventId links (gateCalls eventId record))
              records := by
  have hids : reads record.document ∩ supporting index eventId links
      = (record.gate.externalEventIds.filter (supports eventId links)).toFinset :=
    (toFinset_supporting h record).symm
  have hlinks := supporting_gate eventId h record
  unfold turnsOf
  rw [List.map_cons, OnePass.turns, hids]
  by_cases hempty : record.gate.externalEventIds.filter (supports eventId links) = []
  · rw [if_pos hempty, hempty, if_neg (by simp), OnePass.step_of_empty]
    rw [hids, hempty]
    simp
  · have hnonempty : (reads record.document ∩ supporting index eventId links).Nonempty := by
      rw [hids]
      exact List.toFinset_nonempty_iff _ |>.2 hempty
    rw [if_neg hempty, if_pos (hids ▸ hnonempty), OnePass.step_of_nonempty hnonempty, hlinks]
    rfl

theorem gateStep_foldl (eventId : Int) (records : List GateRecord) {s : Explanation} (h : Known index s.links) :
    let s' := records.foldl (gateStep index eventId) s
    let turns := turnsOf index eventId s.links records
    s'.relevantGates.map RelevantGate.asSet
        = s.relevantGates.map RelevantGate.asSet ++ turns.map (gateOf eventId)
      ∧ s'.findings = s.findings ++ turns.flatMap (fun turn => gateFindings index turn.1.gate)
      ∧ view s'.links
        = turns.foldl (fun v turn => v ⊔ raiseGate index eventId turn.1) (view s.links) := by
  induction records generalizing s with
  | nil => simp [turnsOf, OnePass.turns]
  | cons record records ih =>
    intro s' turns
    have hturns : turns = _ := turnsOf_cons h record records
    have hs' : s' = records.foldl (gateStep index eventId) (gateStep index eventId s record) := rfl
    by_cases hempty : record.gate.externalEventIds.filter (supports eventId s.links) = []
    · rw [if_pos hempty] at hturns
      have hstep : gateStep index eventId s record = s := if_pos hempty
      rw [hs', hstep, hturns]
      exact ih h
    · rw [if_neg hempty] at hturns
      have hstep : gateStep index eventId s record = _ := if_neg hempty
      have hlinks : Known index (gateStep index eventId s record).links := by
        rw [hstep]
        exact h.linkAll (gateCalls eventId record)
      obtain ⟨hgates, hfindings, hview⟩ := ih hlinks
      rw [hs', hturns]
      refine ⟨?_, ?_, ?_⟩
      · rw [hgates, hstep, List.map_append, List.map_cons, List.append_assoc]
        rfl
      · rw [hfindings, hstep, List.flatMap_cons, List.append_assoc]
        rfl
      · rw [hview, hstep, List.foldl_cons]
        congr 1
        exact view_linkAll _ _ _ (gateLinkStrength_nonneg record)

/-! ## Turns as a set -/

theorem foldl_sup {α β : Type} [DecidableEq α] [SemilatticeSup β] [OrderBot β] (f : α → β)
    (l : List α) (v : β) : l.foldl (fun v a => v ⊔ f a) v = v ⊔ l.toFinset.sup f := by
  induction l generalizing v with
  | nil => simp
  | cons a l ih => rw [List.foldl_cons, ih, List.toFinset_cons, Finset.sup_insert, sup_assoc]

theorem gateOf_injective {turn' : GateRecord × Finset Int}
    (hdocument : turn.1.digest = []) (hdocument' : turn'.1.digest = [])
    (h : gateOf eventId turn = gateOf eventId turn') : turn = turn' := by
  obtain ⟨⟨source, path, digest, binding, gate⟩, ids⟩ := turn
  obtain ⟨⟨source', path', digest', binding', gate'⟩, ids'⟩ := turn'
  simp only [gateOf, Prod.mk.injEq, RelevantGate.mk.injEq] at h
  obtain ⟨⟨rfl, rfl, rfl, rfl, -⟩, rfl⟩ := h
  dsimp only at hdocument hdocument'
  rw [hdocument, hdocument']

theorem digest_of_mem_turnsOf (h : turn ∈ turnsOf index eventId links records) :
    turn.1.digest = [] := by
  obtain ⟨record, -, hrecord⟩ := List.mem_map.1 (OnePass.mem_of_mem_turns h)
  rw [← hrecord]
  rfl

theorem mem_map_gateOf (hdocument : turn.1.digest = []) :
    gateOf eventId turn ∈ (turnsOf index eventId links records).map (gateOf eventId)
      ↔ turn ∈ turnsOf index eventId links records := by
  constructor
  · intro h
    obtain ⟨turn', hturn', heq⟩ := List.mem_map.1 h
    rw [← gateOf_injective (digest_of_mem_turnsOf hturn') hdocument heq]
    exact hturn'
  · intro h
    exact List.mem_map_of_mem h

theorem same_iff (h : Known index links) (records records' : List GateRecord) :
    Explanation.Same (records.foldl (gateStep index eventId) ⟨links, [], []⟩)
        (records'.foldl (gateStep index eventId) ⟨links, [], []⟩)
      ↔ ∀ turn, turn ∈ turnsOf index eventId links records
        ↔ turn ∈ turnsOf index eventId links records' := by
  have hstart : Known index (⟨links, [], []⟩ : Explanation).links := h
  obtain ⟨hgates, hfindings, hview⟩ := gateStep_foldl eventId records hstart
  obtain ⟨hgates', hfindings', hview'⟩ := gateStep_foldl eventId records' hstart
  rw [List.map_nil, List.nil_append] at hgates hgates'
  rw [List.nil_append] at hfindings hfindings'
  constructor
  · intro hsame turn
    have hboth := hsame.relevantGates (gateOf eventId turn)
    rw [hgates, hgates'] at hboth
    constructor
    · intro hturn
      have hdocument := digest_of_mem_turnsOf hturn
      exact (mem_map_gateOf hdocument).1 (hboth.1 ((mem_map_gateOf hdocument).2 hturn))
    · intro hturn
      have hdocument := digest_of_mem_turnsOf hturn
      exact (mem_map_gateOf hdocument).1 (hboth.2 ((mem_map_gateOf hdocument).2 hturn))
  · intro hturns
    refine ⟨?_, ?_, ?_⟩
    · intro g
      rw [hgates, hgates', List.mem_map, List.mem_map]
      simp only [hturns]
    · intro f
      rw [hfindings, hfindings', List.mem_flatMap, List.mem_flatMap]
      simp only [hturns]
    · have hset : (turnsOf index eventId links records).toFinset
          = (turnsOf index eventId links records').toFinset := by
        ext turn
        rw [List.mem_toFinset, List.mem_toFinset]
        exact hturns turn
      have hsup := foldl_sup fun turn : GateRecord × Finset Int => raiseGate index eventId turn.1
      rw [hview, hview', hsup, hsup, hset]

/-! ## When the order is without effect -/

/-- The gate links this event strongly enough to support other gates. -/
def Strengthens (index : Index) (eventId : Int) (record : GateRecord) (t : Int) : Prop :=
  t ∈ record.gate.externalEventIds ∧ t ≠ eventId ∧ t ∈ index.byId
    ∧ 70 ≤ gateLinkStrength eventId record

theorem mem_adds {record : GateRecord} :
    t ∈ adds index eventId record ↔ Strengthens index eventId record t := by
  unfold adds Strengthens reads
  split
  · rename_i hstrong
    simp [hstrong]
  · rename_i hweak
    simp [hweak]

/-- The gates, their findings and the links are the same in every order if and only if no gate
that is relevant from the start strengthens an external event of another one. -/
theorem explainGates_order_iff (index : Index) (eventId : Int) (calls : List LinkCall)
    (gateRecords : List GateRecord) :
    let links := linkAll index eventId (fun _ => none) calls
    (∀ order, order.Perm gateRecords →
      (explainGates index eventId calls order).Same
        (explainGates index eventId calls gateRecords))
      ↔ ∀ g ∈ gateRecords, ∀ h ∈ gateRecords, g.document ≠ h.document →
        (∃ t ∈ h.gate.externalEventIds, supports eventId links t) →
        ∀ t ∈ g.gate.externalEventIds, Strengthens index eventId h t →
          supports eventId links t := by
  intro links
  have hknown : Known index links := by
    refine Known.linkAll ?_ calls
    intro t ht
    exact absurd rfl ht
  have hturns : (∀ order, order.Perm gateRecords →
      (explainGates index eventId calls order).Same (explainGates index eventId calls gateRecords))
      ↔ OnePass.Apart reads (adds index eventId) (supporting index eventId links)
        (gateRecords.map GateRecord.document) := by
    rw [← OnePass.turns_perm_iff]
    constructor
    · intro hsame order horder
      obtain ⟨order, horder', rfl⟩ := OnePass.exists_map_perm horder
      exact (same_iff hknown order gateRecords).1 (hsame order horder')
    · intro hsame order horder
      exact (same_iff hknown order gateRecords).2 (hsame _ (horder.map _))
  rw [hturns]
  have hrelevant (h : GateRecord) :
      (reads h.document ∩ supporting index eventId links).Nonempty
        ↔ ∃ t ∈ h.gate.externalEventIds, supports eventId links t := by
    simp only [Finset.Nonempty, Finset.mem_inter, mem_supporting hknown]
    unfold reads GateRecord.document
    simp only [List.mem_toFinset]
  have hsubset (g h : GateRecord) :
      reads g.document ∩ adds index eventId h.document ⊆ supporting index eventId links
        ↔ ∀ t ∈ g.gate.externalEventIds, Strengthens index eventId h t →
          supports eventId links t := by
    simp only [Finset.subset_iff, Finset.mem_inter, mem_supporting hknown, mem_adds, and_imp]
    unfold reads GateRecord.document
    simp only [List.mem_toFinset]
    rfl
  unfold OnePass.Apart
  simp only [List.forall_mem_map, hrelevant, hsubset]

namespace Sample

/-- A Seed of two events without links. -/
def seed : Index := ⟨{1, 2}, fun _ => none, 0⟩

def record (gateId : Str) (externalEventIds : List Int) : GateRecord :=
  ⟨1, str "gates.json", [], str "current-unbound",
    ⟨gateId, [], [], none, [], [], externalEventIds, false⟩⟩

/-- The first gate has no link to its event until the second one was found relevant. -/
theorem gates_depend_on_order :
    ¬ ∀ (index : Index) (eventId : Int) (calls : List LinkCall) (gateRecords order : List GateRecord),
      order.Perm gateRecords →
        (explainGates index eventId calls order).Same
          (explainGates index eventId calls gateRecords) := by
  intro hall
  have hsame := hall seed 1 [] [record (str "a") [2], record (str "b") [1, 2]]
    [record (str "b") [1, 2], record (str "a") [2]] (List.Perm.swap _ _ _)
  have hnone : Known seed fun _ => none := fun t ht => absurd rfl ht
  have hboth := (same_iff hnone _ _).1 hsame (record (str "a") [2], {2})
  have hfound : (record (str "a") [2], ({2} : Finset Int)) ∈ turnsOf seed 1 (fun _ => none)
      [record (str "b") [1, 2], record (str "a") [2]] := by decide
  exact absurd (hboth.1 hfound) (by decide)

end Sample

end IntegrityGuardian.SeedRelationships
