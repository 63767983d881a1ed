import IntegrityGuardian.Discovery.Confluence

/-!
# What a receipt reports

Every record that an accepted batch puts in the place of another has the zones of
both in the receipt, however often its key changes inside the batch, and the
counts of the receipt balance.
-/

namespace IntegrityGuardian.Discovery

open Python Library

/-! ## Staged changes -/

/-- The zones and the cross-zone relations of a record are staged as changed. -/
def Staged.Reports (s : Staged) (entry : Option Record) : Prop :=
  ∀ record ∈ entry, record.zones ⊆ s.changedZones ∧
    record.crossZoneRelations ⊆ s.crossZoneRelationIds

/-- What the variables of `apply` have accounted for since the batch began. -/
structure Accounts (index : Index) (s : Staged) (accepted : List Record) : Prop where
  changes : ∀ key : ActiveKey, s.active[key]? ≠ index.active[key]? →
    s.Reports index.active[key]? ∧ s.Reports s.active[key]?
  accepted : accepted.length = s.inserted + s.updated + s.deleted + s.noOp
  active : s.active.size + s.deleted = index.active.size + s.inserted

theorem Accounts.start (index : Index) : Accounts index (Staged.start index) [] :=
  ⟨fun _ hne => absurd rfl hne, rfl, rfl⟩

theorem Staged.Reports.mono {s : Staged} {entry : Option Record} (h : s.Reports entry)
    (record : Record) (digest : Str) (identity : Option Str) :
    (s.next record digest identity).Reports entry := by
  intro old hold
  obtain ⟨hzones, hrelations⟩ := h old hold
  exact ⟨hzones.trans Finset.subset_union_left, hrelations.trans Finset.subset_union_left⟩

theorem Staged.reports_old (s : Staged) (record : Record) (digest : Str)
    (identity : Option Str) :
    (s.next record digest identity).Reports s.active[record.activeKey]? := by
  intro old hold
  rw [Option.mem_def] at hold
  simp only [Staged.next, hold, added]
  have hsubset : ∀ f : Record → Finset Str, f old ⊆ f old ∪ f record :=
    fun f => Finset.subset_union_left
  exact ⟨(hsubset _).trans Finset.subset_union_right, (hsubset _).trans Finset.subset_union_right⟩

theorem subset_added (f : Record → Finset Str) (old : Option Record) (record : Record) :
    f record ⊆ added f old record := by
  cases old with
  | none => exact Finset.Subset.refl _
  | some old => exact Finset.subset_union_right

theorem Staged.reports_new (s : Staged) (record : Record) (digest : Str)
    (identity : Option Str) :
    (s.next record digest identity).Reports
      (s.next record digest identity).active[record.activeKey]? := by
  intro new hnew
  have heq : new = record := by
    rcases get_applyRecord hnew with ⟨-, -, heq⟩ | ⟨hne, -⟩
    · exact heq
    · exact absurd rfl hne
  subst heq
  exact ⟨(subset_added Record.zones _ new).trans Finset.subset_union_right,
    (subset_added Record.crossZoneRelations _ new).trans Finset.subset_union_right⟩

theorem get_applyRecord_other {active : Dict ActiveKey Record} {record : Record} {key : ActiveKey}
    (h : record.activeKey ≠ key) : (applyRecord active record)[key]? = active[key]? := by
  unfold applyRecord
  cases record.change with
  | upsert => rw [Dict.get_insert, if_neg h]
  | delete => rw [Dict.get_erase, if_neg h]

theorem size_applyRecord (active : Dict ActiveKey Record) (record : Record) :
    (applyRecord active record).size + counts .delete true active[record.activeKey]? record =
      active.size + counts .upsert false active[record.activeKey]? record := by
  unfold applyRecord counts
  have hcontains : active.contains record.activeKey = active[record.activeKey]?.isSome :=
    Std.ExtTreeMap.contains_eq_isSome_getElem?
  cases hchange : record.change with
  | upsert =>
    simp only [Std.ExtTreeMap.size_insert, hcontains]
    cases active[record.activeKey]? <;> rfl
  | delete =>
    simp only [Std.ExtTreeMap.size_erase, hcontains]
    cases hold : active[record.activeKey]? with
    | none => rfl
    | some old =>
      have hpos : 0 < active.size := by
        by_contra hzero
        have hempty : active = ∅ := Std.ExtTreeMap.eq_empty_iff_size_eq_zero.2 (by omega)
        rw [hempty, Dict.get_empty] at hold
        cases hold
      simp only [Option.isSome_some, if_true, and_self, reduceCtorEq, if_false]
      omega

theorem counts_eq_one (old : Option Record) (record : Record) :
    counts .upsert false old record + counts .upsert true old record +
      counts .delete true old record + counts .delete false old record = 1 := by
  unfold counts
  cases record.change <;> cases old <;> rfl

theorem Accounts.next {index : Index} {s : Staged} {accepted : List Record}
    (h : Accounts index s accepted) (record : Record) (digest : Str) (identity : Option Str) :
    Accounts index (s.next record digest identity) (accepted ++ [record]) := by
  refine ⟨?_, ?_, ?_⟩
  · intro key hne
    by_cases hkey : record.activeKey = key
    · subst hkey
      refine ⟨?_, s.reports_new record digest identity⟩
      by_cases hsame : s.active[record.activeKey]? = index.active[record.activeKey]?
      · rw [← hsame]
        exact s.reports_old record digest identity
      · exact (h.changes _ hsame).1.mono record digest identity
    · have hactive : (s.next record digest identity).active[key]? = s.active[key]? :=
        get_applyRecord_other hkey
      rw [hactive] at hne ⊢
      obtain ⟨hbefore, hafter⟩ := h.changes key hne
      exact ⟨hbefore.mono record digest identity, hafter.mono record digest identity⟩
  · have hone := counts_eq_one s.active[record.activeKey]? record
    have haccepted := h.accepted
    rw [List.length_append, List.length_singleton]
    simp only [Staged.next]
    omega
  · have hsize := size_applyRecord s.active record
    have hactive := h.active
    simp only [Staged.next]
    omega

section
variable [UnicodeData] [Ed25519Keys]

theorem accounts_of_stageEach {config : Config} {index : Index} {records : List Json}
    {reviewPriority : Json} {s : Staged} {accepted : List Record}
    {decisions : List DiscoveryAdmissionDecision}
    (h : stageEach config reviewPriority records (Staged.start index) [] [] =
      .staged s accepted decisions) : Accounts index s accepted := by
  have hrun := @stageEach_invariant _ _ config reviewPriority (Accounts index) records ?_
    (Staged.start index) [] [] (Accounts.start index)
  · rwa [h] at hrun
  · intro s accepted raw record decision s' _ haccounts hone
    obtain ⟨digest, -, -, -, rfl⟩ := stageOne_eq_ok hone
    rw [Staged.settle_eq_next]
    exact haccounts.next record digest _

/-! ## Receipts -/

/-- A receipt reports the way from one index to another. -/
structure ReportsChanges (index index' : Index) (receipt : Json) : Prop where
  changes : ∃ zones relations : List Str,
    textsItem receipt (str "changed_zone_ids") = .ok zones ∧
    textsItem receipt (str "cross_zone_relation_ids") = .ok relations ∧
    ∀ key : ActiveKey, index'.active[key]? ≠ index.active[key]? →
      ∀ record, record ∈ index.active[key]? ∨ record ∈ index'.active[key]? →
        (∀ zone ∈ record.zones, zone ∈ zones) ∧
          ∀ relation ∈ record.crossZoneRelations, relation ∈ relations
  counts : ∃ accepted inserted updated deleted noOp : Int,
    receipt.intItem (str "accepted_count") = .ok accepted ∧
    receipt.intItem (str "inserted_count") = .ok inserted ∧
    receipt.intItem (str "updated_count") = .ok updated ∧
    receipt.intItem (str "deleted_count") = .ok deleted ∧
    receipt.intItem (str "no_op_count") = .ok noOp ∧
    accepted = inserted + updated + deleted + noOp ∧
    (index'.active.size : Int) = index.active.size + inserted - deleted

/-- The receipt of an accepted batch reports every active record that differs
behind it, and its counts balance. -/
theorem receipt_reports_changes (config : Config) (records : List Json) (reviewPriority : Json)
    (index : Index) {receipt : Json} {index' : Index}
    (h : apply config records reviewPriority index = (.ok receipt, index')) :
    ReportsChanges index index' receipt := by
  obtain ⟨s, accepted, decisions, hstage, hissue, rfl⟩ := apply_eq_ok h
  have haccounts := accounts_of_stageEach hstage
  obtain ⟨batchDigest, receiptId, signature, rfl⟩ := issueReceipt_eq_ok hissue
  have haccepted := haccounts.accepted
  have hactive := haccounts.active
  refine ⟨⟨ascending s.changedZones, ascending s.crossZoneRelationIds, textsItem_fields rfl,
    textsItem_fields rfl, ?_⟩, ⟨accepted.length, s.inserted, s.updated, s.deleted, s.noOp,
    Json.intItem_fields rfl, Json.intItem_fields rfl, Json.intItem_fields rfl,
    Json.intItem_fields rfl, Json.intItem_fields rfl, by omega, ?_⟩⟩
  · intro key hne record hrecord
    obtain ⟨hbefore, hafter⟩ := haccounts.changes key hne
    obtain ⟨hzones, hrelations⟩ := hrecord.elim (hbefore record) (hafter record)
    exact ⟨fun zone hzone => mem_ascending.2 (hzones hzone),
      fun relation hrelation => mem_ascending.2 (hrelations hrelation)⟩
  · simp only [Index.commit]
    omega

end

namespace Sample

attribute [local instance] asciiUnicodeData ed25519

/-- The first records of two sources, reported in one receipt. -/
theorem two_sources_reported :
    ∃ receipt index, apply (config none) [boundRecord, unboundRecord] (.int 0) Index.empty =
      (.ok receipt, index) ∧ ReportsChanges Index.empty index receipt := by
  obtain ⟨receipt, index, h⟩ := accepted_bound_first
  exact ⟨receipt, index, h,
    receipt_reports_changes (config none) [boundRecord, unboundRecord] (.int 0) Index.empty h⟩

end Sample

end IntegrityGuardian.Discovery
