import IntegrityGuardian.Library.SnapshotLoop
import IntegrityGuardian.MemoryPlane.Plain

/-!
# Posting lists

`encode_deltas` writes a set of cursors as the differences of its sorted list, and
`decode_deltas` adds them up again.  A list of differences is in normal form when
none is negative and only the first may be zero.
-/

namespace IntegrityGuardian.MemoryPlane

open Python Library

/-- `decode_deltas`. -/
def decodeDeltas : List Int → Int → Except Failure (List Int)
  | [], _ => .ok []
  | delta :: values, cursor => do
    ensure (0 ≤ delta) (.raised (.valueError (str "negative posting delta")))
    let result ← decodeDeltas values (cursor + delta)
    .ok ((cursor + delta) :: result)

/-- What the encoder writes: the first difference is not negative, the others are positive. -/
def NormalForm : List Int → Prop
  | [] => True
  | delta :: values => 0 ≤ delta ∧ ∀ value ∈ values, 0 < value

/-- The cursors that a list of differences stands for. -/
def sums : Int → List Int → List Int
  | _, [] => []
  | previous, delta :: values => (previous + delta) :: sums (previous + delta) values

/-! ## Sums and differences -/

variable {base : Int} {cursors values : List Int}

theorem decodeDeltas_eq (h : ∀ value ∈ values, 0 ≤ value) (base : Int) :
    decodeDeltas values base = .ok (sums base values) := by
  induction values generalizing base with
  | nil => rfl
  | cons delta values ih =>
    have hdelta : 0 ≤ delta := h delta List.mem_cons_self
    have hrest := ih (fun value hvalue => h value (List.mem_cons_of_mem _ hvalue)) (base + delta)
    rw [decodeDeltas, ensure_of hdelta, ok_bind, hrest, ok_bind, sums]

@[simp] theorem sums_deltas (base : Int) (cursors : List Int) :
    sums base (deltas base cursors) = cursors := by
  induction cursors generalizing base with
  | nil => rfl
  | cons cursor cursors ih =>
    have hcursor : base + (cursor - base) = cursor := by omega
    rw [deltas, sums, hcursor, ih]

@[simp] theorem deltas_sums (base : Int) (values : List Int) :
    deltas base (sums base values) = values := by
  induction values generalizing base with
  | nil => rfl
  | cons delta values ih =>
    have hdelta : base + delta - base = delta := by omega
    rw [sums, deltas, hdelta, ih]

theorem deltas_pos {previous : Int}
    (h : (previous :: cursors).Pairwise (· < ·)) : ∀ value ∈ deltas previous cursors, 0 < value := by
  induction cursors generalizing previous with
  | nil => simp [deltas]
  | cons cursor cursors ih =>
    obtain ⟨hfirst, hrest⟩ := List.pairwise_cons.1 h
    have hlt := hfirst cursor List.mem_cons_self
    intro value hvalue
    rw [deltas, List.mem_cons] at hvalue
    cases hvalue with
    | inl heq => omega
    | inr hmem => exact ih hrest value hmem

theorem deltas_normalForm (hbase : ∀ c ∈ cursors, base ≤ c)
    (h : cursors.Pairwise (· < ·)) : NormalForm (deltas base cursors) := by
  cases cursors with
  | nil => trivial
  | cons cursor cursors =>
    have hle := hbase cursor List.mem_cons_self
    exact ⟨by omega, deltas_pos h⟩

theorem sums_increasing {previous : Int} {values : List Int} (h : ∀ value ∈ values, 0 < value) :
    (previous :: sums previous values).Pairwise (· < ·) := by
  induction values generalizing previous with
  | nil => simp [sums]
  | cons delta values ih =>
    have hdelta := h delta List.mem_cons_self
    have hrest := @ih (previous + delta)
      (fun value hvalue => h value (List.mem_cons_of_mem _ hvalue))
    rw [sums, List.pairwise_cons]
    refine ⟨?_, hrest⟩
    intro cursor hcursor
    have hlt : previous < previous + delta := by omega
    cases List.mem_cons.1 hcursor with
    | inl heq => rw [heq]; exact hlt
    | inr hmem => exact hlt.trans ((List.pairwise_cons.1 hrest).1 cursor hmem)

theorem NormalForm.nonneg (h : NormalForm values) : ∀ value ∈ values, 0 ≤ value := by
  cases values with
  | nil => simp
  | cons delta values =>
    intro value hvalue
    cases List.mem_cons.1 hvalue with
    | inl heq => rw [heq]; exact h.1
    | inr hmem => exact (h.2 value hmem).le

theorem NormalForm.sums {base : Int} {values : List Int} (h : NormalForm values) :
    (∀ cursor ∈ MemoryPlane.sums base values, base ≤ cursor) ∧
      (MemoryPlane.sums base values).Pairwise (· < ·) := by
  cases values with
  | nil => simp [MemoryPlane.sums]
  | cons delta values =>
    have hdelta := h.1
    have hincreasing := @sums_increasing (base + delta) _ h.2
    refine ⟨?_, hincreasing⟩
    intro cursor hcursor
    cases List.mem_cons.1 hcursor with
    | inl heq => omega
    | inr hmem =>
      have hlt := (List.pairwise_cons.1 hincreasing).1 cursor hmem
      omega

/-! ## The encoder's order -/

theorem sorted_distinct (cursors : List Int) :
    (cursors.dedup.insertionSort (· ≤ ·)).Pairwise (· < ·) := by
  have hsorted := List.pairwise_insertionSort (· ≤ ·) cursors.dedup
  have hnodup : (cursors.dedup.insertionSort (· ≤ ·)).Nodup :=
    (List.perm_insertionSort _ _).nodup_iff.2 (List.nodup_dedup _)
  exact (hsorted.and hnodup).imp fun h => lt_of_le_of_ne h.1 h.2

theorem mem_sorted_distinct {cursor : Int} :
    cursor ∈ cursors.dedup.insertionSort (· ≤ ·) ↔ cursor ∈ cursors := by
  rw [List.mem_insertionSort, List.mem_dedup]

theorem sorted_distinct_of_increasing (h : cursors.Pairwise (· < ·)) :
    cursors.dedup.insertionSort (· ≤ ·) = cursors := by
  have hnodup : cursors.Nodup := h.imp fun hlt => hlt.ne
  rw [hnodup.dedup]
  exact (h.imp fun hlt => hlt.le).insertionSort_eq

theorem encodeDeltas_eq (h : ∀ cursor ∈ cursors, base ≤ cursor) :
    encodeDeltas cursors base = .ok (deltas base (cursors.dedup.insertionSort (· ≤ ·))) := by
  unfold encodeDeltas
  rw [if_neg]
  rw [List.any_eq_true]
  rintro ⟨cursor, hcursor, hlt⟩
  have hle := h cursor (mem_sorted_distinct.1 hcursor)
  rw [decide_eq_true_eq] at hlt
  omega

theorem encodeDeltas_error (h : ∃ cursor ∈ cursors, cursor < base) : encodeDeltas cursors base =
      .error (.raised (.valueError (str "posting cursor precedes bucket base"))) := by
  obtain ⟨cursor, hcursor, hlt⟩ := h
  unfold encodeDeltas
  rw [if_pos]
  rw [List.any_eq_true]
  exact ⟨cursor, mem_sorted_distinct.2 hcursor, decide_eq_true hlt⟩

/-- What is written for cursors that are not below the base is in normal form and is read back as
the increasing list of them. -/
theorem decode_encode {cs : List Int} (hcs : ∀ cursor ∈ cs, base ≤ cursor) :
    ∃ ds cursors, encodeDeltas cs base = .ok ds ∧ NormalForm ds ∧
      decodeDeltas ds base = .ok cursors ∧
      cursors.Pairwise (· < ·) ∧ ∀ cursor, cursor ∈ cursors ↔ cursor ∈ cs := by
  have hnormal : NormalForm (deltas base (cs.dedup.insertionSort (· ≤ ·))) := by
    apply deltas_normalForm _ (sorted_distinct cs)
    exact fun cursor hcursor => hcs cursor (mem_sorted_distinct.1 hcursor)
  refine ⟨_, _, encodeDeltas_eq hcs, hnormal, decodeDeltas_eq hnormal.nonneg base, ?_, ?_⟩
  · rw [sums_deltas]
    exact sorted_distinct cs
  · intro cursor
    rw [sums_deltas, mem_sorted_distinct]

/-- The codec between sets of cursors and lists of differences in normal form. -/
theorem posting_codec (base : Int) :
    (∀ cs : List Int, (∀ cursor ∈ cs, base ≤ cursor) →
      ∃ ds cursors, encodeDeltas cs base = .ok ds ∧ NormalForm ds ∧
        decodeDeltas ds base = .ok cursors ∧
        cursors.Pairwise (· < ·) ∧ ∀ cursor, cursor ∈ cursors ↔ cursor ∈ cs) ∧
    (∀ cs : List Int, (∃ cursor ∈ cs, cursor < base) →
      encodeDeltas cs base =
        .error (.raised (.valueError (str "posting cursor precedes bucket base")))) ∧
    ∀ ds : List Int, NormalForm ds →
      ∃ cursors, decodeDeltas ds base = .ok cursors ∧ encodeDeltas cursors base = .ok ds := by
  refine ⟨fun cs => decode_encode, fun cs => encodeDeltas_error, ?_⟩
  intro ds hds
  have hsums := @NormalForm.sums base _ hds
  refine ⟨_, decodeDeltas_eq hds.nonneg base, ?_⟩
  rw [encodeDeltas_eq hsums.1, sorted_distinct_of_increasing hsums.2, deltas_sums]

/-! ## The lists of a payload -/

/-- The lists of a payload: one for each key that occurs, in order, which decodes to the
cursors of the items under the key.  Only a cursor below the base keeps them from being written. -/
theorem posting_lists (keyed : List (Int × List Str)) (base : Int) :
    match postings keyed base with
    | .ok values => List.Forall₂ (fun key value => ∃ ds cursors,
        value = .arr [.str key, .arr (ds.map .int)] ∧ decodeDeltas ds base = .ok cursors ∧
          cursors.Pairwise (· < ·) ∧
          ∀ cursor, cursor ∈ cursors ↔ ∃ item ∈ keyed, key ∈ item.2 ∧ item.1 = cursor)
        ((keyed.flatMap Prod.snd).dedup.insertionSort (· ≤ ·)) values
    | .error _ => ∃ item ∈ keyed, item.2 ≠ [] ∧ item.1 < base := by
  cases hpostings : postings keyed base with
  | ok values =>
    refine (mapM_eq_ok.1 hpostings).imp ?_
    intro key value hkey
    obtain ⟨ds, hds, hvalue⟩ := bind_eq_ok.1 hkey
    have hcs : ∀ cursor ∈ (keyed.filter fun item => key ∈ item.2).map Prod.fst,
        base ≤ cursor := by
      by_contra hlow
      push Not at hlow
      rw [encodeDeltas_error hlow] at hds
      cases hds
    obtain ⟨ds', cursors, hds', -, hcursors, hincreasing, hmem⟩ := decode_encode hcs
    rw [hds] at hds'
    cases hds'
    refine ⟨ds, cursors, (Except.ok.inj hvalue).symm, hcursors, hincreasing, ?_⟩
    intro cursor
    rw [hmem, List.mem_map]
    simp [and_assoc]
  | error e =>
    by_contra hnone
    push Not at hnone
    have hwritten : ∀ key : Str, encodeDeltas
        ((keyed.filter fun item => key ∈ item.2).map Prod.fst) base = .ok (deltas base
          (((keyed.filter fun item => key ∈ item.2).map Prod.fst).dedup.insertionSort
            (· ≤ ·))) := by
      intro key
      apply encodeDeltas_eq
      intro cursor hcursor
      obtain ⟨item, hitem, rfl⟩ := List.mem_map.1 hcursor
      obtain ⟨hmem, hkey⟩ := List.mem_filter.1 hitem
      exact hnone item hmem (List.ne_nil_of_mem (of_decide_eq_true hkey))
    have hok : postings keyed base = .ok _ :=
      mapM_eq_ok_map fun key _ => bind_eq_ok.2 ⟨_, hwritten key, rfl⟩
    rw [hok] at hpostings
    cases hpostings

end IntegrityGuardian.MemoryPlane
