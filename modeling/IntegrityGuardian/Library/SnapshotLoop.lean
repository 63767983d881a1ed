import IntegrityGuardian.Library.Transaction
import Mathlib.Data.List.Forall2
import Mathlib.Data.List.Nodup

/-!
# Loops over a snapshot of a keyed table

A statement often reads a list of rows once and then walks that list, editing
the table under its feet: every iteration updates the row it visits, by key,
and no other.  `Tx.forM_snapshot` describes the table at any moment of such a
loop row by row, so the body is only ever analysed against the table the loop
started from.
-/

namespace IntegrityGuardian.Library

variable {ρ κ : Type} [DecidableEq κ]

/-- `UPDATE table SET ... WHERE key = ?`. -/
def updateKey (key : ρ → κ) (k : κ) (f : ρ → ρ) (rows : List ρ) : List ρ :=
  rows.map fun r => if key r = k then f r else r

variable {key : ρ → κ}

variable {k : κ} {f : ρ → ρ}

theorem mem_updateKey {rows : List ρ} {r' : ρ} : r' ∈ updateKey key k f rows ↔
      (∃ r ∈ rows, key r = k ∧ r' = f r) ∨ (r' ∈ rows ∧ key r' ≠ k) := by
  unfold updateKey
  rw [List.mem_map]
  constructor
  · rintro ⟨r, hr, rfl⟩
    by_cases hk : key r = k
    · exact Or.inl ⟨r, hr, hk, if_pos hk⟩
    · rw [if_neg hk]
      exact Or.inr ⟨hr, hk⟩
  · rintro (⟨r, hr, hk, rfl⟩ | ⟨hr, hk⟩)
    · exact ⟨r, hr, if_pos hk⟩
    · exact ⟨r', hr, if_neg hk⟩

/-- An update that keeps keys keeps their whole list. -/
theorem map_updateKey {β : Type} {g : ρ → β} (hf : ∀ r, g (f r) = g r)
    (rows : List ρ) : (updateKey key k f rows).map g = rows.map g := by
  unfold updateKey
  rw [List.map_map]
  apply List.map_congr_left
  intro r _
  by_cases hk : key r = k
  · simp [hk, hf]
  · simp [hk]

theorem updateKey_id (k : κ) (rows : List ρ) : updateKey key k id rows = rows := by
  simp [updateKey]

/-! ## Tables related row by row -/

section RowByRow

variable {α β γ : Type} {R : α → β → Prop} {S : β → γ → Prop}

variable {as : List α} {bs : List β}

theorem exists_of_mem_left (h : List.Forall₂ R as bs) {a : α}
    (ha : a ∈ as) : ∃ b ∈ bs, R a b := by
  induction h with
  | nil => cases ha
  | cons hab _ ih =>
    rcases List.mem_cons.1 ha with rfl | ha
    · exact ⟨_, List.mem_cons_self, hab⟩
    · obtain ⟨b, hb, hR⟩ := ih ha
      exact ⟨b, List.mem_cons_of_mem _ hb, hR⟩

theorem exists_of_mem_right (h : List.Forall₂ R as bs) {b : β}
    (hb : b ∈ bs) : ∃ a ∈ as, R a b := by
  induction h with
  | nil => cases hb
  | cons hab _ ih =>
    rcases List.mem_cons.1 hb with rfl | hb
    · exact ⟨_, List.mem_cons_self, hab⟩
    · obtain ⟨a, ha, hR⟩ := ih hb
      exact ⟨a, List.mem_cons_of_mem _ ha, hR⟩

theorem forall₂_comp {cs : List γ} (h : List.Forall₂ R as bs)
    (h' : List.Forall₂ S bs cs) : List.Forall₂ (Relation.Comp R S) as cs := by
  induction h generalizing cs with
  | nil =>
    cases h'
    exact .nil
  | cons hab _ ih =>
    cases h' with
    | cons hbc htail => exact .cons ⟨_, hab, hbc⟩ (ih htail)

end RowByRow

/-! ## The loop -/

/-- A row while the loop runs: edited if it was visited, else as it was. -/
def Edited (E : ρ → ρ → Prop) (visited : List ρ) (r r' : ρ) : Prop :=
  (r ∈ visited ∧ E r r') ∨ (r ∉ visited ∧ r' = r)

theorem edited_nil (E : ρ → ρ → Prop) (rows : List ρ) : List.Forall₂ (Edited E []) rows rows := by
  rw [List.forall₂_same]
  intro r _
  exact Or.inr ⟨List.not_mem_nil, rfl⟩

/-- Visiting one more row of the snapshot. -/
theorem edited_snoc {E : ρ → ρ → Prop} (hkey : ∀ r r', E r r' → key r' = key r)
    {rows rows' visited : List ρ} (hnodup : (rows.map key).Nodup) {x : ρ} (hx : x ∈ rows)
    (hfresh : x ∉ visited) {f : ρ → ρ} (hf : E x (f x))
    (h : List.Forall₂ (Edited E visited) rows rows') :
    List.Forall₂ (Edited E (visited ++ [x])) rows (updateKey key (key x) f rows') := by
  unfold updateKey
  rw [List.forall₂_map_right_iff]
  have hmem : List.Forall₂ (fun r r' => r ∈ rows ∧ Edited E visited r r') rows rows' :=
    (List.forall₂_and_left rows rows').2 ⟨fun r hr => hr, h⟩
  refine hmem.imp ?_
  rintro r r' ⟨hr, hedit⟩
  by_cases hrx : r = x
  · subst hrx
    rcases hedit with ⟨hvisited, -⟩ | ⟨-, rfl⟩
    · exact absurd hvisited hfresh
    · rw [if_pos rfl]
      exact Or.inl ⟨by simp, hf⟩
  · have hkey_eq : key r' = key r := by
      rcases hedit with ⟨-, hE⟩ | ⟨-, rfl⟩
      · exact hkey r r' hE
      · rfl
    have hne : key r' ≠ key x := by
      rw [hkey_eq]
      exact fun heq => hrx (List.inj_on_of_nodup_map hnodup hr hx heq)
    rw [if_neg hne]
    rcases hedit with ⟨hvisited, hE⟩ | ⟨hvisited, rfl⟩
    · exact Or.inl ⟨by simp [hvisited], hE⟩
    · exact Or.inr ⟨by simp [hvisited, hrx], rfl⟩

/-- Loop rule over a snapshot of the table: the rows that satisfy `p` when the
loop starts.  The body is given the part of the snapshot behind it and the
table described row by row against the one the loop started from; `J` is
whatever else the iterations keep. -/
theorem Tx.forM_snapshot {σ ε : Type} {body : ρ → Tx σ ε PUnit} (table : σ → List ρ)
    (key : ρ → κ) (p : ρ → Bool) (E : ρ → ρ → Prop) (J : σ → Prop) {s s' : σ}
    (hkey : ∀ r r', E r r' → key r' = key r) (hnodup : ((table s).map key).Nodup)
    (hbody : ∀ visited x rest t t', (table s).filter p = visited ++ x :: rest → J t →
      List.Forall₂ (Edited E visited) (table s) (table t) → x ∈ table t →
      body x t = .ok (⟨⟩, t') →
      J t' ∧ ∃ f, E x (f x) ∧ table t' = updateKey key (key x) f (table t))
    (hJ : J s) (h : ((table s).filter p).forM body s = .ok (⟨⟩, s')) :
    J s' ∧ List.Forall₂ (fun r r' => (p r = true ∧ E r r') ∨ (p r = false ∧ r' = r))
      (table s) (table s') := by
  have hnodupSnap : ((table s).filter p).Nodup := (hnodup.of_map key).sublist List.filter_sublist
  obtain ⟨visited, hvisited, hJ', hedit⟩ := Tx.forM_invariant
    (fun rest t => ∃ visited, (table s).filter p = visited ++ rest ∧ J t ∧
      List.Forall₂ (Edited E visited) (table s) (table t))
    (by
      rintro x rest t t' ⟨visited, hsplit, hJt, hedit⟩ hx
      have hmem : x ∈ table s := List.mem_of_mem_filter (p := p) (by rw [hsplit]; simp)
      have hfresh : x ∉ visited := by
        intro hx
        rw [hsplit] at hnodupSnap
        exact (List.nodup_append.1 hnodupSnap).2.2 x hx x List.mem_cons_self rfl
      have hmem' : x ∈ table t := by
        obtain ⟨x', hx', ⟨hvisited, -⟩ | ⟨-, rfl⟩⟩ := exists_of_mem_left hedit hmem
        · exact absurd hvisited hfresh
        · exact hx'
      obtain ⟨hJt', f, hf, htable⟩ := hbody visited x rest t t' hsplit hJt hedit hmem' hx
      refine ⟨visited ++ [x], by simp [hsplit], hJt', ?_⟩
      rw [htable]
      exact edited_snoc hkey hnodup hmem hfresh hf hedit)
    ⟨[], rfl, hJ, edited_nil E (table s)⟩ h
  rw [List.append_nil] at hvisited
  have hrows := (List.forall₂_and_left (table s) (table s')).2 ⟨fun r hr => hr, hedit⟩
  refine ⟨hJ', hrows.imp ?_⟩
  rintro r r' ⟨hr, ⟨hsnap, hE⟩ | ⟨hsnap, rfl⟩⟩
  · rw [← hvisited, List.mem_filter] at hsnap
    exact Or.inl ⟨hsnap.2, hE⟩
  · rw [← hvisited, List.mem_filter] at hsnap
    exact Or.inr ⟨by simpa [hr] using hsnap, rfl⟩

end IntegrityGuardian.Library
