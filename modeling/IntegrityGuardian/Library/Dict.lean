import Std.Data.ExtTreeMap
import Mathlib.Order.Defs.LinearOrder
import Mathlib.Data.Prod.Lex
import Mathlib.Data.List.Induction
import Mathlib.Data.Finset.Sort

/-!
# Dictionaries read in key order

A dictionary whose items are only ever enumerated sorted by key is determined by
its lookups.  It is an extensional tree map over a linear order; the lemmas here
state its operations with equality of keys in place of comparisons.
-/

namespace IntegrityGuardian.Library

variable {κ α : Type} [LinearOrder κ]

/-- The elements of a set in ascending order, by a sort that reduces. -/
def ascending (s : Finset κ) : List κ :=
  Quot.liftOn s.val (List.insertionSort (· ≤ ·)) fun l l' hperm => by
    apply List.Perm.eq_of_pairwise (fun _ _ _ _ hab hba => le_antisymm hab hba)
    · exact List.pairwise_insertionSort (· ≤ ·) l
    · exact List.pairwise_insertionSort (· ≤ ·) l'
    · exact (List.perm_insertionSort (· ≤ ·) l).trans
        (hperm.trans (List.perm_insertionSort (· ≤ ·) l').symm)

variable {a : κ}

@[simp] theorem mem_ascending {s : Finset κ} : a ∈ ascending s ↔ a ∈ s := by
  obtain ⟨⟨l⟩, hnodup⟩ := s
  exact List.mem_insertionSort (· ≤ ·)

@[simp] theorem length_ascending (s : Finset κ) : (ascending s).length = s.card := by
  obtain ⟨⟨l⟩, hnodup⟩ := s
  exact List.length_insertionSort (· ≤ ·) l

theorem ascending_pairwise (s : Finset κ) : (ascending s).Pairwise (· < ·) := by
  obtain ⟨⟨l⟩, hnodup⟩ := s
  have hsorted : (l.insertionSort (· ≤ ·)).Pairwise (· ≤ ·) := List.pairwise_insertionSort _ l
  have hdistinct : (l.insertionSort (· ≤ ·)).Nodup :=
    (List.perm_insertionSort (· ≤ ·) l).nodup_iff.2 hnodup
  exact hsorted.imp₂ (fun _ _ hle hne => lt_of_le_of_ne hle hne) hdistinct

/-- The comparison of a linear order. -/
def orderCmp (a b : κ) : Ordering :=
  if a < b then .lt else if b < a then .gt else .eq

theorem orderCmp_eq_eq {b : κ} : orderCmp a b = .eq ↔ a = b := by
  unfold orderCmp
  split
  · rename_i h
    simp [h.ne]
  · split
    · rename_i h
      simp [h.ne']
    · rename_i hab hba
      simp [le_antisymm (not_lt.1 hba) (not_lt.1 hab)]

theorem orderCmp_eq_lt {b : κ} : orderCmp a b = .lt ↔ a < b := by
  unfold orderCmp
  split
  · rename_i h
    simp [h]
  · rename_i h
    split <;> simp [h]

theorem orderCmp_isLE {b : κ} : (orderCmp a b).isLE = true ↔ a ≤ b := by
  unfold orderCmp
  split
  · rename_i h
    simp [h.le]
  · split
    · rename_i h
      simp [h]
    · rename_i h
      simp [not_lt.1 h]

instance : Std.TransCmp (orderCmp : κ → κ → Ordering) where
  eq_swap := by
    intro a b
    unfold orderCmp
    rcases lt_trichotomy a b with h | rfl | h
    · simp [h, h.not_gt]
    · simp
    · simp [h, h.not_gt]
  isLE_trans := by
    intro a b c hab hbc
    rw [orderCmp_isLE] at *
    exact hab.trans hbc

instance : Std.LawfulEqCmp (orderCmp : κ → κ → Ordering) where
  eq_of_compare := orderCmp_eq_eq.1
  compare_self := orderCmp_eq_eq.2 rfl

/-- A dictionary with keys in a linear order. -/
abbrev Dict (κ α : Type) [LinearOrder κ] := Std.ExtTreeMap κ α orderCmp

namespace Dict

theorem get_insert (d : Dict κ α) (k a : κ) (v : α) :
    (d.insert k v)[a]? = if k = a then some v else d[a]? := by
  rw [Std.ExtTreeMap.getElem?_insert]
  simp only [orderCmp_eq_eq]

theorem get_erase (d : Dict κ α) (k a : κ) :
    (d.erase k)[a]? = if k = a then none else d[a]? := by
  rw [Std.ExtTreeMap.getElem?_erase]
  simp only [orderCmp_eq_eq]

theorem get_empty (a : κ) : (∅ : Dict κ α)[a]? = none := Std.ExtTreeMap.getElem?_empty

variable {d : Dict κ α} {v : α} {k : κ}

theorem ext {e : Dict κ α} (h : ∀ k : κ, d[k]? = e[k]?) : d = e :=
  Std.ExtTreeMap.ext_getElem? h

theorem insert_comm {l : κ} (hne : k ≠ l) (d : Dict κ α) (v w : α) :
    (d.insert k v).insert l w = (d.insert l w).insert k v := by
  apply ext
  intro a
  simp only [get_insert]
  by_cases hl : l = a
  · subst hl
    simp [hne]
  · simp [hl]

theorem erase_insert_comm {l : κ} (hne : k ≠ l) (d : Dict κ α) (w : α) :
    (d.erase k).insert l w = (d.insert l w).erase k := by
  apply ext
  intro a
  simp only [get_insert, get_erase]
  by_cases hl : l = a
  · subst hl
    simp [hne]
  · simp [hl]

theorem erase_comm (k l : κ) (d : Dict κ α) : (d.erase k).erase l = (d.erase l).erase k := by
  apply ext
  intro a
  simp only [get_erase]
  split <;> split <;> rfl

theorem mem_toList : (k, v) ∈ d.toList ↔ d[k]? = some v :=
  Std.ExtTreeMap.mem_toList_iff_getElem?_eq_some

/-- The items come in the order of their keys. -/
theorem toList_sorted (d : Dict κ α) : d.toList.Pairwise fun p q => p.1 < q.1 := by
  apply d.ordered_keys_toList.imp
  intro p q h
  exact orderCmp_eq_lt.1 h

theorem keys_toList_nodup (d : Dict κ α) : (d.toList.map Prod.fst).Nodup := by
  rw [List.Nodup, List.pairwise_map]
  exact d.toList_sorted.imp fun h => h.ne

/-- Two dictionaries with the same keys list them alike. -/
theorem keys_toList_eq {β : Type} {e : Dict κ β} (h : ∀ k : κ, d[k]?.isSome = e[k]?.isSome) :
    d.toList.map Prod.fst = e.toList.map Prod.fst := by
  have hmem : ∀ {γ : Type} (f : Dict κ γ) (k : κ),
      k ∈ f.toList.map Prod.fst ↔ f[k]?.isSome = true := by
    intro γ f k
    rw [List.mem_map, Option.isSome_iff_exists]
    constructor
    · rintro ⟨⟨_, v⟩, hkv, rfl⟩
      exact ⟨v, mem_toList.1 hkv⟩
    · rintro ⟨v, hv⟩
      exact ⟨(k, v), mem_toList.2 hv, rfl⟩
  have hsorted : ∀ {γ : Type} (f : Dict κ γ), (f.toList.map Prod.fst).Pairwise (· ≤ ·) := by
    intro γ f
    rw [List.pairwise_map]
    exact f.toList_sorted.imp fun hlt => hlt.le
  apply List.Perm.eq_of_pairwise (fun _ _ _ _ hab hba => le_antisymm hab hba) (hsorted d)
    (hsorted e)
  rw [List.perm_ext_iff_of_nodup d.keys_toList_nodup e.keys_toList_nodup]
  intro k
  rw [hmem, hmem, h]

/-- The dictionary of a list with distinct keys. -/
theorem get_ofList {items : List (κ × α)} (hnodup : (items.map Prod.fst).Nodup) :
    (Std.ExtTreeMap.ofList items orderCmp)[k]? = some v ↔ (k, v) ∈ items := by
  induction items using List.reverseRecOn with
  | nil => simp
  | append_singleton items item ih =>
    rw [Std.ExtTreeMap.ofList_eq_foldl] at ih ⊢
    rw [List.map_append, List.nodup_append] at hnodup
    obtain ⟨hitems, -, hapart⟩ := hnodup
    rw [List.foldl_append, List.foldl_cons, List.foldl_nil, get_insert]
    split
    · rename_i hkey
      subst hkey
      have hnot : (item.1, v) ∉ items := by
        intro hmem
        exact hapart item.1 (List.mem_map.2 ⟨_, hmem, rfl⟩) item.1 (by simp) rfl
      simp [hnot, Prod.ext_iff, eq_comm]
    · rename_i hkey
      rw [ih hitems, List.mem_append]
      simp [Prod.ext_iff, Ne.symm hkey]

theorem ofList_toList (d : Dict κ α) : Std.ExtTreeMap.ofList d.toList orderCmp = d := by
  apply ext
  intro k
  apply Option.ext
  intro v
  rw [get_ofList d.keys_toList_nodup, mem_toList]

end Dict

end IntegrityGuardian.Library
