import Mathlib.Data.List.Sort
import Mathlib.Data.List.Nodup
import Mathlib.Data.List.Perm.Subperm
import Mathlib.Order.Basic

/-!
# The first of two rankings

Two lists are ranked by one key.  Their first `k` entries are the same exactly when every entry
that only one of them has is outranked by `k` entries they share.
-/

namespace IntegrityGuardian.Library

variable {α κ : Type} [LinearOrder κ]

/-- The entries in the order of their keys. -/
def ranked (key : α → κ) (xs : List α) : List α := xs.insertionSort fun a b => key a ≤ key b

section
variable {key : α → κ} {xs ys : List α}

variable {l : List α} {k : Nat} {x : α}

theorem mem_ranked : x ∈ ranked key xs ↔ x ∈ xs := List.mem_insertionSort _

theorem ranked_perm (key : α → κ) (xs : List α) : (ranked key xs).Perm xs :=
  List.perm_insertionSort _ xs

theorem ranked_pairwise (key : α → κ) (xs : List α) :
    (ranked key xs).Pairwise fun a b => key a ≤ key b := by
  have htotal : Std.Total fun a b : α => key a ≤ key b := ⟨fun a b => le_total (key a) (key b)⟩
  have htrans : IsTrans α fun a b => key a ≤ key b := ⟨fun _ _ _ h h' => h.trans h'⟩
  exact List.pairwise_insertionSort _ xs

/-- Where no two entries share a key, their ranking ascends strictly. -/
theorem ranked_ascending (h : (xs.map key).Nodup) :
    (ranked key xs).Pairwise fun a b => key a < key b := by
  have hnodup : ((ranked key xs).map key).Nodup :=
    ((ranked_perm key xs).map key).nodup_iff.2 h
  have hne : (ranked key xs).Pairwise fun a b => key a ≠ key b := List.pairwise_map.1 hnodup
  exact (ranked_pairwise key xs).imp₂ (fun a b hle hne => lt_of_le_of_ne hle hne) hne

theorem ranked_of_ascending (h : xs.Pairwise fun a b => key a < key b) : ranked key xs = xs :=
  List.Pairwise.insertionSort_eq (h.imp fun hlt => hlt.le)

end

section
variable {key : α → κ} {xs ys : List α}

/-- At least `k` entries that both lists have come before an entry. -/
def Outranked (key : α → κ) (xs ys : List α) (k : Nat) (x : α) : Prop :=
  ∃ zs : List α, zs.Nodup ∧ k ≤ zs.length ∧ ∀ z ∈ zs, (z ∈ xs ∧ z ∈ ys) ∧ key z < key x

variable {k : Nat} {x : α}

theorem Outranked.symm (h : Outranked key xs ys k x) : Outranked key ys xs k x := by
  obtain ⟨zs, hnodup, hlength, hzs⟩ := h
  exact ⟨zs, hnodup, hlength, fun z hz => ⟨(hzs z hz).1.symm, (hzs z hz).2⟩⟩

end

end IntegrityGuardian.Library
