import Mathlib.Algebra.BigOperators.Group.List.Basic
import Mathlib.Data.Nat.Init
import Mathlib.Tactic.Linarith

/-!
# Packing a sequence greedily

Items are put into the current pack as long as they fit; one that does not starts the
next pack.  No pack but the last is far below its bound, so their number is bounded.
-/

namespace IntegrityGuardian.Library

variable {α : Type*} (size : α → Nat) (bound : Nat)

/-- The packs of the items behind the current pack, which holds `used`. -/
def pack : List α → List α → Nat → List (List α)
  | [], current, _ => if current = [] then [] else [current]
  | item :: items, current, used =>
    if current ≠ [] ∧ used + size item > bound then
      current :: pack items [item] (size item)
    else pack items (current ++ [item]) (used + size item)

/-- The size of a pack. -/
def packSize (items : List α) : Nat := (items.map size).sum

variable {size bound}

theorem packSize_append (items items' : List α) :
    packSize size (items ++ items') = packSize size items + packSize size items' := by
  simp [packSize]

theorem pack_flatten (items current : List α) (used : Nat) :
    (pack size bound items current used).flatten = current ++ items := by
  fun_induction pack size bound items current used with
  | case1 => simp
  | case2 => simp
  | case3 item items current used hfull ih => simp [ih]
  | case4 item items current used hfits ih => simp [ih]

variable {current items : List α} {used : Nat}

theorem pack_ne_nil : ∀ part ∈ pack size bound items current used, part ≠ [] := by
  fun_induction pack size bound items current used with
  | case1 => simp
  | case2 current used hne => simpa using hne
  | case3 item items current used hfull ih =>
    intro part hpart
    rcases List.mem_cons.1 hpart with rfl | hpart
    · exact hfull.1
    · exact ih part hpart
  | case4 item items current used hfits ih => exact ih

/-- Every pack keeps within the bound when every item does. -/
theorem pack_fits (hitems : ∀ item, size item ≤ bound)
    (hused : used = packSize size current) (hfits : used ≤ bound) :
    ∀ part ∈ pack size bound items current used, packSize size part ≤ bound := by
  fun_induction pack size bound items current used with
  | case1 => simp
  | case2 current used hne => simpa [← hused] using hfits
  | case3 item items current used hfull ih =>
    intro part hpart
    rcases List.mem_cons.1 hpart with rfl | hpart
    · exact hused ▸ hfits
    · exact ih (by simp [packSize]) (hitems item) part hpart
  | case4 item items current used hfree ih =>
    apply ih
    · rw [packSize_append, ← hused]
      simp [packSize]
    · by_cases hcurrent : current = []
      · rw [hused, hcurrent]
        simpa [packSize] using hitems item
      · exact Nat.le_of_not_lt fun hlt => hfree ⟨hcurrent, hlt⟩

/-- Each pack but the last misses the bound by less than the largest item. -/
theorem pack_length {most : Nat} (hsmall : ∀ item, size item ≤ most) (hpos : ∀ item, 0 < size item)
    (hused : used = packSize size current) (hany : current ++ items ≠ []) :
    ((pack size bound items current used).length - 1) * (bound + 1 - most) <
      packSize size (current ++ items) := by
  have hcurrent : ∀ part : List α, part ≠ [] → 0 < packSize size part := by
    intro part hpart
    obtain ⟨item, rest, rfl⟩ := List.exists_cons_of_ne_nil hpart
    have := hpos item
    simp only [packSize, List.map_cons, List.sum_cons]
    omega
  fun_induction pack size bound items current used with
  | case1 => simp at hany
  | case2 current used hne =>
    simp only [List.length_singleton, Nat.sub_self, Nat.zero_mul, List.append_nil]
    exact hcurrent current hne
  | case3 item items current used hfull ih =>
    have hrest := ih (by simp [packSize]) (by simp)
    have hpacks : 0 < (pack size bound items [item] (size item)).length := by
      rw [List.length_pos_iff]
      intro hnil
      have hflatten : (pack size bound items [item] (size item)).flatten = [item] ++ items :=
        pack_flatten items [item] (size item)
      simp [hnil] at hflatten
    have hitem := hsmall item
    obtain ⟨k, hk⟩ : ∃ k, (pack size bound items [item] (size item)).length = k + 1 :=
      ⟨_, (Nat.succ_pred_eq_of_pos hpacks).symm⟩
    rw [hk, Nat.add_sub_cancel] at hrest
    rw [List.length_cons, hk, Nat.add_sub_cancel, packSize_append, Nat.succ_mul, ← hused]
    rw [List.singleton_append] at hrest
    omega
  | case4 item items current used hfits ih =>
    have hrest := ih (by rw [packSize_append, ← hused]; simp [packSize]) (by simp)
    rwa [List.append_assoc, List.singleton_append] at hrest

end IntegrityGuardian.Library
