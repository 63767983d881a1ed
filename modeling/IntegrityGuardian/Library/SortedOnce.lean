import Mathlib.Data.List.Sort
import Mathlib.Data.List.Nodup

/-!
# Sorting the distinct elements of a list

Each element is kept where it comes first and the rest is sorted stably by a total
preorder.  The result depends on the set of elements alone when the preorder tells
them apart, and on their order otherwise.
-/

namespace IntegrityGuardian.Library

open List (Sublist)

variable {α : Type*} [DecidableEq α]

/-- The elements of a list, each where it comes first. -/
def firsts (xs : List α) : List α :=
  xs.foldl (fun seen x => if x ∈ seen then seen else seen ++ [x]) []

theorem prefix_foldl_firsts (xs seen : List α) :
    seen <+: xs.foldl (fun seen x => if x ∈ seen then seen else seen ++ [x]) seen := by
  induction xs generalizing seen with
  | nil => exact List.prefix_rfl
  | cons x xs ih =>
    rw [List.foldl_cons]
    apply List.IsPrefix.trans _ (ih _)
    split
    · exact List.prefix_rfl
    · exact List.prefix_append _ _

variable {seen xs : List α} {a : α}

theorem mem_foldl_firsts :
    a ∈ xs.foldl (fun seen x => if x ∈ seen then seen else seen ++ [x]) seen ↔
      a ∈ seen ∨ a ∈ xs := by
  induction xs generalizing seen with
  | nil => simp
  | cons x xs ih =>
    rw [List.foldl_cons, ih, List.mem_cons]
    split
    · next hx =>
        constructor
        · rintro (h | h)
          · exact Or.inl h
          · exact Or.inr (Or.inr h)
        · rintro (h | rfl | h)
          · exact Or.inl h
          · exact Or.inl hx
          · exact Or.inr h
    · rw [List.mem_append, List.mem_singleton, or_assoc]

theorem nodup_foldl_firsts (h : seen.Nodup) :
    (xs.foldl (fun seen x => if x ∈ seen then seen else seen ++ [x]) seen).Nodup := by
  induction xs generalizing seen with
  | nil => exact h
  | cons x xs ih =>
    rw [List.foldl_cons]
    apply ih
    split
    · exact h
    · next hx => exact List.nodup_append.2 ⟨h, List.nodup_singleton x, by
        intro a ha b hb heq
        rw [List.mem_singleton.1 hb] at heq
        exact hx (heq ▸ ha)⟩

@[simp] theorem mem_firsts : a ∈ firsts xs ↔ a ∈ xs := by
  simp [firsts, mem_foldl_firsts]

theorem nodup_firsts (xs : List α) : (firsts xs).Nodup := nodup_foldl_firsts List.nodup_nil

theorem foldl_firsts_of_nodup (h : (seen ++ xs).Nodup) :
    xs.foldl (fun seen x => if x ∈ seen then seen else seen ++ [x]) seen = seen ++ xs := by
  induction xs generalizing seen with
  | nil => simp
  | cons x xs ih =>
    have hx : x ∉ seen := by
      intro hmem
      exact (List.nodup_append.1 h).2.2 x hmem x List.mem_cons_self rfl
    rw [List.foldl_cons, if_neg hx, ih (by simpa using h), List.append_assoc,
      List.singleton_append]

theorem firsts_of_nodup (h : xs.Nodup) : firsts xs = xs := by
  unfold firsts
  rw [foldl_firsts_of_nodup (by simpa using h), List.nil_append]

/-- The list with one of its elements moved to the front. -/
def toFront (a : α) (xs : List α) : List α :=
  xs.filter (· = a) ++ xs.filter (¬· = a)

theorem toFront_perm (a : α) (xs : List α) : (toFront a xs).Perm xs := by
  have := List.filter_append_perm (fun x => decide (x = a)) xs
  simpa [toFront] using this

theorem firsts_toFront (h : a ∈ xs) : ∃ rest, firsts (toFront a xs) = a :: rest := by
  obtain ⟨more, hmore⟩ : ∃ more, toFront a xs = a :: more := by
    obtain ⟨x, copies, hcopies⟩ := List.exists_cons_of_ne_nil
      (List.ne_nil_of_mem (List.mem_filter.2 ⟨h, by simp⟩) : xs.filter (· = a) ≠ [])
    have hx : x ∈ xs.filter (· = a) := by
      rw [hcopies]
      exact List.mem_cons_self
    have hsame : x = a := by simpa using (List.mem_filter.1 hx).2
    exact ⟨copies ++ xs.filter (¬· = a), by rw [toFront, hcopies, hsame, List.cons_append]⟩
  have hprefix := prefix_foldl_firsts more [a]
  obtain ⟨rest, hrest⟩ := hprefix
  refine ⟨rest, ?_⟩
  unfold firsts
  rw [hmore, List.foldl_cons, if_neg List.not_mem_nil, List.nil_append, ← hrest,
    List.singleton_append]

theorem pair_sublist_firsts {b : α} (ha : a ∈ xs) (hb : b ∈ xs) (hne : b ≠ a) :
    Sublist [a, b] (firsts (toFront a xs)) := by
  obtain ⟨rest, hrest⟩ := firsts_toFront ha
  have hmem : b ∈ firsts (toFront a xs) := by
    rw [mem_firsts]
    exact (toFront_perm a xs).mem_iff.2 hb
  rw [hrest] at hmem ⊢
  have hlater : b ∈ rest := (List.mem_cons.1 hmem).resolve_left hne
  exact (List.singleton_sublist.2 hlater).cons_cons a

omit [DecidableEq α] in
/-- Two elements stand in one order only. -/
theorem not_pair_sublist_swap {b : α} (hnodup : xs.Nodup) (h : Sublist [a, b] xs) :
    ¬Sublist [b, a] xs := by
  induction xs with
  | nil => cases h
  | cons x xs ih =>
    intro hswap
    obtain ⟨hx, hrest⟩ := List.nodup_cons.1 hnodup
    cases h with
    | cons _ h =>
      cases hswap with
      | cons _ hswap => exact ih hrest h hswap
      | cons_cons _ hswap => exact hx (h.subset (List.mem_cons_of_mem a List.mem_cons_self))
    | cons_cons _ h =>
      cases hswap with
      | cons _ hswap => exact hx (hswap.subset (List.mem_cons_of_mem b List.mem_cons_self))
      | cons_cons _ hswap => exact hx (h.subset List.mem_cons_self)

variable (le : α → α → Prop) [DecidableRel le]

/-- The distinct elements, sorted. -/
def sortedOnce (xs : List α) : List α := (firsts xs).insertionSort le

variable {le}

variable {xs : List α}

@[simp] theorem mem_sortedOnce {a : α} : a ∈ sortedOnce le xs ↔ a ∈ xs := by
  simp [sortedOnce]

theorem sortedOnce_ne_nil : sortedOnce le xs ≠ [] ↔ xs ≠ [] := by
  rw [Ne, Ne, List.eq_nil_iff_forall_not_mem, List.eq_nil_iff_forall_not_mem]
  simp

theorem nodup_sortedOnce (xs : List α) : (sortedOnce le xs).Nodup :=
  (List.perm_insertionSort le _).nodup_iff.2 (nodup_firsts xs)

section
variable [Std.Total le] [IsTrans α le]

theorem sortedOnce_idem (xs : List α) : sortedOnce le (sortedOnce le xs) = sortedOnce le xs := by
  rw [sortedOnce, firsts_of_nodup (nodup_sortedOnce xs)]
  exact (List.pairwise_insertionSort le (firsts xs)).insertionSort_eq

/-- Where the preorder tells the elements apart, only their set counts. -/
theorem sortedOnce_congr {xs ys : List α}
    (happart : ∀ a ∈ xs, ∀ b ∈ xs, le a b → le b a → a = b) (hsame : ∀ a, a ∈ ys ↔ a ∈ xs) :
    sortedOnce le ys = sortedOnce le xs := by
  have hperm : (sortedOnce le ys).Perm (sortedOnce le xs) := by
    rw [List.perm_ext_iff_of_nodup (nodup_sortedOnce ys) (nodup_sortedOnce xs)]
    intro a
    rw [mem_sortedOnce, mem_sortedOnce, hsame]
  apply hperm.eq_of_pairwise _ (List.pairwise_insertionSort le _)
    (List.pairwise_insertionSort le _)
  intro a b ha hb
  exact happart a ((hsame a).1 (mem_sortedOnce.1 ha)) b (mem_sortedOnce.1 hb)

end

/-- Where it does not, some permutation is sorted otherwise. -/
theorem exists_perm_sortedOnce_ne {xs : List α} {a b : α} (ha : a ∈ xs) (hb : b ∈ xs)
    (hne : a ≠ b) (hab : le a b) (hba : le b a) :
    ∃ ys, ys.Perm xs ∧ sortedOnce le ys ≠ sortedOnce le xs := by
  by_contra hall
  push Not at hall
  have hfirst := List.pair_sublist_insertionSort hab (pair_sublist_firsts ha hb hne.symm)
  have hsecond := List.pair_sublist_insertionSort hba (pair_sublist_firsts hb ha hne)
  have hforward : Sublist [a, b] (sortedOnce le xs) := by
    rw [← hall _ (toFront_perm a xs)]
    exact hfirst
  have hbackward : Sublist [b, a] (sortedOnce le xs) := by
    rw [← hall _ (toFront_perm b xs)]
    exact hsecond
  exact not_pair_sublist_swap (nodup_sortedOnce xs) hforward hbackward

end IntegrityGuardian.Library
