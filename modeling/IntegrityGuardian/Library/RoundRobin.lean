import Mathlib.Data.List.Basic
import Mathlib.Order.MinMax
import Mathlib.Data.Nat.Init

/-!
# Round robin over several lists

The first elements of all lists in their order, then the second elements, and so on;
lists that have ended are skipped.  Every element comes with the owner of its list and
its 1-based position there.
-/

namespace IntegrityGuardian.Library

variable {ι α : Type*}

/-- The elements with index `n`. -/
def oneRound (items : ι → List α) (owners : List ι) (n : Nat) : List (ι × Nat × α) :=
  owners.filterMap fun owner => (items owner)[n]?.map fun a => (owner, n + 1, a)

/-- The elements with indices below `n`. -/
def firstRounds (items : ι → List α) (owners : List ι) (n : Nat) : List (ι × Nat × α) :=
  (List.range n).flatMap (oneRound items owners)

/-- The length of the longest list. -/
def longest (items : ι → List α) (owners : List ι) : Nat :=
  owners.foldr (fun owner n => max (items owner).length n) 0

def roundRobin (items : ι → List α) (owners : List ι) : List (ι × Nat × α) :=
  firstRounds items owners (longest items owners)

/-- The elements of a page with their 1-based positions in the whole list. -/
def pageOf (offset limit : Nat) (xs : List α) : List (α × Nat) :=
  ((xs.drop offset).take limit).zipIdx (offset + 1)

variable {items : ι → List α} {owners : List ι}

theorem oneRound_cons (owner : ι) (n : Nat) :
    oneRound items (owner :: owners) n
      = ((items owner)[n]?.map fun a => (owner, n + 1, a)).toList ++ oneRound items owners n := by
  unfold oneRound
  rw [List.filterMap_cons]
  cases (items owner)[n]? <;> rfl

theorem length_le_longest {owner : ι} (h : owner ∈ owners) :
    (items owner).length ≤ longest items owners := by
  induction owners with
  | nil => cases h
  | cons other owners ih =>
    rcases List.mem_cons.1 h with rfl | h
    · exact le_max_left _ _
    · exact (ih h).trans (le_max_right _ _)

variable {xs : List α} {limit n offset : Nat}

theorem oneRound_eq_nil :
    oneRound items owners n = [] ↔ ∀ owner ∈ owners, (items owner).length ≤ n := by
  simp [oneRound, List.filterMap_eq_nil_iff]

theorem oneRound_of_longest_le (h : longest items owners ≤ n) : oneRound items owners n = [] :=
  oneRound_eq_nil.2 fun _ howner => (length_le_longest howner).trans h

theorem firstRounds_succ (n : Nat) :
    firstRounds items owners (n + 1) = firstRounds items owners n ++ oneRound items owners n := by
  unfold firstRounds
  rw [List.range_succ, List.flatMap_append, List.flatMap_singleton]

theorem firstRounds_append (n : Nat) : ∀ k, ∃ rest,
    firstRounds items owners (n + k) = firstRounds items owners n ++ rest
  | 0 => ⟨[], by simp⟩
  | k + 1 => by
    obtain ⟨rest, hrest⟩ := firstRounds_append n k
    exact ⟨rest ++ oneRound items owners (n + k), by
      rw [← Nat.add_assoc, firstRounds_succ, hrest, List.append_assoc]⟩

/-- Rounds behind one without elements add nothing. -/
theorem firstRounds_of_nil (h : oneRound items owners n = []) :
    ∀ k, firstRounds items owners (n + k) = firstRounds items owners n
  | 0 => rfl
  | k + 1 => by
    have hnil : oneRound items owners (n + k) = [] :=
      oneRound_eq_nil.2 fun owner howner => (oneRound_eq_nil.1 h owner howner).trans (by omega)
    rw [← Nat.add_assoc, firstRounds_succ, hnil, List.append_nil, firstRounds_of_nil h k]

theorem firstRounds_of_longest_le (h : longest items owners ≤ n) :
    firstRounds items owners n = roundRobin items owners := by
  obtain ⟨k, rfl⟩ := Nat.exists_eq_add_of_le h
  exact firstRounds_of_nil (oneRound_of_longest_le le_rfl) k

theorem roundRobin_of_nil (h : oneRound items owners n = []) :
    firstRounds items owners n = roundRobin items owners := by
  rw [← firstRounds_of_longest_le (Nat.le_add_left (longest items owners) n), firstRounds_of_nil h]

/-- The first rounds are the front of the whole. -/
theorem firstRounds_front (n : Nat) : firstRounds items owners n <+: roundRobin items owners := by
  obtain ⟨rest, hrest⟩ : ∃ rest, firstRounds items owners (n + longest items owners)
      = firstRounds items owners n ++ rest := firstRounds_append n (longest items owners)
  rw [← firstRounds_of_longest_le (Nat.le_add_left (longest items owners) n), hrest]
  exact List.prefix_append _ _

/-! ## Pages -/

theorem length_pageOf (offset limit : Nat) (xs : List α) :
    (pageOf offset limit xs).length = min limit (xs.length - offset) := by
  simp [pageOf]

/-- An element before the page leaves it empty. -/
theorem pageOf_of_le (h : xs.length ≤ offset) (limit : Nat) : pageOf offset limit xs = [] := by
  simp [pageOf, h]

/-- A page that is not full takes the next element. -/
theorem pageOf_append_singleton (h : offset ≤ xs.length)
    (hroom : (pageOf offset limit xs).length < limit) (x : α) : pageOf offset limit (xs ++ [x])
      = pageOf offset limit xs ++ [(x, offset + (pageOf offset limit xs).length + 1)] := by
  rw [length_pageOf] at hroom ⊢
  unfold pageOf
  rw [List.drop_append_of_le_length h, List.take_of_length_le (by simp; omega),
    List.take_of_length_le (by simp; omega), List.zipIdx_append, List.zipIdx_singleton]
  simp
  omega

/-- A full page stays as it is. -/
theorem pageOf_append (h : (pageOf offset limit xs).length = limit) (ys : List α) :
    pageOf offset limit (xs ++ ys) = pageOf offset limit xs := by
  rw [length_pageOf] at h
  unfold pageOf
  rcases Nat.eq_zero_or_pos limit with rfl | hpos
  · simp
  · rw [List.drop_append_of_le_length (by omega), List.take_append_of_le_length (by simp; omega)]

end IntegrityGuardian.Library
