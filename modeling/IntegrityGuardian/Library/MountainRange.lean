import Mathlib.Data.List.Induction
import Mathlib.Data.Nat.BitIndices
import Mathlib.Data.Set.Function

/-!
# Mountain ranges

A log is kept as the roots of perfect binary trees, its peaks, one for each set
bit of its length.  A new leaf is carried upwards through the peaks of the
heights it meets, as a one is in a binary counter.  The newest peak comes first.
-/

namespace IntegrityGuardian.Library.MountainRange

variable {H : Type}

/-- The root of a perfect tree. -/
structure Peak (H : Type) where
  height : Nat
  hash : H
  deriving DecidableEq

section
variable (node : H → H → H)

/-- Adds the root of a tree to the peaks. -/
def carry : List (Peak H) → Nat → H → List (Peak H)
  | [], height, hash => [⟨height, hash⟩]
  | peak :: rest, height, hash =>
    if peak.height = height then carry rest (height + 1) (node peak.hash hash)
    else ⟨height, hash⟩ :: peak :: rest

/-- The pairs that `carry` combines. -/
def carriedPairs : List (Peak H) → Nat → H → List (H × H)
  | [], _, _ => []
  | peak :: rest, height, hash =>
    if peak.height = height then
      (peak.hash, hash) :: carriedPairs rest (height + 1) (node peak.hash hash)
    else []

/-- The root of the perfect tree over `2 ^ height` leaves. -/
def root : Nat → List H → Option H
  | 0, [leaf] => some leaf
  | 0, _ => none
  | height + 1, leaves =>
    match root height (leaves.take (2 ^ height)), root height (leaves.drop (2 ^ height)) with
    | some left, some right => some (node left right)
    | _, _ => none

/-- A perfect tree over some leaves, whose inner nodes combine pairs of `pairs`. -/
inductive Perfect (pairs : Set (H × H)) : Nat → List H → H → Prop where
  | leaf (hash : H) : Perfect pairs 0 [hash] hash
  | node {height : Nat} {lefts rights : List H} {left right : H}
      (hleft : Perfect pairs height lefts left) (hright : Perfect pairs height rights right)
      (hpair : (left, right) ∈ pairs) :
      Perfect pairs (height + 1) (lefts ++ rights) (node left right)

/-- The peaks of a log, and the blocks of leaves below them; the heights grow from the
newest peak on. -/
inductive Range (pairs : Set (H × H)) : List (Peak H) → List (List H) → Prop where
  | nil : Range pairs [] []
  | cons {peak : Peak H} {block : List H} {peaks : List (Peak H)} {blocks : List (List H)}
      (hpeak : Perfect node pairs peak.height block peak.hash)
      (hlower : ∀ other ∈ peaks.head?, peak.height < other.height)
      (hrest : Range pairs peaks blocks) : Range pairs (peak :: peaks) (block :: blocks)

end

variable {node : H → H → H} {pairs pairs' : Set (H × H)}

/-! ## Perfect trees -/

variable {hash : H} {blocks : List (List H)} {peaks : List (Peak H)} {leaves : List H}
  {height : Nat}

theorem Perfect.mono (h : Perfect node pairs height leaves hash) (hle : pairs ⊆ pairs') :
    Perfect node pairs' height leaves hash := by
  induction h with
  | leaf hash => exact .leaf hash
  | node _ _ hpair hleft hright => exact .node hleft hright (hle hpair)

theorem Perfect.length
    (h : Perfect node pairs height leaves hash) : leaves.length = 2 ^ height := by
  induction h with
  | leaf hash => rfl
  | node _ _ _ hleft hright =>
    rw [List.length_append, hleft, hright, Nat.pow_succ]
    omega

theorem Perfect.root
    (h : Perfect node pairs height leaves hash) : root node height leaves = some hash := by
  induction h with
  | leaf hash => rfl
  | node hleft hright _ ihleft ihright =>
    rw [MountainRange.root, List.take_left' hleft.length, List.drop_left' hleft.length, ihleft,
      ihright]

/-- The root of a tree determines its leaves, where no two of its pairs collide. -/
theorem Perfect.leaves_eq (hinj : Set.InjOn (Function.uncurry node) pairs)
    {leaves' : List H} (h : Perfect node pairs height leaves hash)
    (h' : Perfect node pairs height leaves' hash) : leaves = leaves' := by
  induction h generalizing leaves' with
  | leaf hash =>
    cases h' with
    | leaf => rfl
  | @node height lefts rights left right hleft hright hpair ihleft ihright =>
    generalize hhash : node left right = hash at h'
    cases h' with
    | node hleft' hright' hpair' =>
      have hsame := hinj hpair hpair' hhash
      cases hsame
      rw [ihleft hleft', ihright hright']

/-! ## Ranges -/

theorem Range.mono
    (h : Range node pairs peaks blocks) (hle : pairs ⊆ pairs') : Range node pairs' peaks blocks := by
  induction h with
  | nil => exact .nil
  | cons hpeak hlower _ ih => exact .cons (hpeak.mono hle) hlower ih

/-- Adding a tree no higher than the newest peak: the blocks before it are as they were,
or the last of them is joined with the new one. -/
theorem range_carry (h : Range node pairs peaks blocks) {block : List H}
    (hnew : Perfect node pairs height block hash)
    (hlower : ∀ other ∈ peaks.head?, height ≤ other.height)
    (hpairs : ∀ pair ∈ carriedPairs node peaks height hash, pair ∈ pairs) :
    ∃ blocks', Range node pairs (carry node peaks height hash) blocks' ∧
      blocks'.reverse.flatten = blocks.reverse.flatten ++ block := by
  induction h generalizing height block hash with
  | nil =>
    refine ⟨[block], .cons hnew (by simp) .nil, by simp⟩
  | @cons peak last peaks blocks hpeak hhigher hrest ih =>
    by_cases heq : peak.height = height
    · subst heq
      rw [carriedPairs, if_pos rfl] at hpairs
      rw [carry, if_pos rfl]
      obtain ⟨blocks', hrange, hflatten⟩ := ih
        (.node hpeak hnew (hpairs _ List.mem_cons_self)) hhigher
        (fun pair hpair => hpairs pair (List.mem_cons_of_mem _ hpair))
      refine ⟨blocks', hrange, ?_⟩
      rw [hflatten, List.reverse_cons, List.flatten_append]
      simp
    · rw [carry, if_neg heq]
      refine ⟨block :: last :: blocks, .cons hnew ?_ (.cons hpeak hhigher hrest), by simp⟩
      intro other hother
      cases hother
      have := hlower peak rfl
      show height < peak.height
      omega

theorem Range.length (h : Range node pairs peaks blocks) :
    blocks.reverse.flatten.length = ((peaks.map Peak.height).map fun i => 2 ^ i).sum := by
  induction h with
  | nil => rfl
  | cons hpeak _ _ ih =>
    rw [List.reverse_cons, List.flatten_append, List.length_append, ih]
    simp [hpeak.length, Nat.add_comm]

theorem Range.pairwise
    (h : Range node pairs peaks blocks) : (peaks.map Peak.height).Pairwise (· < ·) := by
  induction h with
  | nil => exact .nil
  | @cons peak block peaks blocks _ hlower hrest ih =>
    rw [List.map_cons, List.pairwise_cons]
    refine ⟨?_, ih⟩
    intro height hheight
    cases hrest with
    | nil => cases hheight
    | @cons next _ rest _ _ _ _ =>
      have hnext : peak.height < next.height := hlower next rfl
      rw [List.map_cons, List.pairwise_cons] at ih
      rw [List.map_cons, List.mem_cons] at hheight
      cases hheight with
      | inl heq => omega
      | inr hmem =>
        have := ih.1 height hmem
        omega

/-- The heights of the peaks are the set bits of the number of leaves. -/
theorem Range.heights (h : Range node pairs peaks blocks) :
    peaks.map Peak.height = blocks.reverse.flatten.length.bitIndices := by
  rw [h.length, Nat.bitIndices_sum_map_two_pow h.pairwise.sortedLT]

/-- Equal peaks stand on equal leaves. -/
theorem Range.blocks_eq (hinj : Set.InjOn (Function.uncurry node) pairs)
    {blocks' : List (List H)} (h : Range node pairs peaks blocks)
    (h' : Range node pairs peaks blocks') : blocks = blocks' := by
  induction h generalizing blocks' with
  | nil =>
    cases h' with
    | nil => rfl
  | cons hpeak _ _ ih =>
    cases h' with
    | cons hpeak' _ hrest' => rw [hpeak.leaves_eq hinj hpeak', ih hrest']

theorem Range.forall₂ (h : Range node pairs peaks blocks) :
    List.Forall₂ (fun peak block => root node peak.height block = some peak.hash) peaks blocks := by
  induction h with
  | nil => exact .nil
  | cons hpeak _ _ ih => exact .cons hpeak.root ih

/-! ## Growing a range -/

section
variable (node)

/-- Appends one leaf; beside the peaks stand the pairs combined so far. -/
def push (state : List (Peak H) × List (H × H)) (leaf : H) : List (Peak H) × List (H × H) :=
  (carry node state.1 0 leaf, state.2 ++ carriedPairs node state.1 0 leaf)

/-- The range over some leaves. -/
def grow (leaves : List H) : List (Peak H) × List (H × H) := leaves.foldl (push node) ([], [])

end

theorem grow_append_singleton (leaves : List H) (leaf : H) :
    grow node (leaves ++ [leaf]) = push node (grow node leaves) leaf := by
  rw [grow, List.foldl_append]
  rfl

theorem grow_range (leaves : List H) :
    ∃ blocks, Range node {pair | pair ∈ (grow node leaves).2} (grow node leaves).1 blocks ∧
      blocks.reverse.flatten = leaves := by
  induction leaves using List.reverseRecOn with
  | nil => exact ⟨[], .nil, rfl⟩
  | append_singleton leaves leaf ih =>
    obtain ⟨blocks, hrange, hleaves⟩ := ih
    rw [grow_append_singleton]
    have hmore : Range node {pair | pair ∈ (push node (grow node leaves) leaf).2}
        (grow node leaves).1 blocks :=
      hrange.mono fun pair hpair => List.mem_append_left _ hpair
    obtain ⟨blocks', hrange', hleaves'⟩ := range_carry hmore (.leaf leaf)
      (fun other _ => Nat.zero_le _) (fun pair hpair => List.mem_append_right _ hpair)
    refine ⟨blocks', hrange', ?_⟩
    rw [hleaves', hleaves]

variable {hash : H} {P : H → Prop} {peaks : List (Peak H)} {height : Nat}

/-- What holds of the leaves and of every combined pair holds of the peaks. -/
theorem carry_forall (hnode : ∀ left right, P (node left right))
    (hpeaks : ∀ peak ∈ peaks, P peak.hash) (hhash : P hash) :
    ∀ peak ∈ carry node peaks height hash, P peak.hash := by
  induction peaks generalizing height hash with
  | nil =>
    intro peak hpeak
    rw [carry, List.mem_singleton] at hpeak
    rw [hpeak]
    exact hhash
  | cons first rest ih =>
    rw [carry]
    split_ifs
    · exact ih (fun peak hpeak => hpeaks peak (List.mem_cons_of_mem _ hpeak)) (hnode _ _)
    · intro peak hpeak
      cases hpeak with
      | head => exact hhash
      | tail _ hpeak => exact hpeaks peak hpeak

theorem carriedPairs_forall (hnode : ∀ left right, P (node left right))
    (hpeaks : ∀ peak ∈ peaks, P peak.hash)
    (hhash : P hash) : ∀ pair ∈ carriedPairs node peaks height hash, P pair.1 ∧ P pair.2 := by
  induction peaks generalizing height hash with
  | nil =>
    intro pair hpair
    cases hpair
  | cons first rest ih =>
    rw [carriedPairs]
    split_ifs
    · intro pair hpair
      cases hpair with
      | head => exact ⟨hpeaks first List.mem_cons_self, hhash⟩
      | tail _ hpair =>
        exact ih (fun peak hpeak => hpeaks peak (List.mem_cons_of_mem _ hpeak)) (hnode _ _)
          pair hpair
    · intro pair hpair
      cases hpair

theorem grow_forall (hnode : ∀ left right, P (node left right)) {leaves : List H}
    (hleaves : ∀ leaf ∈ leaves, P leaf) : (∀ peak ∈ (grow node leaves).1, P peak.hash) ∧
      ∀ pair ∈ (grow node leaves).2, P pair.1 ∧ P pair.2 := by
  induction leaves using List.reverseRecOn with
  | nil => exact ⟨fun _ h => absurd h List.not_mem_nil, fun _ h => absurd h List.not_mem_nil⟩
  | append_singleton leaves leaf ih =>
    rw [grow_append_singleton]
    have hbefore := ih fun other hother => hleaves other (List.mem_append_left _ hother)
    have hleaf : P leaf := hleaves leaf (List.mem_append_right _ List.mem_cons_self)
    refine ⟨carry_forall hnode hbefore.1 hleaf, ?_⟩
    intro pair hpair
    rcases List.mem_append.1 hpair with hpair | hpair
    · exact hbefore.2 pair hpair
    · exact carriedPairs_forall hnode hbefore.1 hleaf pair hpair

end IntegrityGuardian.Library.MountainRange
