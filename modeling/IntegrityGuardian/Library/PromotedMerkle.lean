import Mathlib.Algebra.Group.Nat.Defs
import Mathlib.Data.Set.Function
import Mathlib.Data.List.Basic
import Mathlib.Logic.Function.Basic

/-!
# Merkle trees with promoted odd nodes

A level is combined pairwise from the left; an unpaired last node moves up
unchanged.  The tree is therefore fixed by its width alone, and a verifier that
knows only a position and a width can recompute on which side each sibling
stands.  The module proves that this recomputation agrees with the tree, and
that equal roots over equal widths come from equal levels.

Injectivity of `node` is asked only of the pairs that are actually combined,
so the results apply to compression functions, which have collisions.
-/

namespace IntegrityGuardian.Library.PromotedMerkle

variable {α : Type*} (node : α → α → α)

/-- One level up: neighbours are combined, an odd last node is promoted. -/
def pairUp : List α → List α
  | x :: y :: rest => node x y :: pairUp rest
  | [x] => [x]
  | [] => []

/-- Combine level after level until one node is left. -/
def root : Nat → List α → Option α
  | _, [x] => some x
  | _, [] => none
  | 0, _ :: _ :: _ => none
  | fuel + 1, x :: y :: rest => root fuel (pairUp node (x :: y :: rest))

/-- The pairs combined in one level. -/
def levelPairs : List α → List (α × α)
  | x :: y :: rest => (x, y) :: levelPairs rest
  | _ => []

/-- The pairs combined on the way to the root. -/
def treePairs : Nat → List α → List (α × α)
  | 0, _ => []
  | fuel + 1, level => levelPairs level ++ treePairs fuel (pairUp node level)

inductive Side where
  | left
  | right
  deriving DecidableEq, Repr

/-- The side of the sibling, from a position and the width of its level. -/
def expectedSide (index width : Nat) : Option Side :=
  if index % 2 = 1 then some .left
  else if index + 1 < width then some .right
  else none

/-- The pair a node forms with a sibling on the given side. -/
def pairOn (side : Side) (sibling x : α) : α × α :=
  match side with
  | .left => (sibling, x)
  | .right => (x, sibling)

def join (side : Side) (sibling x : α) : α :=
  node (pairOn side sibling x).1 (pairOn side sibling x).2

/-- The sibling of a position inside its level. -/
def sibling (level : List α) (index : Nat) : Option (Side × α) :=
  if index % 2 = 1 then level[index - 1]?.map (Side.left, ·)
  else level[index + 1]?.map (Side.right, ·)

/-- The siblings met on the way from a position to the root. -/
def auditPath : Nat → List α → Nat → List (Side × α)
  | 0, _, _ => []
  | fuel + 1, level, index =>
    if level.length ≤ 1 then []
    else (sibling level index).toList ++ auditPath fuel (pairUp node level) (index / 2)

/-- Recompute the root from a node, its position and the width of the level.
Returns the node reached and the steps of the path that were not used. -/
def climb : Nat → Nat → Nat → α → List (Side × α) → Option (α × List (Side × α))
  | 0, _, width, x, path => if width ≤ 1 then some (x, path) else none
  | fuel + 1, index, width, x, path =>
    if width ≤ 1 then some (x, path)
    else
      match expectedSide index width with
      | none => climb fuel (index / 2) ((width + 1) / 2) x path
      | some side =>
        match path with
        | [] => none
        | (s, sib) :: path =>
          if s = side then
            climb fuel (index / 2) ((width + 1) / 2) (join node side sib x) path
          else none

/-- The pairs `climb` combines. -/
def climbPairs : Nat → Nat → Nat → α → List (Side × α) → List (α × α)
  | 0, _, _, _, _ => []
  | fuel + 1, index, width, x, path =>
    if width ≤ 1 then []
    else
      match expectedSide index width with
      | none => climbPairs fuel (index / 2) ((width + 1) / 2) x path
      | some side =>
        match path with
        | [] => []
        | (_, sib) :: path =>
          pairOn side sib x ::
            climbPairs fuel (index / 2) ((width + 1) / 2) (join node side sib x) path

/-! ## One level -/

theorem length_pairUp (level : List α) :
    (pairUp node level).length = (level.length + 1) / 2 := by
  induction level using pairUp.induct with
  | case1 x y rest ih =>
    simp only [pairUp, List.length_cons, ih]
    omega
  | case2 x => simp [pairUp]
  | case3 => simp [pairUp]

variable {level : List α} {fuel index : Nat} {S : Set (α × α)} {side : Side} {sib x : α}

/-- A node with a sibling is combined with it one level up. -/
theorem getElem?_pairUp_of_sibling
    (hx : level[index]? = some x) (hs : sibling level index = some (side, sib)) :
    (pairUp node level)[index / 2]? = some (join node side sib x) := by
  induction level using pairUp.induct generalizing index with
  | case1 a b rest ih =>
    match index with
    | 0 =>
      simp only [sibling, List.getElem?_cons_zero, Option.some.injEq] at hx hs
      simp at hs
      obtain ⟨rfl, rfl⟩ := hs
      simp [pairUp, join, pairOn, hx]
    | 1 =>
      simp [sibling] at hx hs
      obtain ⟨rfl, rfl⟩ := hs
      simp [pairUp, join, pairOn, hx]
    | index + 2 =>
      have hhalf : (index + 2) / 2 = index / 2 + 1 := by omega
      rw [hhalf, pairUp, List.getElem?_cons_succ]
      apply ih
      · simpa using hx
      · unfold sibling at hs ⊢
        have hpar : (index + 2) % 2 = index % 2 := by omega
        rw [hpar] at hs
        split at hs
        · rename_i hodd
          have hsub : index + 2 - 1 = index - 1 + 1 + 1 := by omega
          rw [hsub] at hs
          simpa [hodd] using hs
        · rename_i hodd
          simpa [hodd] using hs
  | case2 a =>
    match index with
    | 0 => simp [sibling] at hs
    | index + 1 => simp at hx
  | case3 => simp at hx

/-- A node without a sibling is promoted. -/
theorem getElem?_pairUp_of_promoted
    (hx : level[index]? = some x) (hs : expectedSide index level.length = none) :
    (pairUp node level)[index / 2]? = some x := by
  induction level using pairUp.induct generalizing index with
  | case1 a b rest ih =>
    match index with
    | 0 => simp [expectedSide] at hs
    | 1 => simp [expectedSide] at hs
    | index + 2 =>
      have hhalf : (index + 2) / 2 = index / 2 + 1 := by omega
      rw [hhalf, pairUp, List.getElem?_cons_succ]
      apply ih
      · simpa using hx
      · unfold expectedSide at hs ⊢
        have hpar : (index + 2) % 2 = index % 2 := by omega
        rw [hpar] at hs
        simp only [List.length_cons] at hs
        split at hs
        · cases hs
        split at hs
        · cases hs
        rename_i heven hlast
        rw [if_neg heven, if_neg (by omega)]
  | case2 a =>
    match index with
    | 0 => simpa [pairUp] using hx
    | index + 1 => simp at hx
  | case3 => simp at hx

/-- The width decides on which side the level holds a sibling. -/
theorem sibling_eq_none_iff (hi : index < level.length) :
    sibling level index = none ↔ expectedSide index level.length = none := by
  unfold sibling expectedSide
  split
  · simp
    omega
  · rename_i heven
    by_cases h : index + 1 < level.length
    · simp [h]
    · simp [h]

theorem expectedSide_of_sibling (hs : sibling level index = some (side, sib)) :
    expectedSide index level.length = some side := by
  unfold sibling at hs
  unfold expectedSide
  split at hs
  · rename_i hodd
    simp only [Option.map_eq_some_iff, Prod.mk.injEq] at hs
    obtain ⟨_, _, rfl, _⟩ := hs
    rw [if_pos hodd]
  · rename_i heven
    simp only [Option.map_eq_some_iff, Prod.mk.injEq] at hs
    obtain ⟨_, hget, rfl, _⟩ := hs
    obtain ⟨hlt, _⟩ := List.getElem?_eq_some_iff.1 hget
    rw [if_neg heven, if_pos hlt]

/-- The pair a position forms with its sibling is one the level combines. -/
theorem pairOn_mem_levelPairs
    (hx : level[index]? = some x) (hs : sibling level index = some (side, sib)) :
    pairOn side sib x ∈ levelPairs level := by
  induction level using levelPairs.induct generalizing index with
  | case1 a b rest ih =>
    match index with
    | 0 =>
      simp [sibling] at hx hs
      obtain ⟨rfl, rfl⟩ := hs
      simp [levelPairs, pairOn, hx]
    | 1 =>
      simp [sibling] at hx hs
      obtain ⟨rfl, rfl⟩ := hs
      simp [levelPairs, pairOn, hx]
    | index + 2 =>
      rw [levelPairs]
      refine List.mem_cons_of_mem _ (@ih index (by simpa using hx) ?_)
      unfold sibling at hs ⊢
      have hpar : (index + 2) % 2 = index % 2 := by omega
      rw [hpar] at hs
      split at hs
      · rename_i hodd
        have hsub : index + 2 - 1 = index - 1 + 1 + 1 := by omega
        rw [hsub] at hs
        simpa [hodd] using hs
      · rename_i hodd
        simpa [hodd] using hs
  | case2 level hne =>
    match level, index with
    | [], _ => simp at hx
    | [_], 0 => simp [sibling] at hs
    | [_], index + 1 => simp at hx
    | a :: b :: rest, _ => exact (hne a b rest rfl).elim

/-- Two levels of one width with the same combined level are equal. -/
theorem pairUp_injOn {l₁ l₂ : List α} (hS : Set.InjOn (Function.uncurry node) S)
    (h₁ : ∀ p ∈ levelPairs l₁, p ∈ S) (h₂ : ∀ p ∈ levelPairs l₂, p ∈ S)
    (hlen : l₁.length = l₂.length) (h : pairUp node l₁ = pairUp node l₂) : l₁ = l₂ := by
  induction l₁ using pairUp.induct generalizing l₂ with
  | case1 a b rest ih =>
    match l₂ with
    | [] => simp at hlen
    | [_] => simp at hlen
    | c :: d :: rest₂ =>
      simp only [pairUp, List.cons.injEq] at h
      have hpair : (a, b) = (c, d) :=
        hS (h₁ _ (by simp [levelPairs])) (h₂ _ (by simp [levelPairs])) h.1
      cases hpair
      have hrest : rest = rest₂ :=
        ih (fun p hp => h₁ p (by simp [levelPairs, hp]))
          (fun p hp => h₂ p (by simp [levelPairs, hp])) (by simpa using hlen) h.2
      rw [hrest]
  | case2 x =>
    match l₂ with
    | [] => simp at hlen
    | [_] => simpa [pairUp] using h
    | _ :: _ :: _ => simp at hlen
  | case3 =>
    match l₂ with
    | [] => rfl
    | _ :: _ => simp at hlen

/-! ## Whole trees -/

theorem root_of_two_le (hlen : 2 ≤ level.length) (fuel : Nat) :
    root node (fuel + 1) level = root node fuel (pairUp node level) := by
  match level with
  | [] => simp at hlen
  | [_] => simp at hlen
  | _ :: _ :: _ => rfl

theorem root_eq_some_of_le (hne : level ≠ [])
    (hfuel : level.length ≤ fuel + 1) : ∃ r, root node fuel level = some r := by
  induction fuel generalizing level with
  | zero =>
    match level with
    | [] => exact (hne rfl).elim
    | [x] => exact ⟨x, rfl⟩
    | _ :: _ :: _ => simp at hfuel
  | succ fuel ih =>
    match level with
    | [] => exact (hne rfl).elim
    | [x] => exact ⟨x, rfl⟩
    | x :: y :: rest =>
      rw [root_of_two_le node (by simp)]
      apply ih
      · simp [pairUp]
      · rw [length_pairUp]
        simp only [List.length_cons] at hfuel ⊢
        omega

/-- Equal roots over equal widths come from equal levels. -/
theorem eq_of_root_eq {l₁ l₂ : List α} {r : α} (hS : Set.InjOn (Function.uncurry node) S)
    (h₁ : ∀ p ∈ treePairs node fuel l₁, p ∈ S) (h₂ : ∀ p ∈ treePairs node fuel l₂, p ∈ S)
    (hlen : l₁.length = l₂.length)
    (hr₁ : root node fuel l₁ = some r) (hr₂ : root node fuel l₂ = some r) : l₁ = l₂ := by
  induction fuel generalizing l₁ l₂ with
  | zero =>
    match l₁, l₂ with
    | [], [] => rfl
    | [_], [_] => simp [root] at hr₁ hr₂; rw [hr₁, hr₂]
    | _ :: _ :: _, _ => simp [root] at hr₁
    | [], _ :: _ => simp at hlen
    | [_], [] => simp at hlen
    | [_], _ :: _ :: _ => simp at hlen
  | succ fuel ih =>
    by_cases hwide : 2 ≤ l₁.length
    · rw [root_of_two_le node hwide] at hr₁
      rw [root_of_two_le node (hlen ▸ hwide)] at hr₂
      simp only [treePairs, List.mem_append] at h₁ h₂
      have hup : pairUp node l₁ = pairUp node l₂ :=
        ih (fun p hp => h₁ p (Or.inr hp)) (fun p hp => h₂ p (Or.inr hp))
          (by rw [length_pairUp, length_pairUp, hlen]) hr₁ hr₂
      exact pairUp_injOn node hS (fun p hp => h₁ p (Or.inl hp))
        (fun p hp => h₂ p (Or.inl hp)) hlen hup
    · match l₁, l₂ with
      | [], [] => rfl
      | [_], [_] => simp [root] at hr₁ hr₂; rw [hr₁, hr₂]
      | _ :: _ :: _, _ => simp at hwide
      | [], _ :: _ => simp at hlen
      | [_], [] => simp at hlen
      | [_], _ :: _ :: _ => simp at hlen

/-- The tree's own audit path leads a node of the level to the root. -/
theorem climb_auditPath {r : α} (hx : level[index]? = some x) (hr : root node fuel level = some r)
    (rest : List (Side × α)) :
    climb node fuel index level.length x (auditPath node fuel level index ++ rest) =
      some (r, rest) := by
  obtain ⟨hi, -⟩ := List.getElem?_eq_some_iff.1 hx
  induction fuel generalizing level index x with
  | zero =>
    match level, index with
    | [_], 0 => simp_all [climb, root, auditPath]
    | _ :: _ :: _, _ => simp [root] at hr
  | succ fuel ih =>
    by_cases hwide : level.length ≤ 1
    · match level, index with
      | [_], 0 => simp_all [climb, root, auditPath]
      | _ :: _ :: _, _ => simp at hwide
    · have hup := root_of_two_le node (by omega : 2 ≤ level.length) fuel
      have hwidth := length_pairUp node level
      rw [hup] at hr
      rw [climb, auditPath, if_neg hwide, if_neg hwide, ← hwidth]
      cases hs : sibling level index with
      | none =>
        have hside := (sibling_eq_none_iff hi).1 hs
        have hget := getElem?_pairUp_of_promoted node hx hside
        simp only [hside, Option.toList_none, List.nil_append]
        exact ih hget hr (by rw [hwidth]; omega)
      | some step =>
        obtain ⟨side, sib⟩ := step
        have hside := expectedSide_of_sibling hs
        have hget := getElem?_pairUp_of_sibling node hx hs
        simp only [hside, Option.toList_some, List.cons_append, List.nil_append, if_true]
        exact ih hget hr (by rw [hwidth]; omega)

/-- Every level halves the width, so a path is no longer than its logarithm. -/
theorem length_auditPath_le {k : Nat} (h : level.length ≤ 2 ^ k) :
    (auditPath node fuel level index).length ≤ k := by
  induction fuel generalizing level index k with
  | zero => simp [auditPath]
  | succ fuel ih =>
    rw [auditPath]
    by_cases hwide : level.length ≤ 1
    · rw [if_pos hwide]
      exact Nat.zero_le k
    · cases k with
      | zero => exact absurd h hwide
      | succ k =>
        have hup : (pairUp node level).length ≤ 2 ^ k := by
          rw [length_pairUp]
          omega
        have hstep : (sibling level index).toList.length ≤ 1 := by
          cases sibling level index <;> simp
        have hrest : (auditPath node fuel (pairUp node level) (index / 2)).length ≤ k := ih hup
        rw [if_neg hwide, List.length_append]
        omega

/-- Whatever path leads a node to the root of the tree, the node is the one at
that position and the path is the tree's own. -/
theorem eq_of_climb_eq_root {level : List α} {fuel index : Nat} {x r : α}
    {path rest : List (Side × α)} {S : Set (α × α)}
    (hS : Set.InjOn (Function.uncurry node) S)
    (htree : ∀ p ∈ treePairs node fuel level, p ∈ S)
    (hpath : ∀ p ∈ climbPairs node fuel index level.length x path, p ∈ S)
    (hi : index < level.length) (hr : root node fuel level = some r)
    (hclimb : climb node fuel index level.length x path = some (r, rest)) :
    level[index]? = some x ∧ path = auditPath node fuel level index ++ rest := by
  induction fuel generalizing level index x path with
  | zero =>
    match level, index with
    | [_], 0 => simp_all [climb, root, auditPath]
    | _ :: _ :: _, _ => simp [root] at hr
  | succ fuel ih =>
    by_cases hwide : level.length ≤ 1
    · match level, index with
      | [_], 0 => simp_all [climb, root, auditPath]
      | _ :: _ :: _, _ => simp at hwide
    have hup := root_of_two_le node (by omega : 2 ≤ level.length) fuel
    have hwidth := length_pairUp node level
    have hhalf : index / 2 < (pairUp node level).length := by rw [hwidth]; omega
    obtain ⟨y, hy⟩ : ∃ y, level[index]? = some y := ⟨_, List.getElem?_eq_getElem hi⟩
    rw [hup] at hr
    simp only [treePairs, List.mem_append] at htree
    rw [climb, if_neg hwide, ← hwidth] at hclimb
    rw [climbPairs, if_neg hwide, ← hwidth] at hpath
    rw [auditPath, if_neg hwide]
    cases hs : sibling level index with
    | none =>
      have hside := (sibling_eq_none_iff hi).1 hs
      simp only [hside] at hclimb hpath
      obtain ⟨hx, hrest⟩ := ih (fun p hp => htree p (Or.inr hp)) hpath hhalf hr hclimb
      rw [getElem?_pairUp_of_promoted node hy hside] at hx
      exact ⟨hy.trans hx, by simpa using hrest⟩
    | some step =>
      obtain ⟨side, sib⟩ := step
      have hside := expectedSide_of_sibling hs
      simp only [hside] at hclimb hpath
      match path with
      | [] => simp at hclimb
      | (s, sib') :: path =>
        simp only [] at hclimb hpath
        split at hclimb
        · rename_i heq
          subst heq
          obtain ⟨hx, hrest⟩ := ih (fun p hp => htree p (Or.inr hp))
            (fun p hp => hpath p (List.mem_cons_of_mem _ hp)) hhalf hr hclimb
          rw [getElem?_pairUp_of_sibling node hy hs] at hx
          have hpair : pairOn s sib y = pairOn s sib' x :=
            hS (htree _ (Or.inl (pairOn_mem_levelPairs hy hs)))
              (hpath _ List.mem_cons_self) (Option.some.inj hx)
          obtain ⟨rfl, rfl⟩ : sib = sib' ∧ y = x := by
            cases s <;> simpa [pairOn, and_comm] using hpair
          exact ⟨hy, by simp [hrest]⟩
        · cases hclimb

/-! ## Properties every node has -/

section

variable {node} {P : α → Prop} (hnode : ∀ x y, P (node x y))
include hnode

variable {level : List α} {fuel : Nat}

theorem forall_pairUp (h : ∀ x ∈ level, P x) : ∀ x ∈ pairUp node level, P x := by
  induction level using pairUp.induct with
  | case1 x y rest ih =>
    intro z hz
    rw [pairUp, List.mem_cons] at hz
    rcases hz with rfl | hz
    · exact hnode x y
    · exact ih (fun w hw => h w (by simp [hw])) z hz
  | case2 x => exact h
  | case3 => exact h

theorem root_satisfies {r : α} (h : ∀ x ∈ level, P x)
    (hr : root node fuel level = some r) : P r := by
  induction fuel generalizing level with
  | zero =>
    match level with
    | [] => cases hr
    | [x] =>
      cases hr
      exact h _ (by simp)
    | _ :: _ :: _ => cases hr
  | succ fuel ih =>
    match level with
    | [] => cases hr
    | [x] =>
      cases hr
      exact h _ (by simp)
    | x :: y :: rest => exact ih (forall_pairUp hnode h) hr

theorem treePairs_satisfies (h : ∀ x ∈ level, P x) :
    ∀ p ∈ treePairs node fuel level, P p.1 ∧ P p.2 := by
  have hlevel : ∀ l : List α, (∀ x ∈ l, P x) → ∀ p ∈ levelPairs l, P p.1 ∧ P p.2 := by
    intro l
    induction l using levelPairs.induct with
    | case1 x y rest ih =>
      intro hl p hp
      rw [levelPairs, List.mem_cons] at hp
      rcases hp with rfl | hp
      · exact ⟨hl x (by simp), hl y (by simp)⟩
      · exact ih (fun w hw => hl w (by simp [hw])) p hp
    | case2 l hshort =>
      intro _ p hp
      rw [levelPairs] at hp
      · cases hp
      · exact hshort
  induction fuel generalizing level with
  | zero =>
    intro p hp
    cases hp
  | succ fuel ih =>
    intro p hp
    rw [treePairs, List.mem_append] at hp
    rcases hp with hp | hp
    · exact hlevel level h p hp
    · exact ih (forall_pairUp hnode h) p hp

theorem auditPath_satisfies {index : Nat} (h : ∀ x ∈ level, P x) :
    ∀ step ∈ auditPath node fuel level index, P step.2 := by
  induction fuel generalizing level index with
  | zero =>
    intro step hstep
    cases hstep
  | succ fuel ih =>
    intro step hstep
    rw [auditPath] at hstep
    split at hstep
    · cases hstep
    · rw [List.mem_append] at hstep
      rcases hstep with hstep | hstep
      · rw [Option.mem_toList] at hstep
        unfold sibling at hstep
        split at hstep
        · obtain ⟨x, hx, rfl⟩ := Option.map_eq_some_iff.1 hstep
          exact h x (List.mem_of_getElem? hx)
        · obtain ⟨x, hx, rfl⟩ := Option.map_eq_some_iff.1 hstep
          exact h x (List.mem_of_getElem? hx)
      · exact ih (forall_pairUp hnode h) step hstep

end

end IntegrityGuardian.Library.PromotedMerkle
