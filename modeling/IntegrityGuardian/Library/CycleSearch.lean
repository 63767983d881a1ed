import Mathlib.Algebra.Order.BigOperators.Group.List
import Mathlib.Algebra.Order.Group.Nat
import Mathlib.Data.Finset.Card
import Mathlib.Data.List.Chain
import Mathlib.Data.List.Infix
import Mathlib.Logic.Relation
import Mathlib.Tactic.Push

/-!
# Depth-first search for directed cycles

A three-colour search that records a closed walk whenever it meets a node that is still
open.  It gives up once a given number of walks is recorded.  What it records are cycles,
and below that number every cycle contains the closing edge of a recorded one.
-/

namespace IntegrityGuardian.Library.CycleSearch

/-- A walk that ends where it starts. -/
structure ClosedWalk {V : Type} (edge : V → V → Prop) (walk : List V) : Prop where
  long : 2 ≤ walk.length
  chain : walk.IsChain edge
  closes : walk.head? = walk.getLast?

/-- The last edge of one of the walks. -/
def Recorded {V : Type} (cycles : List (List V)) (u v : V) : Prop := ∃ c ∈ cycles, [u, v] <:+ c

inductive Marker where
  | unseen
  | opened
  | finished
  deriving DecidableEq

structure Search (V : Type) where
  state : V → Marker
  stack : List V
  cycles : List (List V)

variable {V : Type}

def Search.start : Search V := ⟨fun _ => .unseen, [], []⟩

/-! ## What holds between two visits -/

section Spec

variable (graph : V → List V) (limit : Int)

/-- Finished nodes are ordered by the edges that close no recorded walk. -/
def Ranked (s : Search V) : Prop :=
  ∃ rank : V → Nat, ∀ u, s.state u = .finished → ∀ v ∈ graph u,
    Recorded s.cycles u v ∨ (s.state v = .finished ∧ rank v < rank u)

structure Inv (s : Search V) : Prop where
  chain : s.stack.IsChain fun u v => v ∈ graph u
  nodup : s.stack.Nodup
  opened : ∀ v, s.state v = .opened ↔ v ∈ s.stack
  sound : ∀ c ∈ s.cycles, ClosedWalk (fun u v => v ∈ graph u) c ∧ c.dropLast.Nodup
  ranked : (s.cycles.length : Int) < limit → Ranked graph s

/-- What a visit leaves of the state before it. -/
structure Grows (s s' : Search V) : Prop where
  stack : s'.stack = s.stack
  unseen : ∀ v, s'.state v = .unseen → s.state v = .unseen
  finished : ∀ v, s.state v = .finished → s'.state v = .finished
  cycles : s.cycles <+: s'.cycles

/-- Nothing is left to do for an edge out of the node on top of the stack. -/
def Settled (s : Search V) (v : V) : Prop :=
  s.state v = .finished ∨ ∃ u ∈ s.stack.getLast?, Recorded s.cycles u v

end Spec

variable {graph : V → List V} {limit : Int}

theorem Grows.refl (s : Search V) : Grows s s := ⟨rfl, fun _ h => h, fun _ h => h, List.prefix_rfl⟩

variable {walk : List V} {s s' : Search V} {v : V} {edge : V → V → Prop}

theorem Grows.trans {s'' : Search V} (h : Grows s s') (h' : Grows s' s'') : Grows s s'' where
  stack := h'.stack.trans h.stack
  unseen v hv := h.unseen v (h'.unseen v hv)
  finished v hv := h'.finished v (h.finished v hv)
  cycles := h.cycles.trans h'.cycles

theorem Recorded.mono {cycles cycles' : List (List V)} (h : cycles <+: cycles') {u : V}
    (hr : Recorded cycles u v) : Recorded cycles' u v := by
  obtain ⟨c, hc, hclosing⟩ := hr
  exact ⟨c, h.subset hc, hclosing⟩

theorem Settled.mono (h : Grows s s') (hv : Settled s v) : Settled s' v := by
  rcases hv with hv | ⟨u, hu, hr⟩
  · exact .inl (h.finished v hv)
  · exact .inr ⟨u, by rwa [h.stack], hr.mono h.cycles⟩

theorem Grows.below (h : Grows s s') (hlimit : (s'.cycles.length : Int) < limit) :
    (s.cycles.length : Int) < limit := by
  have := h.cycles.length_le
  omega

theorem inv_start : Inv graph limit (Search.start : Search V) where
  chain := List.isChain_nil
  nodup := List.nodup_nil
  opened v := by simp [Search.start]
  sound := by simp [Search.start]
  ranked _ := ⟨fun _ => 0, fun u hu => by cases hu⟩

/-! ## Closed walks -/

theorem ClosedWalk.eq_cons (h : ClosedWalk edge walk) :
    ∃ first second rest, walk = first :: second :: rest
      ∧ (second :: rest).getLast (List.cons_ne_nil _ _) = first := by
  match walk, h.long, h.closes with
  | first :: second :: rest, _, hcloses =>
    rw [List.getLast?_cons_cons, List.getLast?_eq_some_getLast (List.cons_ne_nil _ _)] at hcloses
    injection hcloses with hcloses
    exact ⟨first, second, rest, rfl, hcloses.symm⟩

/-- Every node of a closed walk is the end of an edge. -/
theorem ClosedWalk.exists_edge (h : ClosedWalk edge walk) (hv : v ∈ walk) : ∃ u, edge u v := by
  obtain ⟨first, second, rest, hwalk, hlast⟩ := h.eq_cons
  have hchain := h.chain
  rw [hwalk] at hv hchain
  have hv' : v ∈ second :: rest := by
    rcases List.mem_cons.1 hv with rfl | hv
    · rw [← hlast]
      exact List.getLast_mem _
    · exact hv
  obtain ⟨front, back, hsplit⟩ := List.append_of_mem hv'
  rw [hsplit, ← List.cons_append] at hchain
  have hne : first :: front ≠ [] := List.cons_ne_nil _ _
  exact ⟨(first :: front).getLast hne, (List.isChain_append.1 hchain).2.2 _
    (List.getLast?_eq_some_getLast hne) v rfl⟩

theorem exists_closedWalk (h : Relation.TransGen edge v v) : ∃ walk, ClosedWalk edge walk := by
  obtain ⟨u, hfirst, hrest⟩ := Relation.TransGen.head'_iff.1 h
  obtain ⟨rest, hchain, hlast⟩ := List.exists_isChain_cons_of_relationReflTransGen hrest
  refine ⟨v :: u :: rest, ⟨by simp, List.IsChain.cons_cons hfirst hchain, ?_⟩⟩
  rw [List.getLast?_cons_cons, List.getLast?_eq_some_getLast (List.cons_ne_nil _ _), hlast]
  rfl

theorem ClosedWalk.transGen (h : ClosedWalk edge walk) : ∃ v, Relation.TransGen edge v v := by
  obtain ⟨first, second, rest, rfl, hlast⟩ := h.eq_cons
  obtain ⟨hfirst, hrest⟩ := List.isChain_cons_cons.1 h.chain
  exact ⟨first, Relation.TransGen.head' hfirst
    (List.relationReflTransGen_of_exists_isChain_cons rest hrest hlast)⟩

/-- A closed walk of finished nodes cannot go down in rank along every edge. -/
theorem exists_recorded (h : Ranked graph s) (hwalk : ClosedWalk (fun u v => v ∈ graph u) walk)
    (hfinished : ∀ v ∈ walk, s.state v = .finished) :
    ∃ u v, [u, v] <:+: walk ∧ Recorded s.cycles u v := by
  by_contra hnone
  push Not at hnone
  obtain ⟨rank, hrank⟩ := h
  have hdescends : walk.IsChain fun u v => rank v < rank u := by
    refine (List.isChain_isInfix walk).imp fun u v hpair => ?_
    have hedge : v ∈ graph u := List.isChain_pair.1 ( List.IsChain.infix hwalk.chain hpair)
    have hu : s.state u = .finished := hfinished u (hpair.subset List.mem_cons_self)
    exact ((hrank u hu v hedge).resolve_left (hnone u v hpair)).2
  obtain ⟨first, second, rest, rfl, hlast⟩ := hwalk.eq_cons
  have htrans : IsTrans V fun u v => rank v < rank u := ⟨fun _ _ _ h h' => h'.trans h⟩
  have hmem : first ∈ second :: rest := by
    rw [← hlast]
    exact List.getLast_mem _
  have hlt := (List.pairwise_cons.1 (List.isChain_iff_pairwise.1 hdescends)).1 first hmem
  exact lt_irrefl _ hlt

/-! ## The search -/

variable [DecidableEq V]

def Search.enter (s : Search V) (node : V) : Search V :=
  { s with state := Function.update s.state node .opened, stack := s.stack ++ [node] }

def Search.leave (s : Search V) (node : V) : Search V :=
  { s with state := Function.update s.state node .finished, stack := s.stack.dropLast }

/-- An edge back to an open node. -/
def Search.close (s : Search V) (node : V) : Search V :=
  if node ∈ s.stack then
    let cycle := s.stack.drop (s.stack.idxOf node) ++ [node]
    if cycle ∈ s.cycles then s else { s with cycles := s.cycles ++ [cycle] }
  else s

section

variable (graph : V → List V) (limit : Int)

/-- The first argument bounds the depth of the recursion. -/
def visit : Nat → V → Search V → Option (Search V)
  | 0, _, _ => none
  | fuel + 1, node, s =>
    if limit ≤ s.cycles.length then some s
    else
      match s.state node with
      | .finished => some s
      | .opened => some (s.close node)
      | .unseen => do
        let s ← (graph node).foldlM (fun s child => visit fuel child s) (s.enter node)
        some (s.leave node)

def search (nodes : List V) : Option (List (List V)) := do
  let s ← nodes.foldlM (fun s node => visit graph limit (nodes.length + 1) node s) .start
  some s.cycles

end

/-! ## An edge back to an open node -/

variable {nodes : List V} {s s' : Search V} {node : V}

theorem close_walk (h : Inv graph limit s) (hnode : node ∈ s.stack)
    (hedge : ∀ u ∈ s.stack.getLast?, node ∈ graph u) :
    let cycle := s.stack.drop (s.stack.idxOf node) ++ [node]
    ClosedWalk (fun u v => v ∈ graph u) cycle ∧ cycle.dropLast.Nodup
      ∧ ∃ u ∈ s.stack.getLast?, [u, node] <:+ cycle := by
  have hlt : s.stack.idxOf node < s.stack.length := List.idxOf_lt_length_of_mem hnode
  have hdrop : s.stack.drop (s.stack.idxOf node)
      = node :: s.stack.drop (s.stack.idxOf node + 1) := by
    rw [List.drop_eq_getElem_cons hlt, List.getElem_idxOf]
  have hne : s.stack.drop (s.stack.idxOf node) ≠ [] := by
    rw [hdrop]
    exact List.cons_ne_nil _ _
  have hlast : (s.stack.drop (s.stack.idxOf node)).getLast? = s.stack.getLast? := by
    rw [List.getLast?_drop, if_neg (by omega)]
  obtain ⟨front, u, hfront⟩ := List.eq_nil_or_concat'  _ |>.resolve_left hne
  have hu : u ∈ s.stack.getLast? := by
    rw [← hlast, hfront, List.getLast?_concat]
    rfl
  intro cycle
  have hcycle : cycle = front ++ [u, node] := by
    show s.stack.drop (s.stack.idxOf node) ++ [node] = _
    rw [hfront, List.append_assoc]
    rfl
  refine ⟨⟨?_, ?_, ?_⟩, ?_, u, hu, ?_⟩
  · rw [hcycle, List.length_append]
    simp
  · refine (h.chain.drop _).append (List.isChain_singleton node) ?_
    intro x hx y hy
    rw [hlast] at hx
    obtain rfl : node = y := by simpa using hy
    exact hedge x hx
  · show (s.stack.drop (s.stack.idxOf node) ++ [node]).head? = _
    rw [List.getLast?_concat, hdrop]
    rfl
  · show (s.stack.drop (s.stack.idxOf node) ++ [node]).dropLast.Nodup
    rw [List.dropLast_concat]
    exact h.nodup.sublist (List.drop_sublist _ _)
  · rw [hcycle]
    exact List.suffix_append _ _

theorem close_spec (h : Inv graph limit s) (hnode : node ∈ s.stack)
    (hedge : ∀ u ∈ s.stack.getLast?, node ∈ graph u) :
    Inv graph limit (s.close node) ∧ Grows s (s.close node) ∧ Settled (s.close node) node := by
  obtain ⟨hwalk, hnodup, u, hu, hclosing⟩ := close_walk h hnode hedge
  unfold Search.close
  rw [if_pos hnode]
  dsimp only
  split
  · rename_i hknown
    exact ⟨h, .refl s, .inr ⟨u, hu, _, hknown, hclosing⟩⟩
  · have hgrown := List.prefix_append s.cycles [s.stack.drop (s.stack.idxOf node) ++ [node]]
    refine ⟨⟨h.chain, h.nodup, h.opened, ?_, ?_⟩, ⟨rfl, fun _ h => h, fun _ h => h, hgrown⟩, ?_⟩
    · intro c hc
      rcases List.mem_append.1 hc with hc | hc
      · exact h.sound c hc
      · rw [List.mem_singleton.1 hc]
        exact ⟨hwalk, hnodup⟩
    · intro hlimit
      have hbelow : (s.cycles.length : Int) < limit := by
        have := hgrown.length_le
        dsimp only at hlimit
        omega
      obtain ⟨rank, hrank⟩ := h.ranked hbelow
      refine ⟨rank, fun u hu v hv => ?_⟩
      exact (hrank u hu v hv).imp_left (Recorded.mono hgrown)
    · exact .inr ⟨u, hu, _, List.mem_append_right _ List.mem_cons_self, hclosing⟩

/-! ## A node that was not seen -/

theorem enter_inv (h : Inv graph limit s) (hnode : s.state node = .unseen)
    (hedge : ∀ u ∈ s.stack.getLast?, node ∈ graph u) : Inv graph limit (s.enter node) where
  chain := by
    refine h.chain.append (List.isChain_singleton node) ?_
    intro x hx y hy
    obtain rfl : node = y := by simpa using hy
    exact hedge x hx
  nodup := by
    have hfresh : node ∉ s.stack := by
      intro hmem
      rw [← h.opened, hnode] at hmem
      cases hmem
    exact List.nodup_append.2 ⟨h.nodup, List.nodup_singleton node, by
      intro a ha b hb
      rw [List.mem_singleton.1 hb]
      exact ne_of_mem_of_not_mem ha hfresh⟩
  opened v := by
    show Function.update s.state node .opened v = .opened ↔ v ∈ s.stack ++ [node]
    by_cases hv : v = node
    · rw [hv, Function.update_self]
      simp
    · rw [Function.update_of_ne hv, h.opened]
      simp [hv]
  sound := h.sound
  ranked hlimit := by
    obtain ⟨rank, hrank⟩ := h.ranked hlimit
    refine ⟨rank, fun u hu v hv => ?_⟩
    have hne : u ≠ node := by
      rintro rfl
      exact absurd hu (by simp [Search.enter])
    have hu' : s.state u = .finished := by
      simpa [Search.enter, Function.update_of_ne hne] using hu
    refine (hrank u hu' v hv).imp_right fun hfinished => ⟨?_, hfinished.2⟩
    have hv' : v ≠ node := by
      rintro rfl
      rw [hnode] at hfinished
      cases hfinished.1
    show Function.update s.state node .opened v = .finished
    rw [Function.update_of_ne hv']
    exact hfinished.1

/-- Behind its last child, a node is ranked above its children. -/
theorem leave_inv (h : Inv graph limit s)
    (hnode : s.state node = .unseen) (h' : Inv graph limit s') (hgrows : Grows (s.enter node) s')
    (hchildren : (s'.cycles.length : Int) < limit → ∀ v ∈ graph node, Settled s' v) :
    Inv graph limit (s'.leave node) := by
  have hstack : s'.stack = s.stack ++ [node] := hgrows.stack
  have hpop : (s'.leave node).stack = s.stack := by
    show s'.stack.dropLast = _
    rw [hstack, List.dropLast_concat]
  have hfresh : node ∉ s.stack := by
    intro hmem
    rw [← h.opened, hnode] at hmem
    cases hmem
  refine ⟨?_, ?_, ?_, h'.sound, ?_⟩
  · rw [hpop]
    exact h.chain
  · rw [hpop]
    exact h.nodup
  · intro v
    rw [hpop]
    show Function.update s'.state node .finished v = .opened ↔ _
    by_cases hv : v = node
    · rw [hv, Function.update_self]
      exact ⟨nofun, fun h => absurd h hfresh⟩
    · rw [Function.update_of_ne hv, h'.opened, hstack]
      simp [hv]
  · intro hlimit
    have hlimit' : (s'.cycles.length : Int) < limit := hlimit
    obtain ⟨rank, hrank⟩ := h'.ranked hlimit'
    have hopen : s'.state node = .opened := by
      rw [h'.opened, hstack]
      simp
    refine ⟨Function.update rank node (((graph node).map rank).sum + 1), fun u hu v hv => ?_⟩
    show Recorded s'.cycles u v ∨ Function.update s'.state node .finished v = .finished ∧ _
    have hother (w : V) (hw : s'.state w = .finished) : w ≠ node := by
      rintro rfl
      rw [hopen] at hw
      cases hw
    by_cases hunode : u = node
    · rw [hunode] at hv ⊢
      rcases hchildren hlimit' v hv with hv' | ⟨w, hw, hrecorded⟩
      · right
        have hle : rank v ≤ ((graph node).map rank).sum :=
          List.single_le_sum (by simp) _ (List.mem_map_of_mem hv)
        rw [Function.update_self, Function.update_of_ne (hother v hv'),
          Function.update_of_ne (hother v hv')]
        exact ⟨hv', Nat.lt_succ_of_le hle⟩
      · left
        rw [hstack, List.getLast?_concat] at hw
        obtain rfl : node = w := by simpa using hw
        exact hrecorded
    · have hu' : s'.state u = .finished := by
        simpa [Search.leave, Function.update_of_ne hunode] using hu
      refine (hrank u hu' v hv).imp_right fun hfinished => ?_
      rw [Function.update_of_ne (hother v hfinished.1), Function.update_of_ne hunode,
        Function.update_of_ne (hother v hfinished.1)]
      exact hfinished

theorem leave_grows (hnode : s.state node = .unseen)
    (h : Grows (s.enter node) s') : Grows s (s'.leave node) where
  stack := by
    show s'.stack.dropLast = _
    rw [h.stack]
    exact List.dropLast_concat
  unseen v hv := by
    have hne : v ≠ node := by
      rintro rfl
      exact absurd hv (by simp [Search.leave])
    have hv' : s'.state v = .unseen := by
      simpa [Search.leave, Function.update_of_ne hne] using hv
    simpa [Search.enter, Function.update_of_ne hne] using h.unseen v hv'
  finished v hv := by
    have hne : v ≠ node := by
      rintro rfl
      rw [hnode] at hv
      cases hv
    have hv' : (s.enter node).state v = .finished := by
      simpa [Search.enter, Function.update_of_ne hne] using hv
    simpa [Search.leave, Function.update_of_ne hne] using h.finished v hv'
  cycles := h.cycles

/-! ## Visits -/

/-- The nodes that were not seen. -/
def unseenNodes (nodes : List V) (s : Search V) : Finset V :=
  nodes.toFinset.filter fun v => s.state v = .unseen

theorem Grows.unseenNodes_card (h : Grows s s') (nodes : List V) :
    (unseenNodes nodes s').card ≤ (unseenNodes nodes s).card :=
  Finset.card_le_card (Finset.monotone_filter_right _ fun v _ hv => h.unseen v hv)

theorem enter_unseenNodes_card (hmem : node ∈ nodes) (hnode : s.state node = .unseen) :
    (unseenNodes nodes (s.enter node)).card < (unseenNodes nodes s).card := by
  refine Finset.card_lt_card (Finset.ssubset_iff_of_subset ?_ |>.2 ⟨node, ?_, ?_⟩)
  · intro v hv
    obtain ⟨hv, hunseen⟩ := Finset.mem_filter.1 hv
    have hne : v ≠ node := by
      rintro rfl
      exact absurd hunseen (by simp [Search.enter])
    exact Finset.mem_filter.2 ⟨hv, by simpa [Search.enter, Function.update_of_ne hne] using hunseen⟩
  · exact Finset.mem_filter.2 ⟨List.mem_toFinset.2 hmem, hnode⟩
  · intro hv
    exact absurd (Finset.mem_filter.1 hv).2 (by simp [Search.enter])

/-- What a visit of a node gives. -/
def Visited (graph : V → List V) (limit : Int) (s : Search V) (node : V)
    (result : Option (Search V)) : Prop :=
  ∃ s', result = some s' ∧ Inv graph limit s' ∧ Grows s s'
    ∧ ((s'.cycles.length : Int) < limit → Settled s' node)

/-- The loop over the edges out of the node on top of the stack. -/
theorem foldlM_visited {step : V → Search V → Option (Search V)} {n : Nat}
    (hstep : ∀ s node, Inv graph limit s → node ∈ nodes → (unseenNodes nodes s).card < n →
      (∀ u ∈ s.stack.getLast?, node ∈ graph u) → Visited graph limit s node (step node s))
    {children : List V} (hchildren : ∀ v ∈ children, v ∈ nodes)
    (h : Inv graph limit s) (hfuel : (unseenNodes nodes s).card < n)
    (hedges : ∀ u ∈ s.stack.getLast?, ∀ v ∈ children, v ∈ graph u) :
    ∃ s', children.foldlM (fun s child => step child s) s = some s' ∧ Inv graph limit s'
      ∧ Grows s s' ∧ ((s'.cycles.length : Int) < limit → ∀ v ∈ children, Settled s' v) := by
  induction children generalizing s with
  | nil => exact ⟨s, rfl, h, .refl s, fun _ => by simp⟩
  | cons child children ih =>
    obtain ⟨s₁, hs₁, h₁, hgrows₁, hsettled₁⟩ := hstep s child h (hchildren child List.mem_cons_self)
      hfuel (fun u hu => hedges u hu child List.mem_cons_self)
    have hcard := hgrows₁.unseenNodes_card nodes
    obtain ⟨s₂, hs₂, h₂, hgrows₂, hsettled₂⟩ :=
      ih (fun v hv => hchildren v (List.mem_cons_of_mem _ hv)) h₁ (by omega)
        (by
          rw [hgrows₁.stack]
          exact fun u hu v hv => hedges u hu v (List.mem_cons_of_mem _ hv))
    refine ⟨s₂, ?_, h₂, hgrows₁.trans hgrows₂, ?_⟩
    · rw [List.foldlM_cons, hs₁]
      exact hs₂
    · intro hlimit v hv
      rcases List.mem_cons.1 hv with rfl | hv
      · exact (hsettled₁ (hgrows₂.below hlimit)).mono hgrows₂
      · exact hsettled₂ hlimit v hv

/-- Fuel beyond the number of nodes that were not seen is enough. -/
theorem visit_spec (hgraph : ∀ u, ∀ v ∈ graph u, v ∈ nodes) (fuel : Nat)
    (s : Search V) (node : V) (h : Inv graph limit s) (hmem : node ∈ nodes)
    (hfuel : (unseenNodes nodes s).card < fuel) (hedge : ∀ u ∈ s.stack.getLast?, node ∈ graph u) :
    Visited graph limit s node (visit graph limit fuel node s) := by
  induction fuel generalizing s node with
  | zero => omega
  | succ fuel ih =>
    unfold visit
    by_cases hlimit : limit ≤ s.cycles.length
    · rw [if_pos hlimit]
      exact ⟨s, rfl, h, .refl s, fun hlt => by omega⟩
    rw [if_neg hlimit]
    cases hnode : s.state node with
    | finished => exact ⟨s, rfl, h, .refl s, fun _ => .inl hnode⟩
    | opened =>
      obtain ⟨h', hgrows, hsettled⟩ := close_spec h ((h.opened node).1 hnode) hedge
      exact ⟨_, rfl, h', hgrows, fun _ => hsettled⟩
    | unseen =>
      have hcard := enter_unseenNodes_card hmem hnode
      obtain ⟨s', hs', h', hgrows, hsettled⟩ :=
        foldlM_visited (n := fuel) ih (hgraph node) (enter_inv h hnode hedge) (by omega)
          (by simp [Search.enter])
      refine ⟨s'.leave node, ?_, leave_inv h hnode h' hgrows hsettled,
        leave_grows hnode hgrows, fun _ => ?_⟩
      · dsimp only
        rw [hs']
        rfl
      · exact .inl (by simp [Search.leave])

/-! ## What the search finds -/

theorem search_spec (hgraph : ∀ u, ∀ v ∈ graph u, v ∈ nodes) (limit : Int) :
    ∃ cycles, search graph limit nodes = some cycles
      ∧ (∀ c ∈ cycles, ClosedWalk (fun u v => v ∈ graph u) c ∧ c.dropLast.Nodup)
      ∧ ((cycles.length : Int) < limit →
        ∀ walk, ClosedWalk (fun u v => v ∈ graph u) walk →
          ∃ u v, [u, v] <:+: walk ∧ Recorded cycles u v) := by
  have hcard : (unseenNodes nodes (Search.start : Search V)).card < nodes.length + 1 := by
    have hfilter := Finset.card_filter_le nodes.toFinset
      fun v => (Search.start : Search V).state v = .unseen
    have hle := nodes.toFinset_card_le
    unfold unseenNodes
    omega
  have hstart : Inv graph limit (Search.start : Search V) := inv_start
  obtain ⟨s, hs, h, hgrows, hsettled⟩ :=
    foldlM_visited (fun s node h hmem => visit_spec hgraph _ s node h hmem) (fun v hv => hv) hstart
      hcard (by simp [Search.start])
  refine ⟨s.cycles, ?_, h.sound, ?_⟩
  · unfold search
    rw [hs]
    rfl
  · intro hlimit walk hwalk
    refine exists_recorded (h.ranked hlimit) hwalk fun v hv => ?_
    obtain ⟨u, hu⟩ := hwalk.exists_edge hv
    rcases hsettled hlimit v (hgraph u v hu) with hfinished | ⟨w, hw, -⟩
    · exact hfinished
    · rw [hgrows.stack] at hw
      cases hw

theorem search_eq_nil_iff (hgraph : ∀ u, ∀ v ∈ graph u, v ∈ nodes) {limit : Int}
    (hlimit : 1 ≤ limit) :
    search graph limit nodes = some [] ↔ ∀ v, ¬ Relation.TransGen (fun u v => v ∈ graph u) v v := by
  obtain ⟨cycles, hcycles, hsound, hcomplete⟩ := search_spec hgraph limit
  rw [hcycles]
  constructor
  · intro hnil v hv
    injection hnil with hnil
    subst hnil
    obtain ⟨walk, hwalk⟩ := exists_closedWalk hv
    obtain ⟨u, w, -, c, hc, -⟩ := hcomplete (by
      rw [List.length_nil]
      omega) walk hwalk
    cases hc
  · intro hacyclic
    cases cycles with
    | nil => rfl
    | cons c cycles =>
      obtain ⟨v, hv⟩ := (hsound c List.mem_cons_self).1.transGen
      exact absurd hv (hacyclic v)

end IntegrityGuardian.Library.CycleSearch
