import IntegrityGuardian.Library.Dict

/-!
# Best-first search with pruning

A search over a tree keeps a priority queue of entries and, for every state, the
least key offered so far; an entry whose state was offered with a key no greater
is passed over.  Passing over is decided by the keys of fronts alone, so the
order of two fronts need not be the order of what they are extended to.  `Kept`
says which entries the search ever queues, without reference to the queue, and
the main result describes the answer of the search by it.
-/

namespace IntegrityGuardian.Library.BestFirst

/-- A tree of entries with keys and states. -/
structure Space (ε κ σ ξ : Type) where
  /-- What an entry is extended to, in order; computing it may raise. -/
  children : ε → Except ξ (List ε)
  key : ε → κ
  state : ε → σ
  goal : ε → Bool
  /-- Entries at the depth bound are not extended. -/
  closed : ε → Bool

/-- How a search ends; the flag tells whether the bound on expansions was met. -/
inductive Outcome (ε : Type) where
  | found (entry : ε) (bounded : Bool)
  | exhausted (bounded : Bool)
  /-- Two queued entries have one key. -/
  | clash
  | unfinished
  deriving DecidableEq

section Search

variable {ε κ σ ξ : Type} [LinearOrder κ] [LinearOrder σ] (space : Space ε κ σ ξ)

/-- Queue an entry by its key; `none` when the key is taken. -/
def push (entry : ε) : List ε → Option (List ε)
  | [] => some [entry]
  | e :: queue =>
    if space.key entry < space.key e then some (entry :: e :: queue)
    else if space.key e < space.key entry then (push entry queue).map (e :: ·)
    else none

/-- Offer an entry: passed over when its state was offered with a key no greater. -/
def offer (entry : ε) (queue : List ε) (best : Dict σ κ) : Option (List ε × Dict σ κ) :=
  match best[space.state entry]? with
  | some previous =>
    if previous ≤ space.key entry then some (queue, best)
    else (push space entry queue).map (·, best.insert (space.state entry) (space.key entry))
  | none => (push space entry queue).map (·, best.insert (space.state entry) (space.key entry))

def offerAll : List ε → List ε → Dict σ κ → Option (List ε × Dict σ κ)
  | [], queue, best => some (queue, best)
  | entry :: entries, queue, best =>
    match offer space entry queue best with
    | some (queue, best) => offerAll entries queue best
    | none => none

/-- The loop: `limit` bounds the expansions, the first argument the iterations. -/
def search (limit : Nat) : Nat → List ε → Dict σ κ → Nat → Bool → Except ξ (Outcome ε)
  | 0, _, _, _, _ => .ok .unfinished
  | _ + 1, [], _, _, bounded => .ok (.exhausted bounded)
  | fuel + 1, entry :: queue, best, expansions, bounded =>
    if space.goal entry then .ok (.found entry bounded)
    else if space.closed entry then search limit fuel queue best expansions bounded
    else if limit ≤ expansions then search limit fuel queue best expansions true
    else
      match space.children entry with
      | .error e => .error e
      | .ok entries =>
        match offerAll space entries queue best with
        | none => .ok .clash
        | some (queue, best) => search limit fuel queue best (expansions + 1) bounded

/-! ## The tree -/

/-- The entries of the tree. -/
inductive Reach (root : ε) : ε → Prop
  | root : Reach root root
  | child {parent entry : ε} {entries : List ε} (h : Reach root parent)
    (hchildren : space.children parent = .ok entries) (hmem : entry ∈ entries) : Reach root entry

/-- Keys grow along the tree and name its entries, and a state tells its depth. -/
structure Lawful (root : ε) (level : σ → Nat) : Prop where
  key_lt : ∀ {parent entry entries}, Reach space root parent →
    space.children parent = .ok entries → entry ∈ entries → space.key parent < space.key entry
  level_child : ∀ {parent entry entries}, space.children parent = .ok entries →
    entry ∈ entries → level (space.state entry) = level (space.state parent) + 1
  nodup : ∀ {parent entries}, Reach space root parent → space.children parent = .ok entries →
    entries.Nodup
  key_inj : ∀ {e e'}, Reach space root e → Reach space root e' → space.key e = space.key e' →
    e = e'
  parent_inj : ∀ {p p' entry entries entries'}, Reach space root p → Reach space root p' →
    space.children p = .ok entries → space.children p' = .ok entries' → entry ∈ entries →
    entry ∈ entries' → p = p'

/-- The search goes on from an entry. -/
def Branches (entry : ε) : Prop := space.goal entry = false ∧ space.closed entry = false

/-- The entries of a depth that the search queues: at every step no entry offered
before, from a kept front with a lower key or in front of it among its siblings,
has the same state and a key no greater. -/
def Kept (root : ε) : Nat → ε → Prop
  | 0, entry => entry = root
  | depth + 1, entry =>
    ∃ parent before after, Kept root depth parent ∧ Branches space parent ∧
      space.children parent = .ok (before ++ entry :: after) ∧
      (∀ e ∈ before, space.state e = space.state entry → space.key entry < space.key e) ∧
      ∀ parent' entries, Kept root depth parent' → Branches space parent' →
        space.key parent' < space.key parent → space.children parent' = .ok entries →
        ∀ e ∈ entries, space.state e = space.state entry → space.key entry < space.key e

end Search

section Facts

variable {ε κ σ ξ : Type} [LinearOrder κ] {space : Space ε κ σ ξ} {root : ε} {level : σ → Nat}

variable {queue : List ε} {depth : Nat} {entry : ε}

theorem Kept.reach (h : Kept space root depth entry) : Reach space root entry := by
  induction depth generalizing entry with
  | zero =>
    rw [show entry = root from h]
    exact .root
  | succ depth ih =>
    obtain ⟨parent, before, after, hparent, -, hchildren, -⟩ := h
    exact .child (ih hparent) hchildren (by simp)

theorem Kept.level_eq (hlaws : Lawful space root level) (h : Kept space root depth entry) :
    level (space.state entry) = level (space.state root) + depth := by
  induction depth generalizing entry with
  | zero =>
    rw [show entry = root from h]
    rfl
  | succ depth ih =>
    obtain ⟨parent, before, after, hparent, -, hchildren, -⟩ := h
    have hstep := hlaws.level_child hchildren (show entry ∈ before ++ entry :: after by simp)
    rw [hstep, ih hparent]
    rfl

theorem Reach.root_le (hlaws : Lawful space root level)
    (h : Reach space root entry) : space.key root ≤ space.key entry := by
  induction h with
  | root => exact le_rfl
  | child hparent hchildren hmem ih => exact ih.trans (hlaws.key_lt hparent hchildren hmem).le

/-! ## The queue -/

/-- Queueing succeeds when the key is free. -/
theorem push_of_fresh (hsorted : queue.Pairwise fun a b => space.key a < space.key b)
    (hfresh : ∀ q ∈ queue, space.key q ≠ space.key entry) :
    ∃ queue', push space entry queue = some queue' ∧
      (queue'.Pairwise fun a b => space.key a < space.key b) ∧
      ∀ e, e ∈ queue' ↔ e = entry ∨ e ∈ queue := by
  induction queue with
  | nil => exact ⟨[entry], rfl, by simp, by simp⟩
  | cons q queue ih =>
    obtain ⟨hq, hqueue⟩ := List.pairwise_cons.1 hsorted
    obtain ⟨hne, hfresh⟩ := List.forall_mem_cons.1 hfresh
    by_cases hlt : space.key entry < space.key q
    · refine ⟨entry :: q :: queue, by simp [push, hlt], ?_, by simp⟩
      refine List.pairwise_cons.2 ⟨?_, hsorted⟩
      intro e he
      rcases List.mem_cons.1 he with rfl | he
      · exact hlt
      · exact hlt.trans (hq e he)
    · have hgt : space.key q < space.key entry := lt_of_le_of_ne (not_lt.1 hlt) hne
      obtain ⟨queue', hpush, hsorted', hmem⟩ := ih hqueue hfresh
      refine ⟨q :: queue', by simp [push, hlt, hgt, hpush], ?_, ?_⟩
      · refine List.pairwise_cons.2 ⟨?_, hsorted'⟩
        intro e he
        rcases (hmem e).1 he with rfl | he
        · exact hgt
        · exact hq e he
      · intro e
        rw [List.mem_cons, hmem, List.mem_cons]
        exact or_left_comm

theorem length_push {queue' : List ε}
    (h : push space entry queue = some queue') : queue'.length = queue.length + 1 := by
  induction queue generalizing queue' with
  | nil =>
    cases h
    rfl
  | cons q queue ih =>
    simp only [push] at h
    split at h
    · cases h
      rfl
    · split at h
      · obtain ⟨rest, hrest, rfl⟩ := Option.map_eq_some_iff.1 h
        simp only [List.length_cons, ih hrest]
      · cases h

theorem mem_of_push {queue' : List ε} (h : push space entry queue = some queue')
    {e : ε} (he : e ∈ queue') : e ∈ queue ∨ e = entry := by
  induction queue generalizing queue' with
  | nil =>
    cases h
    exact .inr (List.mem_singleton.1 he)
  | cons q queue ih =>
    simp only [push] at h
    split at h
    · cases h
      rcases List.mem_cons.1 he with he | he
      · exact .inr he
      · exact .inl he
    · split at h
      · obtain ⟨rest, hrest, rfl⟩ := Option.map_eq_some_iff.1 h
        rcases List.mem_cons.1 he with rfl | he
        · exact .inl (List.mem_cons_self ..)
        · rcases ih hrest he with he | he
          · exact .inl (List.mem_cons_of_mem _ he)
          · exact .inr he
      · cases h

variable [LinearOrder σ]

variable {best best' : Dict σ κ} {queue queue' : List ε} {done : Set ε} {e entry : ε}

/-- An offer queues the entry or leaves the queue. -/
theorem queue_of_offer (h : offer space entry queue best = some (queue', best')) :
    queue' = queue ∨ push space entry queue = some queue' := by
  have hpushed : (push space entry queue).map
      (·, best.insert (space.state entry) (space.key entry)) = some (queue', best') →
      push space entry queue = some queue' := by
    intro hpush
    obtain ⟨rest, hrest, heq⟩ := Option.map_eq_some_iff.1 hpush
    cases heq
    exact hrest
  unfold offer at h
  split at h
  · split at h
    · cases h
      exact .inl rfl
    · exact .inr (hpushed h)
  · exact .inr (hpushed h)

theorem length_offer_le (h : offer space entry queue best = some (queue', best')) :
    queue'.length ≤ queue.length + 1 := by
  rcases queue_of_offer h with rfl | hpush
  · exact Nat.le_succ _
  · exact (length_push hpush).le

theorem mem_of_offer (h : offer space entry queue best = some (queue', best')) (he : e ∈ queue') :
    e ∈ queue ∨ e = entry := by
  rcases queue_of_offer h with rfl | hpush
  · exact .inl he
  · exact mem_of_push hpush he

theorem mem_of_offerAll {entries : List ε}
    (h : offerAll space entries queue best = some (queue', best')) (he : e ∈ queue') :
    e ∈ queue ∨ e ∈ entries := by
  induction entries generalizing queue best with
  | nil =>
    cases h
    exact .inl he
  | cons entry entries ih =>
    simp only [offerAll] at h
    split at h
    · rename_i queue₁ best₁ hoffer
      rcases ih h with he | he
      · rcases mem_of_offer hoffer he with he | rfl
        · exact .inl he
        · exact .inr (List.mem_cons_self ..)
      · exact .inr (List.mem_cons_of_mem _ he)
    · cases h

theorem length_offerAll_le {entries : List ε}
    (h : offerAll space entries queue best = some (queue', best')) :
    queue'.length ≤ queue.length + entries.length := by
  induction entries generalizing queue best with
  | nil =>
    cases h
    exact le_rfl
  | cons entry entries ih =>
    simp only [offerAll] at h
    split at h
    · rename_i queue₁ best₁ hoffer
      have hrest := ih h
      have hfirst := length_offer_le hoffer
      simp only [List.length_cons]
      omega
    · cases h

/-- The search ends within as many iterations as entries can be queued. -/
theorem search_finishes {width limit : Nat}
    (hwidth : ∀ parent entries, space.children parent = .ok entries → entries.length ≤ width)
    (fuel : Nat) (queue : List ε) (best : Dict σ κ) (expansions : Nat) (bounded : Bool)
    (hfuel : queue.length + (limit - expansions) * width < fuel) :
    search space limit fuel queue best expansions bounded ≠ .ok .unfinished := by
  induction fuel generalizing queue best expansions bounded with
  | zero => omega
  | succ fuel ih =>
    cases queue with
    | nil => simp [search]
    | cons entry queue =>
      simp only [List.length_cons] at hfuel
      simp only [search]
      split
      · simp
      · split
        · exact ih _ _ _ _ (by omega)
        · split
          · exact ih _ _ _ _ (by omega)
          · rename_i hlimit
            split
            · simp
            · rename_i entries hchildren
              split
              · simp
              · rename_i queue' best' hoffer
                have hlength := length_offerAll_le hoffer
                have hentries := hwidth _ _ hchildren
                have hsplit : (limit - expansions) * width =
                    (limit - (expansions + 1)) * width + width := by
                  rw [← Nat.succ_mul]
                  congr 1
                  omega
                exact ih _ _ _ _ (by omega)

/-! ## What the search has explored -/

/-- An entry was offered from one of the entries done with. -/
def Offered (space : Space ε κ σ ξ) (done : Set ε) (entry : ε) : Prop :=
  ∃ parent ∈ done, space.closed parent = false ∧
    ∃ entries, space.children parent = .ok entries ∧ entry ∈ entries

/-- The loop invariant, with the entries taken from the queue so far. -/
structure Explored (space : Space ε κ σ ξ) (root : ε) (done : Set ε) (queue : List ε)
    (best : Dict σ κ) : Prop where
  sorted : queue.Pairwise fun a b => space.key a < space.key b
  done_lt : ∀ d ∈ done, ∀ q ∈ queue, space.key d < space.key q
  kept : ∀ e, e ∈ done ∨ e ∈ queue → ∃ depth, Kept space root depth e
  goal : ∀ d ∈ done, space.goal d = false
  extended : ∀ d ∈ done, space.closed d = false → ∃ entries, space.children d = .ok entries
  rooted : root ∈ done ∨ root ∈ queue
  offered : ∀ q ∈ queue, q = root ∨ Offered space done q
  grown : ∀ e depth, Offered space done e → Kept space root depth e → e ∈ done ∨ e ∈ queue
  best_le : ∀ e, Offered space done e →
    ∃ least, best[space.state e]? = some least ∧ least ≤ space.key e
  best_kept : ∀ s least, best[s]? = some least →
    ∃ e depth, Offered space done e ∧ Kept space root depth e ∧ space.state e = s ∧
      space.key e = least

theorem explored_start (space : Space ε κ σ ξ) (root : ε) :
    Explored space root ∅ [root] ∅ where
  sorted := by simp
  done_lt := by simp
  kept e he := by
    rcases he with he | he
    · cases he
    · exact ⟨0, List.mem_singleton.1 he⟩
  goal := by simp
  extended := by simp
  rooted := by simp
  offered := by simp
  grown := by
    rintro e depth ⟨parent, hparent, -⟩
    cases hparent
  best_le := by
    rintro e ⟨parent, hparent, -⟩
    cases hparent
  best_kept := by
    intro s least h
    rw [Dict.get_empty] at h
    cases h

/-- A kept entry below everything queued is done with. -/
theorem Explored.mem_done (hlaws : Lawful space root level)
    (h : Explored space root done queue best) {depth : Nat} (hkept : Kept space root depth entry)
    (hbelow : ∀ q ∈ queue, space.key entry < space.key q) : entry ∈ done := by
  induction depth generalizing entry with
  | zero =>
    rcases h.rooted with hroot | hroot
    · rw [show entry = root from hkept]
      exact hroot
    · rw [show entry = root from hkept] at hbelow
      exact absurd (hbelow root hroot) (lt_irrefl _)
  | succ depth ih =>
    obtain ⟨parent, before, after, hparent, hbranches, hchildren, -⟩ := id hkept
    have hmem : entry ∈ before ++ entry :: after := by simp
    have hlt := hlaws.key_lt hparent.reach hchildren hmem
    have hdone := ih hparent fun q hq => hlt.trans (hbelow q hq)
    have hoffered : Offered space done entry := ⟨parent, hdone, hbranches.2, _, hchildren, hmem⟩
    rcases h.grown entry _ hoffered hkept with hentry | hentry
    · exact hentry
    · exact absurd (hbelow entry hentry) (lt_irrefl _)

/-- Taking an entry that is not extended. -/
theorem Explored.skip
    (h : Explored space root done (entry :: queue) best) (hgoal : space.goal entry = false)
    (hclosed : space.closed entry = true) :
    Explored space root (insert entry done) queue best := by
  obtain ⟨hentry, hqueue⟩ := List.pairwise_cons.1 h.sorted
  have hoffered : ∀ e, Offered space (insert entry done) e ↔ Offered space done e := by
    intro e
    constructor
    · rintro ⟨parent, rfl | hparent, hopen, hrest⟩
      · rw [hclosed] at hopen
        cases hopen
      · exact ⟨parent, hparent, hopen, hrest⟩
    · rintro ⟨parent, hparent, hrest⟩
      exact ⟨parent, .inr hparent, hrest⟩
  have hmoved : ∀ e, e ∈ done ∨ e ∈ entry :: queue ↔ e ∈ insert entry done ∨ e ∈ queue := by
    intro e
    rw [List.mem_cons, Set.mem_insert_iff, or_left_comm, or_assoc]
  refine ⟨hqueue, ?_, ?_, ?_, ?_, (hmoved root).1 h.rooted, ?_, ?_, ?_, ?_⟩
  · rintro d (rfl | hd) q hq
    · exact hentry q hq
    · exact h.done_lt d hd q (List.mem_cons_of_mem _ hq)
  · intro e he
    exact h.kept e ((hmoved e).2 he)
  · rintro d (rfl | hd)
    · exact hgoal
    · exact h.goal d hd
  · rintro d (rfl | hd) hopen
    · rw [hclosed] at hopen
      cases hopen
    · exact h.extended d hd hopen
  · intro q hq
    rw [hoffered]
    exact h.offered q (List.mem_cons_of_mem _ hq)
  · intro e depth he hkept
    exact (hmoved e).1 (h.grown e depth ((hoffered e).1 he) hkept)
  · intro e he
    exact h.best_le e ((hoffered e).1 he)
  · intro s least hleast
    obtain ⟨e, depth, he, hrest⟩ := h.best_kept s least hleast
    exact ⟨e, depth, (hoffered e).2 he, hrest⟩

/-! ## Extending an entry -/

/-- The invariant of the loop over the children of an entry: `entry` is taken from
the queue and `before` are the children offered so far. -/
structure Extending (space : Space ε κ σ ξ) (root : ε) (done : Set ε) (entry : ε)
    (rest before queue : List ε) (best : Dict σ κ) : Prop where
  sorted : queue.Pairwise fun a b => space.key a < space.key b
  mem : ∀ e, e ∈ queue ↔ e ∈ rest ∨ (e ∈ before ∧ ∃ depth, Kept space root depth e)
  best_le : ∀ e, Offered space done e ∨ e ∈ before →
    ∃ least, best[space.state e]? = some least ∧ least ≤ space.key e
  best_kept : ∀ s least, best[s]? = some least →
    ∃ e depth, (Offered space done e ∨ e ∈ before) ∧ Kept space root depth e ∧
      space.state e = s ∧ space.key e = least

section Extend

variable {done : Set ε} {rest : List ε} {best₀ : Dict σ κ} {entry : ε}

variable {best : Dict σ κ} {after before queue : List ε} {child : ε}

omit [LinearOrder κ] [LinearOrder σ] in
theorem notMem_of_nodup
    (h : (before ++ child :: after).Nodup) : child ∉ before ∧ child ∉ after := by
  rw [List.nodup_append] at h
  obtain ⟨-, hafter, hapart⟩ := h
  refine ⟨?_, (List.nodup_cons.1 hafter).1⟩
  intro hmem
  exact hapart child hmem child (List.mem_cons_self ..) rfl

/-- A child that is offered with no lesser key for its state is kept. -/
theorem Explored.kept_child (hlaws : Lawful space root level)
    (h : Explored space root done (entry :: rest) best₀) (hbranches : Branches space entry)
    (hchildren : space.children entry = .ok (before ++ child :: after))
    (hleast : ∀ e, Offered space done e ∨ e ∈ before → space.state e = space.state child →
      space.key child < space.key e) : ∃ depth, Kept space root depth child := by
  obtain ⟨depth, hkept⟩ := h.kept entry (.inr (List.mem_cons_self ..))
  obtain ⟨hentry, -⟩ := List.pairwise_cons.1 h.sorted
  refine ⟨depth + 1, entry, before, after, hkept, hbranches, hchildren, ?_, ?_⟩
  · intro e he
    exact hleast e (.inr he)
  · intro parent entries hparent hbranches' hlt hentries e he
    have hdone : parent ∈ done := by
      apply h.mem_done hlaws hparent
      intro q hq
      rcases List.mem_cons.1 hq with rfl | hq
      · exact hlt
      · exact hlt.trans (hentry q hq)
    exact hleast e (.inl ⟨parent, hdone, hbranches'.2, entries, hentries, he⟩)

/-- A kept child has a lesser key than every entry of its state offered before. -/
theorem Explored.child_lt (hlaws : Lawful space root level)
    (h : Explored space root done (entry :: rest) best₀)
    (hchildren : space.children entry = .ok (before ++ child :: after)) {depth : Nat}
    (hchild : Kept space root depth child) {e : ε}
    (hoffered : Offered space done e ∨ e ∈ before) (hstate : space.state e = space.state child) :
    space.key child < space.key e := by
  obtain ⟨level', hentry⟩ := h.kept entry (.inr (List.mem_cons_self ..))
  cases depth with
  | zero =>
    have hlt := hlaws.key_lt hentry.reach hchildren
      (show child ∈ before ++ child :: after by simp)
    rw [show child = root from hchild] at hlt
    exact absurd (hentry.reach.root_le hlaws) (not_le.2 hlt)
  | succ depth =>
    obtain ⟨parent, before', after', hparent, -, hchildren', hbefore, hearlier⟩ := id hchild
    obtain rfl : entry = parent := hlaws.parent_inj hentry.reach hparent.reach hchildren
      hchildren' (show child ∈ before ++ child :: after by simp) (by simp)
    have hsame : before ++ child :: after = before' ++ child :: after' :=
      Except.ok.inj (hchildren.symm.trans hchildren')
    have hnodup := hlaws.nodup hentry.reach hchildren
    rcases hoffered with ⟨parent', hdone, hopen, entries, hentries, he⟩ | he
    · -- the front of an entry of the same state has the same depth
      obtain ⟨depth'', hparent'⟩ := h.kept parent' (.inl hdone)
      have hlevel : depth'' = depth := by
        have hfirst := hlaws.level_child hentries he
        have hsecond := hchild.level_eq hlaws
        rw [hparent'.level_eq hlaws, hstate] at hfirst
        omega
      rw [hlevel] at hparent'
      have hlt := h.done_lt parent' hdone entry (List.mem_cons_self ..)
      exact hearlier parent' entries hparent' ⟨h.goal parent' hdone, hopen⟩ hlt hentries e he
        hstate
    · obtain ⟨hnot, hnot'⟩ := notMem_of_nodup hnodup
      have hfront := ((List.append_cons_inj_of_notMem hnot hnot').1 hsame).1
      exact hbefore e (hfront ▸ he) hstate

/-- The key of a child is not taken. -/
theorem Explored.fresh_child (hlaws : Lawful space root level)
    (h : Explored space root done (entry :: rest) best₀)
    (hchildren : space.children entry = .ok (before ++ child :: after))
    (hmem : ∀ e, e ∈ queue ↔ e ∈ rest ∨ (e ∈ before ∧ ∃ depth, Kept space root depth e)) :
    ∀ q ∈ queue, space.key q ≠ space.key child := by
  obtain ⟨depth, hentry⟩ := h.kept entry (.inr (List.mem_cons_self ..))
  have hchild : child ∈ before ++ child :: after := by simp
  have hlt := hlaws.key_lt hentry.reach hchildren hchild
  have hreach : Reach space root child := .child hentry.reach hchildren hchild
  intro q hq hkey
  rcases (hmem q).1 hq with hrest | ⟨hbefore, depth', hkept⟩
  · obtain ⟨depth', hkept⟩ := h.kept q (.inr (List.mem_cons_of_mem _ hrest))
    obtain rfl := hlaws.key_inj hkept.reach hreach hkey
    rcases h.offered q (List.mem_cons_of_mem _ hrest) with rfl | hoffered
    · exact absurd (hentry.reach.root_le hlaws) (not_le.2 hlt)
    · obtain ⟨parent, hdone, -, entries, hentries, hmember⟩ := hoffered
      obtain ⟨_, hparent⟩ := h.kept parent (.inl hdone)
      obtain rfl := hlaws.parent_inj hparent.reach hentry.reach hentries hchildren hmember hchild
      exact absurd (h.done_lt parent hdone parent (List.mem_cons_self ..)) (lt_irrefl _)
  · obtain rfl := hlaws.key_inj hkept.reach hreach hkey
    exact (notMem_of_nodup (hlaws.nodup hentry.reach hchildren)).1 hbefore

theorem Explored.extending (h : Explored space root done (entry :: rest) best₀) :
    Extending space root done entry rest [] rest best₀ where
  sorted := (List.pairwise_cons.1 h.sorted).2
  mem := by simp
  best_le e he := by
    rcases he with he | he
    · exact h.best_le e he
    · cases he
  best_kept s least hleast := by
    obtain ⟨e, depth, he, hrest⟩ := h.best_kept s least hleast
    exact ⟨e, depth, .inl he, hrest⟩

omit [LinearOrder σ] in
theorem or_mem_snoc {P : ε → Prop} {e : ε} :
    P e ∨ e ∈ before ++ [child] ↔ (P e ∨ e ∈ before) ∨ e = child := by
  rw [List.mem_append, List.mem_singleton, or_assoc]

/-- Offering a child that is passed over. -/
theorem Extending.pass
    (hlaws : Lawful space root level) (h : Explored space root done (entry :: rest) best₀)
    (hchildren : space.children entry = .ok (before ++ child :: after))
    (hextending : Extending space root done entry rest before queue best) {previous : κ}
    (hprevious : best[space.state child]? = some previous) (hle : previous ≤ space.key child) :
    Extending space root done entry rest (before ++ [child]) queue best := by
  obtain ⟨e, -, hoffered, -, hstate, hkey⟩ := hextending.best_kept _ _ hprevious
  have hnot : ¬∃ depth, Kept space root depth child := by
    rintro ⟨depth', hchild⟩
    have hlt := h.child_lt hlaws hchildren hchild hoffered hstate
    rw [hkey] at hlt
    exact absurd hle (not_le.2 hlt)
  refine ⟨hextending.sorted, ?_, ?_, ?_⟩
  · intro e
    rw [hextending.mem, List.mem_append, List.mem_singleton]
    constructor
    · rintro (hrest | ⟨hbefore, hkept⟩)
      · exact .inl hrest
      · exact .inr ⟨.inl hbefore, hkept⟩
    · rintro (hrest | ⟨hbefore | rfl, hkept⟩)
      · exact .inl hrest
      · exact .inr ⟨hbefore, hkept⟩
      · exact absurd hkept hnot
  · intro e he
    rcases or_mem_snoc.1 he with he | rfl
    · exact hextending.best_le e he
    · exact ⟨previous, hprevious, hle⟩
  · intro s least hleast
    obtain ⟨e, depth, he, hrest⟩ := hextending.best_kept s least hleast
    exact ⟨e, depth, or_mem_snoc.2 (.inl he), hrest⟩

/-- Offering a child that is queued. -/
theorem Extending.queued
    (hlaws : Lawful space root level) (h : Explored space root done (entry :: rest) best₀)
    (hbranches : Branches space entry)
    (hchildren : space.children entry = .ok (before ++ child :: after))
    (hextending : Extending space root done entry rest before queue best)
    (hleast : ∀ least, best[space.state child]? = some least → space.key child < least) :
    ∃ queue', push space child queue = some queue' ∧
      Extending space root done entry rest (before ++ [child]) queue'
        (best.insert (space.state child) (space.key child)) := by
  have hbelow : ∀ e, Offered space done e ∨ e ∈ before → space.state e = space.state child →
      space.key child < space.key e := by
    intro e he hstate
    obtain ⟨least, hget, hle⟩ := hextending.best_le e he
    rw [hstate] at hget
    exact (hleast least hget).trans_le hle
  obtain ⟨depth, hkept⟩ := h.kept_child hlaws hbranches hchildren hbelow
  obtain ⟨queue', hpush, hsorted, hmem⟩ := push_of_fresh hextending.sorted
    (h.fresh_child hlaws hchildren hextending.mem)
  refine ⟨queue', hpush, hsorted, ?_, ?_, ?_⟩
  · intro e
    rw [hmem, hextending.mem, List.mem_append, List.mem_singleton]
    constructor
    · rintro (rfl | hrest | ⟨hbefore, hkept⟩)
      · exact .inr ⟨.inr rfl, depth, hkept⟩
      · exact .inl hrest
      · exact .inr ⟨.inl hbefore, hkept⟩
    · rintro (hrest | ⟨hbefore | rfl, hkept⟩)
      · exact .inr (.inl hrest)
      · exact .inr (.inr ⟨hbefore, hkept⟩)
      · exact .inl rfl
  · intro e he
    rw [Dict.get_insert]
    split
    · rename_i hstate
      rcases or_mem_snoc.1 he with he | rfl
      · exact ⟨_, rfl, (hbelow e he hstate.symm).le⟩
      · exact ⟨_, rfl, le_rfl⟩
    · rename_i hstate
      rcases or_mem_snoc.1 he with he | rfl
      · exact hextending.best_le e he
      · exact absurd rfl hstate
  · intro s least hget
    rw [Dict.get_insert] at hget
    split at hget
    · rename_i hstate
      cases hget
      exact ⟨child, depth, or_mem_snoc.2 (.inr rfl), hkept, hstate, rfl⟩
    · obtain ⟨e, depth, he, hrest⟩ := hextending.best_kept s least hget
      exact ⟨e, depth, or_mem_snoc.2 (.inl he), hrest⟩

theorem Extending.offer
    (hlaws : Lawful space root level) (h : Explored space root done (entry :: rest) best₀)
    (hbranches : Branches space entry)
    (hchildren : space.children entry = .ok (before ++ child :: after))
    (hextending : Extending space root done entry rest before queue best) :
    ∃ queue' best', offer space child queue best = some (queue', best') ∧
      Extending space root done entry rest (before ++ [child]) queue' best' := by
  unfold BestFirst.offer
  cases hprevious : best[space.state child]? with
  | none =>
    obtain ⟨queue', hpush, hnext⟩ := hextending.queued hlaws h hbranches hchildren (by
      intro least hleast
      rw [hprevious] at hleast
      cases hleast)
    exact ⟨queue', _, by simp [hpush], hnext⟩
  | some previous =>
    by_cases hle : previous ≤ space.key child
    · exact ⟨queue, best, by simp [hle], hextending.pass hlaws h hchildren hprevious hle⟩
    · obtain ⟨queue', hpush, hnext⟩ := hextending.queued hlaws h hbranches hchildren (by
        intro least hleast
        rw [hprevious] at hleast
        cases hleast
        exact not_le.1 hle)
      exact ⟨queue', _, by simp [hle, hpush], hnext⟩

theorem Extending.offerAll
    (hlaws : Lawful space root level) (h : Explored space root done (entry :: rest) best₀)
    (hbranches : Branches space entry) (hchildren : space.children entry = .ok (before ++ after))
    (hextending : Extending space root done entry rest before queue best) :
    ∃ queue' best', offerAll space after queue best = some (queue', best') ∧
      Extending space root done entry rest (before ++ after) queue' best' := by
  induction after generalizing before queue best with
  | nil =>
    rw [List.append_nil]
    exact ⟨queue, best, rfl, hextending⟩
  | cons child after ih =>
    obtain ⟨queue₁, best₁, hoffer, hnext⟩ := hextending.offer hlaws h hbranches hchildren
    have hassoc : before ++ child :: after = (before ++ [child]) ++ after := by simp
    rw [hassoc] at hchildren ⊢
    obtain ⟨queue', best', hall, hlast⟩ := ih hchildren hnext
    exact ⟨queue', best', by simp [BestFirst.offerAll, hoffer, hall], hlast⟩

/-- An entry is done with when all its children were offered. -/
theorem Extending.finish {entries : List ε}
    (hlaws : Lawful space root level) (h : Explored space root done (entry :: rest) best₀)
    (hbranches : Branches space entry) (hchildren : space.children entry = .ok entries)
    (hextending : Extending space root done entry rest entries queue best) :
    Explored space root (insert entry done) queue best := by
  obtain ⟨hentry, -⟩ := List.pairwise_cons.1 h.sorted
  have hoffered : ∀ e, Offered space (insert entry done) e ↔ Offered space done e ∨ e ∈ entries := by
    intro e
    constructor
    · rintro ⟨parent, rfl | hparent, hopen, entries', hentries, he⟩
      · rw [hchildren] at hentries
        cases hentries
        exact .inr he
      · exact .inl ⟨parent, hparent, hopen, entries', hentries, he⟩
    · rintro (⟨parent, hparent, hrest⟩ | he)
      · exact ⟨parent, .inr hparent, hrest⟩
      · exact ⟨entry, .inl rfl, hbranches.2, entries, hchildren, he⟩
  refine ⟨hextending.sorted, ?_, ?_, ?_, ?_, ?_, ?_, ?_, ?_, ?_⟩
  · intro d hd q hq
    rcases (hextending.mem q).1 hq with hrest | ⟨hchild, -⟩
    · rcases hd with rfl | hd
      · exact hentry q hrest
      · exact h.done_lt d hd q (List.mem_cons_of_mem _ hrest)
    · obtain ⟨depth, hkept⟩ := h.kept entry (.inr (List.mem_cons_self ..))
      have hlt := hlaws.key_lt hkept.reach hchildren hchild
      rcases hd with rfl | hd
      · exact hlt
      · exact (h.done_lt d hd entry (List.mem_cons_self ..)).trans hlt
  · rintro e ((rfl | he) | he)
    · exact h.kept e (.inr (List.mem_cons_self ..))
    · exact h.kept e (.inl he)
    · rcases (hextending.mem e).1 he with hrest | ⟨-, hkept⟩
      · exact h.kept e (.inr (List.mem_cons_of_mem _ hrest))
      · exact hkept
  · rintro d (rfl | hd)
    · exact hbranches.1
    · exact h.goal d hd
  · rintro d (rfl | hd) hopen
    · exact ⟨entries, hchildren⟩
    · exact h.extended d hd hopen
  · rcases h.rooted with hroot | hroot
    · exact .inl (.inr hroot)
    · rcases List.mem_cons.1 hroot with rfl | hroot
      · exact .inl (.inl rfl)
      · exact .inr ((hextending.mem root).2 (.inl hroot))
  · intro q hq
    rw [hoffered]
    rcases (hextending.mem q).1 hq with hrest | ⟨hchild, -⟩
    · rcases h.offered q (List.mem_cons_of_mem _ hrest) with hroot | hold
      · exact .inl hroot
      · exact .inr (.inl hold)
    · exact .inr (.inr hchild)
  · intro e depth he hkept
    rcases (hoffered e).1 he with hold | hchild
    · rcases h.grown e depth hold hkept with hdone | hqueue
      · exact .inl (.inr hdone)
      · rcases List.mem_cons.1 hqueue with rfl | hrest
        · exact .inl (.inl rfl)
        · exact .inr ((hextending.mem e).2 (.inl hrest))
    · exact .inr ((hextending.mem e).2 (.inr ⟨hchild, depth, hkept⟩))
  · intro e he
    exact hextending.best_le e ((hoffered e).1 he)
  · intro s least hleast
    obtain ⟨e, depth, he, hrest⟩ := hextending.best_kept s least hleast
    exact ⟨e, depth, (hoffered e).2 he, hrest⟩

end Extend

/-! ## The answer -/

/-- The bound on expansions was met. -/
def Outcome.bounded : Outcome ε → Bool
  | .found _ bounded => bounded
  | .exhausted bounded => bounded
  | _ => false

variable {fuel limit : Nat} {entry : ε}

/-- Once the bound is met nothing is queued any more. -/
theorem search_bounded (fuel : Nat) (queue : List ε) (best : Dict σ κ)
    {expansions : Nat} (hlimit : limit ≤ expansions) :
    search space limit fuel queue best expansions true = .ok .unfinished ∨
      ∃ outcome, search space limit fuel queue best expansions true = .ok outcome ∧
        outcome.bounded = true := by
  induction fuel generalizing queue with
  | zero => exact .inl rfl
  | succ fuel ih =>
    cases queue with
    | nil => exact .inr ⟨_, rfl, rfl⟩
    | cons entry queue =>
      simp only [search, hlimit, if_true]
      split
      · exact .inr ⟨_, rfl, rfl⟩
      · split
        · exact ih queue
        · exact ih queue

/-- What the search finds is a goal of the tree. -/
theorem search_sound (fuel : Nat) (queue : List ε) (best : Dict σ κ)
    (expansions : Nat) (bounded : Bool) (hqueue : ∀ q ∈ queue, Reach space root q) {bounded' : Bool}
    (h : search space limit fuel queue best expansions bounded = .ok (.found entry bounded')) :
    Reach space root entry ∧ space.goal entry = true := by
  induction fuel generalizing queue best expansions bounded with
  | zero => cases h
  | succ fuel ih =>
    cases queue with
    | nil => cases h
    | cons first queue =>
      obtain ⟨hfirst, hrest⟩ := List.forall_mem_cons.1 hqueue
      simp only [search] at h
      split at h
      · rename_i hgoal
        cases h
        exact ⟨hfirst, hgoal⟩
      · split at h
        · exact ih _ _ _ _ hrest h
        · split at h
          · exact ih _ _ _ _ hrest h
          · split at h
            · cases h
            · rename_i entries hchildren
              split at h
              · cases h
              · rename_i queue' best' hoffer
                refine ih _ _ _ _ ?_ h
                intro q hq
                rcases mem_of_offerAll hoffer hq with hq | hq
                · exact hrest q hq
                · exact .child hfirst hchildren hq

/-- A search within its bound answers from a fully explored queue. -/
theorem Explored.search (hlaws : Lawful space root level) (fuel : Nat)
    {done : Set ε} {queue : List ε} {best : Dict σ κ} (expansions : Nat)
    (h : Explored space root done queue best) {outcome : Outcome ε}
    (hsearch : search space limit fuel queue best expansions false = .ok outcome) :
    outcome ≠ .clash ∧
      (∀ entry, outcome = .found entry false → ∃ done queue best,
        Explored space root done (entry :: queue) best ∧ space.goal entry = true) ∧
      (outcome = .exhausted false → ∃ done best, Explored space root done [] best) := by
  induction fuel generalizing done queue best expansions with
  | zero =>
    cases hsearch
    simp
  | succ fuel ih =>
    cases queue with
    | nil =>
      cases hsearch
      refine ⟨by simp, by simp, ?_⟩
      intro _
      exact ⟨done, best, h⟩
    | cons first queue =>
      simp only [BestFirst.search] at hsearch
      split at hsearch
      · rename_i hgoal
        cases hsearch
        refine ⟨by simp, ?_, by simp⟩
        rintro entry ⟨⟩
        exact ⟨done, queue, best, h, hgoal⟩
      · rename_i hgoal
        split at hsearch
        · rename_i hclosed
          exact ih _ (h.skip (by simpa using hgoal) hclosed) hsearch
        · rename_i hopen
          split at hsearch
          · rename_i hlimit
            rcases search_bounded fuel queue best hlimit with hbounded | ⟨o, hbounded, hflag⟩
            · rw [hbounded] at hsearch
              cases hsearch
              simp
            · rw [hbounded] at hsearch
              cases hsearch
              refine ⟨?_, ?_, ?_⟩
              · rintro rfl
                cases hflag
              · rintro entry rfl
                cases hflag
              · rintro rfl
                cases hflag
          · split at hsearch
            · cases hsearch
            · rename_i entries hchildren
              have hbranches : Branches space first :=
                ⟨by simpa using hgoal, by simpa using hopen⟩
              have hall : space.children first = .ok ([] ++ entries) := hchildren
              obtain ⟨queue', best', hoffer, hextending⟩ :=
                h.extending.offerAll hlaws h hbranches hall
              rw [hoffer] at hsearch
              exact ih _ (hextending.finish hlaws h hbranches hchildren) hsearch

/-- The answer is the least kept goal. -/
theorem search_found (hlaws : Lawful space root level)
    (h : search space limit fuel [root] ∅ 0 false = .ok (.found entry false)) :
    (∃ depth, Kept space root depth entry) ∧ space.goal entry = true ∧
      ∀ depth e, Kept space root depth e → space.goal e = true →
        space.key entry ≤ space.key e := by
  obtain ⟨-, hfound, -⟩ := (explored_start space root).search hlaws fuel 0 h
  obtain ⟨done, queue, best, hexplored, hgoal⟩ := hfound entry rfl
  refine ⟨hexplored.kept entry (.inr (List.mem_cons_self ..)), hgoal, ?_⟩
  intro depth e hkept he
  by_contra hlt
  have hdone : e ∈ done := by
    apply hexplored.mem_done hlaws hkept
    intro q hq
    rcases List.mem_cons.1 hq with rfl | hq
    · exact not_le.1 hlt
    · exact (not_le.1 hlt).trans ((List.pairwise_cons.1 hexplored.sorted).1 q hq)
  rw [hexplored.goal e hdone] at he
  cases he

/-- Without an answer no kept entry is a goal, and the states of the kept entries
are closed under extension. -/
theorem search_exhausted (hlaws : Lawful space root level)
    (h : search space limit fuel [root] ∅ 0 false = .ok (.exhausted false)) :
    ∀ depth e, Kept space root depth e → space.goal e = false ∧
      (space.closed e = false → ∃ entries, space.children e = .ok entries ∧
        ∀ c ∈ entries, ∃ depth' e', Kept space root depth' e' ∧
          space.state e' = space.state c) := by
  obtain ⟨-, -, hexhausted⟩ := (explored_start space root).search hlaws fuel 0 h
  obtain ⟨done, best, hexplored⟩ := hexhausted rfl
  intro depth e hkept
  have hdone : e ∈ done := hexplored.mem_done hlaws hkept (by simp)
  refine ⟨hexplored.goal e hdone, ?_⟩
  intro hopen
  obtain ⟨entries, hentries⟩ := hexplored.extended e hdone hopen
  refine ⟨entries, hentries, ?_⟩
  intro c hc
  obtain ⟨least, hget, -⟩ := hexplored.best_le c ⟨e, hdone, hopen, entries, hentries, hc⟩
  obtain ⟨e', depth', -, hkept', hstate, -⟩ := hexplored.best_kept _ _ hget
  exact ⟨depth', e', hkept', hstate⟩

/-- Two queued entries never have one key. -/
theorem search_no_clash (hlaws : Lawful space root level) :
    search space limit fuel [root] ∅ 0 false ≠ .ok .clash := by
  intro h
  exact ((explored_start space root).search hlaws fuel 0 h).1 rfl

end Facts

end IntegrityGuardian.Library.BestFirst
