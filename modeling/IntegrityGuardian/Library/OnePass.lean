import Mathlib.Data.Finset.Union
import Mathlib.Data.List.Perm.Basic
import Mathlib.Tactic.ByContra

/-!
# One pass over a set that grows

Items are taken in turn; one that reads something of the set adds to it.  What is read later
may have been added earlier in the same pass, so the order can matter.  Both theorems say
exactly when it does not: for the set itself, and for what every item was found to read.
-/

namespace IntegrityGuardian.Library.OnePass

variable {α κ : Type} [DecidableEq κ]

section

variable (reads adds : α → Finset κ)

def step (s : Finset κ) (a : α) : Finset κ :=
  if (reads a ∩ s).Nonempty then s ∪ adds a else s

def pass (s : Finset κ) (items : List α) : Finset κ := items.foldl (step reads adds) s

/-- The items that were found to read something, each with what it was. -/
def turns : Finset κ → List α → List (α × Finset κ)
  | _, [] => []
  | s, a :: items =>
    if (reads a ∩ s).Nonempty then (a, reads a ∩ s) :: turns (step reads adds s a) items
    else turns (step reads adds s a) items

end

variable {reads adds : α → Finset κ}

variable {s : Finset κ} {a : α}

theorem step_of_nonempty (h : (reads a ∩ s).Nonempty) : step reads adds s a = s ∪ adds a := if_pos h

theorem step_of_empty (h : ¬ (reads a ∩ s).Nonempty) : step reads adds s a = s := if_neg h

theorem subset_step (s : Finset κ) (a : α) : s ⊆ step reads adds s a := by
  unfold step
  split
  · exact Finset.subset_union_left
  · exact Finset.Subset.refl s

/-! ## The set -/

section Set

variable {key : α → κ}

/-- The set after a pass that consults only what was there before it. -/
def near (reads : α → Finset κ) (key : α → κ) (s : Finset κ) (items : List α) : Finset κ :=
  s ∪ ((items.filter fun a => (reads a ∩ s).Nonempty).map key).toFinset

variable {s : Finset κ} {items : List α} {k : κ}

theorem mem_near :
    k ∈ near reads key s items ↔ k ∈ s ∨ ∃ a ∈ items, (reads a ∩ s).Nonempty ∧ key a = k := by
  simp [near, and_assoc]

/-- Nothing but keys of the items is added. -/
theorem mem_pass
    (h : k ∈ pass reads (fun a => {key a}) s items) : k ∈ s ∨ ∃ a ∈ items, key a = k := by
  induction items generalizing s with
  | nil => exact .inl h
  | cons a items ih =>
    rcases ih h with hk | ⟨b, hb, hkey⟩
    · unfold step at hk
      split at hk
      · rcases Finset.mem_union.1 hk with hk | hk
        · exact .inl hk
        · exact .inr ⟨a, List.mem_cons_self, (Finset.mem_singleton.1 hk).symm⟩
      · exact .inl hk
    · exact .inr ⟨b, List.mem_cons_of_mem _ hb, hkey⟩

theorem subset_pass (s : Finset κ) (items : List α) : s ⊆ pass reads adds s items := by
  induction items generalizing s with
  | nil => exact Finset.Subset.refl s
  | cons a items ih => exact (subset_step s a).trans (ih _)

/-- When what reads the near set is near, a pass finds the near items and nothing else. -/
theorem pass_eq (hkeys : (items.map key).Nodup)
    (hclosed : ∀ a ∈ items, (reads a ∩ near reads key s items).Nonempty
      → key a ∈ near reads key s items) :
    ∀ {current : Finset κ} {order : List α}, (∀ a ∈ order, a ∈ items) → s ⊆ current →
      current ⊆ near reads key s items →
      ∀ k, k ∈ pass reads (fun a => {key a}) current order
        ↔ k ∈ current ∨ ∃ a ∈ order, (reads a ∩ s).Nonempty ∧ key a = k
  | current, [], _, _, _, k => by simp [pass]
  | current, a :: order, horder, hlow, hhigh, k => by
    have ha := horder a List.mem_cons_self
    have hrest := fun b hb => horder b (List.mem_cons_of_mem a hb)
    have hstep : ∀ k, k ∈ step reads (fun a => {key a}) current a
        ↔ k ∈ current ∨ ((reads a ∩ s).Nonempty ∧ key a = k) := by
      intro k
      by_cases hreads : (reads a ∩ current).Nonempty
      · rw [step_of_nonempty hreads, Finset.mem_union, Finset.mem_singleton]
        constructor
        · rintro (hk | rfl)
          · exact .inl hk
          · have hnear := hclosed a ha (hreads.mono (Finset.inter_subset_inter_left hhigh))
            rcases mem_near.1 hnear with hk | ⟨b, hb, hb', hkey⟩
            · exact .inl (hlow hk)
            · rw [List.inj_on_of_nodup_map hkeys hb ha hkey] at hb'
              exact .inr ⟨hb', rfl⟩
        · rintro (hk | ⟨-, rfl⟩)
          · exact .inl hk
          · exact .inr rfl
      · rw [step_of_empty hreads]
        refine ⟨.inl, ?_⟩
        rintro (hk | ⟨hs, -⟩)
        · exact hk
        · exact absurd (hs.mono (Finset.inter_subset_inter_left hlow)) hreads
    have hhigh' : step reads (fun a => {key a}) current a ⊆ near reads key s items := by
      intro k hk
      rcases (hstep k).1 hk with hk | ⟨hs, rfl⟩
      · exact hhigh hk
      · exact mem_near.2 (.inr ⟨a, ha, hs, rfl⟩)
    have ih := pass_eq hkeys hclosed hrest (hlow.trans (subset_step current a)) hhigh' k
    show k ∈ pass reads _ (step reads _ current a) order ↔ _
    rw [ih, hstep]
    simp only [List.mem_cons, exists_eq_or_imp, or_assoc]

/-- The order does not matter if and only if whatever reads the near set is near. -/
theorem pass_perm_iff (hkeys : (items.map key).Nodup) : (∀ order, order.Perm items →
      pass reads (fun a => {key a}) s order = pass reads (fun a => {key a}) s items)
      ↔ ∀ a ∈ items, (reads a ∩ near reads key s items).Nonempty
        → key a ∈ near reads key s items := by
  constructor
  · intro hsame a ha hreads
    by_contra hfar
    have hunread : ¬ (reads a ∩ s).Nonempty := fun h => hfar (mem_near.2 (.inr ⟨a, ha, h, rfl⟩))
    obtain ⟨k, hk⟩ := hreads
    obtain ⟨hka, hk⟩ := Finset.mem_inter.1 hk
    rcases mem_near.1 hk with hk | ⟨b, hb, hbs, hbk⟩
    · exact hunread ⟨k, Finset.mem_inter.2 ⟨hka, hk⟩⟩
    -- the item in between, in front of `a` and behind it
    obtain ⟨front, back, hsplit⟩ := List.append_of_mem ha
    have hperm : items.Perm (a :: (front ++ back)) := by
      rw [hsplit]
      exact List.perm_middle
    have hb' : b ∈ front ++ back := by
      rcases List.mem_cons.1 (hperm.mem_iff.1 hb) with rfl | hb'
      · exact absurd hbs hunread
      · exact hb'
    obtain ⟨front', back', hsplit'⟩ := List.append_of_mem hb'
    have hlate : (b :: a :: (front' ++ back')).Perm items := by
      refine (List.Perm.swap a b _).trans ((List.Perm.cons a ?_).trans hperm.symm)
      rw [hsplit']
      exact List.perm_middle.symm
    have hfound : key a ∈ pass reads (fun a => {key a}) s (b :: a :: (front' ++ back')) := by
      refine subset_pass _ (front' ++ back') ?_
      have hk' : k ∈ step reads (fun a => {key a}) s b := by
        rw [step_of_nonempty hbs, hbk]
        exact Finset.mem_union_right _ (Finset.mem_singleton_self k)
      rw [step_of_nonempty ⟨k, Finset.mem_inter.2 ⟨hka, hk'⟩⟩]
      exact Finset.mem_union_right _ (Finset.mem_singleton_self _)
    have hmissed : key a ∉ pass reads (fun a => {key a}) s (a :: (front ++ back)) := by
      intro hmem
      have hskip : pass reads (fun a => {key a}) s (a :: (front ++ back))
          = pass reads (fun a => {key a}) s (front ++ back) := by
        show pass reads _ (step reads _ s a) _ = _
        rw [step_of_empty hunread]
      rw [hskip] at hmem
      rcases mem_pass hmem with hmem | ⟨c, hc, hkey⟩
      · exact hfar (mem_near.2 (.inl hmem))
      · have hnodup := (hperm.map key).nodup_iff.1 hkeys
        rw [List.map_cons, List.nodup_cons] at hnodup
        exact hnodup.1 (hkey ▸ List.mem_map_of_mem hc)
    rw [hsame _ hlate, ← hsame _ hperm.symm] at hfound
    exact hmissed hfound
  · intro hclosed order horder
    ext k
    have hsubset : s ⊆ near reads key s items := Finset.subset_union_left
    rw [pass_eq hkeys hclosed (fun a ha => horder.mem_iff.1 ha) (Finset.Subset.refl s) hsubset,
      pass_eq hkeys hclosed (fun a ha => ha) (Finset.Subset.refl s) hsubset]
    simp only [horder.mem_iff]

end Set

/-! ## What the items read -/

section Turns

variable {ids s : Finset κ} {items : List α} {a : α} {k : κ}

theorem mem_of_mem_turns (h : (a, ids) ∈ turns reads adds s items) : a ∈ items := by
  induction items generalizing s with
  | nil => cases h
  | cons b items ih =>
    unfold turns at h
    split at h
    · rcases List.mem_cons.1 h with h | h
      · rw [(Prod.mk.inj h).1]
        exact List.mem_cons_self
      · exact List.mem_cons_of_mem _ (ih h)
    · exact List.mem_cons_of_mem _ (ih h)

/-- What is in the set is read by every item that can. -/
theorem mem_ids_of_mem_turns
    (hk : k ∈ s) (hread : k ∈ reads a) (h : (a, ids) ∈ turns reads adds s items) : k ∈ ids := by
  induction items generalizing s with
  | nil => cases h
  | cons b items ih =>
    have hk' : k ∈ OnePass.step reads adds s b := subset_step s b hk
    unfold turns at h
    split at h
    · rcases List.mem_cons.1 h with h | h
      · rw [(Prod.mk.inj h).2, ← (Prod.mk.inj h).1]
        exact Finset.mem_inter.2 ⟨hread, hk⟩
      · exact ih hk' h
    · exact ih hk' h

theorem exists_turn (hk : k ∈ s)
    (hread : k ∈ reads a) (ha : a ∈ items) : ∃ ids, (a, ids) ∈ turns reads adds s items := by
  induction items generalizing s with
  | nil => cases ha
  | cons b items ih =>
    unfold turns
    rcases List.mem_cons.1 ha with rfl | ha
    · rw [if_pos ⟨k, Finset.mem_inter.2 ⟨hread, hk⟩⟩]
      exact ⟨_, List.mem_cons_self⟩
    · obtain ⟨ids, hids⟩ := ih (subset_step s b hk) ha
      split
      · exact ⟨ids, List.mem_cons_of_mem _ hids⟩
      · exact ⟨ids, hids⟩

theorem turns_replicate_of_empty (h : ¬ (reads a ∩ s).Nonempty) (n : Nat) (items : List α) :
    turns reads adds s (List.replicate n a ++ items) = turns reads adds s items := by
  induction n with
  | zero => rfl
  | succ n ih =>
    rw [List.replicate_succ, List.cons_append, turns, if_neg h, step_of_empty h, ih]

variable [DecidableEq α]

/-- No item that reads something at the start adds what another one reads. -/
def Apart (reads adds : α → Finset κ) (s : Finset κ) (items : List α) : Prop :=
  ∀ a ∈ items, ∀ b ∈ items, a ≠ b → (reads b ∩ s).Nonempty → reads a ∩ adds b ⊆ s

/-- What the items read once those of `done` had their turn. -/
def Current (reads adds : α → Finset κ) (s : Finset κ) (items : List α) (done : List α)
    (current : Finset κ) : Prop :=
  ∀ a ∈ items, reads a ∩ current
    = if a ∈ done ∧ (reads a ∩ s).Nonempty then reads a ∩ (s ∪ adds a) else reads a ∩ s

variable {current s : Finset κ} {items : List α} {a : α}

theorem Current.nonempty_iff {done : List α}
    (h : Current reads adds s items done current) (ha : a ∈ items) :
    (reads a ∩ current).Nonempty ↔ (reads a ∩ s).Nonempty := by
  rw [h a ha]
  split
  · rename_i hdone
    refine ⟨fun _ => hdone.2, fun hs => hs.mono ?_⟩
    exact Finset.inter_subset_inter_left Finset.subset_union_left
  · exact Iff.rfl

theorem Current.step {done : List α}
    (hapart : Apart reads adds s items) (h : Current reads adds s items done current)
    (ha : a ∈ items) : Current reads adds s items (a :: done) (step reads adds current a) := by
  intro b hb
  by_cases hreads : (reads a ∩ s).Nonempty
  · rw [step_of_nonempty ((h.nonempty_iff ha).2 hreads), Finset.inter_union_distrib_left, h b hb]
    by_cases hab : b = a
    · subst hab
      rw [if_pos (⟨List.mem_cons_self, hreads⟩ : b ∈ b :: done ∧ _)]
      by_cases hdone : b ∈ done
      · rw [if_pos ⟨hdone, hreads⟩, Finset.inter_union_distrib_left, Finset.union_assoc,
          Finset.union_self]
      · rw [if_neg fun hc => hdone hc.1, Finset.inter_union_distrib_left]
    · have hsub : reads b ∩ adds a ⊆ reads b ∩ s :=
        Finset.subset_inter Finset.inter_subset_left (hapart b hb a ha hab hreads)
      simp only [List.mem_cons, hab, false_or]
      split
      · refine Finset.union_eq_left.2 (hsub.trans ?_)
        exact Finset.inter_subset_inter_left Finset.subset_union_left
      · exact Finset.union_eq_left.2 hsub
  · rw [step_of_empty fun hc => hreads ((h.nonempty_iff ha).1 hc), h b hb]
    by_cases hab : b = a
    · subst hab
      rw [if_neg fun hc => hreads hc.2, if_neg fun hc => hreads hc.2]
    · simp only [List.mem_cons, hab, false_or]

/-- Apart items read at their turn what they read at the start, and after their own turn also
what they added themselves. -/
theorem mem_turns (hapart : Apart reads adds s items) {ids : Finset κ} :
    ∀ {done order : List α} {current : Finset κ}, (∀ b ∈ order, b ∈ items) →
      Current reads adds s items done current →
      ((a, ids) ∈ turns reads adds current order
        ↔ a ∈ order ∧ (reads a ∩ s).Nonempty
          ∧ ((a ∉ done ∧ ids = reads a ∩ s)
            ∨ ((a ∈ done ∨ 2 ≤ order.count a) ∧ ids = reads a ∩ (s ∪ adds a))))
  | done, [], current, _, _ => by simp [turns]
  | done, b :: order, current, horder, h => by
    have hb := horder b List.mem_cons_self
    have ih : (a, ids) ∈ turns reads adds (OnePass.step reads adds current b) order ↔ _ :=
      mem_turns hapart (fun c hc => horder c (List.mem_cons_of_mem _ hc)) (h.step hapart hb)
    by_cases hab : a = b
    · subst hab
      rw [List.count_cons_self]
      have hcount : 2 ≤ order.count a + 1 ↔ a ∈ order := by
        rw [← List.count_pos_iff]
        omega
      unfold turns
      by_cases hreads : (reads a ∩ s).Nonempty
      · rw [if_pos ((h.nonempty_iff hb).2 hreads), List.mem_cons, ih, hcount, h a hb]
        by_cases hdone : a ∈ done
        · simp [hdone, hreads]
        · simp [hdone, hreads]
      · rw [if_neg fun hc => hreads ((h.nonempty_iff hb).1 hc), ih]
        simp [hreads]
    · rw [List.count_cons_of_ne (Ne.symm hab)]
      have hskip : (a, ids) ∈ turns reads adds current (b :: order)
          ↔ (a, ids) ∈ turns reads adds (OnePass.step reads adds current b) order := by
        rw [turns]
        split
        · rw [List.mem_cons, Prod.mk.injEq]
          simp [hab]
        · rfl
      rw [hskip, ih]
      simp only [List.mem_cons, hab, false_or]

/-- The order does not matter if and only if the items are apart. -/
theorem turns_perm_iff : (∀ order, order.Perm items →
      ∀ turn, turn ∈ turns reads adds s order ↔ turn ∈ turns reads adds s items)
      ↔ Apart reads adds s items := by
  constructor
  · intro hsame a ha b hb hab hbs k hk
    obtain ⟨hka, hkb⟩ := Finset.mem_inter.1 hk
    by_contra hks
    -- every copy of `a` behind `b`, and every copy in front of it
    have hsplit : (List.replicate (items.count a) a ++ items.filter (· ≠ a)).Perm items := by
      have hperm := List.filter_append_perm (· = a) items
      rw [List.filter_eq] at hperm
      simpa using hperm
    have hb' : b ∈ items.filter (· ≠ a) := List.mem_filter.2 ⟨hb, by simpa using hab.symm⟩
    have hlate : (b :: (List.replicate (items.count a) a
        ++ (items.filter (· ≠ a)).erase b)).Perm items := by
      refine List.Perm.trans ?_ hsplit
      refine List.perm_middle.symm.trans ?_
      exact List.Perm.append_left _ (List.perm_cons_erase hb').symm
    have hadded : k ∈ OnePass.step reads adds s b := by
      rw [step_of_nonempty hbs]
      exact Finset.mem_union_right _ hkb
    have hturns : ∀ ids, (a, ids) ∈ turns reads adds s items → k ∈ ids := by
      intro ids hids
      rw [← hsame _ hlate, turns, if_pos hbs, List.mem_cons] at hids
      rcases hids with hids | hids
      · exact absurd (Prod.mk.inj hids).1 hab
      · exact mem_ids_of_mem_turns hadded hka hids
    have hexists : ∃ ids, (a, ids) ∈ turns reads adds s items := by
      have hmem : a ∈ List.replicate (items.count a) a ++ (items.filter (· ≠ a)).erase b :=
        List.mem_append_left _ (List.mem_replicate.2 ⟨(List.count_pos_iff.2 ha).ne', rfl⟩)
      have hturn : ∃ ids, (a, ids) ∈ turns reads adds (OnePass.step reads adds s b)
          (List.replicate (items.count a) a ++ (items.filter (· ≠ a)).erase b) :=
        exists_turn hadded hka hmem
      obtain ⟨ids, hids⟩ := hturn
      refine ⟨ids, ?_⟩
      rw [← hsame _ hlate, turns, if_pos hbs]
      exact List.mem_cons_of_mem _ hids
    by_cases has : (reads a ∩ s).Nonempty
    · obtain ⟨n, hn⟩ := Nat.exists_eq_succ_of_ne_zero (List.count_pos_iff.2 ha).ne'
      have hfirst : (a, reads a ∩ s) ∈ turns reads adds s items := by
        rw [← hsame _ hsplit, hn, List.replicate_succ, List.cons_append, turns, if_pos has]
        exact List.mem_cons_self
      exact hks (Finset.mem_inter.1 (hturns _ hfirst)).2
    · obtain ⟨ids, hids⟩ := hexists
      rw [← hsame _ hsplit, turns_replicate_of_empty has] at hids
      have hfilter := mem_of_mem_turns hids
      simp at hfilter
  · intro hapart order horder turn
    have hstart : Current reads adds s items [] s := by
      intro a _
      rw [if_neg (by simp)]
    rw [mem_turns hapart (fun a ha => horder.mem_iff.1 ha) hstart,
      mem_turns hapart (fun a ha => ha) hstart, horder.mem_iff, horder.count_eq]

end Turns

/-- An order of the images is the image of an order. -/
theorem exists_map_perm {β : Type} {f : α → β} {l : List α} {images : List β}
    (h : images.Perm (l.map f)) : ∃ order : List α, order.Perm l ∧ order.map f = images := by
  induction l generalizing images with
  | nil => exact ⟨[], .refl [], (List.perm_nil.1 h).symm⟩
  | cons a l ih =>
    obtain ⟨front, back, rfl⟩ := List.append_of_mem (h.mem_iff.2 List.mem_cons_self)
    have hrest : (front ++ back).Perm (l.map f) :=
      List.Perm.cons_inv (List.perm_middle.symm.trans h)
    obtain ⟨order, horder, himages⟩ := ih hrest
    obtain ⟨front', back', rfl, rfl, rfl⟩ := List.map_eq_append_iff.1 himages
    refine ⟨front' ++ a :: back', List.perm_middle.trans (horder.cons a), ?_⟩
    rw [List.map_append, List.map_cons]

end IntegrityGuardian.Library.OnePass
