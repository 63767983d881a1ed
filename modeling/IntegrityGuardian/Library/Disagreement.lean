import Mathlib.Algebra.BigOperators.Ring.Finset
import Mathlib.Algebra.Order.BigOperators.Group.Finset

/-!
# Disagreeing pairs

The pairs of elements on which a yes-or-no question is answered in opposite
ways.  Splitting a set into the fibres of a function never adds such a pair.
-/

namespace IntegrityGuardian.Library.Disagreement

variable {α β : Type} [DecidableEq β]

/-- The number of pairs of opposite answers. -/
def disagreements (answer : α → Bool) (s : Finset α) : Nat :=
  (s.filter fun a => answer a = true).card * (s.card - (s.filter fun a => answer a = true).card)

/-- The elements with one value. -/
def fibre (s : Finset α) (f : α → β) (b : β) : Finset α := s.filter fun a => f a = b

/-- The pairs of opposite answers that no value tells apart. -/
def confused (answer : α → Bool) (s : Finset α) (f : α → β) : Nat :=
  ∑ b ∈ s.image f, disagreements answer (fibre s f b)

theorem disagreements_eq (answer : α → Bool) (s : Finset α) :
    disagreements answer s =
      (s.filter fun a => answer a = true).card * (s.filter fun a => ¬answer a = true).card := by
  have hsplit := Finset.card_filter_add_card_filter_not (s := s) (fun a => answer a = true)
  rw [disagreements]
  congr 1
  omega

theorem confused_le (answer : α → Bool) (s : Finset α) (f : α → β) :
    confused answer s f ≤ disagreements answer s := by
  rw [disagreements_eq, confused]
  have hmaps : ∀ a ∈ s.filter fun a => answer a = true, f a ∈ s.image f := by
    intro a ha
    exact Finset.mem_image_of_mem f (Finset.mem_filter.1 ha).1
  have hyes := Finset.card_eq_sum_card_fiberwise hmaps
  rw [hyes, Finset.sum_mul]
  apply Finset.sum_le_sum
  intro b _
  rw [disagreements_eq, fibre]
  apply Nat.mul_le_mul
  · rw [Finset.filter_comm]
  · apply Finset.card_le_card
    exact Finset.filter_subset_filter _ (Finset.filter_subset _ _)

variable {b : β}

theorem disagreements_fibre_le (answer : α → Bool) (s : Finset α) (f : α → β)
    (hb : b ∈ s.image f) : disagreements answer (fibre s f b) ≤ confused answer s f :=
  Finset.single_le_sum (f := fun b => disagreements answer (fibre s f b))
    (fun _ _ => Nat.zero_le _) hb

/-- Where some value tells a disagreeing pair apart, learning the value leaves fewer of them. -/
theorem disagreements_fibre_lt {answer : α → Bool} {s : Finset α} {f : α → β}
    (hb : b ∈ s.image f) (hgain : (disagreements answer s : Int) - confused answer s f ≠ 0) :
    disagreements answer (fibre s f b) < disagreements answer s := by
  have hfibre := disagreements_fibre_le answer s f hb
  have hall := confused_le answer s f
  omega

/-- The pairs of opposite answers, one by one. -/
def opposites (answer : α → Bool) (s : Finset α) : Finset (α × α) :=
  (s.filter fun a => answer a = true) ×ˢ (s.filter fun a => ¬answer a = true)

theorem card_opposites (answer : α → Bool) (s : Finset α) :
    (opposites answer s).card = disagreements answer s := by
  rw [opposites, Finset.card_product, disagreements_eq]

theorem card_confused (answer : α → Bool) (s : Finset α) (f : α → β) :
    ((opposites answer s).filter fun p => f p.1 = f p.2).card = confused answer s f := by
  have hmaps : ∀ p ∈ (opposites answer s).filter fun p => f p.1 = f p.2, f p.1 ∈ s.image f := by
    intro p hp
    have hfirst := (Finset.mem_product.1 (Finset.mem_filter.1 hp).1).1
    exact Finset.mem_image_of_mem f (Finset.mem_filter.1 hfirst).1
  rw [Finset.card_eq_sum_card_fiberwise hmaps, confused]
  apply Finset.sum_congr rfl
  intro b _
  rw [← card_opposites]
  congr 1
  ext p
  simp only [opposites, fibre, Finset.mem_filter, Finset.mem_product]
  constructor
  · rintro ⟨⟨⟨⟨hfirst, hyes⟩, hsecond, hno⟩, hsame⟩, hb⟩
    exact ⟨⟨⟨hfirst, hb⟩, hyes⟩, ⟨hsecond, hsame ▸ hb⟩, hno⟩
  · rintro ⟨⟨⟨hfirst, hb⟩, hyes⟩, ⟨hsecond, hb'⟩, hno⟩
    exact ⟨⟨⟨⟨hfirst, hyes⟩, hsecond, hno⟩, hb.trans hb'.symm⟩, hb⟩

/-- No pair of opposite answers is told apart exactly when all of them are confused. -/
theorem confused_eq_iff (answer : α → Bool) (s : Finset α) (f : α → β) :
    confused answer s f = disagreements answer s ↔
      ∀ a ∈ s, ∀ b ∈ s, answer a ≠ answer b → f a = f b := by
  rw [← card_confused, ← card_opposites, Finset.card_filter_eq_iff]
  constructor
  · intro h a ha b hb hne
    cases hanswer : answer a with
    | true =>
      rw [hanswer] at hne
      exact h (a, b) (Finset.mem_product.2 ⟨Finset.mem_filter.2 ⟨ha, hanswer⟩,
        Finset.mem_filter.2 ⟨hb, fun htrue => hne htrue.symm⟩⟩)
    | false =>
      rw [hanswer] at hne
      have hother : answer b = true := by
        cases hb' : answer b with
        | true => rfl
        | false => exact absurd hb'.symm hne
      refine (h (b, a) (Finset.mem_product.2 ⟨Finset.mem_filter.2 ⟨hb, hother⟩,
        Finset.mem_filter.2 ⟨ha, ?_⟩⟩)).symm
      rw [hanswer]
      exact Bool.false_ne_true
  · intro h p hp
    obtain ⟨hfirst, hsecond⟩ := Finset.mem_product.1 hp
    rw [Finset.mem_filter] at hfirst hsecond
    exact h p.1 hfirst.1 p.2 hsecond.1 fun hsame => hsecond.2 (hsame ▸ hfirst.2)

end IntegrityGuardian.Library.Disagreement
