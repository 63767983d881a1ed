import Mathlib.Data.List.Basic

/-!
# Interleavings of independent sequences

Two lists are interleavings of the same sequences when, key by key, they hold the
same elements in the same order.  If steps on elements with different keys can be
swapped, a run over one interleaving is a run over every other.
-/

namespace IntegrityGuardian.Library

variable {σ α κ : Type} [DecidableEq κ]

/-- A run of steps, one for each element. -/
inductive Steps (R : σ → α → σ → Prop) : σ → List α → σ → Prop
  | nil (s : σ) : Steps R s [] s
  | cons {s t u : σ} {a : α} {l : List α} (step : R s a t) (rest : Steps R t l u) :
      Steps R s (a :: l) u

/-- The same elements in the same order under every key. -/
def SameSequences (key : α → κ) (l l' : List α) : Prop :=
  ∀ k, l.filter (fun a => key a = k) = l'.filter fun a => key a = k

variable {R : σ → α → σ → Prop}

@[simp] theorem steps_nil {s t : σ} : Steps R s [] t ↔ t = s := by
  constructor
  · intro h
    cases h
    rfl
  · rintro rfl
    exact .nil t

variable {l : List α}

theorem steps_cons {s u : σ} {a : α} : Steps R s (a :: l) u ↔ ∃ t, R s a t ∧ Steps R t l u := by
  constructor
  · intro h
    cases h with
    | cons step rest => exact ⟨_, step, rest⟩
  · rintro ⟨t, step, rest⟩
    exact .cons step rest

/-- Steps that each have one outcome make runs that have one outcome. -/
theorem Steps.unique (hdet : ∀ s a t t', R s a t → R s a t' → t = t') {s u u' : σ}
    (h : Steps R s l u) (h' : Steps R s l u') : u = u' := by
  induction h with
  | nil s => exact (steps_nil.1 h').symm
  | cons step rest ih =>
    obtain ⟨t', step', rest'⟩ := steps_cons.1 h'
    rw [hdet _ _ _ _ step step'] at ih
    exact ih rest'

variable {key : α → κ}

variable {l l' : List α} {b : α}

omit [DecidableEq κ] in
/-- An element moves in front of elements with other keys. -/
theorem Steps.front
    (hswap : ∀ s t u a b, key a ≠ key b → R s a t → R t b u → ∃ t', R s b t' ∧ R t' a u)
    {s u : σ} (hl : ∀ a ∈ l, key a ≠ key b)
    (h : Steps R s (l ++ b :: l') u) : Steps R s (b :: (l ++ l')) u := by
  induction l generalizing s with
  | nil => exact h
  | cons a l ih =>
    obtain ⟨t, step, rest⟩ := steps_cons.1 h
    have hfront := ih (fun c hc => hl c (List.mem_cons_of_mem a hc)) rest
    obtain ⟨t', stepb, rest'⟩ := steps_cons.1 hfront
    obtain ⟨w, hb, ha⟩ := hswap s t t' a b (hl a List.mem_cons_self) step stepb
    exact .cons hb (.cons ha rest')

theorem SameSequences.eq_nil (h : SameSequences key l []) : l = [] := by
  cases l with
  | nil => rfl
  | cons a l =>
    have ha := h (key a)
    rw [List.filter_cons_of_pos (by simp)] at ha
    cases ha

/-- The first element of an interleaving is the first of its key in every other. -/
theorem SameSequences.split (h : SameSequences key l (b :: l')) :
    ∃ front back, l = front ++ b :: back ∧ (∀ a ∈ front, key a ≠ key b) ∧
      SameSequences key (front ++ back) l' := by
  have hb := h (key b)
  rw [List.filter_cons_of_pos (by simp)] at hb
  obtain ⟨front, back, rfl, hfront, hkey, hback⟩ := List.filter_eq_cons_iff.1 hb
  have hne : ∀ a ∈ front, key a ≠ key b := by
    intro a ha
    simpa using hfront a ha
  refine ⟨front, back, rfl, hne, ?_⟩
  intro k
  have hk := h k
  by_cases hbk : key b = k
  · subst hbk
    have hnone : front.filter (fun a => key a = key b) = [] := by
      rw [List.filter_eq_nil_iff]
      intro a ha
      simpa using hne a ha
    rw [List.filter_append, hnone, List.nil_append]
    exact hback
  · simpa [List.filter_append, List.filter_cons, hbk] using hk

/-- A run over one interleaving is a run over every other. -/
theorem Steps.interleave
    (hswap : ∀ s t u a b, key a ≠ key b → R s a t → R t b u → ∃ t', R s b t' ∧ R t' a u)
    {s u : σ} (hsame : SameSequences key l l') (h : Steps R s l u) : Steps R s l' u := by
  induction l' generalizing s l with
  | nil =>
    rw [hsame.eq_nil] at h
    exact h
  | cons b l' ih =>
    obtain ⟨front, back, rfl, hne, hrest⟩ := hsame.split
    obtain ⟨t, step, rest⟩ := steps_cons.1 (h.front hswap hne)
    exact .cons step (ih hrest rest)

theorem SameSequences.length_eq (h : SameSequences key l l') : l.length = l'.length := by
  induction l' generalizing l with
  | nil => rw [h.eq_nil]
  | cons b l' ih =>
    obtain ⟨front, back, rfl, -, hrest⟩ := h.split
    have hlength := ih hrest
    simp only [List.length_append, List.length_cons] at hlength ⊢
    omega

end IntegrityGuardian.Library
