import Mathlib.Data.List.Flatten

/-!
# Lines

What iterating over a stream yields: each line keeps its separator, and only the last one
may lack it.
-/

namespace IntegrityGuardian.Library

variable {α : Type} [DecidableEq α]

/-- The lines of the data, separators included. -/
def lines (separator : α) : List α → List (List α)
  | [] => []
  | a :: rest =>
    if a = separator then [a] :: lines separator rest
    else
      match lines separator rest with
      | [] => [[a]]
      | line :: more => (a :: line) :: more

/-- A body without separators, and one at its end. -/
def IsLine (separator : α) (line : List α) : Prop :=
  ∃ body, line = body ++ [separator] ∧ separator ∉ body

variable {separator : α}

theorem lines_append {line : List α} (h : IsLine separator line)
    (rest : List α) : lines separator (line ++ rest) = line :: lines separator rest := by
  obtain ⟨body, rfl, hbody⟩ := h
  induction body with
  | nil => rw [List.nil_append, List.cons_append, List.nil_append, lines, if_pos rfl]
  | cons a body ih =>
    rw [List.mem_cons, not_or] at hbody
    rw [List.cons_append, List.cons_append, lines, if_neg (Ne.symm hbody.1), ih hbody.2]

/-- Data made of lines falls into these lines. -/
theorem lines_flatten {parts : List (List α)}
    (h : ∀ part ∈ parts, IsLine separator part) : lines separator parts.flatten = parts := by
  induction parts with
  | nil => rfl
  | cons part parts ih =>
    rw [List.forall_mem_cons] at h
    rw [List.flatten_cons, lines_append h.1, ih h.2]

end IntegrityGuardian.Library
