import Mathlib.Data.List.Infix

/-!
# Separated paths

A path is written by joining its segments with a separator that no segment contains; only
the first segment may be empty.  On such texts containment is a question about the text:
the parent followed by the separator begins the child.
-/

namespace IntegrityGuardian.Library

variable {α : Type} [DecidableEq α] {separator : α} {segments inner : List (List α)}

/-- The segments of a path: none contains the separator, and only the first may be empty. -/
structure IsPath (separator : α) (segments : List (List α)) : Prop where
  ne_nil : segments ≠ []
  separator_free : ∀ segment ∈ segments, separator ∉ segment
  tail_ne_nil : ∀ segment ∈ segments.tail, segment ≠ []

omit [DecidableEq α] in
theorem intercalate_append {l m : List (List α)} (hl : l ≠ []) (hm : m ≠ []) :
    [separator].intercalate (l ++ m) =
      [separator].intercalate l ++ separator :: [separator].intercalate m := by
  induction l with
  | nil => exact absurd rfl hl
  | cons s l ih =>
    cases l with
    | nil =>
      rw [List.singleton_append, List.intercalate_cons_of_ne_nil hm]
      simp
    | cons t l =>
      have hrest := ih (List.cons_ne_nil t l)
      rw [List.cons_append, List.intercalate_cons_of_ne_nil (by simp), hrest,
        List.intercalate_cons_of_ne_nil (List.cons_ne_nil t l)]
      simp

/-- No piece of a split contains the separator. -/
theorem separator_notMem_of_mem_splitOn {text piece : List α} (h : piece ∈ text.splitOn separator) :
    separator ∉ piece := by
  induction text generalizing piece with
  | nil =>
    rw [List.splitOn_nil, List.mem_singleton] at h
    rw [h]
    exact List.not_mem_nil
  | cons a text ih =>
    rw [List.splitOn_cons_eq_if_modifyHead] at h
    split at h
    · cases List.mem_cons.1 h with
      | inl heq => rw [heq]; exact List.not_mem_nil
      | inr hmem => exact ih hmem
    · rename_i ha
      obtain ⟨first, rest, hsplit⟩ :=
        List.exists_cons_of_ne_nil (List.splitOn_ne_nil separator text)
      rw [hsplit, List.modifyHead_cons] at h
      cases List.mem_cons.1 h with
      | inl heq =>
        have hfirst := ih (hsplit ▸ List.mem_cons_self : first ∈ text.splitOn separator)
        rw [heq, List.mem_cons, not_or]
        exact ⟨fun hsep => ha (by simp [hsep]), hfirst⟩
      | inr hmem => exact ih (hsplit ▸ List.mem_cons_of_mem _ hmem)

namespace IsPath

theorem splitOn (h : IsPath separator segments) :
    ([separator].intercalate segments).splitOn separator = segments :=
  List.splitOn_intercalate separator h.separator_free h.ne_nil

/-- Two paths with one text are the same path. -/
theorem injective (h : IsPath separator segments) (hinner : IsPath separator inner)
    (htext : [separator].intercalate segments = [separator].intercalate inner) :
    segments = inner := by
  rw [← h.splitOn, htext, hinner.splitOn]

/-- The text of a path does not end with the separator. -/
theorem not_suffix (h : IsPath separator segments) :
    ¬[separator] <:+ [separator].intercalate segments := by
  rintro ⟨front, hfront⟩
  have hsplit : segments = front.splitOn separator ++ [[]] := by
    rw [← h.splitOn, ← hfront, List.splitOn_append_cons_self, List.splitOn_nil]
  apply h.tail_ne_nil [] _ rfl
  rw [hsplit, List.tail_append_of_ne_nil (List.splitOn_ne_nil _ _)]
  exact List.mem_append_right _ List.mem_cons_self

/-- A text that begins with a path and the separator goes on below the path. -/
theorem separator_prefix_iff (h : IsPath separator segments) (hinner : IsPath separator inner) :
    [separator].intercalate segments ++ [separator] <+: [separator].intercalate inner ↔
      ∃ below, below ≠ [] ∧ inner = segments ++ below := by
  constructor
  · rintro ⟨rest, hrest⟩
    refine ⟨rest.splitOn separator, List.splitOn_ne_nil _ _, ?_⟩
    rw [← hinner.splitOn, ← hrest, List.append_assoc, List.singleton_append,
      List.splitOn_append_cons_self, h.splitOn]
  · rintro ⟨below, hbelow, rfl⟩
    refine ⟨[separator].intercalate below, ?_⟩
    rw [intercalate_append h.ne_nil hbelow, List.append_assoc, List.singleton_append]

/-- Containment of paths, as a comparison of the texts. -/
theorem prefix_iff (h : IsPath separator segments) (hinner : IsPath separator inner) :
    segments <+: inner ↔
      [separator].intercalate segments = [separator].intercalate inner ∨
        [separator].intercalate segments ++ [separator] <+: [separator].intercalate inner := by
  rw [h.separator_prefix_iff hinner]
  constructor
  · rintro ⟨below, rfl⟩
    by_cases hbelow : below = []
    · left
      rw [hbelow, List.append_nil]
    · exact .inr ⟨below, hbelow, rfl⟩
  · rintro (htext | ⟨below, -, rfl⟩)
    · rw [h.injective hinner htext]
    · exact List.prefix_append segments below

end IsPath

end IntegrityGuardian.Library
