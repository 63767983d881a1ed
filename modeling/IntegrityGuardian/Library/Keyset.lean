import Mathlib.Data.List.Pairwise
import Mathlib.Order.Lattice

/-!
# Pages behind a key

A reader asks for the first rows behind a cursor, and goes on behind the last row of
the page as long as rows were left.  The rows may be others at each request; only their
keys order them.
-/

namespace IntegrityGuardian.Library

variable {α κ : Type*} [LinearOrder κ]

/-- The key lies behind the cursor; without one every key does. -/
def isBehind (cursor : Option κ) (k : κ) : Bool := cursor.all fun c => c < k

/-- The rows behind the cursor. -/
def rowsBehind (key : α → κ) (cursor : Option κ) (rows : List α) : List α :=
  rows.filter fun row => isBehind cursor (key row)

/-- The requests of a reader from a cursor on: the rows there were, and the page. -/
inductive Paged (key : α → κ) : Option κ → List (List α × List α) → Prop where
  | last {cursor : Option κ} {rows : List α} {limit : Nat}
      (ascending : rows.Pairwise fun a b => key a < key b)
      (all : (rowsBehind key cursor rows).length ≤ limit) :
      Paged key cursor [(rows, rowsBehind key cursor rows)]
  | more {cursor : Option κ} {rows : List α} {limit : Nat} {tip : α}
      {pages : List (List α × List α)}
      (ascending : rows.Pairwise fun a b => key a < key b)
      (htip : ((rowsBehind key cursor rows).take limit).getLast? = some tip)
      (rest : Paged key (some (key tip)) pages) :
      Paged key cursor ((rows, (rowsBehind key cursor rows).take limit) :: pages)

/-- All rows of the pages. -/
def pagedRows (pages : List (List α × List α)) : List α := pages.flatMap Prod.snd

variable {key : α → κ}

variable {pages : List (List α × List α)} {rows : List α} {limit : Nat} {cursor : Option κ}
  {tip : α} {k : κ}

theorem isBehind_some {c : κ} : isBehind (some c) k = true ↔ c < k := by
  simp [isBehind]

theorem isBehind_mono {j : κ} (h : isBehind cursor j = true) (hlt : j < k) :
    isBehind cursor k = true := by
  cases cursor with
  | none => rfl
  | some c => exact isBehind_some.2 ((isBehind_some.1 h).trans hlt)

theorem mem_rowsBehind {row : α} :
    row ∈ rowsBehind key cursor rows ↔ row ∈ rows ∧ isBehind cursor (key row) = true :=
  List.mem_filter

/-- What is cut off a page lies behind its last row, and the page before it. -/
theorem split_page (h : rows.Pairwise fun a b => key a < key b)
    (htip : (rows.take limit).getLast? = some tip) :
    (∀ row ∈ rows.take limit, key row ≤ key tip) ∧ ∀ row ∈ rows.drop limit, key tip < key row := by
  have hmem : tip ∈ rows.take limit := List.mem_of_getLast? htip
  have hsplit := h
  rw [← List.take_append_drop limit rows, List.pairwise_append] at hsplit
  refine ⟨?_, fun row hrow => hsplit.2.2 tip hmem row hrow⟩
  intro row hrow
  obtain ⟨front, hfront⟩ := List.getLast?_eq_some_iff.1 htip
  have hpage := hsplit.1
  rw [hfront, List.pairwise_append] at hpage
  rw [hfront] at hrow
  rcases List.mem_append.1 hrow with hrow | hrow
  · exact (hpage.2.2 row hrow tip (List.mem_singleton_self tip)).le
  · rw [List.mem_singleton.1 hrow]

theorem pairwise_rowsBehind (h : rows.Pairwise fun a b => key a < key b)
    (cursor : Option κ) : (rowsBehind key cursor rows).Pairwise fun a b => key a < key b :=
  h.filter _

/-- A page holds rows there were. -/
theorem Paged.subset (h : Paged key cursor pages) :
    ∀ page ∈ pages, ∀ row ∈ page.2, row ∈ page.1 ∧ isBehind cursor (key row) = true := by
  induction h with
  | last ascending all =>
    intro page hpage row hrow
    rw [List.mem_singleton.1 hpage] at hrow ⊢
    exact mem_rowsBehind.1 hrow
  | more ascending htip rest ih =>
    intro page hpage row hrow
    rcases List.mem_cons.1 hpage with rfl | hpage
    · exact mem_rowsBehind.1 (List.mem_of_mem_take hrow)
    · obtain ⟨hmem, hbehind⟩ := ih page hpage row hrow
      have htipBehind := (mem_rowsBehind.1 (List.mem_of_mem_take (List.mem_of_getLast? htip))).2
      exact ⟨hmem, isBehind_mono htipBehind (isBehind_some.1 hbehind)⟩

/-- The keys ascend through all pages, so no row comes twice. -/
theorem Paged.ascending
    (h : Paged key cursor pages) : (pagedRows pages).Pairwise fun a b => key a < key b := by
  induction h with
  | last ascending all =>
    rw [pagedRows, List.flatMap_singleton]
    exact pairwise_rowsBehind ascending _
  | @more cursor rows limit tip pages ascending htip rest ih =>
    have hrows := pairwise_rowsBehind ascending cursor
    rw [pagedRows, List.flatMap_cons, List.pairwise_append]
    refine ⟨hrows.sublist (List.take_sublist limit _), ih, ?_⟩
    intro a ha b hb
    obtain ⟨page, hpage, hb⟩ := List.mem_flatMap.1 hb
    have hbehind := (rest.subset page hpage b hb).2
    exact ((split_page hrows htip).1 a ha).trans_lt (isBehind_some.1 hbehind)

/-- A key that is there at every request comes on some page. -/
theorem Paged.covers (h : Paged key cursor pages) (hk : isBehind cursor k = true)
    (hthere : ∀ page ∈ pages, ∃ row ∈ page.1, key row = k) :
    ∃ page ∈ pages, ∃ row ∈ page.2, key row = k := by
  induction h with
  | last ascending all =>
    obtain ⟨row, hrow, rfl⟩ := hthere _ List.mem_cons_self
    exact ⟨_, List.mem_cons_self, row, mem_rowsBehind.2 ⟨hrow, hk⟩, rfl⟩
  | @more cursor rows limit tip pages ascending htip rest ih =>
    obtain ⟨row, hrow, rfl⟩ := hthere _ List.mem_cons_self
    have hbehind : row ∈ rowsBehind key cursor rows := mem_rowsBehind.2 ⟨hrow, hk⟩
    rw [← List.take_append_drop limit (rowsBehind key cursor rows)] at hbehind
    rcases List.mem_append.1 hbehind with hin | hout
    · exact ⟨_, List.mem_cons_self, row, hin, rfl⟩
    · have hlt := (split_page (pairwise_rowsBehind ascending cursor) htip).2 row hout
      obtain ⟨page, hpage, hfound⟩ := ih (isBehind_some.2 hlt)
        fun page hpage => hthere page (List.mem_cons_of_mem _ hpage)
      exact ⟨page, List.mem_cons_of_mem _ hpage, hfound⟩

/-- The rows behind the last row of a page are those that were cut off. -/
theorem rowsBehind_tip (ascending : rows.Pairwise fun a b => key a < key b)
    (htip : ((rowsBehind key cursor rows).take limit).getLast? = some tip) :
    rowsBehind key (some (key tip)) rows = (rowsBehind key cursor rows).drop limit := by
  obtain ⟨hpage, hcut⟩ := split_page (pairwise_rowsBehind ascending cursor) htip
  have htipBehind := (mem_rowsBehind.1 (List.mem_of_mem_take (List.mem_of_getLast? htip))).2
  have hnarrow : rowsBehind key (some (key tip)) rows =
      rowsBehind key (some (key tip)) (rowsBehind key cursor rows) := by
    rw [rowsBehind, rowsBehind, rowsBehind, List.filter_filter]
    apply List.filter_congr
    intro row _
    cases hbehind : isBehind (some (key tip)) (key row) with
    | true => rw [isBehind_mono htipBehind (isBehind_some.1 hbehind)]; rfl
    | false => rfl
  have hnone : rowsBehind key (some (key tip)) ((rowsBehind key cursor rows).take limit) = [] := by
    rw [rowsBehind, List.filter_eq_nil_iff]
    intro row hrow
    rw [isBehind_some]
    exact (hpage row hrow).not_gt
  have hall : rowsBehind key (some (key tip)) ((rowsBehind key cursor rows).drop limit) =
      (rowsBehind key cursor rows).drop limit := by
    apply List.filter_eq_self.2
    intro row hrow
    exact isBehind_some.2 (hcut row hrow)
  calc rowsBehind key (some (key tip)) rows
      = rowsBehind key (some (key tip)) ((rowsBehind key cursor rows).take limit ++
          (rowsBehind key cursor rows).drop limit) := by rw [hnarrow, List.take_append_drop]
    _ = rowsBehind key (some (key tip)) ((rowsBehind key cursor rows).take limit) ++
          rowsBehind key (some (key tip)) ((rowsBehind key cursor rows).drop limit) :=
        List.filter_append _ _
    _ = (rowsBehind key cursor rows).drop limit := by rw [hnone, hall, List.nil_append]

end IntegrityGuardian.Library
