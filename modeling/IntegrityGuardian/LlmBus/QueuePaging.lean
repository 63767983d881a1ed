import IntegrityGuardian.Library.Keyset
import IntegrityGuardian.LlmBus.Lifecycle

/-!
# Reading the queue in pages

A reader follows `queue_page` from `seq` to `seq` while other agents post, acknowledge
and answer.  A page is cut out of the rows that wait at its own reading of the clock.
-/

namespace IntegrityGuardian.LlmBus

open Python Library

/-- A page, with the store and the clock it was read at. -/
structure Page where
  store : Store
  now : Int
  rows : List Row

/-- The requests of a reader from `afterSeq` on, with any calls between them. -/
inductive Reads (recipient : Str) : Int → Store → List Page → Prop where
  | last {limit afterSeq now : Int} {store store' : Store} {rows : List Row}
      (h : exec (.queuePage recipient limit afterSeq now) store = .ok (.page rows none, store')) :
      Reads recipient afterSeq store [⟨store, now, rows⟩]
  | more {limit afterSeq now : Int} {store store' : Store} {rows : List Row} {next : Nat}
      {calls : List Call} {pages : List Page}
      (h : exec (.queuePage recipient limit afterSeq now) store =
        .ok (.page rows (some next), store'))
      (rest : Reads recipient next (run exec store' calls) pages) :
      Reads recipient afterSeq store (⟨store, now, rows⟩ :: pages)

/-- The rows that wait for a recipient. -/
def waiting (recipient : Str) (now : Int) (store : Store) : List Row :=
  store.rows.filter fun row => row.recipient = recipient ∧ row.status = .pending ∧
    now < row.expiresAt

variable {afterSeq now : Int} {pages : List Page} {store : Store} {recipient : Str}

theorem mem_waiting {row : Row} : row ∈ waiting recipient now store ↔
      row ∈ store.rows ∧ row.recipient = recipient ∧ row.status = .pending ∧
        now < row.expiresAt := by
  simp [waiting]

theorem queueView_eq (recipient : Str) (limit afterSeq : Nat) (now : Int) (store : Store) :
    queueView recipient limit afterSeq now store =
      (rowsBehind Row.seq (some afterSeq) (waiting recipient now store)).take limit := by
  rw [queueView, rowsBehind, waiting, List.filter_filter]
  congr 1
  apply List.filter_congr
  intro row _
  rw [Bool.eq_iff_iff, Bool.and_eq_true, isBehind_some, decide_eq_true_eq, decide_eq_true_eq]
  tauto

theorem queuePage_eq_ok {limit : Int} {s t : Store} {rows : List Row} {next : Option Nat}
    (h : exec (.queuePage recipient limit afterSeq now) s = .ok (.page rows next, t)) :
    t = s ∧ 1 ≤ limit ∧
      rows = (rowsBehind Row.seq (some afterSeq.toNat) (waiting recipient now s)).take
        limit.toNat ∧
      next = if limit.toNat <
          (rowsBehind Row.seq (some afterSeq.toNat) (waiting recipient now s)).length then
        rows.getLast?.map Row.seq else none := by
  unfold exec at h
  obtain ⟨⟨⟨rows', next'⟩, t'⟩, hpage, hreply⟩ := map_eq_ok.1 h
  cases hreply
  unfold queuePage at hpage
  obtain ⟨_, hlimit, hpage⟩ := Tx.lift_bind_eq_ok.1 hpage
  obtain ⟨_, -, hpage⟩ := Tx.lift_bind_eq_ok.1 hpage
  rw [ensure_eq_ok] at hlimit
  rw [Tx.get_bind_eq_ok] at hpage
  cases hpage
  have hlook : limit.toNat < ((rowsBehind Row.seq (some afterSeq.toNat)
      (waiting recipient now s)).take (limit.toNat + 1)).length ↔
      limit.toNat < (rowsBehind Row.seq (some afterSeq.toNat) (waiting recipient now s)).length := by
    rw [List.length_take]
    omega
  rw [queueView_eq, List.take_take, Nat.min_eq_left (by omega)]
  exact ⟨rfl, hlimit.1, rfl, if_congr hlook rfl rfl⟩

theorem sound_run_from {s : Store} (hs : s.Sound) (calls : List Call) :
    (run exec s calls).Sound :=
  run_invariant (fun _ _ _ _ hs h => sound_exec hs h) hs calls

/-- What a page was cut out of, and the page. -/
def Page.view (recipient : Str) (page : Page) : List Row × List Row :=
  (waiting recipient page.now page.store, page.rows)

theorem waiting_ascending (hs : store.Sound) (recipient : Str) (now : Int) :
    (waiting recipient now store).Pairwise fun a b => a.seq < b.seq :=
  hs.ordered.filter _

theorem Reads.paged (hs : store.Sound) (h : Reads recipient afterSeq store pages) :
    Paged Row.seq (some afterSeq.toNat) (pages.map (Page.view recipient)) := by
  induction h with
  | @last limit afterSeq now store store' rows h =>
    obtain ⟨-, -, hrows, hnext⟩ := queuePage_eq_ok h
    have hascending := waiting_ascending hs recipient now
    have hall : (rowsBehind Row.seq (some afterSeq.toNat)
        (waiting recipient now store)).length ≤ limit.toNat := by
      by_contra hmore
      obtain ⟨-, hlimit, -⟩ := queuePage_eq_ok h
      rw [if_pos (Nat.lt_of_not_le hmore), eq_comm, Option.map_eq_none_iff,
        List.getLast?_eq_none_iff] at hnext
      have hlength := congrArg List.length hrows
      rw [hnext, List.length_take, List.length_nil] at hlength
      omega
    have hpaged := Paged.last hascending hall
    rw [List.take_of_length_le hall] at hrows
    rw [List.map_singleton, Page.view, hrows]
    exact hpaged
  | @more limit afterSeq now store store' rows next calls pages h rest ih =>
    obtain ⟨rfl, -, hrows, hnext⟩ := queuePage_eq_ok h
    rw [eq_comm, Option.ite_none_right_eq_some] at hnext
    obtain ⟨tip, htip, rfl⟩ := Option.map_eq_some_iff.1 hnext.2
    have hrest := ih (sound_run_from hs calls)
    rw [Int.toNat_natCast] at hrest
    rw [hrows] at htip
    rw [List.map_cons, Page.view, hrows]
    exact .more (waiting_ascending hs recipient now) htip hrest

theorem Reads.descends (hs : store.Sound) (h : Reads recipient afterSeq store pages) :
    ∀ page ∈ pages, page.store.Sound ∧ Descends store page.store := by
  have hself : ∀ {s : Store}, s.Sound → s.Sound ∧ Descends s s := fun hs =>
    ⟨hs, le_rfl, fun row hrow _ => ⟨row, hrow, rfl, rfl, le_rfl⟩⟩
  induction h with
  | last h =>
    intro page hpage
    rw [List.mem_singleton.1 hpage]
    exact hself hs
  | @more limit afterSeq now store store' rows next calls pages h rest ih =>
    obtain ⟨rfl, -⟩ := queuePage_eq_ok h
    intro page hpage
    rcases List.mem_cons.1 hpage with rfl | hpage
    · exact hself hs
    · obtain ⟨hsound, hdescends⟩ := ih (sound_run_from hs calls) page hpage
      exact ⟨hsound, (descends_run hs calls).trans hdescends⟩

/-- An identity comes again only after the row it was read on is gone. -/
def IdsOnce (p q : Page) : Prop :=
  ∀ a ∈ p.rows, ∀ b ∈ q.rows, a.id = b.id → ∀ row ∈ q.store.rows, row.seq ≠ a.seq

theorem Reads.ids (hs : store.Sound) (h : Reads recipient afterSeq store pages) :
    pages.Pairwise IdsOnce := by
  induction h with
  | last h => exact List.pairwise_singleton _ _
  | @more limit afterSeq now store store' rows next calls pages h rest ih =>
    have hpaged := (Reads.more h rest).paged hs
    have hascending := hpaged.ascending
    have hsubset := hpaged.subset
    obtain ⟨rfl, -⟩ := queuePage_eq_ok h
    have hlater := sound_run_from hs calls
    rw [List.pairwise_cons]
    refine ⟨?_, ih hlater⟩
    intro q hq a ha b hb hid row hrow hseq
    obtain ⟨hsound, hdescends⟩ := rest.descends hlater q hq
    have hstored := (mem_waiting.1 (hsubset (Page.view recipient ⟨store', now, rows⟩)
      List.mem_cons_self a ha).1).1
    have hbstored := (mem_waiting.1 (hsubset (Page.view recipient q)
      (List.mem_cons_of_mem _ (List.mem_map_of_mem hq)) b hb).1).1
    obtain ⟨origin, horigin, horiginSeq, hcontent, -⟩ :=
      ((descends_run hs calls).trans hdescends).2 row hrow (hseq ▸ hs.le_sequence a hstored)
    have hsame : origin = a := hs.eq_of_seq horigin hstored (horiginSeq.symm.trans hseq)
    have hrowId : row.id = a.id := by
      rw [← hsame]
      exact congrArg Content.id hcontent
    have hrowb : row = b := hsound.eq_of_id hrow hbstored (hrowId.trans hid)
    have hlt : a.seq < b.seq := by
      rw [pagedRows, List.map_cons, List.flatMap_cons, List.pairwise_append] at hascending
      exact hascending.2.2 a ha b
        (List.mem_flatMap.2 ⟨_, List.mem_map_of_mem hq, hb⟩)
    rw [hrowb] at hseq
    omega

theorem seq_pos (calls : List Call) : ∀ row ∈ (run exec .empty calls).rows, 0 < row.seq := by
  have hinvariant : (run exec .empty calls).Sound ∧
      ∀ row ∈ (run exec .empty calls).rows, 0 < row.seq := by
    refine run_invariant (I := fun s : Store => s.Sound ∧ ∀ row ∈ s.rows, 0 < row.seq) ?_
      ⟨sound_empty, by simp [Store.empty]⟩ calls
    rintro s call reply t ⟨hs, hpos⟩ h
    refine ⟨sound_exec hs h, ?_⟩
    intro row' hrow'
    rcases (follows_exec hs h).1 row' hrow' with hnew | ⟨row, hrow, hseq, -⟩
    · omega
    · rw [hseq]
      exact hpos row hrow
  exact hinvariant.2

/-- After any history, whatever calls come between the requests of a reader, the `seq`
of the rows on its pages ascends, an identity comes again only when its earlier row is
gone, and a row that waits at every request comes on some page. -/
theorem queue_pages_exact (past : List Call) {recipient : Str} {pages : List Page}
    (h : Reads recipient 0 (run exec .empty past) pages) :
    ((pages.flatMap Page.rows).Pairwise fun a b => a.seq < b.seq) ∧
    pages.Pairwise IdsOnce ∧
    (∀ page ∈ pages, ∀ row ∈ page.rows, row ∈ waiting recipient page.now page.store) ∧
    ∀ row ∈ (run exec .empty past).rows,
      (∀ page ∈ pages, ∃ row' ∈ waiting recipient page.now page.store, row'.seq = row.seq) →
      ∃ page ∈ pages, ∃ row' ∈ page.rows, row'.seq = row.seq ∧ row'.content = row.content := by
  have hs := sound_run past
  have hpaged := h.paged hs
  have hflat : pagedRows (pages.map (Page.view recipient)) = pages.flatMap Page.rows := by
    rw [pagedRows, List.flatMap_map]
    rfl
  refine ⟨hflat ▸ hpaged.ascending, h.ids hs, ?_, ?_⟩
  · intro page hpage row hrow
    exact (hpaged.subset _ (List.mem_map_of_mem hpage) row hrow).1
  · intro row hrow hthere
    have hbehind : isBehind (some (0 : Int).toNat) row.seq = true :=
      isBehind_some.2 (seq_pos past row hrow)
    obtain ⟨view, hview, row', hrow', hseq⟩ := hpaged.covers hbehind (by
      intro view hview
      obtain ⟨page, hpage, rfl⟩ := List.mem_map.1 hview
      exact hthere page hpage)
    obtain ⟨page, hpage, rfl⟩ := List.mem_map.1 hview
    refine ⟨page, hpage, row', hrow', hseq, ?_⟩
    have hstored := (mem_waiting.1 (hpaged.subset _ hview row' hrow').1).1
    obtain ⟨origin, horigin, horiginSeq, hcontent, -⟩ :=
      (h.descends hs page hpage).2.2 row' hstored (hseq ▸ hs.le_sequence row hrow)
    rw [hcontent, hs.eq_of_seq horigin hrow (horiginSeq.symm.trans hseq)]

namespace TwoPages

def post (id sender : String) : Call :=
  .post (Json.fields [("id", .str (str id)), ("from", .str (str sender)),
    ("to", .str (str "codex")), ("body", .str (str "x")), ("reply_to", .null)])
    (str sender) [str "codex", str "claude", str "grok"] 60 0

def past : List Call := [post "a" "grok", post "b" "claude"]

def row (seq : Nat) (id sender : String) (status : Status) (ackedAt : Option Int) : Row :=
  ⟨seq, str id, str sender, str "codex", str "x", none, status, 0, 60, ackedAt, none, none⟩

def between : List Call := [.ack (str "a") (str "codex") 1, post "c" "grok"]

theorem stored :
    run exec .empty past = ⟨[row 1 "a" "grok" .pending none, row 2 "b" "claude" .pending none], 2⟩ ∧
    run exec (run exec .empty past) between =
      ⟨[row 1 "a" "grok" .acked (some 1), row 2 "b" "claude" .pending none,
        row 3 "c" "grok" .pending none], 3⟩ := by
  decide +kernel

end TwoPages

open TwoPages in
/-- The first message is acknowledged and a third one posted between two pages. -/
theorem two_pages_exact :
    ∃ pages, Reads (str "codex") 0 (run exec .empty past) pages ∧
      (pages.flatMap Page.rows).map Row.seq = [1, 2, 3] ∧
      (pages.flatMap Page.rows).Pairwise fun a b => a.seq < b.seq := by
  obtain ⟨hpast, hbetween⟩ := stored
  have hreads : Reads (str "codex") 0 (run exec .empty past)
      [⟨run exec .empty past, 1, [row 1 "a" "grok" .pending none]⟩,
        ⟨run exec (run exec .empty past) between, 2,
          [row 2 "b" "claude" .pending none, row 3 "c" "grok" .pending none]⟩] := by
    refine @Reads.more _ 1 0 1 _ (run exec .empty past) _ 1 between _ ?_ ?_
    · rw [hpast]
      rfl
    · refine @Reads.last _ 50 1 2 _ (run exec (run exec .empty past) between) _ ?_
      rw [hbetween]
      rfl
  exact ⟨_, hreads, rfl, (queue_pages_exact past hreads).1⟩

end IntegrityGuardian.LlmBus
