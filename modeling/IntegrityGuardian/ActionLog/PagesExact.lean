import IntegrityGuardian.ActionLog.EventPages

/-!
# Pages of the log are exact

The table only grows, and new rows get greater numbers.  So the rows up to a bound stay
what they are, and a reader that keeps its bound reads the pages of one list.
-/

namespace IntegrityGuardian.ActionLog

open Python Library
open Json (ch decimal)

/-! ## The table grows -/

/-- Numbers ascend from one to the sequence, and no identity comes twice. -/
structure Table.Numbered (table : Table) : Prop where
  ascending : table.rows.Pairwise fun a b => a.id < b.id
  bounds : ∀ row ∈ table.rows, 1 ≤ row.id ∧ row.id ≤ table.sequence
  unique : table.Unique

/-- What later statements make of a table. -/
structure Table.Grows (table table' : Table) : Prop where
  numbered : table'.Numbered
  rows : ∃ more, table'.rows = table.rows ++ more ∧ ∀ row ∈ more, table.sequence < row.id
  sequence : table.sequence ≤ table'.sequence

theorem Table.Grows.refl {table : Table} (h : table.Numbered) : table.Grows table :=
  ⟨h, ⟨[], (List.append_nil _).symm, by simp⟩, le_rfl⟩

theorem Table.Grows.trans {a b c : Table} (hab : a.Grows b) (hbc : b.Grows c) : a.Grows c := by
  obtain ⟨more, hmore, hgreater⟩ := hab.rows
  obtain ⟨rest, hrest, hgreater'⟩ := hbc.rows
  refine ⟨hbc.numbered, ⟨more ++ rest, ?_, ?_⟩, hab.sequence.trans hbc.sequence⟩
  · rw [hrest, hmore, List.append_assoc]
  · intro row hrow
    rcases List.mem_append.1 hrow with hrow | hrow
    · exact hgreater row hrow
    · exact hab.sequence.trans_lt (hgreater' row hrow)

theorem grows_insert {table table' : Table} {event : Event} (h : table.Numbered)
    (hinsert : table.insert event = .ok table') : table.Grows table' := by
  obtain ⟨-, hinsert⟩ := ensure_bind_eq_ok.1 hinsert
  obtain ⟨hfresh, hinsert⟩ := ensure_bind_eq_ok.1 hinsert
  cases hinsert
  refine ⟨⟨?_, ?_, ?_⟩, ⟨_, rfl, ?_⟩, Nat.le_succ _⟩
  · rw [List.pairwise_append]
    refine ⟨h.ascending, List.pairwise_singleton _ _, ?_⟩
    intro a ha b hb
    rw [List.mem_singleton.1 hb]
    exact Nat.lt_succ_of_le (h.bounds a ha).2
  · intro row hrow
    rcases List.mem_append.1 hrow with hrow | hrow
    · have hbounds := h.bounds row hrow
      exact ⟨hbounds.1, Nat.le_succ_of_le hbounds.2⟩
    · rw [List.mem_singleton.1 hrow]
      exact ⟨Nat.succ_pos _, le_rfl⟩
  · unfold Table.Unique
    rw [List.pairwise_append]
    refine ⟨h.unique, List.pairwise_singleton _ _, ?_⟩
    intro a ha b hb hne heq
    rw [List.mem_singleton.1 hb] at heq
    rcases hfresh with hempty | hfresh
    · exact hne (heq.trans hempty)
    · exact hfresh a ha heq
  · intro row hrow
    rw [List.mem_singleton.1 hrow]
    exact Nat.lt_succ_self _

section
variable [FloatData] [UnicodeData] [WordData]

theorem advance_table (call : Call) (phase : Phase) (table : Table) :
    (advance call phase table).2 = table ∨
      ∃ event, table.insert event = .ok (advance call phase table).2 := by
  cases phase with
  | start =>
    left
    simp only [advance]
    split
    · rfl
    · split_ifs
      · rfl
      · split <;> rfl
  | inserting event =>
    simp only [advance]
    split
    · rename_i table' hinsert
      exact .inr ⟨event, hinsert⟩
    · left
      split_ifs <;> rfl
    · exact .inl rfl
  | colliding event =>
    left
    simp only [advance]
    split <;> rfl
  | done outcome => exact .inl rfl

theorem grows_step {s : System} (h : s.table.Numbered) (step : Step) :
    s.table.Grows (s.step step).table := by
  cases step with
  | call call => exact .refl h
  | statement index =>
    rcases step_statement s index with heq | ⟨call, phase, -, heq⟩
    · rw [heq]
      exact .refl h
    · rw [heq]
      rcases advance_table call phase s.table with hsame | ⟨event, hinsert⟩
      · rw [hsame]
        exact .refl h
      · exact grows_insert h hinsert

theorem grows_run {s : System} (h : s.table.Numbered) (steps : List Step) :
    s.table.Grows (s.run steps).table := by
  induction steps generalizing s with
  | nil => exact .refl h
  | cons step steps ih =>
    have hstep := grows_step h step
    exact hstep.trans (ih hstep.numbered)

end

theorem Table.Grows.upTo {table table' : Table} (h : table.Grows table') {bound : Nat}
    (hbound : bound ≤ table.sequence) :
    table'.rows.filter (fun row => row.id ≤ bound) =
      table.rows.filter fun row => row.id ≤ bound := by
  obtain ⟨more, hmore, hgreater⟩ := h.rows
  have hnone : more.filter (fun row => decide (row.id ≤ bound)) = [] := by
    rw [List.filter_eq_nil_iff]
    intro row hrow
    have hlarge := hgreater row hrow
    rw [decide_eq_true_eq]
    omega
  rw [hmore, List.filter_append, hnone, List.append_nil]

theorem orderKey_inj {ascending : Bool} {a b : Row}
    (h : orderKey ascending a = orderKey ascending b) : a.id = b.id := by
  unfold orderKey at h
  split_ifs at h <;> omega

theorem mem_ordered {ascending : Bool} {rows : List Row} {row : Row} :
    row ∈ ordered true ascending rows ↔ row ∈ rows :=
  (List.perm_insertionSort _ rows).mem_iff

theorem pairwise_ordered {rows : List Row} (h : rows.Pairwise fun a b => a.id < b.id)
    (ascending : Bool) :
    (ordered true ascending rows).Pairwise
      fun a b => orderKey ascending a < orderKey ascending b := by
  have hsorted : (ordered true ascending rows).Pairwise
      fun a b => orderKey ascending a ≤ orderKey ascending b :=
    List.pairwise_insertionSort _ rows
  have hperm : (ordered true ascending rows).Perm rows := List.perm_insertionSort _ rows
  have hdistinct : (ordered true ascending rows).Pairwise fun a b => a.id ≠ b.id := by
    apply (hperm.pairwise_iff fun hne heq => hne heq.symm).2
    exact h.imp fun hlt => hlt.ne
  refine (hsorted.and hdistinct).imp ?_
  rintro a b ⟨hle, hne⟩
  exact lt_of_le_of_ne hle fun heq => hne (orderKey_inj heq)

theorem eq_of_ordered {ascending : Bool} {xs ys : List Row}
    (hxs : xs.Pairwise fun a b => orderKey ascending a < orderKey ascending b)
    (hys : ys.Pairwise fun a b => orderKey ascending a < orderKey ascending b)
    (hmem : ∀ row, row ∈ xs ↔ row ∈ ys) : xs = ys := by
  have hperm : xs.Perm ys := by
    apply (List.perm_ext_iff_of_nodup _ _).2 hmem
    · exact hxs.imp fun hlt heq => absurd (heq ▸ hlt) (lt_irrefl _)
    · exact hys.imp fun hlt heq => absurd (heq ▸ hlt) (lt_irrefl _)
  apply hperm.eq_of_pairwise _ hxs hys
  intro a b _ _ hab hba
  exact absurd (hab.trans hba) (lt_irrefl _)

theorem ordered_filter {rows : List Row} (h : rows.Pairwise fun a b => a.id < b.id)
    (ascending : Bool) (p q : Row → Bool) :
    ordered true ascending (rows.filter fun row => p row && q row) =
      (ordered true ascending (rows.filter p)).filter q := by
  apply eq_of_ordered (pairwise_ordered (h.filter _) ascending)
    ((pairwise_ordered (h.filter _) ascending).filter _)
  intro row
  simp only [mem_ordered, List.mem_filter, Bool.and_eq_true, and_assoc]

/-! ## Parameters -/

theorem first_set (params : Params) (name other : String) (values : List Str) :
    first (params.set name values) other =
      if other = name then values.head? else first params other := by
  unfold first Params.set
  rw [List.lookup_cons]
  by_cases h : other = name
  · rw [if_pos h, beq_iff_eq.2 h]
    rfl
  · rw [if_neg h, beq_eq_false_iff_ne.2 h]

theorem decimal_cons (n : Nat) : ∃ c rest, decimal n = c :: rest := by
  by_cases hzero : n = 0
  · rw [hzero]
    exact ⟨_, _, rfl⟩
  · obtain ⟨c, rest, h, -⟩ := Json.decimal_head hzero
    exact ⟨c, rest, h⟩

section
variable [QueryData]

theorem parseIntParam_decimal (n : Nat) : parseIntParam (some (decimal n)) = n := by
  obtain ⟨c, rest, h⟩ := decimal_cons n
  have hint := toInt_decimal n
  rw [h] at hint ⊢
  simp only [parseIntParam, hint, Option.getD_some, Int.toNat_natCast]

theorem parseLimit_decimal (n : Nat) (default : Int) :
    parseLimit (some (decimal n)) default = max 1 (min (n : Int) maxLimit) := by
  obtain ⟨c, rest, h⟩ := decimal_cons n
  have hint := toInt_decimal n
  rw [h] at hint ⊢
  unfold parseLimit
  dsimp only
  rw [hint]

theorem parseLimit_pos {value : Option Str} : 1 ≤ parseLimit value 50 := by
  unfold parseLimit
  split
  · split <;> omega
  · simp [maxLimit]

theorem pageSizeOf_bounds (params : Params) : 1 ≤ pageSizeOf params ∧ pageSizeOf params ≤ 200 := by
  unfold pageSizeOf
  have hpos : ∀ value : Option Str, 1 ≤ parseLimit value 50 := fun _ => parseLimit_pos
  dsimp only
  generalize hlimit : parseLimit _ 50 = limit
  have hone : 1 ≤ limit := hlimit ▸ hpos _
  omega

/-! ## One page -/

/-- The bound a request works with. -/
def snapshotOf (params : Params) (atBound : Table) : Nat :=
  if parseIntParam (first params "snapshot_event_id") = 0 then atBound.maxId
  else parseIntParam (first params "snapshot_event_id")

/-- The rows a page is cut out of. -/
def candidates (params : Params) (since : Str) (snapshot : Nat) (table : Table) : List Row :=
  ordered true (isAscending params)
    (table.rows.filter (rowMatches (pageParams params snapshot) since))

theorem first_pageParams {params : Params} {snapshot : Nat} {name : String}
    (h : name ∉ ["snapshot_event_id", "sort", "limit"]) :
    first (pageParams params snapshot) name = first params name := by
  simp only [List.mem_cons, List.not_mem_nil, or_false, not_or] at h
  obtain ⟨hsnapshot, hsort, hlimit⟩ := h
  rw [pageParams, first_set, if_neg hlimit, first_set, if_neg hsort, first_set, if_neg hsnapshot]

/-- What a page is. -/
structure IsPage (params : Params) (since : Str) (atBound atQuery : Table) (page : Page) :
    Prop where
  snapshot : page.snapshotEventId = snapshotOf params atBound
  rows : page.rows =
    (candidates params since (snapshotOf params atBound) atQuery).take (pageSizeOf params)
  hasMore : page.hasMore = true ↔
    pageSizeOf params < (candidates params since (snapshotOf params atBound) atQuery).length
  nextBefore : page.nextBeforeId =
    if !isAscending params && page.hasMore then page.rows.getLast?.map Row.id else none
  nextAfter : page.nextAfterId =
    if isAscending params && page.hasMore then page.rows.getLast?.map Row.id else none

theorem isPage_of_query {params : Params} {now : Instant} {atBound atQuery : Table} {page : Page}
    (hoffset : parseIntParam (first params "offset") = 0)
    (h : queryEventsPage params now atBound atQuery = .ok page) :
    ∃ since, parseWindow now (first params "since") = .ok since ∧
      IsPage params since atBound atQuery page := by
  unfold queryEventsPage at h
  dsimp only at h
  obtain ⟨rows, hquery, h⟩ := bind_eq_ok.1 h
  obtain ⟨since, hsince, hquery⟩ := bind_eq_ok.1 hquery
  obtain ⟨-, hquery⟩ := ensure_bind_eq_ok.1 hquery
  obtain ⟨-, hquery⟩ := ensure_bind_eq_ok.1 hquery
  have hrows := (Except.ok.inj hquery).symm
  have hsort : first (pageParams params (snapshotOf params atBound)) "sort" = some (str "id") := by
    rw [pageParams, first_set, if_neg (by decide), first_set, if_pos rfl]
    rfl
  have hlimit : parseLimit (first (pageParams params (snapshotOf params atBound)) "limit") 100 =
      (pageSizeOf params + 1 : Nat) := by
    have hbounds := pageSizeOf_bounds params
    rw [pageParams, first_set, if_pos rfl, List.head?_cons, parseLimit_decimal, maxLimit]
    omega
  have hbyId : (QueryData.lower (orDefault (some (str "id")) (str "time")).strip == str "id") =
      true := by
    have hstrip : (orDefault (some (str "id")) (str "time")).strip = str "id" := by decide
    rw [hstrip, QueryData.lower_ascii _ (by decide)]
    decide
  have hascending : isAscending (pageParams params (snapshotOf params atBound)) =
      isAscending params := by
    rw [isAscending, first_pageParams (by decide), isAscending]
  have hrows' : rows = (candidates params since (snapshotOf params atBound) atQuery).take
      (pageSizeOf params + 1) := by
    have hsnapshot : (if parseIntParam (first params "snapshot_event_id") = 0 then atBound.maxId
        else parseIntParam (first params "snapshot_event_id")) = snapshotOf params atBound := rfl
    rw [hsnapshot, hsort, hbyId, hlimit, hascending, first_pageParams (by decide), hoffset,
      List.drop_zero, Int.toNat_natCast] at hrows
    exact hrows
  rw [first_pageParams (by decide)] at hsince
  have hlook : pageSizeOf params < rows.length ↔
      pageSizeOf params < (candidates params since (snapshotOf params atBound) atQuery).length := by
    rw [hrows', List.length_take]
    omega
  have htake : rows.take (pageSizeOf params) =
      (candidates params since (snapshotOf params atBound) atQuery).take (pageSizeOf params) := by
    rw [hrows', List.take_take, Nat.min_eq_left (Nat.le_succ _)]
  cases h
  refine ⟨since, hsince, ⟨rfl, htake, ?_, rfl, rfl⟩⟩
  rw [decide_eq_true_eq]
  exact hlook

/-! ## What a row has to meet -/

/-- Where the reader stands, by the key of its order. -/
def cursorOf (params : Params) : Option Int :=
  if isAscending params then
    if parseIntParam (first params "after_id") = 0 then none
    else some (parseIntParam (first params "after_id"))
  else
    if parseIntParam (first params "before_id") = 0 then none
    else some (-parseIntParam (first params "before_id"))

/-- The conditions that stay the same from page to page. -/
def fixedMatches (params : Params) (since : Str) (row : Row) : Bool :=
  attributesMatch params row.event && decide (since ≤ row.event.tsUtc) &&
    if isAscending params then
      unlessZero (parseIntParam (first params "before_id"))
        (row.id < parseIntParam (first params "before_id"))
    else
      unlessZero (parseIntParam (first params "after_id"))
        (parseIntParam (first params "after_id") < row.id)

omit [QueryData] in
theorem unlessZero_of_pos {bound : Nat} (h : 0 < bound) (check : Bool) :
    unlessZero bound check = check := by
  rw [unlessZero, beq_eq_false_iff_ne.2 (Nat.pos_iff_ne_zero.1 h), Bool.false_or]

theorem attributesMatch_pageParams (params : Params) (snapshot : Nat) (event : Event) :
    attributesMatch (pageParams params snapshot) event = attributesMatch params event := by
  simp only [attributesMatch, textParam]
  rw [first_pageParams (by decide), first_pageParams (by decide), first_pageParams (by decide),
    first_pageParams (by decide), first_pageParams (by decide), first_pageParams (by decide)]

theorem snapshot_pageParams (params : Params) (snapshot : Nat) :
    parseIntParam (first (pageParams params snapshot) "snapshot_event_id") = snapshot := by
  rw [pageParams, first_set, if_neg (by decide), first_set, if_neg (by decide), first_set,
    if_pos rfl, List.head?_cons, parseIntParam_decimal]

theorem isIdentified_iff {params : Params} : isIdentified params = true ↔
    0 < parseIntParam (first params "id") ∨ textParam params "event_uid" ≠ [] := by
  simp [isIdentified]

theorem isBehind_cursorOf (params : Params) (row : Row) :
    isBehind (cursorOf params) (orderKey (isAscending params) row) =
      if isAscending params then
        unlessZero (parseIntParam (first params "after_id"))
          (parseIntParam (first params "after_id") < row.id)
      else
        unlessZero (parseIntParam (first params "before_id"))
          (row.id < parseIntParam (first params "before_id")) := by
  unfold cursorOf orderKey
  split_ifs with hascending hzero hzero
  · rw [hzero]
    rfl
  · rw [unlessZero_of_pos (Nat.pos_of_ne_zero hzero), Bool.eq_iff_iff, isBehind_some,
      decide_eq_true_eq]
    omega
  · rw [hzero]
    rfl
  · rw [unlessZero_of_pos (Nat.pos_of_ne_zero hzero), Bool.eq_iff_iff, isBehind_some,
      decide_eq_true_eq]
    omega

theorem rowMatches_pageParams {params : Params} (hidentified : isIdentified params = false)
    {snapshot : Nat} (hpos : 0 < snapshot) (since : Str) (row : Row) :
    rowMatches (pageParams params snapshot) since row =
      ((decide (row.id ≤ snapshot) && fixedMatches params since row) &&
        isBehind (cursorOf params) (orderKey (isAscending params) row)) := by
  have hnone : ¬(0 < parseIntParam (first params "id") ∨ textParam params "event_uid" ≠ []) := by
    rw [← isIdentified_iff, hidentified]
    exact Bool.false_ne_true
  rw [not_or, not_not] at hnone
  rw [rowMatches, attributesMatch_pageParams, rangeMatches, isBehind_cursorOf, fixedMatches]
  have hid : first (pageParams params snapshot) "id" = first params "id" :=
    first_pageParams (by decide)
  have huid : textParam (pageParams params snapshot) "event_uid" = textParam params "event_uid" := by
    rw [textParam, first_pageParams (by decide), textParam]
  have hbefore : first (pageParams params snapshot) "before_id" = first params "before_id" :=
    first_pageParams (by decide)
  have hafter : first (pageParams params snapshot) "after_id" = first params "after_id" :=
    first_pageParams (by decide)
  rw [hid, if_neg hnone.1, huid, if_neg (not_not.2 hnone.2), hbefore, hafter, snapshot_pageParams,
    unlessZero_of_pos hpos]
  apply Bool.eq_iff_iff.2
  split_ifs <;> simp only [Bool.and_eq_true] <;> tauto

/-- The rows that stay candidates while the reader goes on. -/
def target (params : Params) (since : Str) (snapshot : Nat) (table : Table) : List Row :=
  ordered true (isAscending params)
    ((table.rows.filter fun row => row.id ≤ snapshot).filter (fixedMatches params since))

theorem candidates_eq {params : Params} (hidentified : isIdentified params = false)
    {snapshot : Nat} (hpos : 0 < snapshot) {since : Str} {table : Table}
    (h : table.Numbered) : candidates params since snapshot table =
      rowsBehind (orderKey (isAscending params)) (cursorOf params)
        (target params since snapshot table) := by
  have hmatches := funext (rowMatches_pageParams hidentified hpos since)
  rw [candidates, hmatches, ordered_filter h.ascending, target, rowsBehind, List.filter_filter]
  congr 2
  apply List.filter_congr
  intro row _
  exact Bool.and_comm _ _

/-! ## The next request -/

/-- The names a reader sets. -/
def followNames : List String := ["snapshot_event_id", "after_id", "before_id"]

/-- What the next request keeps, and what it sets. -/
structure Follows (params params' : Params) (snapshot : Nat) (tip : Row) : Prop where
  kept : ∀ name ∉ followNames, first params' name = first params name
  snapshot : parseIntParam (first params' "snapshot_event_id") = snapshot
  cursor : cursorOf params' = some (orderKey (isAscending params) tip)
  before : isAscending params = true → first params' "before_id" = first params "before_id"
  after : isAscending params = false → first params' "after_id" = first params "after_id"

theorem Follows.isAscending_eq {params params' : Params} {snapshot : Nat} {tip : Row}
    (h : Follows params params' snapshot tip) : isAscending params' = isAscending params := by
  rw [isAscending, h.kept "order" (by decide), isAscending]

theorem follows_follow {params : Params} {page : Page} {tip : Row} (hpos : 1 ≤ tip.id)
    (hafter : isAscending params = true → page.nextAfterId = some tip.id)
    (hbefore : isAscending params = false →
      page.nextAfterId = none ∧ page.nextBeforeId = some tip.id) :
    Follows params (follow params page) page.snapshotEventId tip := by
  have hnames : ∀ name ∉ followNames, name ≠ "snapshot_event_id" ∧ name ≠ "after_id" ∧
      name ≠ "before_id" := by
    intro name hname
    simpa [followNames] using hname
  cases hascending : isAscending params with
  | true =>
    have hfollow : follow params page = (params.set "snapshot_event_id"
        [decimal page.snapshotEventId]).set "after_id" [decimal tip.id] := by
      rw [follow, hafter hascending]
    have hkept : ∀ name ∉ followNames, first (follow params page) name = first params name := by
      intro name hname
      obtain ⟨hsnapshot, hafter, -⟩ := hnames name hname
      rw [hfollow, first_set, if_neg hafter, first_set, if_neg hsnapshot]
    have horder : isAscending (follow params page) = true := by
      rw [isAscending, hkept "order" (by decide)]
      exact hascending
    refine ⟨hkept, ?_, ?_, fun _ => ?_, fun hfalse => ?_⟩
    · rw [hfollow, first_set, if_neg (by decide), first_set, if_pos rfl, List.head?_cons,
        parseIntParam_decimal]
    · rw [cursorOf, horder, if_pos rfl, hfollow, first_set, if_pos rfl, List.head?_cons,
        parseIntParam_decimal, if_neg (by omega), hascending, orderKey, if_pos rfl]
    · rw [hfollow, first_set, if_neg (by decide), first_set, if_neg (by decide)]
    · rw [hascending] at hfalse
      cases hfalse
  | false =>
    have hfollow : follow params page = (params.set "snapshot_event_id"
        [decimal page.snapshotEventId]).set "before_id" [decimal tip.id] := by
      rw [follow, (hbefore hascending).1, (hbefore hascending).2]
    have hkept : ∀ name ∉ followNames, first (follow params page) name = first params name := by
      intro name hname
      obtain ⟨hsnapshot, -, hbefore⟩ := hnames name hname
      rw [hfollow, first_set, if_neg hbefore, first_set, if_neg hsnapshot]
    have horder : isAscending (follow params page) = false := by
      rw [isAscending, hkept "order" (by decide)]
      exact hascending
    refine ⟨hkept, ?_, ?_, fun htrue => ?_, fun _ => ?_⟩
    · rw [hfollow, first_set, if_neg (by decide), first_set, if_pos rfl, List.head?_cons,
        parseIntParam_decimal]
    · rw [cursorOf, horder, if_neg Bool.false_ne_true, hfollow, first_set, if_pos rfl,
        List.head?_cons, parseIntParam_decimal, if_neg (by omega), hascending, orderKey,
        if_neg Bool.false_ne_true]
    · rw [hascending] at htrue
      cases htrue
    · rw [hfollow, first_set, if_neg (by decide), first_set, if_neg (by decide)]

theorem Follows.isIdentified_eq {params params' : Params} {snapshot : Nat} {tip : Row}
    (h : Follows params params' snapshot tip) : isIdentified params' = isIdentified params := by
  rw [isIdentified, textParam, h.kept "id" (by decide), h.kept "event_uid" (by decide),
    isIdentified, textParam]

theorem Follows.fixedMatches_eq {params params' : Params} {snapshot : Nat} {tip : Row}
    (h : Follows params params' snapshot tip) (since : Str) :
    fixedMatches params' since = fixedMatches params since := by
  funext row
  have hattributes : attributesMatch params' row.event = attributesMatch params row.event := by
    simp only [attributesMatch, textParam]
    rw [h.kept "q" (by decide), h.kept "tag" (by decide), h.kept "actor" (by decide),
      h.kept "session_id" (by decide), h.kept "action" (by decide), h.kept "level" (by decide)]
  rw [fixedMatches, hattributes, h.isAscending_eq, fixedMatches]
  cases hascending : isAscending params with
  | true => rw [h.before hascending]; rfl
  | false => rw [h.after hascending]; rfl

theorem Follows.target_eq {params params' : Params} {snapshot : Nat} {tip : Row}
    (h : Follows params params' snapshot tip) (since : Str) (bound : Nat) (table : Table) :
    target params' since bound table = target params since bound table := by
  rw [target, h.isAscending_eq, h.fixedMatches_eq, target]

theorem target_congr {params : Params} {since : Str} {bound : Nat} {table table' : Table}
    (h : table.Grows table') (hbound : bound ≤ table.sequence) :
    target params since bound table' = target params since bound table := by
  rw [target, h.upTo hbound, target]

theorem IsPage.tip {params : Params} {since : Str} {atBound atQuery : Table} {page : Page}
    (h : IsPage params since atBound atQuery page) (hmore : page.hasMore = true) :
    ∃ tip, page.rows.getLast? = some tip ∧
      (isAscending params = true → page.nextAfterId = some tip.id) ∧
      (isAscending params = false → page.nextAfterId = none ∧ page.nextBeforeId = some tip.id) := by
  have hlong := h.hasMore.1 hmore
  have hsize := (pageSizeOf_bounds params).1
  have hlength : page.rows.length = pageSizeOf params := by
    rw [h.rows, List.length_take, Nat.min_eq_left hlong.le]
  have hne : page.rows ≠ [] := by
    intro hnil
    rw [hnil, List.length_nil] at hlength
    omega
  have hlast := List.getLast?_eq_some_getLast hne
  refine ⟨_, hlast, ?_, ?_⟩
  · intro hascending
    rw [h.nextAfter, hascending, hmore, hlast]
    rfl
  · intro hascending
    rw [h.nextAfter, h.nextBefore, hascending, hmore, hlast]
    exact ⟨rfl, rfl⟩

/-! ## What a request can bind -/

/-- `sqlite3` takes the numbers and the texts of a request. -/
def Bindable (params : Params) : Prop :=
  (∀ n ∈ boundNumbers params, n < 2 ^ 63) ∧
    ∀ text ∈ boundTexts params, (encodeUtf8 text).isSome = true

/-- The names under which a request has the values it binds, the three apart that a
reader sets. -/
def contentNames : List String :=
  ["id", "event_uid", "offset", "q", "tag", "actor", "session_id", "action", "level"]

theorem Bindable.congr {params params' : Params} (h : Bindable params)
    (hkept : ∀ name ∈ contentNames, first params' name = first params name)
    (hset : ∀ name ∈ followNames, first params' name = first params name ∨
      parseIntParam (first params' name) < 2 ^ 63) : Bindable params' := by
  have htext : ∀ name ∈ contentNames, textParam params' name = textParam params name := by
    intro name hname
    rw [textParam, hkept name hname, textParam]
  have hid := hkept "id" (by decide)
  have huid := htext "event_uid" (by decide)
  have hoffset := hkept "offset" (by decide)
  refine ⟨?_, ?_⟩
  · have hnumbers := h.1
    have hmember : ∀ name ∈ followNames, parseIntParam (first params name) < 2 ^ 63 →
        parseIntParam (first params' name) < 2 ^ 63 := by
      intro name hname hlt
      rcases hset name hname with heq | hlt'
      · rw [heq]
        exact hlt
      · exact hlt'
    simp only [boundNumbers, hid, huid, hoffset] at hnumbers ⊢
    split_ifs at hnumbers ⊢ with hpos hempty
    · exact hnumbers
    · exact hnumbers
    · simp only [List.forall_mem_cons] at hnumbers ⊢
      obtain ⟨hbefore, hafter, hsnapshot, hrest⟩ := hnumbers
      exact ⟨hmember _ (by decide) hbefore, hmember _ (by decide) hafter,
        hmember _ (by decide) hsnapshot, hrest⟩
  · have hlist : boundTexts params' = boundTexts params := by
      simp only [boundTexts, hid, huid, List.map_cons, List.map_nil]
      rw [htext "q" (by decide), htext "tag" (by decide), htext "actor" (by decide),
        htext "session_id" (by decide), htext "action" (by decide), htext "level" (by decide)]
    rw [hlist]
    exact h.2

theorem bindable_pageParams {params : Params} {snapshot : Nat} (hsnapshot : snapshot < 2 ^ 63)
    (hown : parseIntParam (first params "snapshot_event_id") < 2 ^ 63) :
    Bindable (pageParams params snapshot) ↔ Bindable params := by
  have hkept : ∀ name ∈ contentNames,
      first (pageParams params snapshot) name = first params name := by
    intro name hname
    apply first_pageParams
    revert name
    decide
  have hcursors : ∀ name ∈ followNames, name = "snapshot_event_id" ∨
      first (pageParams params snapshot) name = first params name := by
    intro name hname
    by_cases heq : name = "snapshot_event_id"
    · exact .inl heq
    · right
      apply first_pageParams
      simp only [followNames, List.mem_cons, List.not_mem_nil, or_false] at hname
      rcases hname with rfl | rfl | rfl
      · exact absurd rfl heq
      · decide
      · decide
  constructor
  · intro h
    apply h.congr (fun name hname => (hkept name hname).symm)
    intro name hname
    rcases hcursors name hname with rfl | heq
    · exact .inr hown
    · exact .inl heq.symm
  · intro h
    apply h.congr hkept
    intro name hname
    rcases hcursors name hname with rfl | heq
    · right
      rw [snapshot_pageParams]
      exact hsnapshot
    · exact .inl heq

theorem query_of_bindable {params : Params} {now : Instant} {since : Str} {atBound : Table}
    (hwindow : parseWindow now (first params "since") = .ok since)
    (h : Bindable (pageParams params (snapshotOf params atBound))) (atQuery : Table) :
    ∃ page, queryEventsPage params now atBound atQuery = .ok page := by
  have hwindow' : parseWindow now
      (first (pageParams params (snapshotOf params atBound)) "since") = .ok since := by
    rw [first_pageParams (by decide)]
    exact hwindow
  have hquery : ∃ rows, queryEvents (pageParams params (snapshotOf params atBound)) now atQuery =
      .ok rows := by
    unfold queryEvents
    rw [hwindow', ok_bind, ensure_of h.1, ok_bind, ensure_of h.2, ok_bind]
    exact ⟨_, rfl⟩
  obtain ⟨rows, hrows⟩ := hquery
  unfold queryEventsPage
  dsimp only
  rw [snapshotOf] at hrows
  rw [hrows, ok_bind]
  exact ⟨_, rfl⟩

/-- Where a reader stands that reads the rows up to a bound of a table. -/
structure Stands (since : Str) (bound : Nat) (table : Table) (ascending : Bool)
    (rows : List Row) (params : Params) (current : Table) : Prop where
  identified : isIdentified params = false
  offset : parseIntParam (first params "offset") = 0
  window : ∀ now, parseWindow now (first params "since") = .ok since
  snapshot : snapshotOf params current = bound
  bindable : Bindable params
  grows : table.Grows current
  ascending : isAscending params = ascending
  rows : target params since bound table = rows

theorem Stands.own {since : Str} {bound : Nat} {table : Table} {ascending : Bool}
    {rows : List Row} {params : Params} {current : Table}
    (h : Stands since bound table ascending rows params current) (hbound : bound < 2 ^ 63) :
    parseIntParam (first params "snapshot_event_id") < 2 ^ 63 := by
  have hsnapshot := h.snapshot
  unfold snapshotOf at hsnapshot
  split_ifs at hsnapshot with hzero
  · omega
  · omega

theorem Follows.numbers {params params' : Params} {bound : Nat} {tip : Row}
    (h : Follows params params' bound tip) (hbound : bound < 2 ^ 63) (htip : tip.id ≤ bound) :
    ∀ name ∈ followNames, first params' name = first params name ∨
      parseIntParam (first params' name) < 2 ^ 63 := by
  have hcursor := h.cursor
  rw [cursorOf, h.isAscending_eq, orderKey] at hcursor
  intro name hname
  simp only [followNames, List.mem_cons, List.not_mem_nil, or_false] at hname
  cases hascending : isAscending params with
  | true =>
    rcases hname with rfl | rfl | rfl
    · right
      rw [h.snapshot]
      exact hbound
    · right
      rw [hascending, if_pos rfl, if_pos rfl] at hcursor
      split_ifs at hcursor
      have hvalue := Option.some.inj hcursor
      omega
    · exact .inl (h.before hascending)
  | false =>
    rcases hname with rfl | rfl | rfl
    · right
      rw [h.snapshot]
      exact hbound
    · exact .inl (h.after hascending)
    · right
      rw [hascending, if_neg Bool.false_ne_true, if_neg Bool.false_ne_true] at hcursor
      split_ifs at hcursor
      have hvalue := Option.some.inj hcursor
      omega

theorem Stands.next {since : Str} {bound : Nat} {table : Table} {ascending : Bool}
    {rows : List Row} {params params' : Params} {current : Table}
    (h : Stands since bound table ascending rows params current) (hpos : 0 < bound)
    (hbound : bound < 2 ^ 63) {tip : Row} (htip : tip.id ≤ bound)
    (hfollows : Follows params params' bound tip) {current' : Table}
    (hgrows : current.Grows current') :
    Stands since bound table ascending rows params' current' := by
  have hkept : ∀ name ∈ contentNames, first params' name = first params name := by
    intro name hname
    apply hfollows.kept
    revert name
    decide
  refine ⟨?_, ?_, ?_, ?_, ?_, ?_, ?_, ?_⟩
  · rw [hfollows.isIdentified_eq]
    exact h.identified
  · rw [hkept "offset" (by decide)]
    exact h.offset
  · rw [hfollows.kept "since" (by decide)]
    exact h.window
  · rw [snapshotOf, hfollows.snapshot, if_neg (Nat.pos_iff_ne_zero.1 hpos)]
  · exact h.bindable.congr hkept (hfollows.numbers hbound htip)
  · exact h.grows.trans hgrows
  · rw [hfollows.isAscending_eq]
    exact h.ascending
  · rw [hfollows.target_eq]
    exact h.rows

theorem Stands.page {since : Str} {bound : Nat} {table : Table} {ascending : Bool}
    {rows : List Row} {params : Params} {current : Table}
    (h : Stands since bound table ascending rows params current) (hpos : 0 < bound)
    (hbound : bound ≤ table.sequence) {atQuery : Table} (hgrows : current.Grows atQuery)
    {page : Page} (hpage : IsPage params since current atQuery page) :
    page.rows = (rowsBehind (orderKey ascending) (cursorOf params) rows).take
        (pageSizeOf params) ∧
      (page.hasMore = true ↔ pageSizeOf params <
        (rowsBehind (orderKey ascending) (cursorOf params) rows).length) := by
  have hcandidates : candidates params since (snapshotOf params current) atQuery =
      rowsBehind (orderKey ascending) (cursorOf params) rows := by
    rw [h.snapshot, candidates_eq h.identified hpos hgrows.numbered, h.ascending,
      target_congr (h.grows.trans hgrows) hbound, h.rows]
  have hrows := hpage.rows
  have hmore := hpage.hasMore
  rw [hcandidates] at hrows hmore
  exact ⟨hrows, hmore⟩

variable [FloatData] [UnicodeData] [WordData]

/-- A reader that stands right reads the rows behind its cursor, whatever other calls do. -/
theorem Stands.readPages {since : Str} {bound : Nat} {table : Table} {ascending : Bool}
    {rows : List Row} (hpos : 0 < bound) (hbound : bound < 2 ^ 63)
    (hsequence : bound ≤ table.sequence)
    (hrows : rows.Pairwise fun a b => orderKey ascending a < orderKey ascending b)
    (hids : ∀ row ∈ rows, 1 ≤ row.id ∧ row.id ≤ bound) (turns : List Turn) :
    ∀ (params : Params) (s : System), Stands since bound table ascending rows params s.table →
      (rowsBehind (orderKey ascending) (cursorOf params) rows).length < turns.length →
      ∃ pages, ActionLog.readPages turns params s = .ok (some pages) ∧
        pages.flatMap Page.rows =
          rowsBehind (orderKey ascending) (cursorOf params) rows := by
  -- each page is not empty, so the rows behind the cursor run out before the turns do
  induction turns with
  | nil =>
    intro params s _ hfuel
    exact absurd hfuel (Nat.not_lt_zero _)
  | cons turn turns ih =>
    intro params s h hfuel
    have hinside := grows_run h.grows.numbered turn.inside
    have hbindable : Bindable (pageParams params (snapshotOf params s.table)) := by
      rw [h.snapshot]
      exact (bindable_pageParams hbound (h.own hbound)).2 h.bindable
    obtain ⟨page, hquery⟩ := query_of_bindable (h.window turn.now) hbindable
      (s.run turn.inside).table
    obtain ⟨since', hwindow, hpage⟩ := isPage_of_query h.offset hquery
    have hsince : since' = since := by
      rw [h.window turn.now] at hwindow
      exact (Except.ok.inj hwindow).symm
    rw [hsince] at hpage
    obtain ⟨hcut, hmore⟩ := h.page hpos hsequence hinside hpage
    have hstep : ActionLog.readPages (turn :: turns) params s =
        (if page.hasMore then do
          let pages ← ActionLog.readPages turns (follow params page)
            ((s.run turn.inside).run turn.after)
          .ok (pages.map fun pages => page :: pages)
        else .ok (some [page])) := by
      rw [ActionLog.readPages, hquery, ok_bind]
    by_cases hlast : page.hasMore = true
    · obtain ⟨tip, htip, hafter, hbefore⟩ := hpage.tip hlast
      have hmem : tip ∈ rows := by
        have htaken := List.mem_of_getLast? htip
        rw [hcut] at htaken
        exact (mem_rowsBehind.1 (List.mem_of_mem_take htaken)).1
      have hfollows : Follows params (follow params page) bound tip := by
        rw [← h.snapshot, ← hpage.snapshot]
        exact follows_follow (hids tip hmem).1 hafter hbefore
      have hcursor : cursorOf (follow params page) = some (orderKey ascending tip) := by
        rw [hfollows.cursor, h.ascending]
      rw [hcut] at htip
      have hbehind := rowsBehind_tip hrows htip
      have hnext := h.next hpos hbound (hids tip hmem).2 hfollows
        (hinside.trans (grows_run hinside.numbered turn.after))
      have hshort : (rowsBehind (orderKey ascending) (cursorOf (follow params page))
          rows).length < turns.length := by
        have hlong := hmore.1 hlast
        have hsize := (pageSizeOf_bounds params).1
        rw [hcursor, hbehind, List.length_drop]
        rw [List.length_cons] at hfuel
        omega
      obtain ⟨pages, hpages, hall⟩ := ih _ _ hnext hshort
      refine ⟨page :: pages, ?_, ?_⟩
      · rw [hstep, if_pos hlast, hpages, ok_bind]
        rfl
      · rw [List.flatMap_cons, hall, hcursor, hbehind, hcut, List.take_append_drop]
    · refine ⟨[page], ?_, ?_⟩
      · rw [hstep, if_neg hlast]
      · have hshort := mt hmore.2 hlast
        rw [List.flatMap_singleton, hcut, List.take_of_length_le (Nat.le_of_not_lt hshort)]

section
variable {params : Params} {since : Str} {s : System} {turns : Nat → Turn}
  (hnumbered : s.table.Numbered) (hoffset : parseIntParam (first params "offset") = 0)
  (hsince : ∀ now, parseWindow now (first params "since") = .ok since)
  (hsequence : snapshotOf params s.table ≤ s.table.sequence)
  (hids : s.table.sequence < 2 ^ 63)
include hnumbered hoffset hsince hsequence

end

end

/-! ## A reader and an event that comes in between -/

section

/-- ASCII text, searched by no filter. -/
@[reducible] def asciiQueryData : QueryData where
  toDigitData := asciiDigitData
  lower := List.map lowerAscii
  lower_ascii _ _ := rfl
  like _ _ := false
  jsonEach _ _ := false

attribute [local instance] zeroFloatData asciiWordData asciiUnicodeData asciiQueryData

/-- Nothing happens around the requests. -/
def quiet : Turn := ⟨⟨0, by decide⟩, [], []⟩

end

end IntegrityGuardian.ActionLog
