import IntegrityGuardian.TenantLog.Runs

/-!
# Pages of the tenant Action Log

Which pages a reader gets who keeps the first snapshot and follows the cursor, while the
log goes on growing.
-/

namespace IntegrityGuardian.TenantLog

open Python Library

section
variable [FloatData]

/-! ## Descending lists -/

/-- The id of a stored event. -/
def idOf (event : Value) : Int :=
  match event.get? (str "id") with
  | some (.int id) => id
  | _ => 0

/-- The ids descend. -/
def Descending (events : List Value) : Prop := events.Pairwise fun a b => idOf b < idOf a

variable {file : File} {events : List Value} {event : Value}

theorem filter_before {found : List Value} (h : Descending found) {n : Nat}
    (hevent : found[n]? = some event) :
    found.filter (fun e => decide (idOf e < idOf event)) = found.drop (n + 1) := by
  obtain ⟨hn, hget⟩ := List.getElem?_eq_some_iff.1 hevent
  have hpairs := List.pairwise_iff_getElem.1 h
  conv_lhs => rw [← List.take_append_drop (n + 1) found]
  rw [List.filter_append]
  have hfront : (found.take (n + 1)).filter (fun e => decide (idOf e < idOf event)) = [] := by
    rw [List.filter_eq_nil_iff]
    intro e he
    obtain ⟨i, hi, rfl⟩ := List.getElem_of_mem he
    rw [List.length_take] at hi
    rw [List.getElem_take, decide_eq_true_eq, not_lt, ← hget]
    rcases Nat.lt_or_ge i n with hlt | hge
    · exact (hpairs i n (by omega) hn hlt).le
    · have hsame : i = n := by omega
      subst hsame
      exact le_rfl
  have hback : (found.drop (n + 1)).filter (fun e => decide (idOf e < idOf event)) =
      found.drop (n + 1) := by
    rw [List.filter_eq_self]
    intro e he
    obtain ⟨i, hi, rfl⟩ := List.getElem_of_mem he
    rw [List.length_drop] at hi
    rw [List.getElem_drop, decide_eq_true_eq, ← hget]
    exact hpairs n (n + 1 + i) hn (by omega) (by omega)
  rw [hfront, hback, List.nil_append]

theorem Holds.id_eq (h : Holds file events)
    (hevent : event ∈ events) : event.get? (str "id") = some (.int (idOf event)) := by
  obtain ⟨i, hi⟩ := List.mem_iff_getElem?.1 hevent
  rw [idOf, h.ids i event hi]

theorem Holds.descending (h : Holds file events) : Descending events.reverse := by
  rw [Descending, List.pairwise_reverse, List.pairwise_iff_getElem]
  intro i j hi hj hij
  have hid := h.ids i events[i] (List.getElem?_eq_getElem hi)
  have hjd := h.ids j events[j] (List.getElem?_eq_getElem hj)
  simp only [idOf, hid, hjd]
  omega

theorem isBefore_some (h : event.get? (str "id") = some (.int (idOf event)))
    (b : Int) : isBefore (some b) event = decide (idOf event < b) := by
  simp only [isBefore, h]

variable [UnicodeData]

/-! ## One page -/

/-- The events a query finds below a bound, the last one first. -/
def foundBefore (events : List Value) (query : Str) (before : Option Int) : List Value :=
  (events.reverse.filter (isBefore before)).filter (searches query)

/-- The events a query finds, the last one first. -/
def allFound (events : List Value) (query : Str) : List Value :=
  events.reverse.filter (searches query)

theorem foundBefore_none (events : List Value) (query : Str) :
    foundBefore events query none = allFound events query := by
  have hall : isBefore none = fun _ : Value => true := by
    funext event
    rfl
  rw [foundBefore, hall, List.filter_true]
  rfl

variable {before : Option Int} {query : Str} {params : Value}

theorem foundBefore_next {file : File} {events : List Value} (h : Holds file events)
    {n : Nat} {event : Value} (hevent : (foundBefore events query before)[n]? = some event) :
    foundBefore events query (some (idOf event)) =
      (foundBefore events query before).drop (n + 1) := by
  have hsub : (foundBefore events query before).Sublist events.reverse :=
    (List.filter_sublist ..).trans (List.filter_sublist ..)
  have hdescending : Descending (foundBefore events query before) := h.descending.sublist hsub
  rw [← filter_before hdescending hevent]
  have hmem := List.mem_filter.1 (List.mem_filter.1 (List.mem_of_getElem? hevent)).1
  unfold foundBefore
  simp only [List.filter_filter]
  apply List.filter_congr
  intro e he
  have hid := h.id_eq (List.mem_reverse.1 he)
  have hidEvent := h.id_eq (List.mem_reverse.1 hmem.1)
  rw [isBefore_some hid]
  -- what comes before the last event of the page comes before the bound of the page
  have hbefore : idOf e < idOf event → isBefore before e = true := by
    intro hlt
    cases before with
    | none => rfl
    | some b =>
      have hbound := hmem.2
      rw [isBefore_some hidEvent, decide_eq_true_eq] at hbound
      rw [isBefore_some hid, decide_eq_true_eq]
      omega
  by_cases hlt : idOf e < idOf event
  · simp [hlt, hbefore hlt]
  · simp [hlt]

/-- The parameters of a request of a query, with the snapshot and the cursor it hands in. -/
def Asks (params : Value) (query : Str) (snapshot before : Option Int) : Prop :=
  params.get? (str "id") = none ∧ params.get? (str "q") = some (.str query) ∧
    params.get? (str "snapshot_event_id") = snapshot.map .int ∧
    params.get? (str "before_id") = before.map .int

omit [UnicodeData] in
theorem queryOf_eq_ok {found : Str}
    (hquery : params.get? (str "q") = some (.str query)) (h : queryOf params = .ok found) :
    found = query := by
  unfold queryOf at h
  rw [hquery] at h
  simp only [] at h
  split_ifs at h
  cases h
  rfl

omit [UnicodeData] in
theorem snapshotOf_eq_ok {snapshot : Option Int} {count : Nat} {n : Int}
    (hsnapshot : params.get? (str "snapshot_event_id") = snapshot.map .int)
    (h : snapshotOf params count = .ok n) : n = snapshot.getD count := by
  have hint : intOf (((params.get? (str "snapshot_event_id"))).getD (.int count)) =
      some (snapshot.getD count) := by
    rw [hsnapshot]
    cases snapshot with
    | none => rfl
    | some s => rfl
  unfold snapshotOf at h
  rw [hint] at h
  simp only [] at h
  split_ifs at h
  cases h
  rfl

omit [UnicodeData] in
theorem beforeOf_eq_ok {found : Option Int}
    (hbefore : params.get? (str "before_id") = before.map .int)
    (h : beforeOf params = .ok found) : found = before := by
  unfold beforeOf at h
  rw [hbefore] at h
  cases before with
  | none =>
    cases h
    rfl
  | some b =>
    simp only [Option.map_some, intOf] at h
    split_ifs at h
    cases h
    rfl

omit [UnicodeData] in
theorem limitOf_eq_ok {limit : Nat} (h : limitOf params = .ok limit) : 1 ≤ limit := by
  unfold limitOf at h
  split at h
  · split_ifs at h
    cases h
    omega
  · cases h

variable [LawfulFloatData]

variable {file : File} {events : List Value} {before snapshot : Option Int} {query : Str}

theorem requestJson_eq_page (h : Holds file events) {path : Str} {params : Value}
    (hasks : Asks params query snapshot before) {reply : RequestReply}
    (hreply : requestJson path params file = .ok reply) : ∃ limit, 1 ≤ limit ∧ reply =
      pageOf events query (snapshot.getD events.length) before limit := by
  obtain ⟨hid, hquery, hsnapshot, hbefore⟩ := hasks
  unfold requestJson at hreply
  obtain ⟨-, hreply⟩ := ensure_bind_eq_ok.1 hreply
  obtain ⟨found, hfound, hreply⟩ := bind_eq_ok.1 hreply
  rw [h.readUnlocked] at hfound
  cases hfound
  rw [hid] at hreply
  simp only [] at hreply
  unfold searchPage at hreply
  obtain ⟨q, hq, hreply⟩ := bind_eq_ok.1 hreply
  obtain ⟨n, hn, hreply⟩ := bind_eq_ok.1 hreply
  obtain ⟨b, hb, hreply⟩ := bind_eq_ok.1 hreply
  obtain ⟨limit, hlimit, hreply⟩ := bind_eq_ok.1 hreply
  cases hreply
  rw [queryOf_eq_ok hquery hq, snapshotOf_eq_ok hsnapshot hn, beforeOf_eq_ok hbefore hb]
  exact ⟨limit, limitOf_eq_ok hlimit, rfl⟩

/-! ## Following the cursor -/

/-- The pages a reader gets: every next request hands in the snapshot of the first one and the
cursor of the last one, at the same or a later file.  `done` tells whether the last page said
that there are no more. -/
inductive Follows (query : Str) : Option Int → Option Int → File → List (List Value) → Bool → Prop
  | last {file : File} {path : Str} {params : Value} {snapshot before : Option Int}
      {page : List Value} {taken : Int} (hasks : Asks params query snapshot before)
      (hreply : requestJson path params file = .ok (.page page taken false none)) :
      Follows query snapshot before file [page] true
  | stop {file : File} {path : Str} {params : Value} {snapshot before : Option Int}
      {page : List Value} {taken : Int} {next : Option Value}
      (hasks : Asks params query snapshot before)
      (hreply : requestJson path params file = .ok (.page page taken true next)) :
      Follows query snapshot before file [page] false
  | more {file file' : File} {path : Str} {params : Value} {snapshot before : Option Int}
      {page : List Value} {taken next : Int} {pages : List (List Value)} {done : Bool}
      (hasks : Asks params query snapshot before)
      (hreply : requestJson path params file = .ok (.page page taken true (some (.int next))))
      (hlater : Later file file') (h : Follows query (some taken) (some next) file' pages done) :
      Follows query snapshot before file (page :: pages) done

/-- What the pages of a snapshot add up to. -/
structure Covered (found : List Value) (pages : List (List Value)) (done : Bool) : Prop where
  isPrefix : pages.flatten <+: found
  complete : done = true → pages.flatten = found
  length_le : pages.length ≤ found.length + 1

omit [UnicodeData] [LawfulFloatData] in
theorem Covered.cons {found : List Value} {limit : Nat} (hlimit : 1 ≤ limit)
    (hmore : (found.take limit).length < found.length) {pages : List (List Value)} {done : Bool}
    (h : Covered (found.drop limit) pages done) :
    Covered found (found.take limit :: pages) done where
  isPrefix := by
    rw [List.flatten_cons]
    obtain ⟨rest, hrest⟩ := h.isPrefix
    exact ⟨rest, by rw [List.append_assoc, hrest, List.take_append_drop]⟩
  complete hdone := by
    rw [List.flatten_cons, h.complete hdone, List.take_append_drop]
  length_le := by
    have hrest := h.length_le
    rw [List.length_drop] at hrest
    rw [List.length_take] at hmore
    rw [List.length_cons]
    omega

omit [LawfulFloatData] in
theorem pageOf_snapshot (events more : List Value) (query : Str) (before : Option Int)
    (limit : Nat) :
    pageOf (events ++ more) query events.length before limit =
      .page ((foundBefore events query before).take limit) events.length
        (decide (((foundBefore events query before).take limit).length <
          (foundBefore events query before).length))
        (if decide (((foundBefore events query before).take limit).length <
            (foundBefore events query before).length) then
          ((foundBefore events query before).take limit).getLast?.bind fun event =>
            event.get? (str "id")
        else none) := by
  unfold pageOf foundBefore
  simp only [Int.toNat_natCast, List.take_left]

/-- The pages a reader follows cover what the snapshot holds below the cursor. -/
theorem Follows.covered {pages : List (List Value)} {done : Bool}
    (h : Follows query snapshot before file pages done) {first : File}
    (hfirst : Holds first events) {more : List Value} (hholds : Holds file (events ++ more))
    (hsnapshot : snapshot.getD ((events ++ more).length : Int) = events.length) :
    Covered (foundBefore events query before) pages done := by
  induction h generalizing more with
  | @last file path params snapshot before page taken hasks hreply =>
    obtain ⟨limit, hlimit, hpage⟩ := requestJson_eq_page hholds hasks hreply
    rw [hsnapshot, pageOf_snapshot] at hpage
    injection hpage with hpage htaken hmore _
    -- nothing is left, so the page is everything
    have hall : page = foundBefore events query before := by
      have hlength := of_decide_eq_false hmore.symm
      rw [hpage]
      apply List.take_of_length_le
      rw [List.length_take] at hlength
      omega
    rw [hall]
    exact ⟨by simp, by simp, by simp⟩
  | @stop file path params snapshot before page taken next hasks hreply =>
    obtain ⟨limit, hlimit, hpage⟩ := requestJson_eq_page hholds hasks hreply
    rw [hsnapshot, pageOf_snapshot] at hpage
    injection hpage with hpage htaken hmore _
    rw [hpage]
    exact ⟨by simpa using List.take_prefix _ _, by simp, by simp⟩
  | @more file file' path params snapshot before page taken next pages done hasks hreply hlater
      _ ih =>
    obtain ⟨limit, hlimit, hpage⟩ := requestJson_eq_page hholds hasks hreply
    rw [hsnapshot, pageOf_snapshot] at hpage
    injection hpage with hpage htaken hmore hnext
    obtain ⟨rest, hlaterHolds⟩ := hholds.later hlater
    rw [List.append_assoc] at hlaterHolds
    have hshort := of_decide_eq_true hmore.symm
    rw [← hmore, if_pos rfl] at hnext
    -- the cursor is the last event of the page
    have hlength := hshort
    rw [List.length_take] at hlength
    obtain ⟨event, hevent⟩ : ∃ event,
        (foundBefore events query before)[limit - 1]? = some event :=
      ⟨_, List.getElem?_eq_getElem (by omega)⟩
    have hgetLast : ((foundBefore events query before).take limit).getLast? = some event := by
      rw [List.getLast?_eq_getElem?, List.length_take, Nat.min_eq_left (by omega),
        List.getElem?_take_of_lt (by omega), hevent]
    have hmem : event ∈ events := by
      have hfound := List.mem_of_getElem? hevent
      exact List.mem_reverse.1 (List.mem_filter.1 (List.mem_filter.1 hfound).1).1
    rw [hgetLast, Option.bind_some, hfirst.id_eq hmem] at hnext
    have hcursor : next = idOf event := by
      injection hnext with hnext
      injection hnext
    have hrest := ih hlaterHolds (by rw [htaken]; rfl)
    rw [hcursor, foundBefore_next hfirst hevent, Nat.sub_add_cancel hlimit] at hrest
    rw [hpage]
    exact hrest.cons hlimit hshort

end

end IntegrityGuardian.TenantLog
