import IntegrityGuardian.Intents.Custody

/-!
# An intent is used once

Rows are never removed and their key is the tenant and the intent, so a
reservation succeeds once for each key; a row leaves `reserved` once, so one
consumption or abandonment succeeds for it.  Both are counted over the outcomes
of a run, whatever clients make the calls and whatever reservations they present.
-/

namespace IntegrityGuardian.Intents

open Python Library

/-! ## Lookups -/

theorem key_of_findRow {tenantId intentId : Str} {table : Table} {row : Row}
    (h : findRow tenantId intentId table = some row) :
    row ∈ table ∧ row.key = (tenantId, intentId) :=
  ⟨List.mem_of_find?_eq_some h, by simpa using List.find?_some h⟩

theorem fresh_of_findRow {tenantId intentId : Str} {table : Table}
    (h : findRow tenantId intentId table = none) :
    ∀ row ∈ table, row.key ≠ (tenantId, intentId) := by
  intro row hrow
  simpa using List.find?_eq_none.1 h row hrow

/-! ## What a transaction does -/

/-- The row `reserve` inserts. -/
def IntentReservation.row (reservation : IntentReservation) : Row where
  tenantId := reservation.tenantId
  intentId := reservation.intentId
  intentDigest := reservation.intentDigest
  holder := reservation.holder
  reservationId := reservation.reservationId
  status := .reserved
  reservedAt := reservation.reservedAt
  closedAt := none
  receiptJson := none

theorem insertReservation_eq_ok {reservation : IntentReservation} {table table' : Table}
    (h : insertReservation reservation table = .ok table') :
    table' = table ++ [reservation.row] ∧ ∀ row ∈ table, row.key ≠ reservation.row.key := by
  unfold insertReservation at h
  cases hfind : findRow reservation.tenantId reservation.intentId table with
  | some existing => simp [hfind] at h
  | none =>
    simp only [hfind] at h
    obtain ⟨-, h⟩ := ensure_bind_eq_ok.1 h
    cases h
    exact ⟨rfl, fresh_of_findRow hfind⟩

theorem checkedReservation_eq_ok {tenantId : Str} {reservation : IntentReservation}
    {table : Table} {row : Row} (h : checkedReservation tenantId reservation table = .ok row) :
    row ∈ table ∧ row.key = (tenantId, reservation.intentId) ∧
      row.reservationId = reservation.reservationId ∧
      row.intentDigest = reservation.intentDigest ∧ row.status = .reserved := by
  unfold checkedReservation at h
  cases hfind : findRow tenantId reservation.intentId table with
  | none => simp [hfind] at h
  | some found =>
    simp only [hfind] at h
    obtain ⟨hid, h⟩ := ensure_bind_eq_ok.1 h
    obtain ⟨hdigest, h⟩ := ensure_bind_eq_ok.1 h
    obtain ⟨hstatus, h⟩ := ensure_bind_eq_ok.1 h
    cases h
    obtain ⟨hmem, hkey⟩ := key_of_findRow hfind
    exact ⟨hmem, hkey, hid, hdigest, hstatus⟩

/-- Every key has one row. -/
def Keyed (table : Table) : Prop := (table.map Row.key).Nodup

theorem Keyed.eq_of_key_eq {table : Table} (h : Keyed table) {a b : Row} (ha : a ∈ table)
    (hb : b ∈ table) (hkey : a.key = b.key) : a = b :=
  List.inj_on_of_nodup_map h ha hb hkey

theorem findRow_eq_some {tenantId intentId : Str} {table : Table} {row : Row}
    (hkeyed : Keyed table) (hrow : row ∈ table) (hkey : row.key = (tenantId, intentId)) :
    findRow tenantId intentId table = some row := by
  cases hfind : findRow tenantId intentId table with
  | none => exact absurd hkey (fresh_of_findRow hfind row hrow)
  | some found =>
    obtain ⟨hmem, hfound⟩ := key_of_findRow hfind
    rw [hkeyed.eq_of_key_eq hmem hrow (hfound.trans hkey.symm)]

/-- A table in which one reserved row is closed and every other row is kept. -/
structure Closed (row : Row) (status : Status) (table table' : Table) : Prop where
  reserved : row.status = .reserved
  replaced : ∃ front back closedAt receiptJson, table = front ++ row :: back ∧
    table' = front ++ row.close status closedAt receiptJson :: back

theorem map_update_keyed {front back : Table} {row : Row} (hkeyed : Keyed (front ++ row :: back))
    (f : Row → Row) (p : Row → Bool) (hrow : p row = true)
    (hp : ∀ r, p r = true → r.key = row.key) :
    (front ++ row :: back).map (fun r => if p r then f r else r) = front ++ f row :: back := by
  have hkept : ∀ r, r ∈ front ∨ r ∈ back → p r = false := by
    intro r hr
    by_contra hpr
    have hkey := hp r (by simpa using hpr)
    simp only [Keyed, List.map_append, List.map_cons, List.nodup_append, List.nodup_cons] at hkeyed
    rcases hr with hr | hr
    · exact hkeyed.2.2 _ (List.mem_map_of_mem hr) _ List.mem_cons_self hkey
    · exact hkeyed.2.1.1 (hkey ▸ List.mem_map_of_mem hr)
  have hid : ∀ rows : Table, (∀ r ∈ rows, p r = false) →
      rows.map (fun r => if p r then f r else r) = rows := by
    intro rows hrows
    conv_rhs => rw [← List.map_id rows]
    apply List.map_congr_left
    intro r hr
    simp [hrows r hr]
  rw [List.map_append, List.map_cons, hid front fun r hr => hkept r (Or.inl hr),
    hid back fun r hr => hkept r (Or.inr hr), if_pos hrow]

theorem Closed.map_key {row : Row} {status : Status} {table table' : Table}
    (h : Closed row status table table') : table'.map Row.key = table.map Row.key := by
  obtain ⟨front, back, closedAt, receiptJson, rfl, rfl⟩ := h.replaced
  simp [Row.close, Row.key]

theorem readIntent_intentId {v : Json} {view : Intent} (h : readIntent v = .ok view) :
    v.textItem (str "intent_id") = .ok view.intentId := by
  unfold readIntent at h
  obtain ⟨intentId, hintentId, h⟩ := bind_eq_ok.1 h
  iterate 14 obtain ⟨_, _, h⟩ := bind_eq_ok.1 h
  cases h
  exact hintentId

/-! ## The life of a row -/

/-- A row later in the same run. -/
structure Continues (row row' : Row) : Prop where
  key : row'.key = row.key
  intentDigest : row'.intentDigest = row.intentDigest
  holder : row'.holder = row.holder
  reservationId : row'.reservationId = row.reservationId
  status : row' = row ∨
    row.status = .reserved ∧ (row'.status = .consumed ∨ row'.status = .abandoned)

theorem Continues.refl (row : Row) : Continues row row := ⟨rfl, rfl, rfl, rfl, Or.inl rfl⟩

theorem Continues.trans {a b c : Row} (hab : Continues a b) (hbc : Continues b c) :
    Continues a c where
  key := hbc.key.trans hab.key
  intentDigest := hbc.intentDigest.trans hab.intentDigest
  holder := hbc.holder.trans hab.holder
  reservationId := hbc.reservationId.trans hab.reservationId
  status := by
    rcases hbc.status with rfl | ⟨hb, hc⟩
    · exact hab.status
    · rcases hab.status with rfl | ⟨ha, hb'⟩
      · exact Or.inr ⟨hb, hc⟩
      · simp [hb] at hb'

theorem Closed.continued {row r : Row} {status : Status} {table table' : Table}
    (h : Closed row status table table') (hstatus : status = .consumed ∨ status = .abandoned)
    (hr : r ∈ table) : ∃ r' ∈ table', Continues r r' := by
  obtain ⟨front, back, closedAt, receiptJson, rfl, rfl⟩ := h.replaced
  by_cases hrow : r = row
  · refine ⟨row.close status closedAt receiptJson, by simp, ?_⟩
    rw [hrow]
    exact ⟨rfl, rfl, rfl, rfl, Or.inr ⟨h.reserved, hstatus⟩⟩
  · refine ⟨r, ?_, Continues.refl r⟩
    simp only [List.mem_append, List.mem_cons, hrow, false_or] at hr ⊢
    exact hr.imp_right Or.inr

theorem Closed.continuing {row r' : Row} {status : Status} {table table' : Table}
    (h : Closed row status table table') (hstatus : status = .consumed ∨ status = .abandoned)
    (hr' : r' ∈ table') : ∃ r ∈ table, Continues r r' := by
  obtain ⟨front, back, closedAt, receiptJson, rfl, rfl⟩ := h.replaced
  by_cases hrow : r' = row.close status closedAt receiptJson
  · refine ⟨row, by simp, ?_⟩
    rw [hrow]
    exact ⟨rfl, rfl, rfl, rfl, Or.inr ⟨h.reserved, hstatus⟩⟩
  · refine ⟨r', ?_, Continues.refl r'⟩
    simp only [List.mem_append, List.mem_cons, hrow, false_or] at hr' ⊢
    exact hr'.imp_right Or.inr

/-! ## Rows and closed rows of an intent -/

/-- The number of rows of an intent. -/
def held (tenantId intentId : Str) (table : Table) : Nat :=
  table.countP fun row => row.key = (tenantId, intentId)

/-- The number of its rows that are closed. -/
def spent (tenantId intentId : Str) (table : Table) : Nat :=
  table.countP fun row => row.key = (tenantId, intentId) ∧ row.status ≠ .reserved

theorem held_le_one {table : Table} (hkeyed : Keyed table) (tenantId intentId : Str) :
    held tenantId intentId table ≤ 1 := by
  have hcount := List.nodup_iff_count_le_one.1 hkeyed (tenantId, intentId)
  rw [List.count, List.countP_map] at hcount
  have hfun : held tenantId intentId table =
      table.countP ((fun k => k == (tenantId, intentId)) ∘ Row.key) := by
    apply List.countP_congr
    simp
  omega

theorem spent_le_held (tenantId intentId : Str) (table : Table) :
    spent tenantId intentId table ≤ held tenantId intentId table := by
  apply List.countP_mono_left
  intro row hrow h
  simp only [decide_eq_true_eq] at h ⊢
  exact h.1

theorem Closed.spent {row : Row} {status : Status} {table table' : Table}
    (h : Closed row status table table') (hstatus : status ≠ .reserved)
    (tenantId intentId : Str) :
    spent tenantId intentId table' = spent tenantId intentId table +
      if row.key = (tenantId, intentId) then 1 else 0 := by
  obtain ⟨front, back, closedAt, receiptJson, rfl, rfl⟩ := h.replaced
  have hkey : (row.close status closedAt receiptJson).key = row.key := rfl
  have hopen : (row.close status closedAt receiptJson).status = status := rfl
  simp only [Intents.spent, List.countP_append, List.countP_cons, hkey, hopen, h.reserved]
  simp [hstatus]
  omega

section
variable [UnicodeData] [Ed25519]

theorem close_eq_ok {client : Client} {reservation : IntentReservation} {status : Status}
    {closedAt : Str} {receipt : Row → Json} {table table' : Table} {document : Json}
    (hkeyed : Keyed table)
    (h : client.close reservation status closedAt receipt table = .ok (document, table')) :
    ∃ row, Closed row status table table' ∧ row.key = (client.tenantId, reservation.intentId) ∧
      row.intentDigest = reservation.intentDigest ∧
      client.seal (receipt row) = .ok document := by
  unfold Client.close raising at h
  obtain ⟨row, hchecked, h⟩ := bind_eq_ok.1 h
  obtain ⟨sealed, hsealed, h⟩ := bind_eq_ok.1 h
  obtain ⟨closed, hclosed, h⟩ := bind_eq_ok.1 h
  cases h
  rw [mapError_eq_ok] at hsealed
  obtain ⟨hmem, hkey, hid, hdigest, hstatus⟩ := checkedReservation_eq_ok hchecked
  unfold closeRow at hclosed
  obtain ⟨receiptJson, -, hclosed⟩ := bind_eq_ok.1 hclosed
  obtain ⟨-, hclosed⟩ := ensure_bind_eq_ok.1 hclosed
  cases hclosed
  obtain ⟨front, back, rfl⟩ := List.append_of_mem hmem
  refine ⟨row, ⟨hstatus, front, back, closedAt, receiptJson, rfl, ?_⟩, hkey, hdigest, hsealed⟩
  apply map_update_keyed hkeyed
  · simp [isOpen, hkey, hid, hstatus]
  · intro r hr
    simp only [isOpen, decide_eq_true_eq] at hr
    rw [hr.1, hkey]

theorem prepare_eq_ok {client : Client} {intent : Json} {holder : Str} {now : Option Datetime}
    {clock : Instant} {reservation : IntentReservation}
    (h : client.prepare intent holder now clock = .ok reservation) :
    reservation.tenantId = client.tenantId ∧
      intent.textItem (str "intent_id") = .ok reservation.intentId ∧
      intentDigest intent = .ok reservation.intentDigest := by
  unfold Client.prepare raising at h
  obtain ⟨-, h⟩ := ensure_bind_eq_ok.1 h
  obtain ⟨_, _, h⟩ := bind_eq_ok.1 h
  obtain ⟨view, hview, h⟩ := bind_eq_ok.1 h
  obtain ⟨-, h⟩ := ensure_bind_eq_ok.1 h
  obtain ⟨_, _, h⟩ := bind_eq_ok.1 h
  obtain ⟨_, _, h⟩ := bind_eq_ok.1 h
  obtain ⟨-, h⟩ := ensure_bind_eq_ok.1 h
  obtain ⟨_, _, h⟩ := bind_eq_ok.1 h
  obtain ⟨-, h⟩ := ensure_bind_eq_ok.1 h
  obtain ⟨digest, hdigest, h⟩ := bind_eq_ok.1 h
  obtain ⟨_, _, h⟩ := bind_eq_ok.1 h
  cases h
  rw [mapError_eq_ok] at hview hdigest
  exact ⟨rfl, readIntent_intentId hview, hdigest⟩

/-! ## One call -/

/-- What a call that returned has done. -/
inductive Committed : Call → Reply → Table → Table → Prop where
  | reserve {client : Client} {intent : Document} {holder : Str} {now : Option Datetime}
      {clock : Instant} {reservation : IntentReservation} {table : Table}
      (prepared : client.prepare intent.value holder now clock = .ok reservation)
      (fresh : ∀ row ∈ table, row.key ≠ reservation.row.key) :
      Committed ⟨client, .reserve intent holder now clock⟩ (.reservation reservation) table
        (table ++ [reservation.row])
  | consume {client : Client} {reservation : IntentReservation} {intent : Document}
      {observed : List ObservedDelta} {now : Option Datetime} {clock : Instant} {closedAt : Str}
      {results : List Json} {row : Row} {document : Json} {table table' : Table}
      (classified : client.classify reservation intent.value observed now clock =
        .ok (closedAt, results))
      (closed : Closed row .consumed table table')
      (key : row.key = (client.tenantId, reservation.intentId))
      (digest : row.intentDigest = reservation.intentDigest)
      (isSealed : client.seal
        (consumedReceipt client.tenantId reservation closedAt observed results row) =
          .ok document) :
      Committed ⟨client, .consume reservation intent observed now clock⟩ (.receipt document) table
        table'
  | abandon {client : Client} {reservation : IntentReservation} {reason : Str}
      {now : Option Datetime} {clock : Instant} {row : Row} {document : Json}
      {table table' : Table} (closed : Closed row .abandoned table table')
      (key : row.key = (client.tenantId, reservation.intentId)) :
      Committed ⟨client, .abandon reservation reason now clock⟩ (.receipt document) table table'

theorem committed_of_exec {call : Call} {reply : Reply} {table table' : Table}
    (hkeyed : Keyed table) (h : exec call table = .ok (reply, table')) :
    Committed call reply table table' := by
  obtain ⟨client, operation⟩ := call
  cases operation with
  | reserve intent holder now clock =>
    obtain ⟨⟨reservation, inserted⟩, hreserve, h⟩ := bind_eq_ok.1 h
    cases h
    unfold Client.reserve at hreserve
    obtain ⟨prepared, hprepared, hreserve⟩ := bind_eq_ok.1 hreserve
    obtain ⟨next, hinsert, hreserve⟩ := bind_eq_ok.1 hreserve
    cases hreserve
    obtain ⟨rfl, hfresh⟩ := insertReservation_eq_ok hinsert
    exact .reserve hprepared hfresh
  | consume reservation intent observed now clock =>
    obtain ⟨⟨document, next⟩, hconsume, h⟩ := bind_eq_ok.1 h
    cases h
    unfold Client.consume at hconsume
    obtain ⟨⟨closedAt, results⟩, hclassified, hclose⟩ := bind_eq_ok.1 hconsume
    obtain ⟨row, hclosed, hkey, hdigest, hsealed⟩ := close_eq_ok hkeyed hclose
    exact .consume hclassified hclosed hkey hdigest hsealed
  | abandon reservation reason now clock =>
    obtain ⟨⟨document, next⟩, habandon, h⟩ := bind_eq_ok.1 h
    cases h
    unfold Client.abandon at habandon
    obtain ⟨-, habandon⟩ := ensure_bind_eq_ok.1 habandon
    obtain ⟨current, -, hclose⟩ := bind_eq_ok.1 habandon
    obtain ⟨row, hclosed, hkey, -, -⟩ := close_eq_ok hkeyed hclose
    exact .abandon hclosed hkey

theorem keyed_step {call : Call} {reply : Reply} {table table' : Table} (hkeyed : Keyed table)
    (h : exec call table = .ok (reply, table')) : Keyed table' := by
  cases committed_of_exec hkeyed h with
  | reserve prepared fresh =>
    simp only [Keyed, List.map_append, List.map_cons, List.map_nil]
    apply List.Nodup.append hkeyed (List.nodup_singleton _)
    simpa [List.disjoint_singleton] using fresh
  | consume classified closed key digest isSealed =>
    rw [Keyed, closed.map_key]
    exact hkeyed
  | abandon closed key =>
    rw [Keyed, closed.map_key]
    exact hkeyed

theorem reached_keyed (calls : List Call) : Keyed (reached calls) :=
  @run_invariant _ _ _ _ exec Keyed (fun _ _ _ _ => keyed_step) [] List.nodup_nil calls

/-- Every row lives on. -/
def Persists (table table' : Table) : Prop := ∀ row ∈ table, ∃ row' ∈ table', Continues row row'

theorem persists_step {call : Call} {reply : Reply} {table table' : Table} (hkeyed : Keyed table)
    (h : exec call table = .ok (reply, table')) : Persists table table' := by
  intro row hrow
  cases committed_of_exec hkeyed h with
  | reserve prepared fresh => exact ⟨row, List.mem_append_left _ hrow, Continues.refl row⟩
  | consume classified closed key digest isSealed => exact closed.continued (Or.inl rfl) hrow
  | abandon closed key => exact closed.continued (Or.inr rfl) hrow

theorem persists_run {table : Table} (hkeyed : Keyed table) (calls : List Call) :
    Persists table (run exec table calls) := by
  apply run_relates _ _ _ hkeyed
  · exact fun table row hrow => ⟨row, hrow, Continues.refl row⟩
  · intro a b c hab hbc row hrow
    obtain ⟨row', hrow', hcont⟩ := hab row hrow
    obtain ⟨row'', hrow'', hcont'⟩ := hbc row' hrow'
    exact ⟨row'', hrow'', hcont.trans hcont'⟩
  · exact fun table call reply table' hk h => ⟨keyed_step hk h, persists_step hk h⟩

/-- Every row was reserved by a call before it. -/
def Reserved (past : List (Call × Except Error Reply)) (table : Table) : Prop :=
  ∀ row ∈ table, ∃ call reservation, (call, .ok (.reservation reservation)) ∈ past ∧
    Continues reservation.row row

omit [UnicodeData] in
theorem Reserved.later {past : List (Call × Except Error Reply)} {table table' : Table}
    (h : Reserved past table) (entry : Call × Except Error Reply)
    (hrows : ∀ row' ∈ table', ∃ row ∈ table, Continues row row') :
    Reserved (past ++ [entry]) table' := by
  intro row' hrow'
  obtain ⟨row, hrow, hcont⟩ := hrows row' hrow'
  obtain ⟨call, reservation, hmem, hfirst⟩ := h row hrow
  exact ⟨call, reservation, List.mem_append_left _ hmem, hfirst.trans hcont⟩

theorem reserved_step {past : List (Call × Except Error Reply)} {call : Call} {reply : Reply}
    {table table' : Table} (hkeyed : Keyed table) (hreserved : Reserved past table)
    (h : exec call table = .ok (reply, table')) :
    Reserved (past ++ [(call, .ok reply)]) table' := by
  cases committed_of_exec hkeyed h with
  | reserve prepared fresh =>
    intro row hrow
    rcases List.mem_append.1 hrow with hold | hnew
    · exact hreserved.later _ (fun r hr => ⟨r, hr, Continues.refl r⟩) row hold
    · rw [List.mem_singleton.1 hnew]
      exact ⟨_, _, List.mem_append_right _ (List.mem_singleton_self _), Continues.refl _⟩
  | consume classified closed key digest isSealed =>
    exact hreserved.later _ fun r hr => closed.continuing (Or.inl rfl) hr
  | abandon closed key =>
    exact hreserved.later _ fun r hr => closed.continuing (Or.inr rfl) hr

theorem reached_reserved (calls : List Call) : Reserved (outcomes calls) (reached calls) := by
  have h := @run_trace_invariant _ _ _ _ exec (fun past table => Keyed table ∧ Reserved past table)
    (fun past table call reply table' hI h => ⟨keyed_step hI.1 h, reserved_step hI.1 hI.2 h⟩)
    (fun past table call e hI h =>
      ⟨hI.1, hI.2.later _ fun row hrow => ⟨row, hrow, Continues.refl row⟩⟩)
    [] [] ⟨List.nodup_nil, fun row hrow => by cases hrow⟩ calls
  exact h.2

/-! ## Counting -/

/-- A reservation of the intent that was granted. -/
def reserves (tenantId intentId : Str) : Call × Except Error Reply → Bool
  | (call, .ok (.reservation reservation)) =>
    call.client.tenantId = tenantId ∧ reservation.intentId = intentId
  | _ => false

/-- A consumption or abandonment that was granted, whatever reservation it presents. -/
def closes (tenantId intentId : Str) : Call × Except Error Reply → Bool
  | (⟨client, .consume reservation _ _ _ _⟩, .ok _) =>
    client.tenantId = tenantId ∧ reservation.intentId = intentId
  | (⟨client, .abandon reservation _ _ _⟩, .ok _) =>
    client.tenantId = tenantId ∧ reservation.intentId = intentId
  | _ => false

theorem held_step {call : Call} {reply : Reply} {table table' : Table} (hkeyed : Keyed table)
    (h : exec call table = .ok (reply, table')) (tenantId intentId : Str) :
    held tenantId intentId table' = held tenantId intentId table +
      if reserves tenantId intentId (call, .ok reply) then 1 else 0 := by
  have hkeys : ∀ t : Table, held tenantId intentId t =
      (t.map Row.key).countP fun k => k = (tenantId, intentId) := by
    intro t
    rw [held, List.countP_map]
    rfl
  cases committed_of_exec hkeyed h with
  | reserve prepared fresh =>
    obtain ⟨htenant, -, -⟩ := prepare_eq_ok prepared
    simp [hkeys, reserves, IntentReservation.row, Row.key, htenant, List.countP_cons]
  | consume classified closed key digest isSealed =>
    simp [hkeys, closed.map_key, reserves]
  | abandon closed key =>
    simp [hkeys, closed.map_key, reserves]

theorem spent_step {call : Call} {reply : Reply} {table table' : Table} (hkeyed : Keyed table)
    (h : exec call table = .ok (reply, table')) (tenantId intentId : Str) :
    spent tenantId intentId table' = spent tenantId intentId table +
      if closes tenantId intentId (call, .ok reply) then 1 else 0 := by
  cases committed_of_exec hkeyed h with
  | reserve prepared fresh => simp [spent, closes, IntentReservation.row]
  | consume classified closed key digest isSealed =>
    rw [closed.spent (by decide), key]
    simp [closes]
  | abandon closed key =>
    rw [closed.spent (by decide), key]
    simp [closes]

theorem countP_reserves_le_one (calls : List Call) (tenantId intentId : Str) :
    (outcomes calls).countP (reserves tenantId intentId) ≤ 1 := by
  have hcount := @countP_trace _ _ _ _ exec Keyed (held tenantId intentId)
    (reserves tenantId intentId)
    (fun table call reply table' hk h => ⟨keyed_step hk h, held_step hk h tenantId intentId⟩)
    (fun _ _ => rfl) [] List.nodup_nil calls
  have hle := held_le_one (reached_keyed calls) tenantId intentId
  rw [reached, ← hcount] at hle
  exact (Nat.le_add_left _ _).trans hle

theorem countP_closes_le_one (calls : List Call) (tenantId intentId : Str) :
    (outcomes calls).countP (closes tenantId intentId) ≤ 1 := by
  have herror : ∀ (call : Call) (e : Error), closes tenantId intentId (call, .error e) = false := by
    rintro ⟨client, operation⟩ e
    cases operation <;> rfl
  have hcount := @countP_trace _ _ _ _ exec Keyed (spent tenantId intentId)
    (closes tenantId intentId)
    (fun table call reply table' hk h => ⟨keyed_step hk h, spent_step hk h tenantId intentId⟩)
    herror [] List.nodup_nil calls
  have hle := (spent_le_held tenantId intentId _).trans
    (held_le_one (reached_keyed calls) tenantId intentId)
  rw [reached, ← hcount] at hle
  exact (Nat.le_add_left _ _).trans hle

/-! ## The intent a consumption classifies -/

theorem classify_eq_ok {client : Client} {reservation : IntentReservation} {intent : Json}
    {observed : List ObservedDelta} {now : Option Datetime} {clock : Instant} {closedAt : Str}
    {results : List Json}
    (h : client.classify reservation intent observed now clock = .ok (closedAt, results)) :
    intentDigest intent = .ok reservation.intentDigest ∧
      reconcile (some intent) observed (some client.authorityKey) = .ok results := by
  unfold Client.classify raising at h
  obtain ⟨_, _, h⟩ := bind_eq_ok.1 h
  obtain ⟨digest, hdigest, h⟩ := bind_eq_ok.1 h
  obtain ⟨hreserved, h⟩ := ensure_bind_eq_ok.1 h
  obtain ⟨entries, hentries, h⟩ := bind_eq_ok.1 h
  obtain ⟨current, _, h⟩ := bind_eq_ok.1 h
  have hresults : entries = results := (Prod.mk.inj (Except.ok.inj h)).2
  rw [mapError_eq_ok] at hdigest
  exact ⟨hreserved ▸ hdigest, hresults ▸ hentries⟩

/-- The document an operation presents. -/
def Operation.intent? : Operation → Option Document
  | .reserve intent _ _ _ => some intent
  | .consume _ intent _ _ _ => some intent
  | .abandon _ _ _ _ => none

/-- The messages `intent_digest` hashes in a run. -/
def custodyFrames (calls : List Call) : Set Bytes :=
  {m | ∃ call ∈ calls, ∃ intent b, call.operation.intent? = some intent ∧
    canonicalBytes intent.value = .ok b ∧
    m = digestPrefix (str "change-intent-custody-v1") ++ b}

theorem sortKeys_eq_of_intentDigest {calls : List Call}
    (hsha : Set.InjOn sha256 (custodyFrames calls)) {a b : Call} (ha : a ∈ calls) (hb : b ∈ calls)
    {v w : Document} (hv : a.operation.intent? = some v) (hw : b.operation.intent? = some w)
    {digest : Str} (hvdigest : intentDigest v.value = .ok digest)
    (hwdigest : intentDigest w.value = .ok digest) : v.value.sortKeys = w.value.sortKeys := by
  obtain ⟨x, hx, hdx⟩ := digestObject_eq_ok hvdigest
  obtain ⟨y, hy, hdy⟩ := digestObject_eq_ok hwdigest
  have hhash := sha256Digest_inj (hdx.symm.trans hdy)
  have hframe := hsha ⟨a, ha, v, x, hv, hx, rfl⟩ ⟨b, hb, w, y, hw, hy, rfl⟩ hhash
  obtain rfl := List.append_cancel_left hframe
  exact sortKeys_eq_of_canonicalBytes_eq v.wf w.wf hx hy

theorem reservation_of_mem {calls : List Call} {row : Row} (hrow : row ∈ reached calls) :
    ∃ client intent holder now clock reservation,
      (⟨client, .reserve intent holder now clock⟩, .ok (.reservation reservation)) ∈
        outcomes calls ∧
      Continues reservation.row row ∧ reservation.tenantId = client.tenantId ∧
      intent.value.textItem (str "intent_id") = .ok reservation.intentId ∧
      intentDigest intent.value = .ok reservation.intentDigest := by
  obtain ⟨call, reservation, hmem, hcont⟩ := reached_reserved calls row hrow
  obtain ⟨before, table', rest, -, h⟩ := mem_trace hmem
  cases committed_of_exec (reached_keyed before) h with
  | reserve prepared fresh =>
    obtain ⟨htenant, hid, hdigest⟩ := prepare_eq_ok prepared
    exact ⟨_, _, _, _, _, reservation, hmem, hcont, htenant, hid, hdigest⟩

theorem status_of_new {call : Call} {table : Table} {row : Row} (hkeyed : Keyed table)
    (hrow : row ∈ after exec table call) (hnew : ∀ r ∈ table, r.key ≠ row.key) :
    row.status = .reserved := by
  rcases after_cases exec table call with ⟨reply, h⟩ | ⟨-, h⟩
  · generalize after exec table call = next at h hrow
    cases committed_of_exec hkeyed h with
    | reserve prepared fresh =>
      rcases List.mem_append.1 hrow with hold | hlast
      · exact absurd rfl (hnew row hold)
      · rw [List.mem_singleton.1 hlast]
        rfl
    | consume classified closed key digest isSealed =>
      obtain ⟨r, hr, hcont⟩ := closed.continuing (Or.inl rfl) hrow
      exact absurd hcont.key.symm (hnew r hr)
    | abandon closed key =>
      obtain ⟨r, hr, hcont⟩ := closed.continuing (Or.inr rfl) hrow
      exact absurd hcont.key.symm (hnew r hr)
  · rw [h] at hrow
    exact absurd rfl (hnew row hrow)

theorem consumption_classifies {calls before rest : List Call} {client : Client}
    {reservation : IntentReservation} {intent : Document} {observed : List ObservedDelta}
    {now : Option Datetime} {clock : Instant} {document : Json} {table' : Table}
    (hsha : Set.InjOn sha256 (custodyFrames calls))
    (hcalls : calls = before ++ ⟨client, .consume reservation intent observed now clock⟩ :: rest)
    (h : exec ⟨client, .consume reservation intent observed now clock⟩ (reached before) =
      .ok (.receipt document, table')) :
    ∃ reserver reserved holder now' clock' granted closedAt results row,
      (⟨reserver, .reserve reserved holder now' clock'⟩, .ok (.reservation granted)) ∈
        outcomes before ∧
      reserver.tenantId = client.tenantId ∧ granted.intentId = reservation.intentId ∧
      granted.intentDigest = reservation.intentDigest ∧
      intent.value.sortKeys = reserved.value.sortKeys ∧
      reconcile (some intent.value) observed (some client.authorityKey) = .ok results ∧
      client.seal (consumedReceipt client.tenantId reservation closedAt observed results row) =
        .ok document := by
  cases committed_of_exec (reached_keyed before) h with
  | consume classified closed key digest isSealed =>
    obtain ⟨front, back, -, -, hsplit, -⟩ := closed.replaced
    obtain ⟨hdigest, hresults⟩ := classify_eq_ok classified
    obtain ⟨reserver, reserved, holder, now', clock', granted, hmem, hcont, htenant, -,
      hgranted⟩ := reservation_of_mem (hsplit ▸ List.mem_append_right _ List.mem_cons_self)
    have hkey := hcont.key.symm.trans key
    obtain ⟨past, -, future, hpast, -⟩ := mem_trace hmem
    have hdigests : granted.intentDigest = reservation.intentDigest :=
      hcont.intentDigest.symm.trans digest
    refine ⟨reserver, reserved, holder, now', clock', granted, _, _, _, hmem,
      htenant.symm.trans (congrArg Prod.fst hkey), congrArg Prod.snd hkey, hdigests, ?_,
      hresults, isSealed⟩
    have hconsumes : ⟨client, .consume reservation intent observed now clock⟩ ∈ calls := by
      simp [hcalls]
    have hreserves : ⟨reserver, .reserve reserved holder now' clock'⟩ ∈ calls := by
      simp [hcalls, hpast]
    exact sortKeys_eq_of_intentDigest hsha hconsumes hreserves rfl rfl hdigest
      (hdigests ▸ hgranted)

/-- One use: whatever clients call, in whatever order and with whatever
reservations, an intent is reserved at most once and closed at most once, its row
only ever closes, and a consumption classifies the intent that was reserved. -/
theorem one_use_custody (calls : List Call) (tenantId intentId : Str)
    (hsha : Set.InjOn sha256 (custodyFrames calls)) :
    (outcomes calls).countP (reserves tenantId intentId) ≤ 1 ∧
    (outcomes calls).countP (closes tenantId intentId) ≤ 1 ∧
    (∀ before rest row, calls = before ++ rest →
      findRow tenantId intentId (reached before) = some row →
      ∃ row', findRow tenantId intentId (reached calls) = some row' ∧ Continues row row') ∧
    (∀ before call rest row, calls = before ++ call :: rest →
      findRow tenantId intentId (reached before) = none →
      findRow tenantId intentId (reached (before ++ [call])) = some row →
      row.status = .reserved) ∧
    (∀ before rest client reservation intent observed now clock document table',
      calls = before ++ ⟨client, .consume reservation intent observed now clock⟩ :: rest →
      exec ⟨client, .consume reservation intent observed now clock⟩ (reached before) =
        .ok (.receipt document, table') →
      ∃ reserver reserved holder now' clock' granted closedAt results row,
        (⟨reserver, .reserve reserved holder now' clock'⟩, .ok (.reservation granted)) ∈
          outcomes before ∧
        reserver.tenantId = client.tenantId ∧ granted.intentId = reservation.intentId ∧
        granted.intentDigest = reservation.intentDigest ∧
        intent.value.sortKeys = reserved.value.sortKeys ∧
        reconcile (some intent.value) observed (some client.authorityKey) = .ok results ∧
        client.seal (consumedReceipt client.tenantId reservation closedAt observed results row) =
          .ok document) := by
  refine ⟨countP_reserves_le_one calls tenantId intentId,
    countP_closes_le_one calls tenantId intentId, ?_, ?_, ?_⟩
  · rintro before rest row rfl hfind
    obtain ⟨hmem, hkey⟩ := key_of_findRow hfind
    obtain ⟨row', hmem', hcont⟩ := persists_run (reached_keyed before) rest row hmem
    have hreached : row' ∈ reached (before ++ rest) := by
      rw [reached, run_append]
      exact hmem'
    exact ⟨row', findRow_eq_some (reached_keyed _) hreached (hcont.key.trans hkey), hcont⟩
  · rintro before call rest row rfl hnone hfind
    obtain ⟨hmem, hkey⟩ := key_of_findRow hfind
    rw [reached, run_append] at hmem
    apply status_of_new (reached_keyed before) hmem
    intro r hr
    rw [hkey]
    exact fresh_of_findRow hnone r hr
  · intro before rest client reservation intent observed now clock document table' hcalls h
    exact consumption_classifies hsha hcalls h

end

/-! ## A run of three calls -/

namespace Sample

def intentSignature : Bytes :=
  [1, 191, 42, 238, 35, 226, 89, 152, 147, 50, 148, 223, 129, 81, 126, 18, 101, 202, 221, 26,
    142, 248, 176, 206, 188, 241, 200, 62, 0, 206, 36, 80, 117, 36, 4, 15, 34, 65, 6, 69, 118,
    241, 192, 63, 110, 139, 209, 106, 213, 152, 136, 241, 2, 208, 149, 33, 238, 206, 30, 54,
    135, 44, 180, 4]

def intentHash : Bytes :=
  [18, 75, 212, 199, 2, 51, 156, 46, 128, 31, 49, 57, 140, 76, 214, 135, 197, 194, 213, 94, 100,
    158, 13, 2, 243, 118, 159, 170, 89, 126, 97, 246]

def reservationHash : Bytes :=
  [197, 177, 18, 202, 192, 181, 162, 183, 8, 245, 177, 122, 220, 255, 174, 67, 142, 51, 210, 223,
    107, 206, 67, 209, 160, 148, 93, 235, 45, 39, 64, 211]

/-- Ed25519 on the sample intent: the authority's key accepts its signature. -/
@[reducible] def ed25519 : Ed25519 where
  PrivateKey := Empty
  PublicKey := Unit
  sign key := nomatch key
  verify _ signature _ := signature == intentSignature

attribute [local instance] asciiUnicodeData ed25519

def client : Client := ⟨str "t", by decide, ⟨str "k", ()⟩, none⟩

def intent : Json := .obj [
  (str "protocol", .str (str "integrity-guardian/change-intent/v1")),
  (str "intent_id", .str (str "i")),
  (str "tenant_id", .str (str "t")),
  (str "actor", .obj [(str "actor_id", .str (str "a")), (str "kind", .str (str "human"))]),
  (str "target", .obj [(str "node_id", .str (str "n"))]),
  (str "scope", .obj [
    (str "selectors", .arr [.str (str "s")]),
    (str "operations", .arr [.str (str "create")])]),
  (str "expected_changes", .arr [.obj [
    (str "selector", .str (str "s")),
    (str "operation", .str (str "create")),
    (str "before_digest", .null),
    (str "after_digest", .null)]]),
  (str "created_at", .str (str "2026-01-01T00:00:00Z")),
  (str "valid_from", .str (str "2026-01-01T00:00:00Z")),
  (str "valid_until", .str (str "2026-01-02T00:00:00Z")),
  (str "authorization", .obj [
    (str "authority_id", .str (str "a")),
    (str "decision", .str (str "approved")),
    (str "signature", signatureObject (str "k") (base64url intentSignature))])]

def document : Document := ⟨intent, by decide +kernel⟩

/-- Noon of 1 January 2026. -/
def noon : Instant := 63902865600000000

def reservation : IntentReservation where
  tenantId := str "t"
  intentId := str "i"
  intentDigest := str "sha256:" ++ hex intentHash
  holder := str "h"
  reservationId := str "reservation:sha256:" ++ hex reservationHash
  reservedAt := Instant.render noon

def reserveCall : Call := ⟨client, .reserve document (str "h") none noon⟩

def consumeCall : Call := ⟨client, .consume reservation document [] none noon⟩

def abandonCall : Call := ⟨client, .abandon reservation (str "r") none noon⟩

def calls : List Call := [reserveCall, consumeCall, abandonCall]

theorem evaluated :
    findRow (str "t") (str "i") (reached [reserveCall]) = some reservation.row ∧
    (findRow (str "t") (str "i") (reached calls)).map Row.status = some .consumed := by
  decide +kernel

theorem custodyFrames_injOn : Set.InjOn sha256 (custodyFrames calls) := by
  have hsame : ∀ m ∈ custodyFrames calls, ∃ b, canonicalBytes intent = .ok b ∧
      m = digestPrefix (str "change-intent-custody-v1") ++ b := by
    rintro m ⟨call, hcall, presented, b, hpresented, hb, rfl⟩
    have hdocument : presented = document := by
      simp only [calls, List.mem_cons, List.not_mem_nil, or_false] at hcall
      rcases hcall with rfl | rfl | rfl
      · exact (Option.some.inj hpresented).symm
      · exact (Option.some.inj hpresented).symm
      · cases hpresented
    rw [hdocument] at hb
    exact ⟨b, hb, rfl⟩
  intro m hm n hn _
  obtain ⟨b, hb, rfl⟩ := hsame m hm
  obtain ⟨c, hc, rfl⟩ := hsame n hn
  rw [Except.ok.inj (hb.symm.trans hc)]

/-- The reserved row is the consumed one. -/
theorem one_use_of_three_calls : ∃ row, findRow (str "t") (str "i") (reached calls) = some row ∧
    Continues reservation.row row ∧ row.status = .consumed := by
  obtain ⟨hreserved, hconsumed⟩ := evaluated
  obtain ⟨-, -, hrows, -⟩ := one_use_custody calls (str "t") (str "i") custodyFrames_injOn
  obtain ⟨row, hrow, hcont⟩ := hrows [reserveCall] [consumeCall, abandonCall] _ rfl hreserved
  rw [hrow] at hconsumed
  exact ⟨row, hrow, hcont, Option.some.inj hconsumed⟩

end Sample

end IntegrityGuardian.Intents
