import IntegrityGuardian.Operations.SendCustody
import Mathlib.Data.List.Induction

/-!
# The quotas of the ledger

A connection writes to its own view of the table until it commits, so what a refused
call had already reclaimed is gone when the connection closes.  Between two commits
the records, the bytes and the tombstones stay within the quotas of the ledger.
-/

namespace IntegrityGuardian.Operations

open Python Library

/-! ## Connections -/

/-- A connection inside a transaction: what the file holds and what its statements see. -/
structure Connection where
  file : Table
  working : Table

/-- Statements on a connection; an exception leaves the connection where it was raised. -/
abbrev Session (α : Type) := ExceptT Error (StateM Connection) α

namespace Session

/-- Python code between the statements. -/
def check {α : Type} (x : Except Error α) : Session α := fun c => (x, c)

/-- `SELECT`. -/
def select {α : Type} (query : Table → α) : Session α := fun c => (.ok (query c.working), c)

/-- `UPDATE` or `INSERT`. -/
def execute (statement : Table → Table) : Session Unit :=
  fun c => (.ok (), { c with working := statement c.working })

/-- `db.commit()`. -/
def commit : Session Unit := fun c => (.ok (), { c with file := c.working })

/-- `BEGIN IMMEDIATE`, the statements, and the connection closed: the answer and the file. -/
def close {α : Type} (session : Session α) (table : Table) : Except Error α × Table :=
  let (answer, c) := session ⟨table, table⟩
  (answer, c.file)

end Session

open Session

section
variable [UnicodeData] [FloatData]

/-- The transaction of `prepare`. -/
def prepareSession (config : Config) (ownerKey operationKey tool : Str) (raw : Bytes)
    (cutoffClock now : Int) : Session Record := do
  let digest := sha256Digest raw
  match ← select (findOperation operationKey) with
  | some row =>
    let result ← check (resume ownerKey raw digest row)
    commit
    return result
  | none =>
    execute (reclaim (cutoffClock - config.retentionNs))
    let live ← select fun table => table.filter fun row => row.state ≠ .archived
    let tombstones ← select fun table => table.countP fun row => row.state = .archived
    check (ensure (tombstones < config.maxTombstones)
      (refuse "UID ownership tombstone quota exhausted"))
    check (ensure (live.length < config.maxRecords ∧ totalSize live + raw.length ≤ config.maxBytes)
      (refuse "ledger quota exhausted; unresolved operations were preserved"))
    let row := prepared ownerKey operationKey tool raw digest now
    execute (· ++ [row])
    let result ← check (record row)
    commit
    return result

/-- The `UPDATE` at the end of `mark` and `claim_send`. -/
def updateSession (row : Row) (f : Row → Row) : Session Record := do
  execute (update row.ownerKey row.operationKey f)
  let result ← check (record (f row))
  commit
  return result

/-- The transaction of `mark`. -/
def markSession (config : Config) (ownerKey operationKey : Str) (target : State)
    (receipt : Option Value) (rawReceipt : Option Bytes) (expectedState : Option Str)
    (clock : Int) : Session Record := do
  match ← select (findOwned ownerKey operationKey) with
  | none => check (.error (refuse "operation is not prepared"))
  | some row =>
    let previous ← check (record row)
    check (checkExpected expectedState row.state)
    if row.state = .committed then
      check (ensure (target = .committed ∧ sameReceipt previous.receipt receipt = true)
        (conflict "committed operation is immutable"))
      commit
      return previous
    else
      check (ensure (row.state ≠ .archived) (pending "completed operation custody is archived"))
      check (ensure (target ∈ transitions row.state) (pending "unsafe operation state transition"))
      let table ← select id
      check (checkReceiptQuota config rawReceipt table)
      updateSession row fun r =>
        { r with state := target, receiptBytes := rawReceipt, updatedNs := clock }

/-- The transaction of `claim_send`. -/
def claimSendSession (ownerKey operationKey : Str) (maxAttempts : Int)
    (expectedState : Option Str) (clock : Int) : Session Record := do
  match ← select (findOwned ownerKey operationKey) with
  | none => check (.error (refuse "operation is not prepared"))
  | some row =>
    let _ ← check (record row)
    check (checkExpected expectedState row.state)
    check (ensure (row.state ∈ [State.prepared, .knownUnsent, .reconciledAbsent])
      (pending "operation requires reconciliation or is terminal"))
    check (ensure ((row.attempts : Int) < maxAttempts)
      (pending "durable send attempt budget exhausted"))
    updateSession row fun r =>
      { r with state := .sending, attempts := r.attempts + 1, updatedNs := clock }

/-- A call on the file: the checks before the connection opens, then its transaction. -/
def perform (config : Config) (operation : Operation) (file : Table) : Except Error Record × Table :=
  match operation with
  | .prepare ownerKey operationKey tool arguments cutoffClock now =>
    let request := do
      let raw ← canonicalRequest tool arguments
      checkKey ownerKey operationKey tool arguments
      .ok raw
    match request with
    | .error e => (.error e, file)
    | .ok raw =>
      (prepareSession config ownerKey operationKey tool raw cutoffClock now).close file
  | .mark ownerKey operationKey state receipt expectedState clock =>
    match markArguments state receipt with
    | .error e => (.error e, file)
    | .ok (target, rawReceipt) =>
      (markSession config ownerKey operationKey target receipt rawReceipt expectedState
        clock).close file
  | .claimSend ownerKey operationKey maxAttempts expectedState clock =>
    match ensure (1 ≤ maxAttempts ∧ maxAttempts ≤ 3) (refuse "send attempt budget is invalid") with
    | .error e => (.error e, file)
    | .ok () => (claimSendSession ownerKey operationKey maxAttempts expectedState clock).close file

/-! ## What a session leaves -/

/-- The session answers as the function does: with its table in the file, or with the file as
it was. -/
def Leaves {α : Type} (session : Session α) (c : Connection) (x : Except Error (α × Table)) :
    Prop :=
  match x with
  | .ok (result, table) => (session c).1 = .ok result ∧ (session c).2.file = table
  | .error e => (session c).1 = .error e ∧ (session c).2.file = c.file

variable {c : Connection} {α β : Type}

omit [UnicodeData] [FloatData] in
theorem leaves_check {x : Except Error α} {rest : α → Session β}
    {f : α → Except Error (β × Table)} (h : ∀ a, x = .ok a → Leaves (rest a) c (f a)) :
    Leaves (check x >>= rest) c (x >>= f) := by
  cases x with
  | error e => exact ⟨rfl, rfl⟩
  | ok a => exact h a rfl

omit [UnicodeData] [FloatData] in
theorem leaves_error (e : Error) (c : Connection) :
    Leaves (check (.error e) : Session α) c (.error e) := ⟨rfl, rfl⟩

omit [UnicodeData] [FloatData] in
theorem leaves_select {query : Table → α} {rest : α → Session β}
    {x : Except Error (β × Table)} (h : Leaves (rest (query c.working)) c x) :
    Leaves (select query >>= rest) c x := h

omit [UnicodeData] [FloatData] in
theorem leaves_execute {statement : Table → Table} {rest : Unit → Session β}
    {x : Except Error (β × Table)} (h : Leaves (rest ()) ⟨c.file, statement c.working⟩ x) :
    Leaves (execute statement >>= rest) c x := h

omit [UnicodeData] [FloatData] in
theorem leaves_commit (result : α) (c : Connection) :
    Leaves (do commit; return result) c (.ok (result, c.working)) := ⟨rfl, rfl⟩

theorem leaves_prepareSession (config : Config) (ownerKey operationKey tool : Str) (raw : Bytes)
    (cutoffClock now : Int) (table : Table) :
    Leaves (prepareSession config ownerKey operationKey tool raw cutoffClock now) ⟨table, table⟩
      (match findOperation operationKey table with
      | some row => do
        let result ← resume ownerKey raw (sha256Digest raw) row
        .ok (result, table)
      | none =>
        enter config ownerKey operationKey tool raw (sha256Digest raw) cutoffClock now table) := by
  unfold prepareSession
  apply leaves_select
  cases findOperation operationKey table with
  | some row => exact leaves_check fun result _ => leaves_commit result _
  | none =>
    apply leaves_execute
    apply leaves_select
    apply leaves_select
    apply leaves_check
    intro _ _
    apply leaves_check
    intro _ _
    apply leaves_execute
    exact leaves_check fun result _ => leaves_commit result _

theorem leaves_updateSession (row : Row) (f : Row → Row) (table : Table) :
    Leaves (updateSession row f) ⟨table, table⟩ (updated row f table) :=
  leaves_execute (leaves_check fun result _ => leaves_commit result _)

theorem leaves_markSession (config : Config) (ownerKey operationKey : Str) (target : State)
    (receipt : Option Value) (rawReceipt : Option Bytes) (expectedState : Option Str)
    (clock : Int) (table : Table) :
    Leaves (markSession config ownerKey operationKey target receipt rawReceipt expectedState clock)
      ⟨table, table⟩
      (match findOwned ownerKey operationKey table with
      | none => .error (refuse "operation is not prepared")
      | some row => do
        let previous ← record row
        checkExpected expectedState row.state
        if row.state = .committed then do
          ensure (target = .committed ∧ sameReceipt previous.receipt receipt = true)
            (conflict "committed operation is immutable")
          .ok (previous, table)
        else do
          ensure (row.state ≠ .archived) (pending "completed operation custody is archived")
          ensure (target ∈ transitions row.state) (pending "unsafe operation state transition")
          checkReceiptQuota config rawReceipt table
          updated row
            (fun r => { r with state := target, receiptBytes := rawReceipt, updatedNs := clock })
            table) := by
  unfold markSession
  apply leaves_select
  cases findOwned ownerKey operationKey table with
  | none => exact leaves_error _ _
  | some row =>
    apply leaves_check
    intro previous _
    apply leaves_check
    intro _ _
    by_cases hcommitted : row.state = .committed
    · rw [if_pos hcommitted, if_pos hcommitted]
      exact leaves_check fun _ _ => leaves_commit previous _
    · rw [if_neg hcommitted, if_neg hcommitted]
      apply leaves_check
      intro _ _
      apply leaves_check
      intro _ _
      apply leaves_select
      exact leaves_check fun _ _ => leaves_updateSession row _ table

theorem leaves_claimSendSession (ownerKey operationKey : Str) (maxAttempts : Int)
    (expectedState : Option Str) (clock : Int) (table : Table) :
    Leaves (claimSendSession ownerKey operationKey maxAttempts expectedState clock) ⟨table, table⟩
      (match findOwned ownerKey operationKey table with
      | none => .error (refuse "operation is not prepared")
      | some row => do
        let _ ← record row
        checkExpected expectedState row.state
        ensure (row.state ∈ [State.prepared, .knownUnsent, .reconciledAbsent])
          (pending "operation requires reconciliation or is terminal")
        ensure ((row.attempts : Int) < maxAttempts)
          (pending "durable send attempt budget exhausted")
        updated row
          (fun r => { r with state := .sending, attempts := r.attempts + 1, updatedNs := clock })
          table) := by
  unfold claimSendSession
  apply leaves_select
  cases findOwned ownerKey operationKey table with
  | none => exact leaves_error _ _
  | some row =>
    apply leaves_check
    intro _ _
    apply leaves_check
    intro _ _
    apply leaves_check
    intro _ _
    exact leaves_check fun _ _ => leaves_updateSession row _ table

/-- The answer of a call and the file after it: a call that raises leaves the file. -/
def answered (x : Except Error (Record × Table)) (file : Table) : Except Error Record × Table :=
  match x with
  | .ok (result, table) => (.ok result, table)
  | .error e => (.error e, file)

omit [UnicodeData] in
theorem Leaves.close {session : Session Record} {table : Table}
    {x : Except Error (Record × Table)} (h : Leaves session ⟨table, table⟩ x) :
    session.close table = answered x table := by
  cases x with
  | error e => exact Prod.ext h.1 h.2
  | ok r => exact Prod.ext h.1 h.2

theorem perform_eq (config : Config) (operation : Operation) (file : Table) :
    perform config operation file = answered (exec ⟨config, operation⟩ file) file := by
  cases operation with
  | prepare ownerKey operationKey tool arguments cutoffClock now =>
    unfold perform
    dsimp only [exec]
    unfold prepare
    cases hraw : canonicalRequest tool arguments with
    | error e => rfl
    | ok raw =>
      cases hkey : checkKey ownerKey operationKey tool arguments with
      | error e => simp only [ok_bind]; rfl
      | ok _ =>
        simp only [ok_bind]
        exact (leaves_prepareSession config ownerKey operationKey tool raw cutoffClock now
          file).close
  | mark ownerKey operationKey state receipt expectedState clock =>
    unfold perform
    dsimp only [exec]
    unfold mark
    cases harguments : markArguments state receipt with
    | error e => rfl
    | ok arguments =>
      exact (leaves_markSession config ownerKey operationKey arguments.1 receipt arguments.2
        expectedState clock file).close
  | claimSend ownerKey operationKey maxAttempts expectedState clock =>
    unfold perform
    dsimp only [exec]
    unfold claimSend
    cases ensure (1 ≤ maxAttempts ∧ maxAttempts ≤ 3)
        (refuse "send attempt budget is invalid") with
    | error e => rfl
    | ok _ =>
      exact (leaves_claimSendSession ownerKey operationKey maxAttempts expectedState clock
        file).close

end

/-! ## Bounds -/

/-- What the quotas of a ledger bound. -/
structure WithinQuotas (config : Config) (table : Table) : Prop where
  records : (table.filter fun row => row.state ≠ .archived).length ≤ config.maxRecords
  bytes : totalSize table ≤ config.maxBytes
  tombstones : (table.countP fun row => row.state = .archived) < config.maxTombstones

/-- The quotas, with what they rest on: one row for each key, and tombstones without bytes. -/
structure Bounded (config : Config) (table : Table) : Prop extends WithinQuotas config table where
  keyed : Keyed table
  tombstone_size : ∀ row ∈ table, row.state = .archived → row.size = 0

theorem totalSize_append (s t : Table) : totalSize (s ++ t) = totalSize s + totalSize t := by
  simp [totalSize]

variable {row : Row} {table : Table}

theorem totalSize_live (h : ∀ row ∈ table, row.state = .archived → row.size = 0) :
    totalSize (table.filter fun row => row.state ≠ .archived) = totalSize table := by
  induction table with
  | nil => rfl
  | cons row table ih =>
    have hrest := ih fun r hr => h r (List.mem_cons_of_mem _ hr)
    by_cases harchived : row.state = .archived
    · have hsize := h row List.mem_cons_self harchived
      simp only [totalSize, List.map_cons, List.sum_cons] at hrest ⊢
      rw [List.filter_cons_of_neg (by simpa using harchived), hrest, hsize, Nat.zero_add]
    · simp only [totalSize, List.map_cons, List.sum_cons] at hrest ⊢
      rw [List.filter_cons_of_pos (by simpa using harchived), List.map_cons, List.sum_cons, hrest]

theorem update_eq (hkeyed : Keyed table) (hrow : row ∈ table) (f : Row → Row) :
    ∃ front back, table = front ++ row :: back ∧
      update row.ownerKey row.operationKey f table = front ++ f row :: back := by
  obtain ⟨front, back, rfl⟩ := List.append_of_mem hrow
  refine ⟨front, back, rfl, ?_⟩
  unfold Keyed at hkeyed
  rw [List.map_append, List.map_cons, List.nodup_middle, List.nodup_cons, List.mem_append,
    not_or] at hkeyed
  obtain ⟨⟨hfront, hback⟩, -⟩ := hkeyed
  have hother : ∀ rows : Table, row.operationKey ∉ rows.map Row.operationKey →
      update row.ownerKey row.operationKey f rows = rows := by
    intro rows hnot
    unfold update
    rw [List.map_congr_left (g := id), List.map_id]
    intro r hr
    have hne : r.operationKey ≠ row.operationKey := fun heq =>
      hnot (heq ▸ List.mem_map_of_mem hr)
    simp [hne]
  have hfront' := hother front hfront
  have hback' := hother back hback
  unfold update at hfront' hback' ⊢
  rw [List.map_append, List.map_cons, hfront', hback']
  simp

theorem Bounded.update {config : Config} (h : Bounded config table)
    (hrow : row ∈ table) (hlive : row.state ≠ .archived) {f : Row → Row}
    (hkey : ∀ r, (f r).operationKey = r.operationKey) (hlive' : (f row).state ≠ .archived)
    (hsize : totalSize table + (f row).size ≤ config.maxBytes + row.size) :
    Bounded config (update row.ownerKey row.operationKey f table) := by
  have hkeyed := h.keyed.update row.ownerKey row.operationKey hkey
  obtain ⟨front, back, htable, hupdate⟩ := update_eq h.keyed hrow f
  have hrecords := h.records
  have htombstones := h.tombstones
  have hempty := h.tombstone_size
  rw [htable] at hrecords htombstones hempty hsize
  rw [hupdate] at hkeyed ⊢
  refine ⟨⟨?_, ?_, ?_⟩, hkeyed, ?_⟩
  · simpa [List.filter_append, hlive, hlive'] using hrecords
  · simp only [totalSize, List.map_append, List.map_cons, List.sum_append, List.sum_cons]
      at hsize ⊢
    omega
  · simpa [List.countP_append, hlive, hlive'] using htombstones
  · intro r hr harchived
    rw [List.mem_append, List.mem_cons] at hr
    rcases hr with hr | rfl | hr
    · exact hempty r (by simp [hr]) harchived
    · exact absurd harchived hlive'
    · exact hempty r (by simp [hr]) harchived

theorem Row.size_archive (row : Row) : row.archive.size = 0 := rfl

theorem mem_reclaim {cutoff : Int} (h : row ∈ reclaim cutoff table) :
    row ∈ table ∨ row.size = 0 := by
  obtain ⟨old, hold, rfl⟩ := List.mem_map.1 h
  split
  · exact .inr old.size_archive
  · exact .inl hold

section
variable [UnicodeData] [FloatData]

variable {raw : Bytes} {config : Config} {clock now : Int} {expectedState : Option Str}
  {receipt : Option Value} {result : Record} {digest operationKey ownerKey state tool : Str}
  {table table' : Table}

theorem enter_eq_ok {cutoffClock : Int}
    (h : enter config ownerKey operationKey tool raw digest cutoffClock now table =
      .ok (result, table')) : let reclaimed := reclaim (cutoffClock - config.retentionNs) table
    let live := reclaimed.filter fun row => row.state ≠ .archived
    (reclaimed.countP fun row => row.state = .archived) < config.maxTombstones ∧
      live.length < config.maxRecords ∧ totalSize live + raw.length ≤ config.maxBytes ∧
      table' = reclaimed ++ [prepared ownerKey operationKey tool raw digest now] := by
  unfold enter at h
  obtain ⟨htombstones, h⟩ := ensure_bind_eq_ok.1 h
  obtain ⟨⟨hrecords, hbytes⟩, h⟩ := ensure_bind_eq_ok.1 h
  obtain ⟨_, _, h⟩ := bind_eq_ok.1 h
  cases h
  exact ⟨htombstones, hrecords, hbytes, rfl⟩

theorem Bounded.enter (h : Bounded config table) {cutoffClock : Int} (hkeyed : Keyed table')
    (henter : Operations.enter config ownerKey operationKey tool raw digest cutoffClock now table =
      .ok (result, table')) : Bounded config table' := by
  obtain ⟨htombstones, hrecords, hbytes, rfl⟩ := enter_eq_ok henter
  have hempty : ∀ row ∈ reclaim (cutoffClock - config.retentionNs) table,
      row.state = .archived → row.size = 0 := by
    intro row hrow harchived
    cases mem_reclaim hrow with
    | inl hmem => exact h.tombstone_size row hmem harchived
    | inr hsize => exact hsize
  rw [totalSize_live hempty] at hbytes
  refine ⟨⟨?_, ?_, ?_⟩, hkeyed, ?_⟩
  · rw [List.filter_append, List.length_append]
    exact hrecords
  · rw [totalSize_append]
    exact hbytes
  · rw [List.countP_append]
    exact htombstones
  · intro row hrow harchived
    rw [List.mem_append, List.mem_singleton] at hrow
    cases hrow with
    | inl hmem => exact hempty row hmem harchived
    | inr heq => rw [heq] at harchived; cases harchived

theorem mark_eq_update
    (h : mark config ownerKey operationKey state receipt expectedState clock table =
      .ok (result, table')) :
    table' = table ∨ ∃ row target rawReceipt, row ∈ table ∧ row.state ≠ .archived ∧
      target ∈ transitions row.state ∧ checkReceiptQuota config rawReceipt table = .ok () ∧
      table' = update row.ownerKey row.operationKey (fun r =>
        { r with state := target, receiptBytes := rawReceipt, updatedNs := clock }) table := by
  unfold mark at h
  obtain ⟨⟨target, rawReceipt⟩, _, h⟩ := bind_eq_ok.1 h
  cases hfind : findOwned ownerKey operationKey table with
  | none => simp [hfind] at h
  | some row =>
    simp only [hfind] at h
    obtain ⟨previous, _, h⟩ := bind_eq_ok.1 h
    obtain ⟨⟨⟩, _, h⟩ := bind_eq_ok.1 h
    split at h
    · obtain ⟨-, h⟩ := ensure_bind_eq_ok.1 h
      cases h
      exact .inl rfl
    · obtain ⟨hlive, h⟩ := ensure_bind_eq_ok.1 h
      obtain ⟨htarget, h⟩ := ensure_bind_eq_ok.1 h
      obtain ⟨⟨⟩, hquota, h⟩ := bind_eq_ok.1 h
      exact .inr ⟨row, target, rawReceipt, (mem_of_findOwned hfind).1, hlive, htarget, hquota,
        (updated_eq_ok h).2⟩

omit [UnicodeData] [FloatData] in
theorem ne_archived_of_mem_transitions {state target : State} (h : target ∈ transitions state) :
    target ≠ .archived := by
  rintro rfl
  cases state <;> simp [transitions] at h

theorem Bounded.mark (h : Bounded config table)
    (hmark : Operations.mark config ownerKey operationKey state receipt expectedState clock table =
      .ok (result, table')) : Bounded config table' := by
  cases mark_eq_update hmark with
  | inl hsame => exact hsame ▸ h
  | inr hupdate =>
    obtain ⟨row, target, rawReceipt, hrow, hlive, htarget, hquota, rfl⟩ := hupdate
    refine h.update hrow hlive (fun _ => rfl) (ne_archived_of_mem_transitions htarget) ?_
    have hbytes := h.bytes
    cases rawReceipt with
    | none =>
      simp only [Row.size]
      omega
    | some raw =>
      have hfits : totalSize table + raw.length ≤ config.maxBytes := ensure_eq_ok.1 hquota
      simp only [Row.size]
      omega

theorem Bounded.claimSend (h : Bounded config table) {maxAttempts : Int}
    (hclaim : Operations.claimSend ownerKey operationKey maxAttempts expectedState clock table =
      .ok (result, table')) : Bounded config table' := by
  obtain ⟨row, hfind, -, hstate, -, -, rfl⟩ := claimSend_eq_ok hclaim
  have hlive : row.state ≠ .archived := by
    intro harchived
    rw [harchived] at hstate
    simp at hstate
  have hbytes := h.bytes
  refine h.update (mem_of_findOwned hfind).1 hlive (fun _ => rfl) (by simp) ?_
  exact Nat.add_le_add_right hbytes _

theorem Bounded.exec {operation : Operation} (h : Bounded config table)
    (hexec : Operations.exec ⟨config, operation⟩ table = .ok (result, table')) :
    Bounded config table' := by
  have hkeyed := keyed_step h.keyed hexec
  cases operation with
  | prepare ownerKey operationKey tool arguments cutoffClock now =>
    simp only [Operations.exec] at hexec
    unfold prepare at hexec
    obtain ⟨raw, _, hexec⟩ := bind_eq_ok.1 hexec
    obtain ⟨⟨⟩, _, hexec⟩ := bind_eq_ok.1 hexec
    cases hfind : findOperation operationKey table with
    | some row =>
      simp only [hfind] at hexec
      obtain ⟨_, _, hexec⟩ := bind_eq_ok.1 hexec
      cases hexec
      exact h
    | none =>
      simp only [hfind] at hexec
      exact h.enter hkeyed hexec
  | mark ownerKey operationKey state receipt expectedState clock => exact h.mark hexec
  | claimSend ownerKey operationKey maxAttempts expectedState clock => exact h.claimSend hexec

/-- The file after the calls, each on a connection of its own. -/
def committed (config : Config) (operations : List Operation) : Table :=
  operations.foldl (fun file operation => (perform config operation file).2) []

theorem committed_concat (config : Config) (operations : List Operation) (operation : Operation) :
    committed config (operations ++ [operation]) =
      (perform config operation (committed config operations)).2 := by
  simp [committed]

omit [UnicodeData] [FloatData] in
theorem bounded_empty (config : Config) : Bounded config [] := by
  have htombstones := config.tombstones_bound.1
  exact ⟨⟨Nat.zero_le _, Nat.zero_le _, htombstones⟩, List.nodup_nil, by simp⟩

theorem bounded_committed (config : Config) (operations : List Operation) :
    Bounded config (committed config operations) := by
  induction operations using List.reverseRecOn with
  | nil => exact bounded_empty config
  | append_singleton operations operation ih =>
    rw [committed_concat, perform_eq]
    cases hexec : exec ⟨config, operation⟩ (committed config operations) with
    | error e => exact ih
    | ok r => exact ih.exec hexec

/-- The quotas hold at every commit of every run, and a call that raises leaves the table as it
was, whatever it had reclaimed by then. -/
theorem quotas_hold (config : Config) (operations : List Operation) :
    WithinQuotas config (committed config operations) ∧
    ∀ operation e, (perform config operation (committed config operations)).1 = .error e →
      (perform config operation (committed config operations)).2 = committed config operations := by
  refine ⟨(bounded_committed config operations).toWithinQuotas, ?_⟩
  intro operation e herror
  rw [perform_eq] at herror ⊢
  cases hexec : exec ⟨config, operation⟩ (committed config operations) with
  | error e' => rfl
  | ok r =>
    rw [hexec] at herror
    cases herror

end

end IntegrityGuardian.Operations
