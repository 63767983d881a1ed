import IntegrityGuardian.Operations.OperationLedger

/-!
# Send custody

The calls that succeed move the row of one operation key through a small state
machine, whatever other keys are in use.  The guarantees of the ledger are read
off that machine: a second send needs a reconciliation after the first, the
attempts are counted, and a completed operation only ever becomes a tombstone.
-/

namespace IntegrityGuardian.Operations

open Python Library

/-! ## Lookups -/

/-- `operation_uid_owner`: an operation key has one row. -/
def Keyed (table : Table) : Prop := (table.map Row.operationKey).Nodup

variable {row : Row} {f : Row → Row} {key : Str} {table : Table}

theorem mem_of_findOperation
    (h : findOperation key table = some row) : row ∈ table ∧ row.operationKey = key :=
  ⟨List.mem_of_find?_eq_some h, by simpa using List.find?_some h⟩

theorem mem_of_findOwned {ownerKey : Str} (h : findOwned ownerKey key table = some row) :
    row ∈ table ∧ row.ownerKey = ownerKey ∧ row.operationKey = key :=
  ⟨List.mem_of_find?_eq_some h, by simpa using List.find?_some h⟩

theorem Keyed.findOperation (h : Keyed table) (hrow : row ∈ table) :
    findOperation row.operationKey table = some row := by
  cases hfind : Operations.findOperation row.operationKey table with
  | none =>
    have hnot := List.find?_eq_none.1 hfind row hrow
    simp at hnot
  | some found =>
    obtain ⟨hmem, hkey⟩ := mem_of_findOperation hfind
    rw [List.inj_on_of_nodup_map h hmem hrow hkey]

theorem findOperation_map (hf : ∀ r, (f r).operationKey = r.operationKey)
    (key : Str) (table : Table) :
    findOperation key (table.map f) = (findOperation key table).map f := by
  unfold findOperation
  rw [List.find?_map]
  congr 2
  ext r
  simp [hf]

theorem findOperation_append (key : Str) (table : Table) (row : Row) :
    findOperation key (table ++ [row]) =
      (findOperation key table).or (if row.operationKey = key then some row else none) := by
  unfold findOperation
  rw [List.find?_append]
  congr 1
  by_cases hkey : row.operationKey = key <;> simp [hkey]

theorem Keyed.map (h : Keyed table)
    (hf : ∀ r, (f r).operationKey = r.operationKey) : Keyed (table.map f) := by
  unfold Keyed
  rw [List.map_map]
  have hkeys : Row.operationKey ∘ f = Row.operationKey := funext hf
  rw [hkeys]
  exact h

/-- The row a reclaiming pass leaves. -/
def reclaimed (cutoff : Int) (row : Row) : Row :=
  if row.state = .committed ∧ row.updatedNs < cutoff then row.archive else row

theorem reclaimed_operationKey (cutoff : Int) (row : Row) :
    (reclaimed cutoff row).operationKey = row.operationKey := by
  unfold reclaimed
  split <;> rfl

theorem findOperation_reclaim (cutoff : Int) (key : Str) (table : Table) :
    findOperation key (reclaim cutoff table) = (findOperation key table).map (reclaimed cutoff) :=
  findOperation_map (reclaimed_operationKey cutoff) key table

theorem findOperation_update (hkeyed : Keyed table)
    (hrow : row ∈ table) (hf : ∀ r, (f r).operationKey = r.operationKey) (key : Str) :
    findOperation key (update row.ownerKey row.operationKey f table) =
      if key = row.operationKey then some (f row) else findOperation key table := by
  unfold update
  rw [findOperation_map]
  · by_cases hkey : key = row.operationKey
    · subst hkey
      rw [hkeyed.findOperation hrow]
      simp
    · rw [if_neg hkey]
      cases hfind : findOperation key table with
      | none => rfl
      | some found =>
        have hfound := (mem_of_findOperation hfind).2
        have hne : ¬(found.ownerKey = row.ownerKey ∧ found.operationKey = row.operationKey) := by
          rintro ⟨-, hsame⟩
          exact hkey (hfound.symm.trans hsame)
        simp [hne]
  · intro r
    split
    · exact hf r
    · rfl

theorem Keyed.update (h : Keyed table) (ownerKey key : Str)
    (hf : ∀ r, (f r).operationKey = r.operationKey) : Keyed (update ownerKey key f table) := by
  apply h.map
  intro r
  split
  · exact hf r
  · rfl

/-! ## The life of a row -/

/-- A row later in the same run. -/
structure Continues (row row' : Row) : Prop where
  ownerKey : row'.ownerKey = row.ownerKey
  requestSha256 : row'.requestSha256 = row.requestSha256
  attempts : row.attempts ≤ row'.attempts
  requestBytes : row'.requestBytes = row.requestBytes ∨ row'.state = .archived
  committed : row.state = .committed → row' = row ∨ row' = row.archive
  archived : row.state = .archived → row' = row

theorem Continues.refl (row : Row) : Continues row row :=
  ⟨rfl, rfl, le_rfl, Or.inl rfl, fun _ => Or.inl rfl, fun _ => rfl⟩

theorem Continues.trans {a b c : Row} (hab : Continues a b) (hbc : Continues b c) :
    Continues a c where
  ownerKey := hbc.ownerKey.trans hab.ownerKey
  requestSha256 := hbc.requestSha256.trans hab.requestSha256
  attempts := hab.attempts.trans hbc.attempts
  requestBytes := by
    rcases hab.requestBytes with hbytes | hb
    · exact hbc.requestBytes.imp_left fun h => h.trans hbytes
    · rw [hbc.archived hb]
      exact Or.inr hb
  committed := by
    intro ha
    rcases hab.committed ha with rfl | rfl
    · exact hbc.committed ha
    · exact Or.inr (hbc.archived rfl)
  archived := by
    intro ha
    obtain rfl := hab.archived ha
    exact hbc.archived ha

section
variable [UnicodeData] [FloatData]

/-! ## The row of one key -/

/-- What a call that returned does to the row of one key. -/
inductive RowStep (key : Str) : Call → Record → Option Row → Option Row → Prop where
  /-- A call on another key. -/
  | other {call : Call} {result : Record} {row : Option Row} (hkey : call.operation.key ≠ key) :
      RowStep key call result row row
  /-- The entry of another key reclaims the completed payload. -/
  | reclaimed {call : Call} {result : Record} {row : Row} (hkey : call.operation.key ≠ key)
      (hstate : row.state = .committed) : RowStep key call result (some row) (some row.archive)
  | entered {config : Config} {ownerKey tool : Str} {arguments : Value} {cutoffClock now : Int}
      {result : Record} {raw : Bytes} (hraw : canonicalRequest tool arguments = .ok raw) :
      RowStep key ⟨config, .prepare ownerKey key tool arguments cutoffClock now⟩ result none
        (some (prepared ownerKey key tool raw (sha256Digest raw) now))
  | resumed {config : Config} {ownerKey tool : Str} {arguments : Value} {cutoffClock now : Int}
      {result : Record} {row : Row} (howner : row.ownerKey = ownerKey)
      (hraw : canonicalRequest tool arguments = .ok row.requestBytes)
      (hstate : row.state ≠ .archived) :
      RowStep key ⟨config, .prepare ownerKey key tool arguments cutoffClock now⟩ result (some row)
        (some row)
  /-- The same receipt again. -/
  | confirmed {config : Config} {ownerKey state : Str} {receipt : Option Value}
      {expectedState : Option Str} {clock : Int} {result : Record} {row : Row}
      (howner : row.ownerKey = ownerKey) (hstate : row.state = .committed) :
      RowStep key ⟨config, .mark ownerKey key state receipt expectedState clock⟩ result (some row)
        (some row)
  | marked {config : Config} {ownerKey state : Str} {receipt : Option Value}
      {expectedState : Option Str} {clock : Int} {result : Record} {row : Row} {target : State}
      {rawReceipt : Option Bytes} (howner : row.ownerKey = ownerKey)
      (htarget : State.ofText state = some target) (hsending : target ≠ .sending)
      (hallowed : target ∈ transitions row.state) :
      RowStep key ⟨config, .mark ownerKey key state receipt expectedState clock⟩ result (some row)
        (some { row with state := target, receiptBytes := rawReceipt, updatedNs := clock })
  | claimed {config : Config} {ownerKey : Str} {maxAttempts : Int} {expectedState : Option Str}
      {clock : Int} {result : Record} {row : Row} (howner : row.ownerKey = ownerKey)
      (hstate : row.state ∈ [State.prepared, .knownUnsent, .reconciledAbsent])
      (hattempts : (row.attempts : Int) < maxAttempts) (hbudget : maxAttempts ≤ 3)
      (hresult : result.row.attempts = row.attempts + 1) :
      RowStep key ⟨config, .claimSend ownerKey key maxAttempts expectedState clock⟩ result
        (some row)
        (some { row with state := .sending, attempts := row.attempts + 1, updatedNs := clock })

variable {call : Call} {config : Config} {clock now : Int}
  {past : List (Call × Except Error Record)} {calls : List Call} {row' : Option Row}
  {expectedState : Option Str} {receipt : Option Value} {result : Record} {row : Row}
  {key operationKey ownerKey state : Str} {table table' : Table} {arguments : Value}

theorem record_row (h : record row = .ok result) : result.row = row := by
  unfold record at h
  split at h
  · obtain ⟨-, h⟩ := ensure_bind_eq_ok.1 h
    cases h
    rfl
  · obtain ⟨-, h⟩ := ensure_bind_eq_ok.1 h
    obtain ⟨_, _, h⟩ := bind_eq_ok.1 h
    obtain ⟨_, _, h⟩ := bind_eq_ok.1 h
    obtain ⟨_, _, h⟩ := bind_eq_ok.1 h
    obtain ⟨_, _, h⟩ := bind_eq_ok.1 h
    obtain ⟨-, h⟩ := ensure_bind_eq_ok.1 h
    obtain ⟨_, _, h⟩ := bind_eq_ok.1 h
    cases h
    rfl

theorem resume_eq_ok {digest : Str} {raw : Bytes}
    (h : resume ownerKey raw digest row = .ok result) :
    row.ownerKey = ownerKey ∧ row.requestBytes = raw ∧ row.state ≠ .archived := by
  unfold resume at h
  obtain ⟨found, hfound, h⟩ := bind_eq_ok.1 h
  rw [record_row hfound] at h
  split at h
  · obtain ⟨-, h⟩ := ensure_bind_eq_ok.1 h
    cases h
  · rename_i hstate
    obtain ⟨⟨howner, hraw, -⟩, -⟩ := ensure_bind_eq_ok.1 h
    exact ⟨howner, hraw, hstate⟩

theorem updated_eq_ok {f : Row → Row} (h : updated row f table = .ok (result, table')) :
    result.row = f row ∧ table' = update row.ownerKey row.operationKey f table := by
  unfold updated at h
  obtain ⟨found, hfound, h⟩ := bind_eq_ok.1 h
  cases h
  exact ⟨record_row hfound, rfl⟩

omit [UnicodeData] in
theorem markArguments_eq_ok {target : State}
    {rawReceipt : Option Bytes} (h : markArguments state receipt = .ok (target, rawReceipt)) :
    State.ofText state = some target ∧ target ≠ .sending := by
  unfold markArguments at h
  cases htarget : State.ofText state with
  | none => simp [htarget] at h
  | some s =>
    simp only [htarget] at h
    obtain ⟨hsending, h⟩ := ensure_bind_eq_ok.1 h
    cases receipt with
    | none =>
      obtain ⟨-, h⟩ := ensure_bind_eq_ok.1 h
      cases h
      exact ⟨rfl, hsending⟩
    | some document =>
      obtain ⟨-, h⟩ := ensure_bind_eq_ok.1 h
      obtain ⟨-, h⟩ := ensure_bind_eq_ok.1 h
      obtain ⟨_, _, h⟩ := bind_eq_ok.1 h
      obtain ⟨-, h⟩ := ensure_bind_eq_ok.1 h
      cases h
      exact ⟨rfl, hsending⟩

theorem prepare_eq_ok {tool : Str} {cutoffClock : Int}
    (h : prepare config ownerKey operationKey tool arguments cutoffClock now table =
      .ok (result, table')) : ∃ raw, canonicalRequest tool arguments = .ok raw ∧
      ((∃ row, findOperation operationKey table = some row ∧ row.ownerKey = ownerKey ∧
          row.requestBytes = raw ∧ row.state ≠ .archived ∧ table' = table) ∨
        (findOperation operationKey table = none ∧
          table' = reclaim (cutoffClock - config.retentionNs) table ++
            [prepared ownerKey operationKey tool raw (sha256Digest raw) now])) := by
  unfold prepare at h
  obtain ⟨raw, hraw, h⟩ := bind_eq_ok.1 h
  obtain ⟨⟨⟩, _, h⟩ := bind_eq_ok.1 h
  refine ⟨raw, hraw, ?_⟩
  cases hfind : findOperation operationKey table with
  | some row =>
    simp only [hfind] at h
    obtain ⟨found, hresume, h⟩ := bind_eq_ok.1 h
    cases h
    obtain ⟨howner, hbytes, hstate⟩ := resume_eq_ok hresume
    exact Or.inl ⟨row, rfl, howner, hbytes, hstate, rfl⟩
  | none =>
    simp only [hfind, enter] at h
    obtain ⟨-, h⟩ := ensure_bind_eq_ok.1 h
    obtain ⟨-, h⟩ := ensure_bind_eq_ok.1 h
    obtain ⟨_, _, h⟩ := bind_eq_ok.1 h
    cases h
    exact Or.inr ⟨rfl, rfl⟩

theorem mark_eq_ok
    (h : mark config ownerKey operationKey state receipt expectedState clock table =
      .ok (result, table')) :
    ∃ row target rawReceipt, findOwned ownerKey operationKey table = some row ∧
      State.ofText state = some target ∧ target ≠ .sending ∧
      ((row.state = .committed ∧ table' = table) ∨
        (target ∈ transitions row.state ∧
          table' = update row.ownerKey row.operationKey (fun r =>
            { r with state := target, receiptBytes := rawReceipt, updatedNs := clock }) table)) := by
  unfold mark at h
  obtain ⟨⟨target, rawReceipt⟩, harguments, h⟩ := bind_eq_ok.1 h
  obtain ⟨htarget, hsending⟩ := markArguments_eq_ok harguments
  cases hfind : findOwned ownerKey operationKey table with
  | none => simp [hfind] at h
  | some row =>
    simp only [hfind] at h
    obtain ⟨previous, _, h⟩ := bind_eq_ok.1 h
    obtain ⟨⟨⟩, _, h⟩ := bind_eq_ok.1 h
    refine ⟨row, target, rawReceipt, rfl, htarget, hsending, ?_⟩
    split at h
    · rename_i hcommitted
      obtain ⟨-, h⟩ := ensure_bind_eq_ok.1 h
      cases h
      exact Or.inl ⟨hcommitted, rfl⟩
    · obtain ⟨-, h⟩ := ensure_bind_eq_ok.1 h
      obtain ⟨hallowed, h⟩ := ensure_bind_eq_ok.1 h
      obtain ⟨⟨⟩, _, h⟩ := bind_eq_ok.1 h
      exact Or.inr ⟨hallowed, (updated_eq_ok h).2⟩

theorem claimSend_eq_ok {maxAttempts : Int}
    (h : claimSend ownerKey operationKey maxAttempts expectedState clock table =
      .ok (result, table')) :
    ∃ row, findOwned ownerKey operationKey table = some row ∧ maxAttempts ≤ 3 ∧
      row.state ∈ [State.prepared, .knownUnsent, .reconciledAbsent] ∧
      (row.attempts : Int) < maxAttempts ∧ result.row.attempts = row.attempts + 1 ∧
      table' = update row.ownerKey row.operationKey (fun r =>
        { r with state := .sending, attempts := r.attempts + 1, updatedNs := clock }) table := by
  unfold claimSend at h
  obtain ⟨⟨-, hbudget⟩, h⟩ := ensure_bind_eq_ok.1 h
  cases hfind : findOwned ownerKey operationKey table with
  | none => simp [hfind] at h
  | some row =>
    simp only [hfind] at h
    obtain ⟨_, _, h⟩ := bind_eq_ok.1 h
    obtain ⟨⟨⟩, _, h⟩ := bind_eq_ok.1 h
    obtain ⟨hstate, h⟩ := ensure_bind_eq_ok.1 h
    obtain ⟨hattempts, h⟩ := ensure_bind_eq_ok.1 h
    obtain ⟨hresult, htable⟩ := updated_eq_ok h
    exact ⟨row, rfl, hbudget, hstate, hattempts, by rw [hresult], htable⟩

theorem keyed_step (hkeyed : Keyed table)
    (h : exec call table = .ok (result, table')) : Keyed table' := by
  obtain ⟨config, operation⟩ := call
  cases operation with
  | prepare ownerKey operationKey tool arguments cutoffClock now =>
    obtain ⟨raw, -, ⟨row, -, -, -, -, rfl⟩ | ⟨hnone, rfl⟩⟩ := prepare_eq_ok h
    · exact hkeyed
    · have hreclaimed : Keyed (reclaim (cutoffClock - config.retentionNs) table) :=
        hkeyed.map (reclaimed_operationKey _)
      unfold Keyed at hreclaimed ⊢
      rw [List.map_append]
      apply hreclaimed.append (List.nodup_singleton _)
      intro key hkey hnew
      obtain ⟨row, hrow, rfl⟩ := List.mem_map.1 hkey
      obtain ⟨old, hold, rfl⟩ := List.mem_map.1 hrow
      have hfresh := List.find?_eq_none.1 hnone old hold
      have hsame := reclaimed_operationKey (cutoffClock - config.retentionNs) old
      have hkeys := hsame.symm.trans (List.mem_singleton.1 hnew)
      simp [hkeys, prepared] at hfresh
  | mark ownerKey operationKey state receipt expectedState clock =>
    obtain ⟨row, target, rawReceipt, -, -, -, ⟨-, rfl⟩ | ⟨-, rfl⟩⟩ := mark_eq_ok h
    · exact hkeyed
    · exact hkeyed.update _ _ fun _ => rfl
  | claimSend ownerKey operationKey maxAttempts expectedState clock =>
    obtain ⟨row, -, -, -, -, -, rfl⟩ := claimSend_eq_ok h
    exact hkeyed.update _ _ fun _ => rfl

/-- Every call that returns moves the row of every key by the machine. -/
theorem rowStep_of_exec
    (hkeyed : Keyed table) (h : exec call table = .ok (result, table')) (key : Str) :
    RowStep key call result (findOperation key table) (findOperation key table') := by
  obtain ⟨config, operation⟩ := call
  cases operation with
  | prepare ownerKey operationKey tool arguments cutoffClock now =>
    obtain ⟨raw, hraw, ⟨row, hfind, howner, hbytes, hstate, rfl⟩ | ⟨hnone, rfl⟩⟩ :=
      prepare_eq_ok h
    · by_cases hkey : operationKey = key
      · subst hkey
        rw [hfind]
        exact .resumed howner (hbytes ▸ hraw) hstate
      · exact .other hkey
    · rw [findOperation_append, findOperation_reclaim]
      by_cases hkey : operationKey = key
      · subst hkey
        rw [hnone]
        simp only [prepared, if_true, Option.map_none, Option.none_or]
        exact .entered hraw
      · have hnew : (prepared ownerKey operationKey tool raw (sha256Digest raw)
            now).operationKey ≠ key := hkey
        rw [if_neg hnew, Option.or_none]
        cases findOperation key table with
        | none => exact .other hkey
        | some row =>
          simp only [Option.map_some, reclaimed]
          split
          · rename_i hexpired
            exact .reclaimed hkey hexpired.1
          · exact .other hkey
  | mark ownerKey operationKey state receipt expectedState clock =>
    obtain ⟨row, target, rawReceipt, hfind, htarget, hsending, hcases⟩ := mark_eq_ok h
    obtain ⟨hmem, howner, hrowkey⟩ := mem_of_findOwned hfind
    have hlookup := hkeyed.findOperation hmem
    by_cases hkey : operationKey = key
    · rw [hrowkey, hkey] at hlookup
      subst hkey
      rcases hcases with ⟨hcommitted, rfl⟩ | ⟨hallowed, rfl⟩
      · rw [hlookup]
        exact .confirmed howner hcommitted
      · rw [findOperation_update hkeyed hmem, if_pos hrowkey.symm, hlookup]
        · exact .marked howner htarget hsending hallowed
        · exact fun _ => rfl
    · rcases hcases with ⟨-, rfl⟩ | ⟨-, rfl⟩
      · exact .other hkey
      · rw [findOperation_update hkeyed hmem,
          if_neg fun heq => hkey (hrowkey.symm.trans heq.symm)]
        · exact .other hkey
        · exact fun _ => rfl
  | claimSend ownerKey operationKey maxAttempts expectedState clock =>
    obtain ⟨row, hfind, hbudget, hstate, hattempts, hresult, rfl⟩ := claimSend_eq_ok h
    obtain ⟨hmem, howner, hrowkey⟩ := mem_of_findOwned hfind
    have hlookup := hkeyed.findOperation hmem
    by_cases hkey : operationKey = key
    · rw [hrowkey, hkey] at hlookup
      subst hkey
      rw [findOperation_update hkeyed hmem, if_pos hrowkey.symm, hlookup]
      · exact .claimed howner hstate hattempts hbudget hresult
      · exact fun _ => rfl
    · rw [findOperation_update hkeyed hmem,
        if_neg fun heq => hkey (hrowkey.symm.trans heq.symm)]
      · exact .other hkey
      · exact fun _ => rfl

theorem reached_keyed (calls : List Call) : Keyed (reached calls) :=
  @run_invariant _ _ _ _ exec Keyed (fun _ _ _ _ => keyed_step) [] List.nodup_nil calls

/-! ## A second send -/

/-- The call returned from marking the key with the state. -/
def marks (key : Str) (state : State) : Call × Except Error Record → Bool
  | (⟨_, .mark _ operationKey text _ _ _⟩, .ok _) =>
    operationKey = key ∧ State.ofText text = some state
  | _ => false

/-- The call returned from claiming a send of the key. -/
def claims (key : Str) : Call × Except Error Record → Bool
  | (⟨_, .claimSend _ operationKey _ _ _⟩, .ok _) => operationKey = key
  | _ => false

/-- The calls settle a send of the key: it is known not to have left, or it was
unknown and then reconciled as absent. -/
def Released (key : Str) (past : List (Call × Except Error Record)) : Prop :=
  (∃ entry ∈ past, marks key .knownUnsent entry = true) ∨
    ∃ entry entry', [entry, entry'].Sublist past ∧ marks key .unknown entry = true ∧
      marks key .reconciledAbsent entry' = true

omit [UnicodeData] in
theorem Released.append (h : Released key past) (more : List (Call × Except Error Record)) :
    Released key (past ++ more) := by
  rcases h with ⟨entry, hmem, hmarks⟩ | ⟨entry, entry', hsub, hunknown, habsent⟩
  · exact Or.inl ⟨entry, List.mem_append_left _ hmem, hmarks⟩
  · exact Or.inr ⟨entry, entry', hsub.trans (List.sublist_append_left _ _), hunknown, habsent⟩

/-- What is known of a row some time after a send of its key was claimed. -/
def AfterClaim (key : Str) (past : List (Call × Except Error Record)) (row : Row) : Prop :=
  Released key past ∨ row.state ∈ [State.sending, .committed, .blocked, .archived] ∨
    (row.state = .unknown ∧ ∃ entry ∈ past, marks key .unknown entry = true)

omit [UnicodeData] in
theorem AfterClaim.append (h : AfterClaim key past row) (more : List (Call × Except Error Record)) :
    AfterClaim key (past ++ more) row := by
  rcases h with hreleased | hstate | ⟨hstate, entry, hmem, hmarks⟩
  · exact Or.inl (hreleased.append more)
  · exact Or.inr (Or.inl hstate)
  · exact Or.inr (Or.inr ⟨hstate, entry, List.mem_append_left _ hmem, hmarks⟩)

theorem RowStep.afterClaim
    (h : RowStep key call result (some row) row') (hafter : AfterClaim key past row) :
    ∃ next, row' = some next ∧ AfterClaim key (past ++ [(call, .ok result)]) next := by
  cases h with
  | other hkey => exact ⟨row, rfl, hafter.append _⟩
  | reclaimed hkey hstate => exact ⟨row.archive, rfl, Or.inr (Or.inl (by simp [Row.archive]))⟩
  | resumed howner hraw hstate => exact ⟨row, rfl, hafter.append _⟩
  | confirmed howner hstate => exact ⟨row, rfl, hafter.append _⟩
  | claimed howner hstate hattempts hbudget hresult =>
    exact ⟨_, rfl, Or.inr (Or.inl (by simp))⟩
  | @marked config ownerKey text receipt expectedState clock _ _ target rawReceipt howner htarget
      hsending hallowed =>
    have hmarks : ∀ s, target = s → marks key s
        ((⟨config, .mark ownerKey key text receipt expectedState clock⟩ : Call), .ok result) =
          true := by
      rintro s rfl
      simp [marks, htarget]
    refine ⟨_, rfl, ?_⟩
    rcases hafter with hreleased | hstate | ⟨hstate, entry, hmem, hunknown⟩
    · exact Or.inl (hreleased.append _)
    · -- the terminal states allow no mark, so the row was being sent
      have hwas : row.state = .sending := by
        simp only [List.mem_cons, List.not_mem_nil, or_false] at hstate
        rcases hstate with hs | hs | hs | hs
        · exact hs
        all_goals simp [hs, transitions] at hallowed
      simp only [hwas, transitions, List.mem_cons, List.not_mem_nil, or_false] at hallowed
      rcases hallowed with hs | hs | hs | hs
      · exact Or.inl (Or.inl ⟨_, List.mem_append_right _ (List.mem_singleton_self _),
          hmarks _ hs⟩)
      · exact Or.inr (Or.inr ⟨hs, _, List.mem_append_right _ (List.mem_singleton_self _),
          hmarks _ hs⟩)
      · exact Or.inr (Or.inl (by simp [hs]))
      · exact Or.inr (Or.inl (by simp [hs]))
    · simp only [hstate, transitions, List.mem_cons, List.not_mem_nil, or_false] at hallowed
      rcases hallowed with hs | hs | hs
      · refine Or.inl (Or.inr ⟨entry, _, ?_, hunknown, hmarks _ hs⟩)
        exact (List.singleton_sublist.2 hmem).append (List.Sublist.refl [_])
      · exact Or.inr (Or.inl (by simp [hs]))
      · exact Or.inr (Or.inl (by simp [hs]))

theorem afterClaim_run (hkeyed : Keyed table)
    (hfind : findOperation key table = some row) (hafter : AfterClaim key [] row)
    (calls : List Call) : ∃ next, findOperation key (run exec table calls) = some next ∧
      AfterClaim key (trace exec table calls) next := by
  have h := @run_trace_invariant _ _ _ _ exec (fun past t => Keyed t ∧
      ∃ next, findOperation key t = some next ∧ AfterClaim key past next)
    (by
      rintro past t call result t' ⟨hk, next, hnext, hstays⟩ hexec
      have hstep := rowStep_of_exec hk hexec key
      rw [hnext] at hstep
      exact ⟨keyed_step hk hexec, hstep.afterClaim hstays⟩)
    (by
      rintro past t call e ⟨hk, next, hnext, hstays⟩ -
      exact ⟨hk, next, hnext, hstays.append _⟩)
    [] table ⟨hkeyed, row, hfind, hafter⟩ calls
  exact h.2

/-! ## Rows over runs -/

theorem RowStep.continues (h : RowStep key call result (some row) row') :
    ∃ next, row' = some next ∧ Continues row next := by
  cases h with
  | other hkey => exact ⟨row, rfl, Continues.refl row⟩
  | reclaimed hkey hstate =>
    refine ⟨row.archive, rfl, rfl, rfl, le_rfl, Or.inr rfl, fun _ => Or.inr rfl, ?_⟩
    simp [hstate]
  | resumed howner hraw hstate => exact ⟨row, rfl, Continues.refl row⟩
  | confirmed howner hstate => exact ⟨row, rfl, Continues.refl row⟩
  | marked howner htarget hsending hallowed =>
    refine ⟨_, rfl, rfl, rfl, le_rfl, Or.inl rfl, ?_, ?_⟩
    · intro hstate
      simp [hstate, transitions] at hallowed
    · intro hstate
      simp [hstate, transitions] at hallowed
  | claimed howner hstate hattempts hbudget hresult =>
    refine ⟨_, rfl, rfl, rfl, Nat.le_succ _, Or.inl rfl, ?_, ?_⟩
    · intro hcommitted
      simp [hcommitted] at hstate
    · intro harchived
      simp [harchived] at hstate

theorem continues_run (hkeyed : Keyed table)
    (hfind : findOperation key table = some row) (calls : List Call) :
    ∃ next, findOperation key (run exec table calls) = some next ∧ Continues row next := by
  have h := @run_invariant _ _ _ _ exec (fun t => Keyed t ∧
      ∃ next, findOperation key t = some next ∧ Continues row next)
    (by
      rintro t call result t' ⟨hk, next, hnext, hcont⟩ hexec
      have hstep := rowStep_of_exec hk hexec key
      rw [hnext] at hstep
      obtain ⟨last, hlast, hmore⟩ := hstep.continues
      exact ⟨keyed_step hk hexec, last, hlast, hcont.trans hmore⟩)
    table ⟨hkeyed, row, hfind, Continues.refl row⟩ calls
  exact h.2

theorem continues_reached {key : Str} {before after : List Call} {row : Row}
    (hfind : findOperation key (reached before) = some row) :
    ∃ next, findOperation key (reached (before ++ after)) = some next ∧ Continues row next := by
  rw [reached, run_append]
  exact continues_run (reached_keyed before) hfind after

/-! ## Claims -/

theorem RowStep.of_claims {row : Option Row}
    (h : RowStep key call result row row') (hclaims : claims key (call, .ok result) = true) :
    ∃ old new, row = some old ∧ row' = some new ∧ new.state = .sending ∧
      old.state ∈ [State.prepared, .knownUnsent, .reconciledAbsent] ∧
      new.attempts = old.attempts + 1 ∧ result.row.attempts = new.attempts := by
  have hown : call.operation.key = key := by
    obtain ⟨config, operation⟩ := call
    cases operation <;> simp_all [claims, Operation.key]
  cases h with
  | other hkey => exact absurd hown hkey
  | reclaimed hkey hstate => exact absurd hown hkey
  | entered hraw => cases hclaims
  | resumed howner hraw hstate => cases hclaims
  | confirmed howner hstate => cases hclaims
  | marked howner htarget hsending hallowed => cases hclaims
  | claimed howner hstate hattempts hbudget hresult =>
    exact ⟨_, _, rfl, rfl, rfl, hstate, rfl, hresult⟩

theorem released_between {between rest : List (Call × Except Error Record)} {first second : Call}
    {result' : Record}
    (h : outcomes calls = past ++ (first, .ok result) :: between ++ (second, .ok result') :: rest)
    (hfirst : claims key (first, .ok result) = true)
    (hsecond : claims key (second, .ok result') = true) :
    Released key between ∧ result.row.attempts < result'.row.attempts := by
  rw [List.append_assoc] at h
  obtain ⟨before, tail, -, -, htail⟩ := trace_eq_append h
  rw [List.cons_append] at htail
  obtain ⟨table, tail', -, hexec, htrace⟩ := trace_eq_cons htail
  obtain ⟨middle, tail'', -, hmiddle, hlast⟩ := trace_eq_append htrace
  obtain ⟨table', -, -, hexec', -⟩ := trace_eq_cons hlast
  have hkeyed := keyed_step (reached_keyed before) hexec
  obtain ⟨-, row, -, hrow, hsending, -, -, hattempts⟩ :=
    (rowStep_of_exec (reached_keyed before) hexec key).of_claims hfirst
  obtain ⟨next, hnext, hafter⟩ :=
    afterClaim_run hkeyed hrow (Or.inr (Or.inl (by simp [hsending]))) middle
  obtain ⟨later, hlater, hcont⟩ := continues_run hkeyed hrow middle
  have hkeyed' : Keyed (run exec table middle) :=
    @run_invariant _ _ _ _ exec Keyed (fun _ _ _ _ => keyed_step) table hkeyed middle
  obtain ⟨old, new, hold, -, -, hready, hnew, hattempts'⟩ :=
    (rowStep_of_exec hkeyed' hexec' key).of_claims hsecond
  obtain rfl := Option.some.inj (hnext.symm.trans hold)
  obtain rfl := Option.some.inj (hnext.symm.trans hlater)
  constructor
  · rw [hmiddle] at hafter
    rcases hafter with hreleased | hstate | ⟨hstate, -⟩
    · exact hreleased
    · simp only [List.mem_cons, List.not_mem_nil, or_false] at hready hstate
      rcases hready with hs | hs | hs <;> simp [hs] at hstate
    · simp [hstate] at hready
  · have hgrows := hcont.attempts
    omega

/-- The call returned from claiming a send of the key within a budget. -/
def claimsWithin (key : Str) (budget : Nat) : Call × Except Error Record → Bool
  | (⟨_, .claimSend _ operationKey maxAttempts _ _⟩, .ok _) =>
    operationKey = key ∧ maxAttempts ≤ budget
  | _ => false

/-- The attempts of a key. -/
def attemptsOf : Option Row → Nat
  | none => 0
  | some row => row.attempts

theorem RowStep.attempts {row : Option Row} (h : RowStep key call result row row') (budget : Nat) :
    if claimsWithin key budget (call, .ok result) then
      attemptsOf row < budget ∧ attemptsOf row' = attemptsOf row + 1
    else attemptsOf row ≤ attemptsOf row' := by
  have hother : call.operation.key ≠ key → claimsWithin key budget (call, .ok result) = false := by
    intro hkey
    obtain ⟨config, operation⟩ := call
    cases operation <;> simp_all [claimsWithin, Operation.key]
  cases h with
  | other hkey => simp [hother hkey]
  | reclaimed hkey hstate => simp [hother hkey, attemptsOf, Row.archive]
  | entered hraw => simp [claimsWithin, attemptsOf]
  | resumed howner hraw hstate => simp [claimsWithin]
  | confirmed howner hstate => simp [claimsWithin]
  | marked howner htarget hsending hallowed => simp [claimsWithin, attemptsOf]
  | claimed howner hstate hattempts hbudget hresult =>
    simp only [claimsWithin, attemptsOf, true_and, decide_eq_true_eq]
    split
    · rename_i hwithin
      exact ⟨by omega, trivial⟩
    · omega

theorem countP_claimsWithin_le (calls : List Call) (key : Str) (budget : Nat) :
    (outcomes calls).countP (claimsWithin key budget) ≤ budget := by
  have h := @run_trace_invariant _ _ _ _ exec (fun past t => Keyed t ∧
      past.countP (claimsWithin key budget) ≤ budget ∧
      past.countP (claimsWithin key budget) ≤ attemptsOf (findOperation key t))
    (by
      rintro past t call result t' ⟨hk, hbudget, hattempts⟩ hexec
      have hstep := (rowStep_of_exec hk hexec key).attempts budget
      refine ⟨keyed_step hk hexec, ?_⟩
      rw [List.countP_append, List.countP_singleton]
      split at hstep
      · rename_i hclaims
        rw [if_pos hclaims]
        omega
      · rename_i hclaims
        rw [if_neg hclaims]
        omega)
    (by
      rintro past t call e ⟨hk, hbudget, hattempts⟩ -
      have hkind : claimsWithin key budget (call, .error e) = false := by
        obtain ⟨config, operation⟩ := call
        cases operation <;> rfl
      rw [List.countP_append, List.countP_singleton, hkind]
      exact ⟨hk, hbudget, hattempts⟩)
    [] [] ⟨List.nodup_nil, Nat.zero_le _, Nat.zero_le _⟩ calls
  exact h.2.1

theorem countP_claims_le (calls : List Call) (key : Str) :
    (outcomes calls).countP (claims key) ≤ 3 := by
  apply le_trans _ (countP_claimsWithin_le calls key 3)
  apply List.countP_mono_left
  rintro ⟨call, outcome⟩ hmem hclaims
  cases outcome with
  | error e =>
    obtain ⟨config, operation⟩ := call
    cases operation <;> cases hclaims
  | ok result =>
    obtain ⟨before, table', rest, -, hexec⟩ := mem_trace hmem
    obtain ⟨config, operation⟩ := call
    cases operation with
    | claimSend ownerKey operationKey maxAttempts expectedState clock =>
      obtain ⟨row, -, hbudget, -⟩ := claimSend_eq_ok hexec
      simp only [claims, claimsWithin, decide_eq_true_eq] at hclaims ⊢
      exact ⟨hclaims, hbudget⟩
    | prepare => cases hclaims
    | mark => cases hclaims

/-! ## The original request -/

/-- The row keeps the request of every `prepare` of its key that returned. -/
def Original (key : Str) (past : List (Call × Except Error Record)) (row : Row) : Prop :=
  ∃ raw, row.requestSha256 = sha256Digest raw ∧
    (row.requestBytes = raw ∨ row.state = .archived) ∧
    ∀ config ownerKey tool arguments cutoffClock now result,
      ((⟨config, .prepare ownerKey key tool arguments cutoffClock now⟩ : Call), .ok result) ∈ past →
      ownerKey = row.ownerKey ∧ canonicalRequest tool arguments = .ok raw

/-- No `prepare` of the key has returned. -/
def Unprepared (key : Str) (past : List (Call × Except Error Record)) : Prop :=
  ∀ config ownerKey tool arguments cutoffClock now result,
    ((⟨config, .prepare ownerKey key tool arguments cutoffClock now⟩ : Call), .ok result) ∉ past

/-- The row of the key, or its absence, accounts for the calls so far. -/
def Accounts (key : Str) (past : List (Call × Except Error Record)) : Option Row → Prop
  | none => Unprepared key past
  | some row => Original key past row

theorem Original.later {key : Str} {past : List (Call × Except Error Record)} {row row' : Row}
    {entry : Call × Except Error Record} (h : Original key past row) (hcont : Continues row row')
    (hentry : ∀ config ownerKey tool arguments cutoffClock now result,
      entry = ((⟨config, .prepare ownerKey key tool arguments cutoffClock now⟩ : Call),
        .ok result) → ownerKey = row.ownerKey ∧ canonicalRequest tool arguments =
          .ok row.requestBytes ∧ row.state ≠ .archived) :
    Original key (past ++ [entry]) row' := by
  obtain ⟨raw, hdigest, hbytes, hpast⟩ := h
  refine ⟨raw, hcont.requestSha256.trans hdigest, ?_, ?_⟩
  · rcases hcont.requestBytes with hsame | harchived
    · rcases hbytes with hraw | harchived
      · exact Or.inl (hsame.trans hraw)
      · rw [hcont.archived harchived]
        exact Or.inr harchived
    · exact Or.inr harchived
  · intro config ownerKey tool arguments cutoffClock now result hmem
    rw [hcont.ownerKey]
    rcases List.mem_append.1 hmem with hold | hnew
    · exact hpast _ _ _ _ _ _ _ hold
    · obtain ⟨howner, hraw, hlive⟩ := hentry _ _ _ _ _ _ _ (List.mem_singleton.1 hnew).symm
      exact ⟨howner, by rw [hraw, hbytes.resolve_right hlive]⟩

theorem RowStep.accounts {key : Str} {call : Call} {result : Record} {row row' : Option Row}
    {past : List (Call × Except Error Record)} (h : RowStep key call result row row')
    (haccounts : Accounts key past row) : Accounts key (past ++ [(call, .ok result)]) row' := by
  have hcontinues : ∀ old, row = some old → ∃ next, row' = some next ∧ Continues old next := by
    rintro old rfl
    exact h.continues
  cases h with
  | @other call result row hkey =>
    cases row with
    | none =>
      intro config ownerKey tool arguments cutoffClock now result' hmem
      rcases List.mem_append.1 hmem with hold | hnew
      · exact haccounts _ _ _ _ _ _ _ hold
      · cases List.mem_singleton.1 hnew
        exact hkey rfl
    | some row =>
      apply haccounts.later (Continues.refl row)
      rintro config ownerKey tool arguments cutoffClock now result' ⟨rfl⟩
      exact absurd rfl hkey
  | reclaimed hkey hstate =>
    obtain ⟨next, hnext, hcont⟩ := hcontinues _ rfl
    cases hnext
    apply Original.later haccounts hcont
    rintro config ownerKey tool arguments cutoffClock now result' ⟨rfl⟩
    exact absurd rfl hkey
  | @entered config ownerKey tool arguments cutoffClock now result raw hraw =>
    refine ⟨raw, rfl, Or.inl rfl, ?_⟩
    intro config' ownerKey' tool' arguments' cutoffClock' now' result' hmem
    rcases List.mem_append.1 hmem with hold | hnew
    · exact absurd hold (haccounts _ _ _ _ _ _ _)
    · cases List.mem_singleton.1 hnew
      exact ⟨rfl, hraw⟩
  | resumed howner hraw hstate =>
    apply Original.later haccounts (Continues.refl _)
    rintro config' ownerKey' tool' arguments' cutoffClock' now' result' ⟨rfl⟩
    exact ⟨howner.symm, hraw, hstate⟩
  | confirmed howner hstate =>
    apply Original.later haccounts (Continues.refl _)
    rintro config' ownerKey' tool' arguments' cutoffClock' now' result' ⟨⟩
  | marked howner htarget hsending hallowed =>
    obtain ⟨next, hnext, hcont⟩ := hcontinues _ rfl
    cases hnext
    apply Original.later haccounts hcont
    rintro config' ownerKey' tool' arguments' cutoffClock' now' result' ⟨⟩
  | claimed howner hstate hattempts hbudget hresult =>
    obtain ⟨next, hnext, hcont⟩ := hcontinues _ rfl
    cases hnext
    apply Original.later haccounts hcont
    rintro config' ownerKey' tool' arguments' cutoffClock' now' result' ⟨⟩

theorem accounts_error {e : Error} {row : Option Row} (h : Accounts key past row) :
    Accounts key (past ++ [(call, .error e)]) row := by
  cases row with
  | none =>
    intro config ownerKey tool arguments cutoffClock now result hmem
    rcases List.mem_append.1 hmem with hold | hnew
    · exact h _ _ _ _ _ _ _ hold
    · cases List.mem_singleton.1 hnew
  | some row =>
    apply Original.later h (Continues.refl row)
    rintro config ownerKey tool arguments cutoffClock now result ⟨⟩

theorem reached_accounts (calls : List Call) (key : Str) :
    Accounts key (outcomes calls) (findOperation key (reached calls)) := by
  have h := @run_trace_invariant _ _ _ _ exec (fun past t => Keyed t ∧
      Accounts key past (findOperation key t))
    (by
      rintro past t call result t' ⟨hk, haccounts⟩ hexec
      exact ⟨keyed_step hk hexec, (rowStep_of_exec hk hexec key).accounts haccounts⟩)
    (by
      rintro past t call e ⟨hk, haccounts⟩ -
      exact ⟨hk, accounts_error haccounts⟩)
    [] [] ⟨List.nodup_nil, by intro _ _ _ _ _ _ _ hmem; cases hmem⟩ calls
  exact h.2

theorem same_request {config' : Config} {ownerKey' tool tool' : Str} {arguments' : Value}
    {cutoffClock cutoffClock' now' : Int} {result' : Record}
    (h : ((⟨config, .prepare ownerKey key tool arguments cutoffClock now⟩ : Call), .ok result) ∈
      outcomes calls)
    (h' : ((⟨config', .prepare ownerKey' key tool' arguments' cutoffClock' now'⟩ : Call),
      .ok result') ∈ outcomes calls) : ownerKey = ownerKey' ∧
      canonicalRequest tool arguments = canonicalRequest tool' arguments' := by
  have haccounts := reached_accounts calls key
  cases hfind : findOperation key (reached calls) with
  | none =>
    rw [hfind] at haccounts
    exact absurd h (haccounts _ _ _ _ _ _ _)
  | some row =>
    rw [hfind] at haccounts
    obtain ⟨raw, -, -, hpast⟩ := haccounts
    obtain ⟨howner, hraw⟩ := hpast _ _ _ _ _ _ _ h
    obtain ⟨howner', hraw'⟩ := hpast _ _ _ _ _ _ _ h'
    exact ⟨howner.trans howner'.symm, hraw.trans hraw'.symm⟩

theorem RowStep.of_own (h : RowStep key call result (some row) row')
    (hkey : call.operation.key = key) :
    call.operation.owner = row.ownerKey ∧ row.state ≠ .archived := by
  cases h with
  | other hother => exact absurd hkey hother
  | reclaimed hother hstate => exact absurd hkey hother
  | resumed howner hraw hstate => exact ⟨howner.symm, hstate⟩
  | confirmed howner hstate => exact ⟨howner.symm, by simp [hstate]⟩
  | marked howner htarget hsending hallowed =>
    refine ⟨howner.symm, ?_⟩
    intro hstate
    simp [hstate, transitions] at hallowed
  | claimed howner hstate hattempts hbudget hresult =>
    refine ⟨howner.symm, ?_⟩
    intro harchived
    simp [harchived] at hstate

/-- Send custody of one operation key, over every interleaving of calls. -/
theorem send_custody (calls : List Call) (key : Str) :
    -- a second claim finds the first one settled, and gets another attempt
    (∀ past first between second rest result result',
      outcomes calls = past ++ (first, .ok result) :: between ++ (second, .ok result') :: rest →
      claims key (first, .ok result) = true → claims key (second, .ok result') = true →
      Released key between ∧ result.row.attempts < result'.row.attempts) ∧
    -- the claims within a budget are at most that budget, and no budget is above three
    (∀ maxAttempts, (outcomes calls).countP (claimsWithin key maxAttempts) ≤ maxAttempts) ∧
    (outcomes calls).countP (claims key) ≤ 3 ∧
    -- a committed row stays or becomes its tombstone, which stays and refuses every call
    (∀ before after row, calls = before ++ after →
      findOperation key (reached before) = some row → row.state = .committed →
      findOperation key (reached calls) = some row ∨
        findOperation key (reached calls) = some row.archive) ∧
    (∀ before after row, calls = before ++ after →
      findOperation key (reached before) = some row → row.state = .archived →
      findOperation key (reached calls) = some row ∧
        ∀ call, call.operation.key = key → ∃ e, exec call (reached calls) = .error e) ∧
    -- owner and request never change, and no other owner or request gets through
    (∀ before after row, calls = before ++ after →
      findOperation key (reached before) = some row →
      ∃ row', findOperation key (reached calls) = some row' ∧ row'.ownerKey = row.ownerKey ∧
        row'.requestSha256 = row.requestSha256) ∧
    (∀ row call result table', findOperation key (reached calls) = some row →
      call.operation.key = key → exec call (reached calls) = .ok (result, table') →
      call.operation.owner = row.ownerKey) ∧
    (∀ config ownerKey tool arguments cutoffClock now result config' ownerKey' tool' arguments'
        cutoffClock' now' result',
      ((⟨config, .prepare ownerKey key tool arguments cutoffClock now⟩ : Call), .ok result) ∈
        outcomes calls →
      ((⟨config', .prepare ownerKey' key tool' arguments' cutoffClock' now'⟩ : Call),
        .ok result') ∈ outcomes calls →
      ownerKey = ownerKey' ∧
        canonicalRequest tool arguments = canonicalRequest tool' arguments') := by
  refine ⟨?_, fun maxAttempts => countP_claimsWithin_le calls key maxAttempts,
    countP_claims_le calls key, ?_, ?_, ?_, ?_, ?_⟩
  · intro past first between second rest result result' h hfirst hsecond
    exact released_between h hfirst hsecond
  · rintro before after row rfl hfind hstate
    obtain ⟨next, hnext, hcont⟩ := @continues_reached _ _ key before after row hfind
    rw [hnext]
    exact (hcont.committed hstate).imp (congrArg some) (congrArg some)
  · rintro before after row rfl hfind hstate
    obtain ⟨next, hnext, hcont⟩ := @continues_reached _ _ key before after row hfind
    obtain rfl := hcont.archived hstate
    refine ⟨hnext, fun call hkey => ?_⟩
    cases hexec : exec call (reached (before ++ after)) with
    | error e => exact ⟨e, rfl⟩
    | ok p =>
      have hstep := rowStep_of_exec (reached_keyed _) hexec key
      rw [hnext] at hstep
      exact absurd hstate (hstep.of_own hkey).2
  · rintro before after row rfl hfind
    obtain ⟨next, hnext, hcont⟩ := @continues_reached _ _ key before after row hfind
    exact ⟨next, hnext, hcont.ownerKey, hcont.requestSha256⟩
  · intro row call result table' hfind hkey hexec
    have hstep := rowStep_of_exec (reached_keyed calls) hexec key
    rw [hfind] at hstep
    exact (hstep.of_own hkey).1
  · intro config ownerKey tool arguments cutoffClock now result config' ownerKey' tool' arguments'
      cutoffClock' now' result' h h'
    exact same_request h h'

end

end IntegrityGuardian.Operations
