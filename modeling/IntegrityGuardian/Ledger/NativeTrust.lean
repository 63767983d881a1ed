import IntegrityGuardian.Ledger.Appends

/-!
# Binding native trust

`bind_native_trust` of `ledger.py`, statement by statement.  Its reads and its
`CREATE TABLE` each stand alone, and only the `INSERT` opens a transaction, so
calls on other connections run between them.  An append that commits after the
events were counted leaves a populated ledger to be bound.
-/

namespace IntegrityGuardian.Ledger

open Python Library

/-- The row of `ledger_native_trust`. -/
structure Binding where
  enrollmentId : Str
  enrollmentJson : Bytes
  deriving DecidableEq

section
variable [UnicodeData] [Ed25519]

/-- `_verify_native_enrollment`: the row to store. -/
def verifyNativeEnrollment (ledger : Identity) (enrollment : Json) (issuerKey : TrustedKey) :
    Except Error Binding := do
  ensure (Schemas.nativeDatabaseEnrollment.accepts enrollment)
    (distrust "native database enrollment schema is invalid")
  let failed := distrust "native database enrollment verification failed"
  let core := (enrollment.pop (str "signature")).pop (str "enrollment_id")
  let enrollmentId ← raising (enrollment.textItem (str "enrollment_id"))
  let tenantId ← raising (enrollment.textItem (str "tenant_id"))
  ensure (tenantId = ledger.tenantId) failed
  let ledgerId ← raising (enrollment.textItem (str "ledger_id"))
  ensure (ledgerId = ledger.ledgerId) failed
  let identity ← raising (digestObject core (str "native-database-enrollment-v1"))
  ensure (enrollmentId = identity) failed
  let signature ← raising (enrollment.item (str "signature"))
  let keyId ← raising (signature.textItem (str "key_id"))
  ensure (keyId = issuerKey.keyId) failed
  let verified ← raising (verifySignature enrollment issuerKey.publicKey)
  ensure (verified = true) failed
  let payload ← raising (canonicalBytes enrollment)
  .ok ⟨enrollmentId, payload⟩

end

/-! ## Statements -/

/-- A call of `bind_native_trust`, by the statement it executes next. -/
inductive Bind where
  /-- `SELECT 1 FROM sqlite_master`. -/
  | lookupTable (binding : Binding)
  /-- `SELECT enrollment_id, enrollment_json FROM ledger_native_trust`. -/
  | lookupRow (binding : Binding)
  /-- `SELECT COUNT(*) FROM ledger_events`. -/
  | count (binding : Binding)
  /-- `CREATE TABLE ledger_native_trust`, which commits by itself. -/
  | create (binding : Binding)
  /-- `INSERT INTO ledger_native_trust`, in a transaction the driver opens for it. -/
  | insert (binding : Binding)
  /-- The `COMMIT` at the end of the `with` block. -/
  | commit (binding : Binding)
  deriving DecidableEq

/-- A ledger file with its native trust table, absent, empty or with its row, and
the bind calls in progress on its connections. -/
structure File where
  database : Database
  nativeTrust : Option (Option Binding)
  binds : Nat → Option Bind

def File.empty : File := ⟨Database.empty, none, fun _ => none⟩

/-- What executing a statement leads to. -/
inductive Progress where
  | continues (next : Bind)
  | returns (enrollmentId : Str)
  | raises (e : Error)

def operational (message : String) : Progress :=
  .raises (.raised (.operationalError (str message)))

/-- Another connection holds the write lock. -/
def Database.lockedFor (db : Database) (connection : Nat) : Bool :=
  match db.writer with
  | none => false
  | some owner => owner != connection

/-- One statement of a bind call on a connection. -/
def executeBind (connection : Nat) (bind : Bind) (file : File) : Progress × File :=
  match bind with
  | .lookupTable binding =>
    match file.nativeTrust with
    | none => (.continues (.count binding), file)
    | some _ => (.continues (.lookupRow binding), file)
  | .lookupRow binding =>
    match file.nativeTrust with
    | none => (operational "no such table: ledger_native_trust", file)
    | some existing =>
      if existing = some binding then (.returns binding.enrollmentId, file)
      else (.raises (distrust "native database trust binding differs"), file)
  | .count binding =>
    if file.database.rows.length ≠ 0 then
      (.raises (distrust "populated ledger requires explicit native trust migration"), file)
    else (.continues (.create binding), file)
  | .create binding =>
    if file.nativeTrust ≠ none then
      (operational "table ledger_native_trust already exists", file)
    else if file.database.lockedFor connection then (.raises locked, file)
    else (.continues (.insert binding), { file with nativeTrust := some none })
  | .insert binding =>
    if file.database.lockedFor connection then (.raises locked, file)
    else
      match file.nativeTrust with
      | none => (operational "no such table: ledger_native_trust", file)
      | some (some _) =>
        (.raises (.raised (.integrityError (str "ledger_native_trust.singleton"))), file)
      | some none =>
        (.continues (.commit binding),
          { file with database := { file.database with writer := some connection } })
  | .commit binding =>
    (.returns binding.enrollmentId,
      { file with
        database := { file.database with writer := none }
        nativeTrust := some (some binding) })

/-- The connection is inside the call, or no longer in one. -/
def File.setBind (file : File) (connection : Nat) (bind : Option Bind) : File :=
  { file with binds := Function.update file.binds connection bind }

/-! ## Schedules -/

section
variable [UnicodeData] [Ed25519]

/-- What happens next on some connection. -/
inductive Action where
  /-- An append call, a transaction of its own. -/
  | call (call : Call)
  /-- `bind_native_trust` is called, and verifies its enrollment. -/
  | bind (connection : Nat) (enrollment : Document) (issuerKey : TrustedKey)
  /-- The next statement of the connection's bind call. -/
  | statement (connection : Nat)

/-- The file after an action; `none` when the connection cannot take it, because
it is inside a bind call, inside a transaction, or in no bind call. -/
def act (ledger : Identity) (file : File) : Action → Option File
  | .call call =>
    if file.binds call.connection = none then
      some { file with database := (step ledger call file.database).2 }
    else none
  | .bind connection enrollment issuerKey =>
    if file.binds connection = none ∧ file.database.writer ≠ some connection then
      match verifyNativeEnrollment ledger enrollment.value issuerKey with
      | .ok binding => some (file.setBind connection (some (.lookupTable binding)))
      | .error _ => some file
    else none
  | .statement connection =>
    match file.binds connection with
    | none => none
    | some bind =>
      match executeBind connection bind file with
      | (.continues next, file') => some (file'.setBind connection (some next))
      | (_, file') => some (file'.setBind connection none)

/-- The file after a schedule. -/
def schedule (ledger : Identity) (file : File) (actions : List Action) : Option File :=
  actions.foldlM (act ledger) file

/-! ## What an action changes -/

omit [UnicodeData] [Ed25519] in
theorem executeBind_rows (connection : Nat) (bind : Bind) (file : File) :
    (executeBind connection bind file).2.database.rows = file.database.rows := by
  unfold executeBind
  repeat' split
  all_goals rfl

omit [UnicodeData] [Ed25519] in
theorem executeBind_binds (connection : Nat) (bind : Bind) (file : File) :
    (executeBind connection bind file).2.binds = file.binds := by
  unfold executeBind
  repeat' split
  all_goals rfl

/-- The call has counted no events and not yet returned. -/
def Bind.counted : Bind → Bool
  | .create _ | .insert _ | .commit _ => true
  | _ => false

variable {action : Action} {file file' final : File} {ledger : Identity} {actions : List Action}
  {connection : Nat}

omit [UnicodeData] [Ed25519] in
theorem executeBind_counted {bind next : Bind}
    (h : executeBind connection bind file = (.continues next, file')) (hnext : next.counted = true) :
    bind.counted = true ∨ file.database.rows = [] := by
  cases bind with
  | lookupTable binding =>
    simp only [executeBind] at h
    split at h
    · cases h
      cases hnext
    · cases h
      cases hnext
  | lookupRow binding =>
    simp only [executeBind, operational] at h
    repeat' split at h
    all_goals cases h
  | count binding =>
    simp only [executeBind] at h
    split at h
    · cases h
    · rename_i hcount
      exact Or.inr (List.eq_nil_of_length_eq_zero (by simpa using hcount))
  | create binding => exact Or.inl rfl
  | insert binding => exact Or.inl rfl
  | commit binding => exact Or.inl rfl

/-- The connection's bind call has counted. -/
def Adopting (file : File) (connection : Nat) : Prop :=
  ∃ bind, file.binds connection = some bind ∧ bind.counted = true

omit [UnicodeData] [Ed25519] in
theorem adopting_setBind {c : Nat} {bind : Option Bind}
    (h : Adopting (file.setBind connection bind) c) :
    Adopting file c ∨ (c = connection ∧ ∃ next, bind = some next ∧ next.counted = true) := by
  obtain ⟨next, hnext, hcounted⟩ := h
  by_cases hc : c = connection
  · subst hc
    simp only [File.setBind, Function.update_self] at hnext
    exact Or.inr ⟨rfl, next, hnext, hcounted⟩
  · simp only [File.setBind, Function.update_of_ne hc] at hnext
    exact Or.inl ⟨next, hnext, hcounted⟩

/-- One action: the rows change in an append call only, and a bind call that has
counted had done so before or does it now, on an empty table. -/
theorem act_cases (h : act ledger file action = some file') : ((∃ call, action = .call call ∧
        file'.database.rows = (step ledger call file.database).2.rows) ∨
      (∀ call, action ≠ .call call) ∧ file'.database.rows = file.database.rows) ∧
    ∀ c, Adopting file' c → Adopting file c ∨ file'.database.rows = [] := by
  cases action with
  | call call =>
    simp only [act] at h
    split at h
    · cases h
      exact ⟨Or.inl ⟨call, rfl, rfl⟩, fun c hc => Or.inl hc⟩
    · cases h
  | bind connection enrollment issuerKey =>
    simp only [act] at h
    split at h
    · split at h
      · cases h
        refine ⟨Or.inr ⟨fun call hcall => (by cases hcall), rfl⟩, fun c hc => ?_⟩
        rcases adopting_setBind hc with hc | ⟨-, next, hnext, hcounted⟩
        · exact Or.inl hc
        · cases hnext
          cases hcounted
      · cases h
        exact ⟨Or.inr ⟨fun call hcall => (by cases hcall), rfl⟩, fun c hc => Or.inl hc⟩
    · cases h
  | statement connection =>
    simp only [act] at h
    cases hbind : file.binds connection with
    | none => simp [hbind] at h
    | some bind =>
      simp only [hbind] at h
      obtain ⟨⟨progress, after⟩, hexec⟩ :
        ∃ p, executeBind connection bind file = p := ⟨_, rfl⟩
      have hrows := executeBind_rows connection bind file
      have hbinds := executeBind_binds connection bind file
      simp only [hexec] at h hrows hbinds
      have hkept : ∀ c, Adopting after c → Adopting file c := by
        rintro c ⟨b, hb, hcounted⟩
        exact ⟨b, hbinds ▸ hb, hcounted⟩
      refine ⟨Or.inr ⟨fun call hcall => (by cases hcall), ?_⟩, fun c hc => ?_⟩
      · cases progress <;> cases h <;> exact hrows
      · cases progress with
        | continues next =>
          cases h
          rcases adopting_setBind hc with hc | ⟨rfl, b, hb, hcounted⟩
          · exact Or.inl (hkept c hc)
          · cases hb
            rcases executeBind_counted hexec hcounted with hbefore | hempty
            · exact Or.inl ⟨bind, hbind, hbefore⟩
            · exact Or.inr (hrows.trans hempty)
        | returns enrollmentId =>
          cases h
          rcases adopting_setBind hc with hc | ⟨-, b, hb, -⟩
          · exact Or.inl (hkept c hc)
          · cases hb
        | raises e =>
          cases h
          rcases adopting_setBind hc with hc | ⟨-, b, hb, -⟩
          · exact Or.inl (hkept c hc)
          · cases hb

/-! ## Whole schedules -/

theorem act_sound (hs : Sound ledger file.database.rows) (h : act ledger file action = some file') :
    Sound ledger file'.database.rows ∧ ∃ new, file'.database.rows = file.database.rows ++ new := by
  rcases (act_cases h).1 with ⟨call, -, hrows⟩ | ⟨-, hrows⟩
  · have hstep := step_outcome call hs
    rw [← hrows] at hstep
    generalize (step ledger call file.database).1 = result at hstep
    cases result with
    | ok digests =>
      obtain ⟨hs', new, hnew, -⟩ := hstep
      exact ⟨hs', new, hnew⟩
    | error e =>
      have hsame : file'.database.rows = file.database.rows := hstep
      rw [hsame]
      exact ⟨hs, [], (List.append_nil _).symm⟩
  · rw [hrows]
    exact ⟨hs, [], (List.append_nil _).symm⟩

/-- No append call commits an event between the count of the connection's bind
call and its commit. -/
def Quiet (ledger : Identity) (connection : Nat) : File → List Action → Prop
  | _, [] => True
  | file, action :: actions =>
    (Adopting file connection → ∀ call, action = .call call →
      (step ledger call file.database).2.rows = file.database.rows) ∧
    ∀ file', act ledger file action = some file' → Quiet ledger connection file' actions

/-- A schedule that is quiet for a connection keeps the table empty while its bind
call has counted. -/
theorem rows_eq_nil_of_quiet (hquiet : Quiet ledger connection file actions)
    (hempty : Adopting file connection → file.database.rows = [])
    (hrun : schedule ledger file actions = some final) (hfinal : Adopting final connection) :
    final.database.rows = [] := by
  induction actions generalizing file with
  | nil =>
    cases hrun
    exact hempty hfinal
  | cons action actions ih =>
    obtain ⟨next, hact, hrest⟩ := Option.bind_eq_some_iff.1 hrun
    apply ih (hquiet.2 next hact) _ hrest
    intro hadopting
    obtain ⟨hrows, hcounted⟩ := act_cases hact
    rcases hcounted connection hadopting with hbefore | hnext
    · rcases hrows with ⟨call, hcall, hrows⟩ | ⟨-, hrows⟩
      · rw [hrows, hquiet.1 hbefore call hcall, hempty hbefore]
      · rw [hrows, hempty hbefore]
    · exact hnext

theorem schedule_grows
    (hs : Sound ledger file.database.rows) (hrun : schedule ledger file actions = some final) :
    ∃ new, final.database.rows = file.database.rows ++ new := by
  induction actions generalizing file with
  | nil =>
    cases hrun
    exact ⟨[], (List.append_nil _).symm⟩
  | cons action actions ih =>
    obtain ⟨next, hact, hrest⟩ := Option.bind_eq_some_iff.1 hrun
    obtain ⟨hs', new, hnew⟩ := act_sound hs hact
    obtain ⟨more, hmore⟩ := ih hs' hrest
    exact ⟨new ++ more, by rw [hmore, hnew, List.append_assoc]⟩

theorem quiet_of_rows_eq_nil (connection : Nat) (hs : Sound ledger file.database.rows)
    (hrun : schedule ledger file actions = some final) (hempty : final.database.rows = []) :
    Quiet ledger connection file actions := by
  induction actions generalizing file with
  | nil => trivial
  | cons action actions ih =>
    obtain ⟨next, hact, hrest⟩ := Option.bind_eq_some_iff.1 hrun
    obtain ⟨hs', new, hnew⟩ := act_sound hs hact
    obtain ⟨more, hmore⟩ := schedule_grows hs' hrest
    have hall : file.database.rows = [] ∧ next.database.rows = [] := by
      rw [hempty] at hmore
      have hnext : next.database.rows = [] := (List.append_eq_nil_iff.1 hmore.symm).1
      rw [hnext] at hnew
      exact ⟨(List.append_eq_nil_iff.1 hnew.symm).1, hnext⟩
    constructor
    · rintro - call rfl
      rcases (act_cases hact).1 with ⟨call', hcall, hrows⟩ | ⟨hother, -⟩
      · cases hcall
        rw [← hrows, hall.1, hall.2]
      · exact absurd rfl (hother call)
    · intro file' hfile'
      obtain rfl := Option.some.inj (hact.symm.trans hfile')
      exact ih hs' hrest

/-- In every schedule, the ledger is empty at the moment a bind call commits its
row exactly when no append committed an event after that call's count. -/
theorem bind_commits_on_empty_iff (ledger : Identity) (actions : List Action)
    (connection : Nat) (binding : Binding) (file file' : File)
    (hrun : schedule ledger File.empty actions = some file)
    (hcommit : file.binds connection = some (.commit binding))
    (hact : act ledger file (.statement connection) = some file') :
    file'.nativeTrust = some (some binding) ∧
      (file'.database.rows = [] ↔ Quiet ledger connection File.empty actions) := by
  have hadopting : Adopting file connection := ⟨_, hcommit, rfl⟩
  have hfile' : file' = (executeBind connection (.commit binding) file).2.setBind connection
      none := by
    simp only [act, hcommit, executeBind] at hact
    exact (Option.some.inj hact).symm
  subst hfile'
  refine ⟨rfl, ?_⟩
  have hrows : ((executeBind connection (.commit binding) file).2.setBind connection
      none).database.rows = file.database.rows := rfl
  rw [hrows]
  constructor
  · exact quiet_of_rows_eq_nil connection (sound_nil ledger) hrun
  · intro hquiet
    apply rows_eq_nil_of_quiet hquiet _ hrun hadopting
    intro _
    rfl

end

/-! ## Two schedules -/

namespace Adoption

def publicKey : Bytes :=
  [3, 161, 7, 191, 243, 206, 16, 190, 29, 112, 221, 24, 231, 75, 192, 153, 103, 228, 214, 48, 155,
    165, 13, 95, 29, 220, 134, 100, 18, 85, 49, 184]

def fingerprint : Bytes :=
  [86, 71, 90, 167, 84, 99, 71, 76, 2, 133, 223, 93, 191, 43, 202, 183, 61, 166, 81, 53, 136, 57,
    233, 183, 116, 129, 178, 234, 177, 7, 112, 140]

def enrollmentHash : Bytes :=
  [167, 210, 178, 0, 36, 125, 172, 124, 80, 215, 140, 4, 139, 81, 243, 206, 206, 74, 200, 146,
    184, 39, 111, 99, 119, 37, 110, 224, 164, 40, 18, 162]

def enrollmentSignature : Bytes :=
  [236, 195, 216, 46, 27, 95, 133, 61, 35, 240, 216, 62, 48, 208, 111, 157, 21, 6, 161, 65, 187,
    99, 65, 254, 133, 54, 185, 250, 108, 49, 169, 56, 243, 145, 212, 253, 12, 218, 243, 15, 246,
    139, 101, 74, 195, 225, 4, 94, 102, 24, 99, 11, 0, 30, 54, 19, 181, 47, 33, 244, 215, 13, 81,
    13]

def eventHash : Bytes :=
  [228, 175, 31, 131, 37, 248, 65, 59, 182, 254, 120, 88, 203, 149, 87, 241, 35, 189, 37, 133, 9,
    111, 7, 64, 251, 34, 176, 174, 145, 0, 88, 34]

def eventSignature : Bytes :=
  [22, 65, 158, 37, 227, 174, 202, 202, 63, 57, 111, 161, 14, 116, 110, 47, 112, 97, 82, 198, 114,
    149, 138, 208, 116, 48, 37, 18, 117, 130, 130, 41, 73, 86, 155, 90, 208, 44, 181, 107, 220,
    217, 76, 150, 23, 154, 116, 152, 179, 90, 45, 26, 60, 17, 100, 15, 229, 196, 102, 145, 211,
    215, 44, 4]

/-- Ed25519 on the enrollment: the issuer's key accepts its signature. -/
@[reducible] def ed25519 : Ed25519 where
  PrivateKey := Empty
  PublicKey := Unit
  sign key := nomatch key
  verify _ signature _ := signature == enrollmentSignature

attribute [local instance] asciiUnicodeData ed25519

def ledger : Identity := ⟨str "tenant:t", str "ledger:l"⟩

def enrolledKey (role : String) : Json := .obj [
  (str "key_id", .str (str "k")),
  (str "role", .str (str role)),
  (str "algorithm", .str (str "ed25519")),
  (str "public_key", .str (base64url publicKey)),
  (str "fingerprint", .str (hashText fingerprint))]

def enrollment : Json := .obj [
  (str "protocol", .str (str "integrity-guardian/native-database-enrollment/v1")),
  (str "instance_id", .str (str "i")),
  (str "tenant_id", .str (str "tenant:t")),
  (str "ledger_id", .str (str "ledger:l")),
  (str "database_id", .str (str "database:" ++ List.replicate 64 (Json.ch '0'))),
  (str "source_key", enrolledKey "database-source"),
  (str "checkpoint_key", enrolledKey "database-checkpoint"),
  (str "created_at", .str (str "2026-01-01T00:00:00Z")),
  (str "enrollment_id", .str (hashText enrollmentHash)),
  (str "signature", signatureObject (str "k") (base64url enrollmentSignature))]

def event : Json := .obj [
  (str "protocol", .str (str "integrity-guardian/ledger-event/v1")),
  (str "event_id", .str (str "event:" ++ hex eventHash)),
  (str "tenant_id", .str (str "tenant:t")),
  (str "source_id", .str (str "s")),
  (str "source_sequence", .int 0),
  (str "event_type", .str (str "observation")),
  (str "recorded_at", .str (str "2026-01-01T00:00:00Z")),
  (str "payload_digest", .str (repeatedDigest '0')),
  (str "previous_event_digest", .null),
  (str "signature", signatureObject (str "k") (base64url eventSignature))]

def bindAction : Action := .bind 1 ⟨enrollment, by decide +kernel⟩ ⟨str "k", ()⟩

def appendAction : Action := .call ⟨2, .append ⟨event, by decide +kernel⟩⟩

/-- The bind call's reads, another connection's first append, and the bind call's writes. -/
def overtaken : List Action :=
  [bindAction, .statement 1, .statement 1, appendAction, .statement 1, .statement 1]

def alone : List Action := [bindAction, .statement 1, .statement 1, .statement 1, .statement 1]

def atCommit (file : File) : Bool :=
  match file.binds 1 with
  | some (.commit _) => true
  | _ => false

theorem evaluated :
    (schedule ledger File.empty overtaken).map (fun file => (file.database.rows.length,
      atCommit file)) = some (1, true) ∧
    (schedule ledger File.empty alone).map (fun file => (file.database.rows.length,
      atCommit file)) = some (0, true) := by
  decide +kernel

theorem exists_commit {actions : List Action} {count : Nat}
    (h : (schedule ledger File.empty actions).map (fun file => (file.database.rows.length,
      atCommit file)) = some (count, true)) :
    ∃ file file' binding, schedule ledger File.empty actions = some file ∧
      file.binds 1 = some (.commit binding) ∧ act ledger file (.statement 1) = some file' ∧
      file'.database.rows.length = count := by
  obtain ⟨file, hfile, hpair⟩ := Option.map_eq_some_iff.1 h
  obtain ⟨hcount, hat⟩ := Prod.mk.inj hpair
  unfold atCommit at hat
  split at hat
  · rename_i binding hbind
    refine ⟨file, (executeBind 1 (.commit binding) file).2.setBind 1 none, binding, hfile, hbind,
      ?_, hcount⟩
    simp only [act, hbind]
    rfl
  · cases hat

/-- An append that commits between the count and the `CREATE TABLE` leaves a
ledger of one event, which is then bound. -/
theorem bind_adopts_populated_ledger :
    ¬∀ (actions : List Action) (connection : Nat) (binding : Binding) (file file' : File),
      schedule ledger File.empty actions = some file →
      file.binds connection = some (.commit binding) →
      act ledger file (.statement connection) = some file' → file'.database.rows = [] := by
  intro h
  obtain ⟨file, file', binding, hrun, hcommit, hact, hcount⟩ := exists_commit evaluated.1
  rw [h overtaken 1 binding file file' hrun hcommit hact] at hcount
  cases hcount

/-- Without other connections the bound ledger is empty. -/
theorem bind_alone_commits_on_empty : ∃ (file' : File) (binding : Binding), file'.nativeTrust = some (some binding) ∧
    file'.database.rows = [] ∧ Quiet ledger 1 File.empty alone := by
  obtain ⟨file, file', binding, hrun, hcommit, hact, hcount⟩ := exists_commit evaluated.2
  have hempty := List.eq_nil_of_length_eq_zero hcount
  obtain ⟨hbound, hiff⟩ :=
    bind_commits_on_empty_iff ledger alone 1 binding file file' hrun hcommit hact
  exact ⟨file', binding, hbound, hempty, hiff.1 hempty⟩

end Adoption

end IntegrityGuardian.Ledger
