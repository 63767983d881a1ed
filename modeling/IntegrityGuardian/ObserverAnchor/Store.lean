import IntegrityGuardian.ObserverAnchor.Record

/-!
# The observer-anchor store

One root directory with its anchor file, and any number of store handles on it.
`initialize`, `open` and `advance` hold the lock of the root from their first look
at the file to their last, so each is one step.
-/

namespace IntegrityGuardian.ObserverAnchor

open Python Library

/-! ## The file -/

/-- Where an operation on the root or on the file fails by itself. -/
inductive Fault where
  /-- `_prepare_root` or `_lock_root`. -/
  | lock
  /-- `_read_record`, the first time. -/
  | read
  /-- `_write_record`, before the rename. -/
  | write
  /-- `_write_record`, after the rename. -/
  | sync
  /-- `_read_record`, after the write. -/
  | reread
  /-- `unlock`. -/
  | unlock
  deriving DecidableEq

/-- `_read_record`; `failing` if the system refuses the file. -/
def readRecord (file : Option Bytes) (failing : Bool) : Except Error Json := do
  ensure (failing = false) (rejected "file")
  match file with
  | none => .error (.observerAnchor (str "observer anchor file is missing"))
  | some payload =>
    ensure (payload.length ≤ maxObserverAnchorBytes)
      (.observerAnchor (str "observer anchor file is unsafe"))
    let record ← (parseJsonStrict payload).mapError .canonicalization
    let notCanonical : Error := .observerAnchor (str "observer anchor file is not canonical")
    match record with
    | .obj members =>
      let canonical ← raising (canonicalBytes (.obj members))
      ensure (canonical = payload) notCanonical
      .ok (.obj members)
    | _ => .error notCanonical

/-- `_write_record` up to the rename: what it puts in the place of the file. -/
def encodeRecord (record : Json) (failing : Bool) : Except Error Bytes := do
  let payload ← raising (canonicalBytes record)
  ensure (payload.length ≤ maxObserverAnchorBytes)
    (.observerAnchor (str "observer anchor record is too large"))
  ensure (failing = false) (rejected "atomic write")
  .ok payload

/-! ## Handles -/

/-- `ObserverAnchorStore`. -/
structure Store where
  storeId : Str
  record : Json
  externallyPinned : Bool
  closed : Bool

section
variable [UnicodeData]

/-- The property `cursor`. -/
def Store.cursor (store : Store) : Except Error Cursor := do
  ensure (store.closed = false) (.observerAnchor (str "observer anchor store is closed"))
  cursorOf store.record

/-- `advance` up to the lock. -/
def Store.admit (store : Store) (subjectKind : Str) (fault : Option Fault) :
    Except Error SubjectKind := do
  ensure (store.closed = false) (.observerAnchor (str "observer anchor store is closed"))
  let kind ← SubjectKind.ofText subjectKind
  ensure (fault ≠ some .lock) (rejected "local lock")
  .ok kind

/-- `advance` from the lock to the rename: the record it replaces, the next one, and its
bytes. -/
def Store.prepare (store : Store) (file : Option Bytes) (expectedCursor : Cursor)
    (kind : SubjectKind) (subject : Json) (createdAt : Str) (fault : Option Fault) :
    Except Error (Json × Json × Bytes) := do
  let stored ← readRecord file (fault = some .read)
  let current ← verifyObserverAnchorRecord stored store.storeId none
  let currentCursor ← cursorOf current
  let ownCursor ← store.cursor
  ensure (currentCursor = expectedCursor ∧ currentCursor = ownCursor) (rejected "stale cursor")
  let sequence ← raising (current.intItem (str "sequence"))
  ensure (sequence < maxObserverAnchorSequence)
    (.observerAnchor (str "observer anchor sequence exhausted"))
  let created ← parseTime createdAt "creation time"
  let currentCreatedAt ← raising (current.textItem (str "created_at"))
  let currentCreated ← parseTime currentCreatedAt "current creation time"
  ensure (currentCreated ≤ created) (.observerAnchor (str "observer anchor clock rollback"))
  let digest ← raising (observerAnchorRecordDigest current)
  let next ← newRecord store.storeId (sequence + 1) (some digest) kind subject createdAt
  let payload ← encodeRecord next (fault = some .write)
  .ok (current, next, payload)

/-- `advance` after the rename: the handle with the record it reads back. -/
def Store.confirm (store : Store) (file : Option Bytes) (current next : Json)
    (fault : Option Fault) : Except Error Store := do
  ensure (fault ≠ some .sync) (rejected "atomic write")
  let stored ← readRecord file (fault = some .reread)
  let digest ← raising (observerAnchorRecordDigest current)
  let persisted ← verifyObserverAnchorRecord stored store.storeId (some digest)
  ensure (persisted.sortKeys = next.sortKeys)
    (.observerAnchor (str "observer anchor post-write mismatch"))
  .ok { store with record := persisted, externallyPinned := true }

/-! ## The root -/

structure World where
  /-- The root directory exists. -/
  made : Bool
  /-- The content of `observer-anchor.json`. -/
  file : Option Bytes
  /-- The records renamed into place, in order. -/
  published : List Json
  /-- The handles of all processes. -/
  stores : List Store

namespace World

def start : World := ⟨false, none, [], []⟩

/-- `os.rename` of the written record over the anchor file. -/
def rename (w : World) (record : Json) (payload : Bytes) : World :=
  { w with file := some payload, published := w.published ++ [record] }

/-- `initialize` with the root directory made, up to the rename. -/
def prepareInitial (storeId : Str) (kind : SubjectKind) (subject : Json) (createdAt : Str)
    (fault : Option Fault) : Except Error (Json × Bytes) := do
  ensure (fault ≠ some .lock) (rejected "local lock")
  let record ← newRecord storeId 0 none kind subject createdAt
  let payload ← encodeRecord record (fault = some .write)
  .ok (record, payload)

/-- `initialize` after the rename; it ignores a failing `unlock`. -/
def confirmInitial (file : Option Bytes) (storeId : Str) (fault : Option Fault) :
    Except Error Store := do
  ensure (fault ≠ some .sync) (rejected "atomic write")
  let stored ← readRecord file (fault = some .reread)
  let persisted ← verifyObserverAnchorRecord stored storeId none
  .ok ⟨storeId, persisted, true, false⟩

/-- `ObserverAnchorStore.initialize`. -/
def initialize_ (w : World) (storeId subjectKind : Str) (subject : Json) (createdAt : Str)
    (fault : Option Fault) : Except Error (Option Cursor) × World :=
  match SubjectKind.ofText subjectKind with
  | .error e => (.error e, w)
  | .ok kind =>
    if w.made then (.error (rejected "root"), w)
    else
      let made := { w with made := true }
      match prepareInitial storeId kind subject createdAt fault with
      | .error e => (.error e, made)
      | .ok (record, payload) =>
        let renamed := made.rename record payload
        match confirmInitial renamed.file storeId fault with
        | .error e => (.error e, renamed)
        | .ok store => (.ok none, { renamed with stores := renamed.stores ++ [store] })

/-- What `ObserverAnchorStore.open` returns. -/
def opened (w : World) (storeId : Str) (expectedCursor : Option Cursor)
    (allowUnpinned : Bool) (fault : Option Fault) : Except Error Store := do
  ensure (expectedCursor.isSome = true ∨ allowUnpinned = true)
    (.observerAnchor (str "observer anchor external cursor required"))
  ensure (∀ cursor ∈ expectedCursor, cursor.storeId = storeId)
    (.observerAnchor (str "observer anchor external cursor mismatch"))
  ensure (w.made = true) (rejected "root")
  ensure (fault ≠ some .lock) (rejected "local lock")
  let stored ← readRecord w.file (fault = some .read)
  let record ← verifyObserverAnchorRecord stored storeId none
  let cursor ← cursorOf record
  ensure (∀ expected ∈ expectedCursor, cursor = expected) (rejected "external cursor")
  .ok ⟨storeId, record, expectedCursor.isSome, false⟩

/-- `ObserverAnchorStore.open`; it ignores a failing `unlock`. -/
def open_ (w : World) (storeId : Str) (expectedCursor : Option Cursor) (allowUnpinned : Bool)
    (fault : Option Fault) : Except Error (Option Cursor) × World :=
  match w.opened storeId expectedCursor allowUnpinned fault with
  | .error e => (.error e, w)
  | .ok store => (.ok none, { w with stores := w.stores ++ [store] })

/-- `advance` of the given handle.  A failing `unlock` raises whatever came before it. -/
def advance (w : World) (handle : Nat) (expectedCursor : Cursor) (subjectKind : Str)
    (subject : Json) (createdAt : Str) (fault : Option Fault) :
    Except Error (Option Cursor) × World :=
  let released (result : Except Error Cursor) : Except Error (Option Cursor) :=
    if fault = some .unlock then .error .localLock else result.map some
  match w.stores[handle]? with
  -- no such object
  | none => (.error (.exc .attributeError), w)
  | some store =>
    match store.admit subjectKind fault with
    | .error e => (.error e, w)
    | .ok kind =>
      match store.prepare w.file expectedCursor kind subject createdAt fault with
      | .error e => (released (.error e), w)
      | .ok (current, next, payload) =>
        let renamed := w.rename next payload
        match store.confirm renamed.file current next fault with
        | .error e => (released (.error e), renamed)
        | .ok store' =>
          (released store'.cursor, { renamed with stores := renamed.stores.set handle store' })

/-- `close` of the given handle. -/
def close (w : World) (handle : Nat) : World :=
  { w with stores := w.stores.modify handle fun store => { store with closed := true } }

end World

/-! ## Calls -/

inductive Call where
  | initialize_ (storeId subjectKind : Str) (subject : Json) (createdAt : Str)
      (fault : Option Fault)
  | open_ (storeId : Str) (expectedCursor : Option Cursor) (allowUnpinned : Bool)
      (fault : Option Fault)
  | advance (handle : Nat) (expectedCursor : Cursor) (subjectKind : Str) (subject : Json)
      (createdAt : Str) (fault : Option Fault)
  | close (handle : Nat)

/-- One call of any process: what it returns or raises, and the world after it. -/
def World.step (w : World) : Call → Except Error (Option Cursor) × World
  | .initialize_ storeId subjectKind subject createdAt fault =>
    w.initialize_ storeId subjectKind subject createdAt fault
  | .open_ storeId expectedCursor allowUnpinned fault =>
    w.open_ storeId expectedCursor allowUnpinned fault
  | .advance handle expectedCursor subjectKind subject createdAt fault =>
    w.advance handle expectedCursor subjectKind subject createdAt fault
  | .close handle => (.ok none, w.close handle)

/-- A call as a step of a run: it may raise, and its world is kept even then. -/
def perform (call : Call) (w : World) :
    Except Empty (Except Error (Option Cursor) × World) :=
  .ok (w.step call)

/-- The world after any interleaving of calls, from an empty path. -/
def reached (calls : List Call) : World := run perform World.start calls

/-- The cursor an entry of a trace has advanced from, if it is an `advance` that returned. -/
def advancedFrom : Call × Except Empty (Except Error (Option Cursor)) → Option Cursor
  | (.advance _ expectedCursor _ _ _ _, .ok (.ok _)) => some expectedCursor
  | _ => none

/-- The cursors the advances that returned started from, in the order of a run. -/
def advancedCursors (calls : List Call) : List Cursor :=
  (trace perform World.start calls).filterMap advancedFrom

end

end IntegrityGuardian.ObserverAnchor
