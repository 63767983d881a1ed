import IntegrityGuardian.Canonical
import IntegrityGuardian.Library.Durable
import IntegrityGuardian.Python.Calendar
import IntegrityGuardian.SeedRetention.Choices

/-!
# Archiving and deleting

`_archive_rows` and `main` of `seed_run_retention.py`.  The rows to archive are written
to two directories, the digest of their manifest goes into `state.json`, and only then
are they deleted from the catalog.  An invocation can stop before any of its effects;
what it did to the files stays, and the database rolls back.
-/

namespace IntegrityGuardian.SeedRetention

open Python Library
open Json (ch)

/-- How an invocation ends without a receipt. -/
inductive Failure where
  | runtimeError (message : Str)
  | indexError
  | fileNotFoundError
  /-- The process died, or something it called raised. -/
  | stopped
  deriving DecidableEq

/-- `PROTOCOL`. -/
def protocol : Str := str "integrity-memory-plane.seed-run-retention.v1"

/-- `now.strftime("%Y%m%dT%H%M%SZ")`. -/
def stamp (now : Instant) : Str :=
  let (year, month, day) := now.date
  let clock := now.val / 1000000 % 86400
  zeroPad 4 year ++ zeroPad 2 month ++ zeroPad 2 day ++ ch 'T' :: zeroPad 2 (clock / 3600)
    ++ zeroPad 2 (clock / 60 % 60) ++ zeroPad 2 (clock % 60) ++ str "Z"

/-! ## Tables and their files -/

/-- A table, and what `_archive_rows` derives from the name of its stream. -/
structure Stream (Row : Type) extends Policy Row where
  stream : Str
  protocol : Str
  /-- The source calls it `prefix`. -/
  stem : Str
  /-- `dict(row)`. -/
  columns : Row → List (String × Json)
  encodable : ∀ row, ∀ column ∈ columns row, column.2.encodable = true

@[simp] theorem Text.encodable (text : Text) : (Json.str text.val).encodable = true := by
  rw [Json.encodable, text.property]
  rfl

@[simp] theorem encodable_int (n : Int) : (Json.int n).encodable = true := rfl

section
variable [CaseData]

def catalogStream : Stream CatalogRun where
  toPolicy := catalogPolicy
  stream := str "catalog"
  protocol := protocol
  stem := str "seed-runs"
  columns row :=
    [("run_id", .str row.runId.val), ("profile", .str row.profile.val),
      ("source_namespace", .str row.sourceNamespace.val),
      ("source_digest", .str row.sourceDigest.val), ("catalog_digest", .str row.catalogDigest.val),
      ("event_count", .int row.eventCount), ("inserted_event_count", .int row.insertedEventCount),
      ("existing_event_count", .int row.existingEventCount),
      ("entity_count", .int row.entityCount), ("relation_count", .int row.relationCount),
      ("task_count", .int row.taskCount), ("active_task_count", .int row.activeTaskCount),
      ("lock_count", .int row.lockCount), ("active_lock_count", .int row.activeLockCount),
      ("topic_count", .int row.topicCount), ("home_record_count", .int row.homeRecordCount),
      ("result", .str row.result.val), ("started_at", .str row.startedAt.val),
      ("finished_at", .str row.finishedAt.val)]
  encodable row := by
    simp only [List.forall_mem_cons, Text.encodable, encodable_int, true_and]
    exact nofun

def deltaStream : Stream DeltaRun where
  toPolicy := deltaPolicy
  stream := str "delta"
  protocol := protocol ++ str ".delta"
  stem := str "seed-delta-runs"
  columns row :=
    [("checkpoint_digest", .str row.checkpointDigest.val),
      ("previous_checkpoint_digest", .str row.previousCheckpointDigest.val),
      ("profile", .str row.profile.val), ("event_count", .int row.eventCount),
      ("event_cursor", .int row.eventCursor),
      ("inserted_event_count", .int row.insertedEventCount),
      ("delta_digest", .str row.deltaDigest.val), ("mmr_root", .str row.mmrRoot.val),
      ("verification_mode", .str row.verificationMode.val),
      ("started_at", .str row.startedAt.val), ("finished_at", .str row.finishedAt.val)]
  encodable row := by
    simp only [List.forall_mem_cons, Text.encodable, encodable_int, true_and]
    exact nofun

end

/-- `canonical_json` of a value whose texts UTF-8 can encode. -/
def canonicalJson (value : Json) : Bytes := value.dumps.flatMap utf8Octets

/-- `hashlib.sha256(value).hexdigest()`. -/
def sha256Bytes (value : Bytes) : Str := hex (sha256 value)

/-- The manifest of an archive. -/
@[ext]
structure Manifest where
  protocol : Str
  stream : Str
  createdUtc : Str
  sourceCountBefore : Nat
  archivedRunCount : Nat
  firstFinishedAt : Str
  lastFinishedAt : Str
  payloadName : Str
  payloadBytes : Nat
  payloadSha256 : Str
  previousManifestSha256 : Str
  deriving DecidableEq

/-- The entry `payload` of a manifest. -/
def Manifest.payloadJson (manifest : Manifest) : Json :=
  Json.fields
    [("name", .str manifest.payloadName), ("bytes", .int manifest.payloadBytes),
      ("sha256", .str manifest.payloadSha256)]

def Manifest.json (manifest : Manifest) : Json :=
  Json.fields
    [("protocol", .str manifest.protocol),
      ("stream", .str manifest.stream),
      ("created_utc", .str manifest.createdUtc),
      ("source_count_before", .int manifest.sourceCountBefore),
      ("archived_run_count", .int manifest.archivedRunCount),
      ("first_finished_at", .str manifest.firstFinishedAt),
      ("last_finished_at", .str manifest.lastFinishedAt),
      ("payload", manifest.payloadJson),
      ("previous_manifest_sha256", .str manifest.previousManifestSha256)]

/-- What `atomic_json` writes for a manifest. -/
def Manifest.bytes (manifest : Manifest) : Bytes := canonicalJson manifest.json ++ [10]

/-- `state.json`. -/
structure State where
  protocol : Str
  previousManifestSha256 : Str
  archiveCount : Nat
  lastFinishedAt : Option Str
  updatedUtc : Option Str
  deriving DecidableEq

/-- An archive's file. -/
inductive File (Row : Type) where
  | payload (rows : List Row)
  | manifest (manifest : Manifest)

/-- A directory of archives. -/
structure Root (Row : Type) where
  files : Dict Str (File Row)
  state : Option State

/-- A table and its two directories.  A missing `seed_delta_runs` is read as an empty one. -/
structure Side (Row : Type) where
  rows : List Row
  localRoot : Root Row
  vdbRoot : Root Row

inductive Place where
  | localRoot
  | vdbRoot
  deriving DecidableEq

section
variable {Row : Type}

def Side.root (side : Side Row) : Place → Root Row
  | .localRoot => side.localRoot
  | .vdbRoot => side.vdbRoot

def Side.write (side : Side Row) (name : Str) (file : File Row) : Place → Side Row
  | .localRoot => { side with localRoot.files := side.localRoot.files.insert name file }
  | .vdbRoot => { side with vdbRoot.files := side.vdbRoot.files.insert name file }

/-! ## `_archive_rows` -/

/-- The effects of `_archive_rows`, in the order of its loop and the two states after it. -/
inductive Write where
  | payload (place : Place)
  | manifest (place : Place)
  | state
  | localState
  deriving DecidableEq

/-- The readings of the clock in one call. -/
structure Clock where
  stampedAt : Instant
  createdAt : Instant
  updatedAt : Instant

/-- The digests of one destination. -/
structure Destination where
  payloadSha256 : Str
  manifestSha256 : Str

/-- What `_archive_rows` returns. -/
structure Archive where
  manifest : Manifest
  manifestSha256 : Str
  localCopy : Destination
  vdbCopy : Destination
  state : State

variable (gzip : Bytes → Bytes) (stream : Stream Row)

def Stream.payloadName (stamp : Str) : Str :=
  stream.stem ++ str "-" ++ stamp ++ str ".jsonl.gz"

def Stream.manifestName (stamp : Str) : Str :=
  stream.stem ++ str "-" ++ stamp ++ str ".manifest.json"

/-- The first line of a payload. -/
def Stream.header (rows : List Row) : Json :=
  Json.fields
    [("protocol", .str stream.protocol), ("stream", .str stream.stream),
      ("columns", .arr ((rows.head?.map stream.columns).getD [] |>.map fun column =>
        .str (str column.1)))]

/-- The bytes of a file, with the compression as a parameter. -/
def Stream.bytes : File Row → Bytes
  | .payload rows => gzip (canonicalJson (stream.header rows) ++ [10]
      ++ rows.flatMap fun row => canonicalJson (Json.fields (stream.columns row)) ++ [10])
  | .manifest manifest => manifest.bytes

/-- `sha256_file`. -/
def Stream.sha256File (file : File Row) : Str := sha256Bytes (stream.bytes gzip file)

/-- `safe_copy` into one of the roots; the copy is read back. -/
def safeCopy (stop : Option Write) (write : Write) (place : Place) (name : Str)
    (file : File Row) : Durable (Side Row) Failure Str := do
  if stop = some write then throw .stopped
  modify fun side => side.write name file place
  let side ← get
  match (side.root place).files[name]? with
  | some copy =>
    if stream.sha256File gzip copy ≠ stream.sha256File gzip file then
      throw (.runtimeError (str "copy readback digest mismatch: " ++ name))
    else pure (stream.sha256File gzip copy)
  | none => throw .fileNotFoundError

/-- `_load_state`. -/
def Stream.loadState (root : Root Row) : Except Failure State :=
  match root.state with
  | none => .ok ⟨stream.protocol ++ str ".state", [], 0, none, none⟩
  | some state =>
    if state.protocol ≠ stream.protocol ++ str ".state" then
      .error (.runtimeError (str "Seed retention state protocol mismatch"))
    else .ok state

/-- The manifest of the rows between `first` and `last`. -/
def Stream.manifest (clock : Clock) (rows : List Row) (first last : Row) (beforeCount : Nat)
    (state : State) : Manifest where
  protocol := stream.protocol
  stream := stream.stream
  createdUtc := clock.createdAt.isoformat
  sourceCountBefore := beforeCount
  archivedRunCount := rows.length
  firstFinishedAt := stream.finishedAt first
  lastFinishedAt := stream.finishedAt last
  payloadName := stream.payloadName (stamp clock.stampedAt)
  payloadBytes := (stream.bytes gzip (.payload rows)).length
  payloadSha256 := stream.sha256File gzip (.payload rows)
  previousManifestSha256 := state.previousManifestSha256

/-- The two copies in one root. -/
def copyArchive (stop : Option Write) (clock : Clock) (rows : List Row) (manifest : Manifest)
    (place : Place) : Durable (Side Row) Failure Destination := do
  let payloadSha256 ← safeCopy gzip stream stop (.payload place) place manifest.payloadName
    (.payload rows)
  let manifestSha256 ← safeCopy gzip stream stop (.manifest place) place
    (stream.manifestName (stamp clock.stampedAt)) (.manifest manifest)
  pure ⟨payloadSha256, manifestSha256⟩

/-- The two states, of which the local one is a copy. -/
def saveState (stop : Option Write) (state : State) : Durable (Side Row) Failure Unit := do
  if stop = some .state then throw .stopped
  modify fun side => { side with vdbRoot.state := some state }
  if stop = some .localState then throw .stopped
  modify fun side => { side with localRoot.state := some state }

/-- `_archive_rows`. -/
def archiveRows (stop : Option Write) (clock : Clock) (rows : List Row) (beforeCount : Nat) :
    Durable (Side Row) Failure Archive := do
  let side ← get
  let state ← Durable.lift (stream.loadState side.vdbRoot)
  match rows.head?, rows.getLast? with
  | some first, some last =>
    let manifest := stream.manifest gzip clock rows first last beforeCount state
    let manifestSha256 := stream.sha256File gzip (.manifest manifest)
    let localCopy ← copyArchive gzip stream stop clock rows manifest .localRoot
    let vdbCopy ← copyArchive gzip stream stop clock rows manifest .vdbRoot
    if [localCopy, vdbCopy].any fun copy => copy.payloadSha256 != manifest.payloadSha256 then
      throw (.runtimeError (str "Seed run archive readback mismatch"))
    if [localCopy, vdbCopy].any fun copy => copy.manifestSha256 != manifestSha256 then
      throw (.runtimeError (str "Seed run manifest readback mismatch"))
    let nextState : State :=
      ⟨stream.protocol ++ str ".state", manifestSha256, state.archiveCount + 1,
        some (stream.finishedAt last), some clock.updatedAt.isoformat⟩
    saveState stop nextState
    pure ⟨manifest, manifestSha256, localCopy, vdbCopy, nextState⟩
  | _, _ => throw .indexError

end

/-! ## `main` -/

inductive Status where
  | noop
  | dryRun
  | pass
  deriving DecidableEq

/-- A receipt; one of a run without anything to archive has no archived counts. -/
structure Receipt where
  status : Status
  sourceCount : Nat
  archivedCount : Option Nat
  keptCount : Nat
  deltaSourceCount : Nat
  deltaArchivedCount : Option Nat
  deltaKeptCount : Nat
  archives : Option Archive × Option Archive

/-- Everything an invocation reads and writes. -/
structure World where
  catalog : Side CatalogRun
  delta : Side DeltaRun
  evidence : Dict Str Receipt

/-- Where an invocation can stop: before each of its effects. -/
inductive Point where
  | catalog (write : Write)
  | delta (write : Write)
  | commit
  | seal
  | receipt
  deriving DecidableEq

/-- The arguments of an invocation, its readings of the clock and where it stops. -/
structure Invocation where
  keepRecent : Int
  dryRun : Bool
  catalogClock : Clock
  deltaClock : Clock
  receiptAt : Instant
  stop : Option Point

abbrev Io := Durable World Failure

def Invocation.reach (invocation : Invocation) (point : Point) : Io Unit :=
  if invocation.stop = some point then throw .stopped else pure ()

/-- Where `_archive_rows` stops for the first table. -/
def Invocation.catalogStop (invocation : Invocation) : Option Write :=
  match invocation.stop with
  | some (.catalog write) => some write
  | _ => none

def Invocation.deltaStop (invocation : Invocation) : Option Write :=
  match invocation.stop with
  | some (.delta write) => some write
  | _ => none

def writeReceipt (invocation : Invocation) (receipt : Receipt) : Io Unit := do
  invocation.reach .receipt
  let name := str "seed-run-retention-" ++ stamp invocation.receiptAt ++ str ".json"
  modify fun world => { world with evidence := world.evidence.insert name receipt }

section
variable [CaseData] (gzip : Bytes → Bytes)

/-- `SELECT * FROM seed_catalog_runs ORDER BY finished_at, run_id`. -/
def World.runs (world : World) : List CatalogRun := catalogStream.ordered world.catalog.rows

def World.deltaRuns (world : World) : List DeltaRun := deltaStream.ordered world.delta.rows

/-- Archives the rows of the first table, if there are any. -/
def archiveRuns (invocation : Invocation) (archived : List CatalogRun) (beforeCount : Nat) :
    Io (Option Archive) :=
  if archived = [] then pure none
  else some <$> Durable.zoom World.catalog (fun world side => { world with catalog := side })
    (archiveRows gzip catalogStream invocation.catalogStop invocation.catalogClock archived
      beforeCount)

def archiveDeltaRuns (invocation : Invocation) (archived : List DeltaRun) (beforeCount : Nat) :
    Io (Option Archive) :=
  if archived = [] then pure none
  else some <$> Durable.zoom World.delta (fun world side => { world with delta := side })
    (archiveRows gzip deltaStream invocation.deltaStop invocation.deltaClock archived beforeCount)

/-- `DELETE FROM … WHERE … = ?` for every archived row. -/
def Policy.remaining {Row : Type} (policy : Policy Row) (rows archived : List Row) : List Row :=
  rows.filter fun row => policy.id row ∉ archived.map policy.id

/-- The deletions, their gates and the commit. -/
def deleteRows (invocation : Invocation) (archived : List CatalogRun)
    (deltaArchived : List DeltaRun) (keptCount deltaKeptCount : Nat) : Io Unit := do
  let world ← get
  let remaining := catalogStream.remaining world.catalog.rows archived
  let deltaRemaining := deltaStream.remaining world.delta.rows deltaArchived
  if remaining.length ≠ keptCount then
    throw (.runtimeError (str "Seed retention row-count gate failed"))
  if deltaRemaining.length ≠ deltaKeptCount then
    throw (.runtimeError (str "Seed delta retention row-count gate failed"))
  invocation.reach .commit
  modify fun world =>
    { world with catalog.rows := remaining, delta.rows := deltaRemaining }

/-- The rest of `main` once the rows are archived. -/
def conclude (invocation : Invocation) (rows : List CatalogRun) (deltaRows : List DeltaRun)
    (choice : Finset Str × List CatalogRun) (deltaChoice : Finset Str × List DeltaRun)
    (archives : Option Archive × Option Archive) : Io Unit :=
  if choice.2 = [] ∧ deltaChoice.2 = [] then do
    invocation.reach .seal
    writeReceipt invocation
      ⟨.noop, rows.length, none, choice.1.card, deltaRows.length, none, deltaChoice.1.card,
        (none, none)⟩
  else do
    if !invocation.dryRun then
      deleteRows invocation choice.2 deltaChoice.2 choice.1.card deltaChoice.1.card
      invocation.reach .seal
    writeReceipt invocation
      ⟨if invocation.dryRun then .dryRun else .pass, rows.length, some choice.2.length,
        choice.1.card, deltaRows.length, some deltaChoice.2.length, deltaChoice.1.card, archives⟩

/-- `main`. -/
def main (invocation : Invocation) : Io Unit := do
  let world ← get
  let rows := world.runs
  let choice := chooseRuns rows invocation.keepRecent
  let deltaRows := world.deltaRuns
  let deltaChoice := chooseDeltaRuns deltaRows invocation.keepRecent
  let archive ← archiveRuns gzip invocation choice.2 rows.length
  let deltaArchive ← archiveDeltaRuns gzip invocation deltaChoice.2 deltaRows.length
  conclude invocation rows deltaRows choice deltaChoice (archive, deltaArchive)

end

end IntegrityGuardian.SeedRetention
