import IntegrityGuardian.Library.Durable
import IntegrityGuardian.MemoryPlane.Projection
import IntegrityGuardian.Python.JsonFields

/-!
# The compact index

`p2_compact_index.py` cuts a log of events into buckets of cursors and seals each
into a compressed payload and a manifest that names its predecessor.  Files are
written once and never changed; only `state.json` is replaced, at the end of a
build.  A build that raises, or whose process dies, leaves the files it wrote.
-/

namespace IntegrityGuardian.MemoryPlane

open Python Library

/-- How a build fails. -/
inductive Failure where
  | raised (e : Exc)
  | runtimeError (message : Str)
  /-- The process died. -/
  | crashed
  deriving DecidableEq

/-- `PROTOCOL`. -/
def protocol : Str := str "integrity-memory-plane.p2-compact-index.v1"

/-- `sha256_bytes`. -/
def sha256Bytes (value : Bytes) : Str := hex (sha256 value)

/-- An element of the source: what is read of its envelope and of its source reference. -/
structure Item where
  tenantId : Str
  namespaceId : Str
  edgeId : Str
  cursor : Int
  eventUid : Str
  tsUtc : Str
  payloadSha256 : Json
  envelopeSha256 : Json
  event : Event
  source : Json
  batchSha256 : Str
  sourceFirst : Int
  source_wf : source.wf = true

/-- `_identity` of one item. -/
def Item.identity (item : Item) : Str × Str × Str := (item.tenantId, item.namespaceId, item.edgeId)

/-! ## Payloads -/

/-- The differences along a list, from `previous` on. -/
def deltas : Int → List Int → List Int
  | _, [] => []
  | previous, cursor :: cursors => (cursor - previous) :: deltas cursor cursors

/-- `encode_deltas`. -/
def encodeDeltas (cursors : List Int) (base : Int) : Except Failure (List Int) :=
  let ordered := cursors.dedup.insertionSort (· ≤ ·)
  if ordered.any (· < base) then
    .error (.raised (.valueError (str "posting cursor precedes bucket base")))
  else .ok (deltas base ordered)

/-- `int.from_bytes(octets, "big")`. -/
def fromBytes (octets : Bytes) : Nat := octets.foldl (fun n b => n * 256 + b.toNat) 0

section
variable [UnicodeData]

/-- `simhash64`. -/
def simhash64 (body : Str) : Nat :=
  let values := (tokens body).map fun token => fromBytes ((sha256 (token.flatMap utf8Octets)).take 8)
  ((List.range 64).map fun bit =>
    if 0 ≤ (values.map fun value => if value.testBit bit then (1 : Int) else -1).sum then 2 ^ bit
    else 0).sum

/-- `vector_bands`. -/
def vectorBands (value : Nat) : List Str :=
  (List.range 4).map fun band =>
    Json.decimal band ++ str ":" ++ hexPad 4 (value / 2 ^ (band * 16) % 2 ^ 16)

/-- The terms of a body that are indexed: no long hexadecimal or decimal numbers. -/
def indexTerms (body : Str) : List Str :=
  (tokens body).dedup.filter fun term =>
    !(decide (32 ≤ term.length) && term.all CodePoint.isLowerHex)
      && !(decide (8 ≤ term.length) && term.all Json.isDigit)

/-- The graph keys of an event. -/
def graphKeys (event : Event) : List Str :=
  (eventNodes event).map fun node => node.1 ++ str ":" ++ casefold node.2.strip

/-- One of the three posting lists: for each key in order the cursors of its items. -/
def postings (keyed : List (Int × List Str)) (base : Int) : Except Failure (List Json) :=
  ((keyed.flatMap Prod.snd).dedup.insertionSort (· ≤ ·)).mapM fun key => do
    let values ← encodeDeltas ((keyed.filter fun item => key ∈ item.2).map Prod.fst) base
    .ok (.arr [.str key, .arr (values.map .int)])

/-- `canonical_json`. -/
def canonicalJson (value : Json) : Except Failure Bytes :=
  (canonicalBytes value).mapError .raised

/-- The body of an event, with its cursor. -/
def itemBody (item : Item) : Except Failure (Int × Str) := do
  let body ← (eventBody item.event).mapError .raised
  .ok (item.cursor, body)

/-- The line an item adds to `semantic_events_sha256`. -/
def semanticLine (item : Item) : Except Failure Bytes :=
  canonicalJson (.arr [.int item.cursor, .str item.eventUid, item.payloadSha256,
    item.envelopeSha256])

/-- The second result of `compact_payload`. -/
structure Statistics where
  uidEntries : Nat
  ftsTerms : Nat
  graphNodes : Nat
  vectorBands : Nat
  uncompressedBytes : Nat
  compressedBytes : Nat

/-- `compact_payload`, with the compression as a parameter. -/
def compactPayload (gzip : Bytes → Bytes) (events : List Item) (bucketStart : Int) :
    Except Failure (Bytes × Statistics) := do
  let semantic ← events.mapM semanticLine
  let bodies ← events.mapM itemBody
  ensure (events.map Item.eventUid).Nodup
    (.runtimeError (str "duplicate event_uid in compact bucket"))
  let fts ← postings (bodies.map fun body => (body.1, indexTerms body.2)) bucketStart
  let graph ← postings (events.map fun item => (item.cursor, graphKeys item.event)) bucketStart
  let vector ← postings (bodies.map fun body => (body.1, vectorBands (simhash64 body.2))) bucketStart
  let uids := (events.map fun item => toLex (item.eventUid, item.cursor)).insertionSort (· ≤ ·)
  let raw ← canonicalJson (Json.fields
    [("protocol", .str (protocol ++ str ".payload")),
      ("bucket_start", .int bucketStart),
      ("uids", .arr (uids.map fun uid => .arr [.str (ofLex uid).1, .int (ofLex uid).2])),
      ("fts", .arr fts),
      ("graph", .arr graph),
      ("vector_lsh16x4", .arr vector),
      ("semantic_events_sha256", .str (sha256Bytes semantic.flatten)),
      ("production_authority", .bool false)])
  let raw := raw ++ [10]
  .ok (gzip raw,
    { uidEntries := uids.length
      ftsTerms := fts.length
      graphNodes := graph.length
      vectorBands := vector.length
      uncompressedBytes := raw.length
      compressedBytes := (gzip raw).length })

end

/-! ## Manifests -/

/-- What is fixed during one build. -/
structure Build where
  tenantId : Str
  namespaceId : Str
  edgeId : Str
  bucketSpan : Nat
  rawHead : Int
  sealHead : Bool

def Build.identity (build : Build) : Str × Str × Str :=
  (build.tenantId, build.namespaceId, build.edgeId)

/-- `bucket_id * bucket_span + 1`. -/
def Build.bucketStart (build : Build) (bucketId : Nat) : Int := bucketId * build.bucketSpan + 1

/-- `(bucket_id + 1) * bucket_span`. -/
def Build.bucketEnd (build : Build) (bucketId : Nat) : Int := (bucketId + 1) * build.bucketSpan

/-- `raw_head >= bucket_end`. -/
def Build.isComplete (build : Build) (bucketId : Nat) : Bool :=
  build.bucketEnd bucketId ≤ build.rawHead

/-- `sources[batch_sha256] = source`: a known batch keeps its place. -/
def setSource (sources : List (Str × Int × Json)) (item : Item) : List (Str × Int × Json) :=
  if item.batchSha256 ∈ sources.map Prod.fst then
    sources.map fun entry =>
      if entry.1 = item.batchSha256 then (entry.1, item.sourceFirst, item.source) else entry
  else sources ++ [(item.batchSha256, item.sourceFirst, item.source)]

/-- The sources of a bucket in the order of their first cursors. -/
def bucketSources (events : List Item) : List Json :=
  ((events.foldl setSource []).insertionSort fun a b => a.2.1 ≤ b.2.1).map fun entry => entry.2.2

def Statistics.json (statistics : Statistics) : Json :=
  Json.fields
    [("uid_entries", .int statistics.uidEntries), ("fts_terms", .int statistics.ftsTerms),
      ("graph_nodes", .int statistics.graphNodes), ("vector_bands", .int statistics.vectorBands),
      ("uncompressed_bytes", .int statistics.uncompressedBytes),
      ("compressed_bytes", .int statistics.compressedBytes)]

/-- The fields of a manifest; `first` and `last` are the ends of the bucket's events. -/
def manifestFields (build : Build) (bucketId : Nat) (events : List Item) (first last : Item)
    (payload : Bytes) (statistics : Statistics) (previous : Str) : List (String × Json) :=
  [("protocol", .str (protocol ++ str ".manifest")),
    ("tenant_id", .str build.tenantId),
    ("namespace", .str build.namespaceId),
    ("edge_id", .str build.edgeId),
    ("bucket_id", .int bucketId),
    ("bucket_span", .int build.bucketSpan),
    ("bucket_start", .int (build.bucketStart bucketId)),
    ("bucket_end", .int (build.bucketEnd bucketId)),
    ("sealed_partial_head", .bool !build.isComplete bucketId),
    ("first_cursor", .int first.cursor),
    ("last_cursor", .int last.cursor),
    ("first_ts_utc", .str ((events.map Item.tsUtc).foldl min first.tsUtc)),
    ("last_ts_utc", .str ((events.map Item.tsUtc).foldl max first.tsUtc)),
    ("event_count", .int events.length),
    ("payload", Json.fields
      [("sha256", .str (sha256Bytes payload)), ("bytes", .int payload.length)]),
    ("statistics", statistics.json),
    ("sources", .arr (bucketSources events)),
    ("previous_manifest_sha256", .str previous),
    ("production_authority", .bool false)]

/-- The bytes of a manifest. -/
def manifestBytes (build : Build) (bucketId : Nat) (events : List Item) (first last : Item)
    (payload : Bytes) (statistics : Statistics) (previous : Str) : Except Failure Bytes := do
  let bytes ← canonicalJson (Json.fields
    (manifestFields build bucketId events first last payload statistics previous))
  .ok (bytes ++ [10])

/-! ## Files -/

/-- `state.json`. -/
structure State where
  tenantId : Str
  namespaceId : Str
  edgeId : Str
  bucketSpan : Nat
  rawHead : Int
  lastCovered : Int
  eventCount : Nat
  segmentCount : Nat
  manifestHead : Str
  sealedIds : Finset Nat

/-- The files written once: `objects/sha256/…` and `segments/…`. -/
inductive Path where
  | object (digest : Str)
  | segment (bucketId : Nat) (digest : Str)
  deriving DecidableEq

instance : Std.TransCmp (orderCmp (κ := Nat ×ₗ Str)) := inferInstance

/-- What the directory of an index holds. -/
structure Disk where
  objects : Dict Str Bytes
  segments : Dict (Nat ×ₗ Str) Bytes
  state : Option State

def Disk.empty : Disk := ⟨∅, ∅, none⟩

def Disk.read (disk : Disk) : Path → Option Bytes
  | .object digest => disk.objects[digest]?
  | .segment bucketId digest => disk.segments[toLex (bucketId, digest)]?

def Disk.write (disk : Disk) (value : Bytes) : Path → Disk
  | .object digest => { disk with objects := disk.objects.insert digest value }
  | .segment bucketId digest =>
    { disk with segments := disk.segments.insert (toLex (bucketId, digest)) value }

/-- The disk and when the process dies: after how many more files, and how much of
the next file reaches the disk. -/
structure Writer where
  disk : Disk
  fuse : Option (Nat × Option Nat)

abbrev Io := Durable Writer Failure

/-- The file a process that dies inside `immutable_write` leaves. -/
def Disk.tear (disk : Disk) (path : Path) (value : Bytes) (torn : Option Nat) : Disk :=
  match disk.read path, torn with
  | none, some length => disk.write (value.take length) path
  | _, _ => disk

/-- The process goes on to the next file, or dies in it. -/
def burn (path : Path) (value : Bytes) : Io Unit := do
  let writer ← get
  match writer.fuse with
  | none => pure ()
  | some (0, torn) => do
    set ({ writer with disk := writer.disk.tear path value torn } : Writer)
    throw .crashed
  | some (rest + 1, torn) => set ({ writer with fuse := some (rest, torn) } : Writer)

/-- `immutable_write`. -/
def immutableWrite (path : Path) (value : Bytes) : Io Str := do
  burn path value
  let writer ← get
  match writer.disk.read path with
  | some existing =>
    if sha256Bytes existing = sha256Bytes value then pure (sha256Bytes value)
    else throw (.runtimeError (str "immutable object collision: "))
  | none => do
    set ({ writer with disk := writer.disk.write value path } : Writer)
    pure (sha256Bytes value)

/-! ## Building -/

/-- An element of `created_segments`. -/
structure Created where
  bucketId : Nat
  firstCursor : Int
  lastCursor : Int
  events : Nat
  payloadBytes : Nat
  manifestSha256 : Str
  payloadSha256 : Str

/-- The variables `seal_bucket` updates. -/
structure Progress where
  sealedIds : Finset Nat
  previous : Str
  eventCount : Nat
  segmentCount : Nat
  lastCovered : Int
  created : List Created
  peakBucketEvents : Nat

section
variable [UnicodeData] (gzip : Bytes → Bytes)

/-- The manifest of a payload, as an object and as the reference of its bucket. -/
def writeManifest (build : Build) (bucketId : Nat) (events : List Item) (first last : Item)
    (payload : Bytes) (statistics : Statistics) (previous : Str) : Io Str := do
  let manifest ← Durable.lift
    (manifestBytes build bucketId events first last payload statistics previous)
  let manifestSha ← immutableWrite (.object (sha256Bytes manifest)) manifest
  let _ ← immutableWrite (.segment bucketId manifestSha) manifest
  pure manifestSha

/-- `seal_bucket`. -/
def sealBucket (build : Build) (bucketId : Nat) (events : List Item) (progress : Progress) :
    Io Progress :=
  if bucketId ∈ progress.sealedIds then pure progress
  else if !build.isComplete bucketId && !build.sealHead then pure progress
  else
    match events.head?, events.getLast? with
    | some first, some last =>
      if first.cursor ≤ progress.lastCovered then
        throw (.runtimeError (str "new compact bucket overlaps sealed coverage"))
      else do
        let (payload, statistics) ←
          Durable.lift (compactPayload gzip events (build.bucketStart bucketId))
        let payloadSha ← immutableWrite (.object (sha256Bytes payload)) payload
        let manifestSha ← writeManifest build bucketId events first last payload statistics
          progress.previous
        pure
          { sealedIds := insert bucketId progress.sealedIds
            previous := manifestSha
            eventCount := progress.eventCount + events.length
            segmentCount := progress.segmentCount + 1
            lastCovered := last.cursor
            created := progress.created ++ [⟨bucketId, first.cursor, last.cursor, events.length,
              payload.length, manifestSha, payloadSha⟩]
            peakBucketEvents := max progress.peakBucketEvents events.length }
    | _, _ => throw (.runtimeError (str "unsealed compact bucket has no events"))

/-- The variables of the loop over the source. -/
structure Loop where
  bucketId : Option Nat
  bucket : List Item
  previousCursor : Int
  progress : Progress

/-- The bucket before an item is added: where another one begins, the last is sealed. -/
def turnBucket (build : Build) (bucketId : Nat) (loop : Loop) : Io (List Item × Progress) :=
  match loop.bucketId with
  | none => pure (loop.bucket, loop.progress)
  | some current =>
    if bucketId ≠ current then do
      let progress ← sealBucket gzip build current loop.bucket loop.progress
      pure ([], progress)
    else pure (loop.bucket, loop.progress)

/-- One round of the loop. -/
def feedItem (build : Build) (item : Item) (loop : Loop) : Io Loop :=
  if item.identity ≠ build.identity then
    throw (.runtimeError (str "compact stream crossed an ordered edge identity"))
  else if item.cursor ≤ loop.previousCursor ∨ build.rawHead < item.cursor then
    throw (.runtimeError (str "source cursors are not unique, ascending, and head-bounded"))
  else do
    let bucketId := ((item.cursor - 1) / build.bucketSpan).toNat
    let (bucket, progress) ← turnBucket gzip build bucketId loop
    pure
      { bucketId := some bucketId
        bucket := if bucketId ∈ progress.sealedIds then bucket else bucket ++ [item]
        previousCursor := item.cursor
        progress }

/-- The loop over the source. -/
def feed (build : Build) : List Item → Loop → Io Loop
  | [], loop => pure loop
  | item :: items, loop => do
    let loop ← feedItem gzip build item loop
    feed build items loop

/-- `_load_state`. -/
def loadState (build : Build) (disk : Disk) : Except Failure Progress :=
  match disk.state with
  | none => .ok ⟨∅, [], 0, 0, 0, [], 0⟩
  | some state => do
    ensure ((state.tenantId, state.namespaceId, state.edgeId) = build.identity ∧
      state.bucketSpan = build.bucketSpan)
      (.runtimeError (str "compact index state identity/policy mismatch"))
    .ok ⟨state.sealedIds, state.manifestHead, state.eventCount, state.segmentCount,
      state.lastCovered, [], 0⟩

/-- What `build_store_stream` returns. -/
structure Receipt where
  rawHead : Int
  coverageThrough : Int
  coverageLag : Int
  totalEvents : Nat
  segmentCount : Nat
  createdSegments : List Created
  peakBucketEvents : Nat
  manifestHead : Str

/-- `atomic_json(root / "state.json", …)`. -/
def replaceState (state : State) : Io Unit := do
  let writer ← get
  match writer.fuse with
  | some (0, _) => throw .crashed
  | _ => set ({ writer with disk := { writer.disk with state := some state } } : Writer)

/-- The state a build ends with. -/
def nextState (build : Build) (progress : Progress) : State where
  tenantId := build.tenantId
  namespaceId := build.namespaceId
  edgeId := build.edgeId
  bucketSpan := build.bucketSpan
  rawHead := build.rawHead
  lastCovered := progress.lastCovered
  eventCount := progress.eventCount
  segmentCount := progress.segmentCount
  manifestHead := progress.previous
  sealedIds := progress.sealedIds

/-- The receipt of a build. -/
def receipt (build : Build) (progress : Progress) : Receipt where
  rawHead := build.rawHead
  coverageThrough := progress.lastCovered
  coverageLag := max 0 (build.rawHead - progress.lastCovered)
  totalEvents := progress.eventCount
  segmentCount := progress.segmentCount
  createdSegments := progress.created
  peakBucketEvents := progress.peakBucketEvents
  manifestHead := progress.previous

/-- The last bucket of the source. -/
def sealLast (build : Build) (loop : Loop) : Io Progress :=
  match loop.bucketId with
  | some bucketId => sealBucket gzip build bucketId loop.bucket loop.progress
  | none => pure loop.progress

/-- The end of the source: its last bucket, and the state of the index. -/
def finish (build : Build) (loop : Loop) : Io Receipt := do
  let progress ← sealLast gzip build loop
  if loop.previousCursor ≠ build.rawHead then
    throw (.runtimeError (str "compact source does not terminate at declared raw head"))
  else do
    replaceState (nextState build progress)
    pure (receipt build progress)

/-- The build under the lock. -/
def buildLocked (build : Build) (events : List Item) : Io Receipt := do
  let writer ← get
  let progress ← Durable.lift (loadState build writer.disk)
  let loop ← feed gzip build events ⟨none, [], 0, progress⟩
  finish gzip build loop

/-- `build_store_stream`. -/
def buildStoreStream (events : List Item) (bucketSpan rawHead : Int) (sealHead : Bool) :
    Io Receipt :=
  if bucketSpan < 16 ∨ 1000000 < bucketSpan then
    throw (.raised (.valueError (str "bucket_span must be between 16 and 1000000")))
  else
    match events.head? with
    | none => throw (.raised (.valueError (str "compact index source is empty")))
    | some first =>
      if rawHead < 1 then
        throw (.raised (.valueError (str "raw_head_cursor must be positive")))
      else
        buildLocked gzip ⟨first.tenantId, first.namespaceId, first.edgeId, bucketSpan.toNat,
          rawHead, sealHead⟩ events

end

/-! ## Reading manifests -/

/-- `json.loads(path.read_text(encoding="utf-8"))`. -/
def readJson (bytes : Bytes) : Option Json :=
  (decodeUtf8 bytes).bind fun text => (Json.loads text).toOption

/-- `sha256_file(object_path(root, digest)) == digest`. -/
def Disk.hasObject (disk : Disk) (digest : Str) : Bool :=
  match disk.objects[digest]? with
  | some bytes => sha256Bytes bytes = digest
  | none => false

/-- The references of a bucket. -/
def Disk.references (disk : Disk) (bucketId : Nat) : List (Str × Bytes) :=
  (disk.segments.toList.filter fun file => (ofLex file.1).1 = bucketId).map fun file =>
    ((ofLex file.1).2, file.2)

/-- `manifest_at_bucket`, without the path. -/
def manifestAtBucket (disk : Disk) (bucketId : Nat) : Except Failure (Json × Str) :=
  match disk.references bucketId with
  | [(digest, bytes)] => do
    ensure (sha256Bytes bytes = digest)
      (.runtimeError (str "segment reference digest mismatch: "))
    match readJson bytes with
    | none => .error (.raised (.valueError []))
    | some value => do
      ensure (value.get? (str "protocol") = some (.str (protocol ++ str ".manifest")) ∧
        value.get? (str "production_authority") = some (.bool false))
        (.runtimeError (str "invalid compact manifest: "))
      ensure (value.get? (str "bucket_id") = some (.int bucketId))
        (.runtimeError (str "compact manifest bucket mismatch: "))
      ensure (disk.hasObject digest = true)
        (.runtimeError (str "content-addressed manifest mismatch: "))
      let payload ← (value.item (str "payload")).mapError .raised
      let payloadSha ← (payload.textItem (str "sha256")).mapError .raised
      ensure (disk.hasObject payloadSha = true)
        (.runtimeError (str "compact payload digest mismatch: "))
      .ok (value, digest)
  | matching => .error (.runtimeError (str "compact bucket " ++ Json.decimal bucketId ++ str " has "
      ++ Json.decimal matching.length ++ str " manifest references"))

/-- `iter_manifests`. -/
def iterManifests (disk : Disk) : Except Failure (List (Json × Str)) :=
  match disk.state with
  | none => .error (.raised (.valueError []))
  | some state => (List.range state.segmentCount).mapM (manifestAtBucket disk)

end IntegrityGuardian.MemoryPlane
