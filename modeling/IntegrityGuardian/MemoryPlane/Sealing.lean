import IntegrityGuardian.MemoryPlane.CompactIndex

/-!
# What a build writes

The segments of the complete buckets of a log form one chain that depends on the
log alone.  Whatever build seals such a bucket, and whether or not it gets to the
end, it writes files of that chain; only the last bucket of a stream can be
sealed before it is complete.
-/

namespace IntegrityGuardian.MemoryPlane

open Python Library

/-! ## Files -/

/-- The digest in the name of a file. -/
def Path.digest : Path → Str
  | .object digest => digest
  | .segment _ digest => digest

@[simp] theorem state_write (disk : Disk) (value : Bytes) (path : Path) :
    (disk.write value path).state = disk.state := by
  cases path <;> rfl

theorem read_write (disk : Disk) (value : Bytes) (path other : Path) :
    (disk.write value path).read other = if other = path then some value else disk.read other := by
  cases path with
  | object digest =>
    cases other with
    | object other =>
      simp only [Disk.write, Disk.read, Dict.get_insert, Path.object.injEq]
      by_cases hsame : other = digest
      · rw [if_pos hsame, if_pos hsame.symm]
      · rw [if_neg hsame, if_neg (Ne.symm hsame)]
    | segment bucketId other => rfl
  | segment bucketId digest =>
    cases other with
    | object other => rfl
    | segment bucketId' other =>
      simp only [Disk.write, Disk.read, Dict.get_insert, Path.segment.injEq]
      congr 1
      rw [eq_comm, toLex_inj, Prod.mk.injEq, eq_comm (a := bucketId), eq_comm (a := digest)]

/-- The file is there and its content has the digest of its name. -/
def Good (path : Path) (disk : Disk) : Prop :=
  ∃ bytes, disk.read path = some bytes ∧ sha256Bytes bytes = path.digest

/-- Every file has the digest of its name. -/
def Intact (disk : Disk) : Prop :=
  ∀ path bytes, disk.read path = some bytes → sha256Bytes bytes = path.digest

/-- No crash is due and every file has the digest of its name. -/
structure Clean (writer : Writer) : Prop where
  fuse : writer.fuse = none
  whole : Intact writer.disk

/-- What a write of `value` can leave in a new file: all of it, or as much as
`dies` says a process that dies may leave. -/
def Part (dies : Option Nat → Prop) (value bytes : Bytes) : Prop :=
  bytes = value ∨ ∃ length, dies (some length) ∧ bytes = value.take length

/-- The write of a new file keeps `inv`. -/
def KeptBy (dies : Option Nat → Prop) (path : Path) (value : Bytes) (inv : Disk → Prop) : Prop :=
  ∀ disk bytes, inv disk → disk.read path = none → Part dies value bytes →
    inv (disk.write bytes path)

theorem keptBy_good (dies : Option Nat → Prop) (path : Path) (value : Bytes) (other : Path) :
    KeptBy dies path value (Good other) := by
  rintro disk bytes ⟨content, hread, hsha⟩ hnew -
  refine ⟨content, ?_, hsha⟩
  rw [read_write, if_neg]
  · exact hread
  · rintro rfl
    rw [hnew] at hread
    cases hread

variable {value : Bytes} {inv : Disk → Prop} {dies : Option Nat → Prop} {path : Path} {fine : Prop}

theorem KeptBy.and {inv' : Disk → Prop}
    (h : KeptBy dies path value inv) (h' : KeptBy dies path value inv') :
    KeptBy dies path value fun disk => inv disk ∧ inv' disk :=
  fun disk bytes hdisk hnew hpart => ⟨h disk bytes hdisk.1 hnew hpart, h' disk bytes hdisk.2 hnew hpart⟩

/-- Where a program may fail: never, when everything about it is `fine`. -/
def Ready (dies : Option Nat → Prop) (fine : Prop) (inv : Disk → Prop) (writer : Writer) : Prop :=
  inv writer.disk ∧ (∀ rest cut, writer.fuse = some (rest, cut) → dies cut) ∧ (fine → Clean writer)

theorem burn_ensures (hkept : KeptBy dies path value inv) :
    Durable.Ensures (Ready dies fine inv) (burn path value)
      (fun _ writer => Ready dies fine inv writer) (fun _ writer => ¬fine ∧ inv writer.disk) := by
  refine ⟨?_⟩
  rintro ⟨disk, fuse⟩ hready
  unfold burn
  rw [Durable.exec_bind]
  simp only [Durable.exec_get]
  cases fuse with
  | none => exact hready
  | some budget =>
    obtain ⟨hinv, hfuse, hclean⟩ := hready
    obtain ⟨rest, torn⟩ := budget
    have hdies : dies torn := hfuse rest torn rfl
    have hfine : ¬fine := by
      intro hfine
      cases (hclean hfine).fuse
    cases rest with
    | zero =>
      simp only [Durable.exec_bind, Durable.exec_set, Durable.exec_throw]
      refine ⟨hfine, ?_⟩
      unfold Disk.tear
      split
      · rename_i length hread
        exact hkept disk _ hinv hread (.inr ⟨length, hdies, rfl⟩)
      · exact hinv
    | succ rest =>
      simp only [Durable.exec_set]
      refine ⟨hinv, ?_, fun h => absurd h hfine⟩
      rintro rest' cut hfuse'
      cases hfuse'
      exact hdies

theorem immutableWrite_ensures
    (hdigest : path.digest = sha256Bytes value) (hkept : KeptBy dies path value inv) :
    Durable.Ensures (Ready dies fine inv) (immutableWrite path value)
      (fun digest writer => digest = sha256Bytes value ∧
        Ready dies fine (fun disk => inv disk ∧ Good path disk) writer)
      (fun _ writer => ¬fine ∧ inv writer.disk) := by
  refine (burn_ensures hkept).bind fun _ => ⟨?_⟩
  rintro writer ⟨hinv, hfuse, hclean⟩
  rw [Durable.exec_bind]
  simp only [Durable.exec_get]
  cases hread : writer.disk.read path with
  | some existing =>
    by_cases hsame : sha256Bytes existing = sha256Bytes value
    · simp only [if_pos hsame, Durable.exec_pure]
      exact ⟨rfl, ⟨hinv, existing, hread, hsame.trans hdigest.symm⟩, hfuse, hclean⟩
    · simp only [if_neg hsame, Durable.exec_throw]
      refine ⟨fun hfine => hsame ?_, hinv⟩
      rw [← hdigest]
      exact (hclean hfine).whole path existing hread
  | none =>
    simp only [Durable.exec_bind, Durable.exec_set, Durable.exec_pure]
    refine ⟨rfl, ⟨hkept _ value hinv hread (.inl rfl), value, ?_, hdigest.symm⟩, hfuse, ?_⟩
    · rw [read_write, if_pos rfl]
    · intro hfine
      refine ⟨(hclean hfine).fuse, ?_⟩
      intro other bytes hother
      rw [read_write] at hother
      split_ifs at hother with hsame
      · cases hother
        rw [hsame, hdigest]
      · exact (hclean hfine).whole other bytes hother

theorem objectWrite_ensures (value : Bytes)
    (hkept : KeptBy dies (.object (sha256Bytes value)) value inv) :
    Durable.Ensures (Ready dies fine inv) (immutableWrite (.object (sha256Bytes value)) value)
      (fun digest writer => digest = sha256Bytes value ∧ Ready dies fine
        (fun disk => inv disk ∧ Good (.object (sha256Bytes value)) disk) writer)
      (fun _ writer => ¬fine ∧ inv writer.disk) :=
  immutableWrite_ensures (by rw [Path.digest]) hkept

theorem segmentWrite_ensures (bucketId : Nat) (value : Bytes)
    (hkept : KeptBy dies (.segment bucketId (sha256Bytes value)) value inv) :
    Durable.Ensures (Ready dies fine inv)
      (immutableWrite (.segment bucketId (sha256Bytes value)) value)
      (fun digest writer => digest = sha256Bytes value ∧ Ready dies fine
        (fun disk => inv disk ∧ Good (.segment bucketId (sha256Bytes value)) disk) writer)
      (fun _ writer => ¬fine ∧ inv writer.disk) :=
  immutableWrite_ensures (by rw [Path.digest]) hkept

/-- Without a crash, a write that fails changes nothing, and one that returns
leaves the other files. -/
theorem immutableWrite_unfused (path : Path) (value : Bytes) (disk : Disk) :
    Durable.Ensures (fun writer => writer = ⟨disk, none⟩) (immutableWrite path value)
      (fun _ writer => writer = ⟨disk, none⟩ ∨ writer = ⟨disk.write value path, none⟩)
      (fun _ writer => writer = ⟨disk, none⟩) := by
  refine ⟨?_⟩
  rintro writer rfl
  unfold immutableWrite burn
  simp only [Durable.exec_bind, Durable.exec_get, Durable.exec_pure]
  cases disk.read path with
  | some existing =>
    by_cases hsame : sha256Bytes existing = sha256Bytes value
    · simp only [if_pos hsame, Durable.exec_pure]
      exact .inl rfl
    · simp only [if_neg hsame, Durable.exec_throw]
      rfl
  | none =>
    simp only [Durable.exec_bind, Durable.exec_set, Durable.exec_pure]
    exact .inr rfl

theorem objectWrite_unfused (digest : Str) (value : Bytes) (segments : Dict (Nat ×ₗ Str) Bytes) :
    Durable.Ensures (fun writer => writer.fuse = none ∧ writer.disk.segments = segments)
      (immutableWrite (.object digest) value)
      (fun _ writer => writer.fuse = none ∧ writer.disk.segments = segments)
      (fun _ writer => writer.disk.segments = segments) := by
  refine ⟨?_⟩
  rintro ⟨disk, fuse⟩ ⟨hfuse, hsegments⟩
  cases hfuse
  refine ((immutableWrite_unfused (.object digest) value disk).mono (fun _ hs => hs) ?_ ?_).meets
    _ rfl
  · rintro _ writer (rfl | rfl)
    · exact ⟨rfl, hsegments⟩
    · exact ⟨rfl, hsegments⟩
  · rintro _ writer rfl
    exact hsegments

theorem segmentWrite_unfused (bucketId : Nat) (digest : Str) (value : Bytes)
    (segments : Dict (Nat ×ₗ Str) Bytes) :
    Durable.Ensures (fun writer => writer.fuse = none ∧ writer.disk.segments = segments)
      (immutableWrite (.segment bucketId digest) value) (fun _ _ => True)
      (fun _ writer => writer.disk.segments = segments) := by
  refine ⟨?_⟩
  rintro ⟨disk, fuse⟩ ⟨hfuse, hsegments⟩
  cases hfuse
  refine ((immutableWrite_unfused (.segment bucketId digest) value disk).mono (fun _ hs => hs)
    (fun _ _ _ => trivial) ?_).meets _ rfl
  rintro _ writer rfl
  exact hsegments

/-! ## The chain of a log -/

/-- A log of contiguous cursors, how it is cut, and where its chain begins: the
first bucket, the digest it names as its predecessor, and how many events are
counted and covered before it. -/
structure Source where
  items : List Item
  tenantId : Str
  namespaceId : Str
  edgeId : Str
  bucketSpan : Nat
  start : Nat
  previous : Str
  counted : Nat
  covered : Nat
  contiguous : ∀ (i : Nat) (item : Item), items[i]? = some item → item.cursor = (i : Int) + 1
  span_pos : 0 < bucketSpan
  covered_le : covered ≤ start * bucketSpan

/-- The items of a bucket among the first `n`. -/
def Source.bucketItems (source : Source) (bucketId n : Nat) : List Item :=
  (source.items.take n).drop (bucketId * source.bucketSpan)

/-- The files of a sealed bucket. -/
structure Segment where
  payload : Bytes
  manifest : Bytes

section
variable [UnicodeData] (gzip : Bytes → Bytes)

/-- The files `seal_bucket` writes for a bucket. -/
def segmentOf (build : Build) (bucketId : Nat) (events : List Item) (previous : Str) :
    Except Failure Segment :=
  match events.head?, events.getLast? with
  | some first, some last => do
    let (payload, statistics) ← compactPayload gzip events (build.bucketStart bucketId)
    let manifest ← manifestBytes build bucketId events first last payload statistics previous
    .ok ⟨payload, manifest⟩
  | _, _ => .error (.runtimeError (str "unsealed compact bucket has no events"))

/-- The build of a source that ends with a given bucket. -/
def Source.build (source : Source) (bucketId : Nat) : Build :=
  ⟨source.tenantId, source.namespaceId, source.edgeId, source.bucketSpan,
    (bucketId + 1) * source.bucketSpan, false⟩

/-- A bucket of the log sealed complete, after the given predecessor. -/
def Source.sealComplete (source : Source) (bucketId : Nat) (previous : Str) :
    Except Failure Segment :=
  segmentOf gzip (source.build bucketId) bucketId
    (source.bucketItems bucketId ((bucketId + 1) * source.bucketSpan)) previous

/-- The digest a bucket of the chain names as its predecessor. -/
def Source.headDigest (source : Source) : Nat → Option Str
  | 0 => if source.start = 0 then some source.previous else none
  | bucketId + 1 =>
    if source.start = bucketId + 1 then some source.previous
    else
      (source.headDigest bucketId).bind fun previous =>
        (source.sealComplete gzip bucketId previous).toOption.map fun segment =>
          sha256Bytes segment.manifest

/-- The files of a complete bucket of the chain. -/
def Source.segment (source : Source) (bucketId : Nat) : Option Segment :=
  (source.headDigest gzip bucketId).bind fun previous =>
    (source.sealComplete gzip bucketId previous).toOption

variable {gzip}

theorem headDigest_start (source : Source) :
    source.headDigest gzip source.start = some source.previous := by
  cases h : source.start with
  | zero => exact if_pos h
  | succ bucketId => exact if_pos h

variable {bucketId : Nat} {segment : Segment} {source : Source} {previous : Str}

theorem headDigest_succ (hstart : source.start ≤ bucketId) : source.headDigest gzip (bucketId + 1) =
      (source.segment gzip bucketId).map fun segment => sha256Bytes segment.manifest := by
  rw [Source.headDigest, if_neg (by omega), Source.segment, Option.map_bind]
  rfl

theorem segment_of_ok (hprevious : source.headDigest gzip bucketId = some previous)
    (hseal : source.sealComplete gzip bucketId previous = .ok segment) :
    source.segment gzip bucketId = some segment := by
  rw [Source.segment, hprevious, Option.bind_some, hseal]
  rfl

theorem sealComplete_of_segment (hprevious : source.headDigest gzip bucketId = some previous)
    (hsegment : source.segment gzip bucketId = some segment) :
    source.sealComplete gzip bucketId previous = .ok segment := by
  rw [Source.segment, hprevious, Option.bind_some] at hsegment
  cases hseal : source.sealComplete gzip bucketId previous with
  | ok found =>
    rw [hseal] at hsegment
    cases hsegment
    rfl
  | error e =>
    rw [hseal] at hsegment
    cases hsegment

/-- A build of a log. -/
structure Source.Builds (source : Source) (build : Build) : Prop where
  tenantId : build.tenantId = source.tenantId
  namespaceId : build.namespaceId = source.namespaceId
  edgeId : build.edgeId = source.edgeId
  bucketSpan : build.bucketSpan = source.bucketSpan

theorem segmentOf_complete {source : Source} {build : Build} (hbuild : source.Builds build)
    {bucketId : Nat} (hcomplete : build.isComplete bucketId = true) (events : List Item)
    (previous : Str) :
    segmentOf gzip build bucketId events previous =
      segmentOf gzip (source.build bucketId) bucketId events previous := by
  have hstart : build.bucketStart bucketId = (source.build bucketId).bucketStart bucketId := by
    simp only [Build.bucketStart, hbuild.bucketSpan, Source.build]
  have hend : build.bucketEnd bucketId = (source.build bucketId).bucketEnd bucketId := by
    simp only [Build.bucketEnd, hbuild.bucketSpan, Source.build]
  have hcomplete' : (source.build bucketId).isComplete bucketId = true := by
    simp [Build.isComplete, Build.bucketEnd, Source.build]
  have hmanifest : ∀ (first last : Item) (payload : Bytes) (statistics : Statistics),
      manifestBytes build bucketId events first last payload statistics previous =
        manifestBytes (source.build bucketId) bucketId events first last payload statistics
          previous := by
    intro first last payload statistics
    unfold manifestBytes manifestFields
    rw [hstart, hend, hcomplete, hcomplete', hbuild.tenantId, hbuild.namespaceId, hbuild.edgeId,
      hbuild.bucketSpan]
    rfl
  unfold segmentOf
  rw [hstart]
  simp only [hmanifest]

/-! ## Sealing one bucket -/

/-- The variables of a build after one more bucket. -/
structure Advanced (bucketId : Nat) (events : List Item) (last : Item) (segment : Segment)
    (progress progress' : Progress) : Prop where
  sealedIds : progress'.sealedIds = insert bucketId progress.sealedIds
  previous : progress'.previous = sha256Bytes segment.manifest
  eventCount : progress'.eventCount = progress.eventCount + events.length
  segmentCount : progress'.segmentCount = progress.segmentCount + 1
  lastCovered : progress'.lastCovered = last.cursor

/-- The files of a segment are there. -/
def Published (bucketId : Nat) (segment : Segment) (disk : Disk) : Prop :=
  Good (.object (sha256Bytes segment.payload)) disk ∧
    Good (.object (sha256Bytes segment.manifest)) disk ∧
    Good (.segment bucketId (sha256Bytes segment.manifest)) disk

omit [UnicodeData] in
theorem writeManifest_ensures {dies : Option Nat → Prop} {fine : Prop} {inv : Disk → Prop} {build : Build}
    {bucketId : Nat} {events : List Item} {first last : Item} {payload : Bytes}
    {statistics : Statistics} {previous : Str}
    (hfine : fine → ∃ manifest,
      manifestBytes build bucketId events first last payload statistics previous = .ok manifest)
    (hobject : ∀ digest value, KeptBy dies (.object digest) value inv)
    (hsegment : ∀ manifest,
      manifestBytes build bucketId events first last payload statistics previous = .ok manifest →
      KeptBy dies (.segment bucketId (sha256Bytes manifest)) manifest inv) :
    Durable.Ensures (Ready dies fine inv)
      (writeManifest build bucketId events first last payload statistics previous)
      (fun digest writer => ∃ manifest,
        manifestBytes build bucketId events first last payload statistics previous = .ok manifest ∧
        digest = sha256Bytes manifest ∧
        Ready dies fine (fun disk => inv disk ∧ Good (.object (sha256Bytes manifest)) disk ∧
          Good (.segment bucketId (sha256Bytes manifest)) disk) writer)
      (fun _ writer => ¬fine ∧ inv writer.disk) := by
  unfold writeManifest
  refine Durable.Ensures.bind (m := fun manifest writer =>
    manifestBytes build bucketId events first last payload statistics previous = .ok manifest ∧
      Ready dies fine inv writer) ?_ ?_
  · apply (Durable.ensures_lift (Ready dies fine inv) _).mono
    · exact fun _ hs => hs
    · exact fun _ _ h => h
    · rintro e writer ⟨he, hready⟩
      refine ⟨fun h => ?_, hready.1⟩
      obtain ⟨manifest, hmanifest⟩ := hfine h
      rw [he] at hmanifest
      cases hmanifest
  intro manifest
  by_cases hmanifest : manifestBytes build bucketId events first last payload statistics previous =
      .ok manifest
  swap
  · exact Durable.ensures_absurd fun s hs => absurd hs.1 hmanifest
  refine Durable.Ensures.bind (m := fun digest writer => digest = sha256Bytes manifest ∧
    Ready dies fine (fun disk => inv disk ∧ Good (.object (sha256Bytes manifest)) disk) writer)
    ?_ ?_
  · exact (objectWrite_ensures manifest (hobject _ _)).mono (fun _ hs => hs.2) (fun _ _ h => h)
      fun _ _ h => h
  intro manifestSha
  by_cases hsha : manifestSha = sha256Bytes manifest
  swap
  · exact Durable.ensures_absurd fun s hs => absurd hs.1 hsha
  subst hsha
  refine Durable.Ensures.bind (m := fun _ writer =>
    Ready dies fine (fun disk => (inv disk ∧ Good (.object (sha256Bytes manifest)) disk) ∧
      Good (.segment bucketId (sha256Bytes manifest)) disk) writer) ?_ ?_
  · exact (segmentWrite_ensures bucketId manifest ((hsegment _ hmanifest).and
      (keptBy_good _ _ _ _))).mono (fun _ hs => hs.2) (fun _ _ h => h.2) fun _ _ h => ⟨h.1, h.2.1⟩
  intro _
  refine Durable.ensures_pure ?_
  rintro writer ⟨⟨⟨hinv, hgood⟩, hgood'⟩, hrest⟩
  exact ⟨manifest, hmanifest, rfl, ⟨hinv, hgood, hgood'⟩, hrest⟩

/-- What sealing a bucket that is due does. -/
theorem sealBucket_ensures {dies : Option Nat → Prop} {fine : Prop} {inv : Disk → Prop} {build : Build} {bucketId : Nat}
    {events : List Item} {first last : Item} {progress : Progress}
    (hunsealed : bucketId ∉ progress.sealedIds)
    (hdue : build.isComplete bucketId = true ∨ build.sealHead = true)
    (hfirst : events.head? = some first) (hlast : events.getLast? = some last)
    (hbeyond : progress.lastCovered < first.cursor)
    (hfine : fine → ∃ segment,
      segmentOf gzip build bucketId events progress.previous = .ok segment)
    (hobject : ∀ digest value, KeptBy dies (.object digest) value inv)
    (hsegment : ∀ segment, segmentOf gzip build bucketId events progress.previous = .ok segment →
      KeptBy dies (.segment bucketId (sha256Bytes segment.manifest)) segment.manifest inv) :
    Durable.Ensures (Ready dies fine inv) (sealBucket gzip build bucketId events progress)
      (fun progress' writer => ∃ segment,
        segmentOf gzip build bucketId events progress.previous = .ok segment ∧
        Advanced bucketId events last segment progress progress' ∧
        Ready dies fine (fun disk => inv disk ∧ Published bucketId segment disk) writer)
      (fun _ writer => ¬fine ∧ inv writer.disk) := by
  have hnotSkipped : (!build.isComplete bucketId && !build.sealHead) = false := by
    rcases hdue with h | h <;> simp [h]
  have hsegmentOf : segmentOf gzip build bucketId events progress.previous =
      (compactPayload gzip events (build.bucketStart bucketId) >>= fun result =>
        manifestBytes build bucketId events first last result.1 result.2 progress.previous >>=
          fun manifest => .ok ⟨result.1, manifest⟩) := by
    unfold segmentOf
    rw [hfirst, hlast]
  unfold sealBucket
  rw [if_neg hunsealed, hnotSkipped, hfirst, hlast]
  simp only [Bool.false_eq_true, if_false, if_neg (not_le.2 hbeyond)]
  refine Durable.Ensures.bind (m := fun result writer =>
      compactPayload gzip events (build.bucketStart bucketId) = .ok result ∧
        Ready dies fine inv writer) ?_ ?_
  · apply (Durable.ensures_lift (Ready dies fine inv) _).mono
    · exact fun _ hs => hs
    · exact fun _ _ h => h
    · rintro e writer ⟨he, hready⟩
      refine ⟨fun h => ?_, hready.1⟩
      obtain ⟨segment, hok⟩ := hfine h
      rw [hsegmentOf, he] at hok
      cases hok
  rintro ⟨payload, statistics⟩
  by_cases hpayload : compactPayload gzip events (build.bucketStart bucketId) =
      .ok (payload, statistics)
  swap
  · exact Durable.ensures_absurd fun s hs => absurd hs.1 hpayload
  rw [hpayload, ok_bind] at hsegmentOf
  refine Durable.Ensures.bind (m := fun _ writer =>
    Ready dies fine (fun disk => inv disk ∧ Good (.object (sha256Bytes payload)) disk) writer) ?_ ?_
  · exact (objectWrite_ensures payload (hobject _ _)).mono (fun _ hs => hs.2) (fun _ _ h => h.2)
      fun _ _ h => h
  intro payloadSha
  have hmanifests : ∀ manifest, manifestBytes build bucketId events first last payload statistics
      progress.previous = .ok manifest →
      segmentOf gzip build bucketId events progress.previous = .ok ⟨payload, manifest⟩ := by
    intro manifest hmanifest
    rw [hsegmentOf, hmanifest]
    rfl
  have hwrite := @writeManifest_ensures dies fine
    (fun disk => inv disk ∧ Good (.object (sha256Bytes payload)) disk) build bucketId events first
    last payload statistics progress.previous (by
      intro h
      obtain ⟨segment, hok⟩ := hfine h
      rw [hsegmentOf] at hok
      obtain ⟨manifest, hmanifest, -⟩ := bind_eq_ok.1 hok
      exact ⟨manifest, hmanifest⟩)
    (fun digest value => (hobject digest value).and (keptBy_good _ _ _ _))
    (fun manifest hmanifest => (hsegment _ (hmanifests manifest hmanifest)).and
      (keptBy_good _ _ _ _))
  refine (hwrite.mono (fun _ hs => hs) (fun _ _ h => h) fun _ _ h => ⟨h.1, h.2.1⟩).bind ?_
  intro manifestSha
  refine Durable.ensures_pure ?_
  rintro writer ⟨manifest, hmanifest, rfl, ⟨⟨hinv, hgood⟩, hgood', hgood''⟩, hrest⟩
  exact ⟨⟨payload, manifest⟩, hmanifests manifest hmanifest, ⟨rfl, rfl, rfl, rfl, rfl⟩,
    ⟨hinv, hgood, hgood', hgood''⟩, hrest⟩

theorem sealBucket_unfused (build : Build) (bucketId : Nat) (events : List Item)
    (progress : Progress) (segments : Dict (Nat ×ₗ Str) Bytes) :
    Durable.Ensures (fun writer => writer.fuse = none ∧ writer.disk.segments = segments)
      (sealBucket gzip build bucketId events progress) (fun _ _ => True)
      (fun _ writer => writer.disk.segments = segments) := by
  have hlift : ∀ {α : Type} (x : Except Failure α),
      Durable.Ensures (fun writer : Writer => writer.fuse = none ∧ writer.disk.segments = segments)
        (Durable.lift x) (fun _ writer => writer.fuse = none ∧ writer.disk.segments = segments)
        (fun _ writer => writer.disk.segments = segments) :=
    fun x => (Durable.ensures_lift _ x).mono (fun _ hs => hs) (fun _ _ h => h.2) fun _ _ h => h.2.2
  unfold sealBucket
  split
  · exact Durable.ensures_pure fun _ _ => trivial
  split
  · exact Durable.ensures_pure fun _ _ => trivial
  split
  · split
    · exact Durable.ensures_throw fun _ hs => hs.2
    · refine (hlift _).bind fun result => ?_
      refine (objectWrite_unfused _ _ segments).bind fun _ => ?_
      refine Durable.Ensures.bind (m := fun _ _ => True) ?_
        fun _ => Durable.ensures_pure fun _ _ => trivial
      unfold writeManifest
      refine (hlift _).bind fun manifest => ?_
      refine (objectWrite_unfused _ _ segments).bind fun manifestSha => ?_
      refine (segmentWrite_unfused _ _ _ segments).bind fun _ => ?_
      exact Durable.ensures_pure fun _ _ => trivial
  · exact Durable.ensures_throw fun _ hs => hs.2

end

end IntegrityGuardian.MemoryPlane
