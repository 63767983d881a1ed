import IntegrityGuardian.MemoryPlane.Stream

/-!
# Sequences of builds

Calls of `build_store_stream` over growing prefixes of one log, on one directory.
A call may raise or its process may die, and the next call finds the files it left.
-/

namespace IntegrityGuardian.MemoryPlane

open Python Library

/-- The events of one edge, with contiguous cursors from one. -/
structure Log where
  items : List Item
  contiguous : ∀ (i : Nat) (item : Item), items[i]? = some item → item.cursor = (i : Int) + 1

/-- A call over the first `count` events. -/
structure Call where
  count : Nat
  rawHead : Int
  sealHead : Bool
  fuse : Option (Nat × Option Nat)

/-- The chain of a log. -/
def Log.source (log : Log) (bucketSpan : Nat) (hspan : 0 < bucketSpan) : Source where
  items := log.items
  tenantId := (log.items.head?.map Item.tenantId).getD []
  namespaceId := (log.items.head?.map Item.namespaceId).getD []
  edgeId := (log.items.head?.map Item.edgeId).getD []
  bucketSpan
  start := 0
  previous := []
  counted := 0
  covered := 0
  contiguous := log.contiguous
  span_pos := hspan
  covered_le := Nat.zero_le _

/-- The build of a call. -/
def Call.build (call : Call) (source : Source) : Build :=
  ⟨source.tenantId, source.namespaceId, source.edgeId, source.bucketSpan, call.rawHead,
    call.sealHead⟩

theorem builds_call (source : Source) (call : Call) : source.Builds (call.build source) :=
  ⟨rfl, rfl, rfl, rfl⟩

section
variable [UnicodeData] (gzip : Bytes → Bytes) (log : Log) (bucketSpan : Nat)

/-- A call on a directory: what it returns or raises, and the directory after it. -/
def Log.call (call : Call) (disk : Disk) : Except Failure Receipt × Disk :=
  let result := Durable.exec (buildStoreStream gzip (log.items.take call.count) bucketSpan
    call.rawHead call.sealHead) ⟨disk, call.fuse⟩
  (result.1, result.2.disk)

/-- The directory after a sequence of calls. -/
def Log.calls : List Call → Disk → Disk
  | [], disk => disk
  | call :: rest, disk => Log.calls rest (log.call gzip bucketSpan call disk).2

variable {gzip log bucketSpan}

/-- The arguments that `build_store_stream` accepts. -/
structure Call.Valid (call : Call) (log : Log) (bucketSpan : Nat) : Prop where
  span_ge : 16 ≤ bucketSpan
  span_le : bucketSpan ≤ 1000000
  first : (log.items.take call.count).head? ≠ none
  rawHead_pos : 1 ≤ call.rawHead

theorem call_invalid {call : Call} (h : ¬call.Valid log bucketSpan) (disk : Disk) :
    ∃ failure, log.call gzip bucketSpan call disk = (.error failure, disk) := by
  unfold Log.call buildStoreStream
  split
  · exact ⟨_, rfl⟩
  · rename_i hspan
    split
    · exact ⟨_, rfl⟩
    · rename_i first hfirst
      split
      · exact ⟨_, rfl⟩
      · rename_i hhead
        refine absurd ⟨by omega, by omega, ?_, by omega⟩ h
        rw [hfirst]
        simp

variable {call : Call}

omit [UnicodeData] in
theorem Call.Valid.count_pos (h : call.Valid log bucketSpan) : 0 < call.count := by
  by_contra hzero
  apply h.first
  rw [show call.count = 0 by omega]
  rfl

theorem call_valid (hspan : 0 < bucketSpan) (h : call.Valid log bucketSpan) (disk : Disk) :
    log.call gzip bucketSpan call disk =
      let result := Durable.exec (buildLocked gzip (call.build (log.source bucketSpan hspan))
        ((log.source bucketSpan hspan).items.take call.count)) ⟨disk, call.fuse⟩
      (result.1, result.2.disk) := by
  have hge := h.span_ge
  have hle := h.span_le
  obtain ⟨first, hfirst⟩ := Option.ne_none_iff_exists'.1 h.first
  have hhead : log.items.head? = some first := by
    rw [← hfirst, List.head?_take, if_neg h.count_pos.ne']
  have hbuild : call.build (log.source bucketSpan hspan) = ⟨first.tenantId, first.namespaceId,
      first.edgeId, (bucketSpan : Int).toNat, call.rawHead, call.sealHead⟩ := by
    simp only [Call.build, Log.source, hhead, Option.map_some, Option.getD_some, Int.toNat_natCast]
  rw [hbuild, show (log.source bucketSpan hspan).items = log.items from rfl]
  unfold Log.call buildStoreStream
  rw [if_neg (by omega), hfirst]
  simp only
  rw [if_neg (not_lt.2 h.rawHead_pos)]

section
variable {hspan : 0 < bucketSpan} {call : Call} {disk : Disk} {post : Receipt → Disk → Prop}
  {fail : Disk → Prop}

theorem call_valid_meets (hvalid : call.Valid log bucketSpan)
    (h : Durable.Ensures (fun writer => writer = ⟨disk, call.fuse⟩)
      (buildLocked gzip (call.build (log.source bucketSpan hspan))
        ((log.source bucketSpan hspan).items.take call.count))
      (fun result writer => post result writer.disk) (fun _ writer => fail writer.disk)) :
    (∃ result, (log.call gzip bucketSpan call disk).1 = .ok result ∧
      post result (log.call gzip bucketSpan call disk).2) ∨
    (∃ failure, (log.call gzip bucketSpan call disk).1 = .error failure ∧
      fail (log.call gzip bucketSpan call disk).2) := by
  rw [call_valid hspan hvalid]
  have hmeets := h.meets ⟨disk, call.fuse⟩ rfl
  revert hmeets
  cases Durable.exec (buildLocked gzip (call.build (log.source bucketSpan hspan))
    ((log.source bucketSpan hspan).items.take call.count)) ⟨disk, call.fuse⟩ with
  | mk outcome writer =>
    cases outcome with
    | ok result => exact fun hpost => .inl ⟨result, rfl, hpost⟩
    | error failure => exact fun hfailed => .inr ⟨failure, rfl, hfailed⟩

theorem call_meets (hfail : fail disk)
    (h : 0 < call.count → Durable.Ensures (fun writer => writer = ⟨disk, call.fuse⟩)
      (buildLocked gzip (call.build (log.source bucketSpan hspan))
        ((log.source bucketSpan hspan).items.take call.count))
      (fun result writer => post result writer.disk) (fun _ writer => fail writer.disk)) :
    (∃ result, (log.call gzip bucketSpan call disk).1 = .ok result ∧
      post result (log.call gzip bucketSpan call disk).2) ∨
    (∃ failure, (log.call gzip bucketSpan call disk).1 = .error failure ∧
      fail (log.call gzip bucketSpan call disk).2) := by
  by_cases hvalid : call.Valid log bucketSpan
  · exact call_valid_meets hvalid (h hvalid.count_pos)
  · obtain ⟨failure, hfailed⟩ := @call_invalid _ gzip log bucketSpan call hvalid disk
    rw [hfailed]
    exact .inr ⟨failure, rfl, hfail⟩

end

end

/-! ## What the directory holds -/

section
variable [UnicodeData] (gzip : Bytes → Bytes) (dies : Option Nat → Prop) (source : Source)

/-- The variables the builds of a log start from. -/
def Loaded (disk : Disk) (progress : Progress) : Prop :=
  ∀ build, source.Builds build → loadState build disk = .ok progress

/-- The references are to buckets of the chain that end by `top`. -/
def Laid (top : Nat) (segments : Dict (Nat ×ₗ Str) Bytes) : Prop :=
  ∀ bucketId digest bytes, segments[toLex (bucketId, digest)]? = some bytes →
    ∃ segment, source.segment gzip bucketId = some segment ∧
      digest = sha256Bytes segment.manifest ∧ Part dies segment.manifest bytes ∧
      (bucketId + 1) * source.bucketSpan ≤ top

/-- A directory whose sealed buckets are full. -/
structure Whole (e k : Nat) (progress : Progress) (disk : Disk) : Prop where
  loaded : Loaded source disk progress
  reached : Reached gzip source k progress
  bucket_le : k * source.bucketSpan ≤ e
  laid : Laid gzip dies source e disk.segments
  published : PublishedTo gzip source k disk

/-- A directory with a head of `h` events that was sealed before its bucket was full. -/
structure Headed (e h : Nat) (segment : Segment) (progress : Progress) (disk : Disk) : Prop where
  loaded : Loaded source disk progress
  reached : ReachedHead gzip source h segment progress
  unfinished : h % source.bucketSpan ≠ 0
  head_le : h ≤ e
  laid : WithHead gzip source h (Laid gzip dies source h) disk.segments
  published : PublishedTo gzip source (h / source.bucketSpan) disk
  head : Published (h / source.bucketSpan) segment disk

variable {gzip dies source}

variable {segments : Dict (Nat ×ₗ Str) Bytes} {disk disk' : Disk} {k top : Nat}
  {progress : Progress} {segment : Segment}

omit [UnicodeData] in
theorem Loaded.of_state (h : Loaded source disk progress) (hstate : disk'.state = disk.state) :
    Loaded source disk' progress := by
  intro build hbuild
  rw [← h build hbuild, loadState, loadState, hstate]

/-- The variables that the next build finds. -/
def Progress.reloaded (progress : Progress) : Progress :=
  { progress with created := [], peakBucketEvents := 0 }

omit [UnicodeData] in
theorem loaded_nextState {build : Build} (hbuild : source.Builds build)
    (hstate : disk.state = some (nextState build progress)) :
    Loaded source disk progress.reloaded := by
  intro build' hbuild'
  rw [loadState, hstate]
  refine ensure_bind_eq_ok.2 ⟨⟨?_, ?_⟩, rfl⟩
  · rw [nextState, Build.identity, hbuild.tenantId, hbuild.namespaceId, hbuild.edgeId,
      hbuild'.tenantId, hbuild'.namespaceId, hbuild'.edgeId]
  · rw [nextState, hbuild.bucketSpan, hbuild'.bucketSpan]

theorem Reached.reloaded (h : Reached gzip source k progress) :
    Reached gzip source k progress.reloaded :=
  ⟨h.start_le, h.sealedIds, h.previous, h.eventCount, h.segmentCount, h.lastCovered⟩

theorem ReachedHead.reloaded {e : Nat} (h : ReachedHead gzip source e segment progress) :
    ReachedHead gzip source e segment progress.reloaded :=
  ⟨h.isHead, h.sealedIds, h.previous, h.eventCount, h.segmentCount, h.lastCovered⟩

theorem Laid.mono {top' : Nat} (h : Laid gzip dies source top segments) (hle : top ≤ top') :
    Laid gzip dies source top' segments := by
  intro bucketId digest bytes hread
  obtain ⟨segment, hsegment, hdigest, hpart, hend⟩ := h bucketId digest bytes hread
  exact ⟨segment, hsegment, hdigest, hpart, hend.trans hle⟩

theorem keptBy_laid {bucketId : Nat} {cut : Option Nat → Prop}
    (hcut : ∀ length, cut length → dies length)
    (hsegment : source.segment gzip bucketId = some segment)
    (hend : (bucketId + 1) * source.bucketSpan ≤ top) :
    KeptBy cut (.segment bucketId (sha256Bytes segment.manifest)) segment.manifest
      (fun disk => Laid gzip dies source top disk.segments) := by
  intro disk bytes hlaid _ hpart bucketId' digest bytes' hread
  rw [Disk.write, Dict.get_insert] at hread
  split_ifs at hread with hsame
  · cases hread
    rw [toLex_inj, Prod.mk.injEq] at hsame
    obtain ⟨rfl, rfl⟩ := hsame
    refine ⟨segment, hsegment, rfl, ?_, hend⟩
    cases hpart with
    | inl hwhole => exact .inl hwhole
    | inr htorn =>
      obtain ⟨length, hdies, htorn⟩ := htorn
      exact .inr ⟨length, hcut _ hdies, htorn⟩
  · exact hlaid bucketId' digest bytes' hread

omit [UnicodeData] in
theorem keptBy_state (cut : Option Nat → Prop) (path : Path) (value : Bytes)
    (state : Option State) : KeptBy cut path value fun disk => disk.state = state := by
  intro disk bytes hstate _ _
  rw [state_write, hstate]

omit [UnicodeData] in
theorem read_congr (hobjects : disk'.objects = disk.objects)
    (hsegments : disk'.segments = disk.segments) (path : Path) : disk'.read path = disk.read path := by
  cases path with
  | object digest => simp only [Disk.read, hobjects]
  | segment bucketId digest => simp only [Disk.read, hsegments]

omit [UnicodeData] in
theorem Intact.of_files (h : Intact disk)
    (hobjects : disk'.objects = disk.objects) (hsegments : disk'.segments = disk.segments) :
    Intact disk' := by
  intro path bytes hread
  rw [read_congr hobjects hsegments] at hread
  exact h path bytes hread

theorem published_congr (hobjects : disk'.objects = disk.objects)
    (hsegments : disk'.segments = disk.segments) (h : PublishedTo gzip source k disk) :
    PublishedTo gzip source k disk' := by
  intro bucketId hstart hlt
  obtain ⟨segment, hsegment, hpublished⟩ := h bucketId hstart hlt
  refine ⟨segment, hsegment, ?_⟩
  simpa only [Published, Good, read_congr hobjects hsegments] using hpublished

/-! ## One call -/

/-- What a call that returns has done. -/
structure Returned (build : Build) (e : Nat) (progress : Progress) (result : Receipt)
    (disk : Disk) : Prop where
  rawHead : build.rawHead = e
  receipt : result = MemoryPlane.receipt build progress
  state : disk.state = some (nextState build progress)

/-- Nothing stands in the way of a build over the first `e` items. -/
structure Sound (gzip : Bytes → Bytes) (source : Source) (build : Build) (e : Nat)
    (writer : Writer) : Prop where
  identity : ∀ item ∈ source.items.take e, item.identity = build.identity
  rawHead : build.rawHead = e
  segments : ∀ bucketId, source.start ≤ bucketId → (bucketId + 1) * source.bucketSpan ≤ e →
    ∃ segment, source.segment gzip bucketId = some segment
  clean : Clean writer

section
variable {e : Nat} {build : Build}

/-- A build that seals no bucket before it is full keeps a directory of full buckets. -/
theorem buildLocked_keeps_whole (hbuild : source.Builds build) (hcount : e ≤ source.items.length)
    (hpos : 0 < e) (hwhole : (e : Int) ≤ build.rawHead → e % source.bucketSpan ≠ 0 →
      build.isComplete ((e - 1) / source.bucketSpan) = false ∧ build.sealHead = false)
    {before k : Nat} (hbefore : before ≤ e) {progress : Progress} {disk : Disk}
    (hdisk : Whole gzip dies source before k progress disk)
    {fuse : Option (Nat × Option Nat)} (hfuse : ∀ rest cut, fuse = some (rest, cut) → dies cut)
    {fine : Prop} (hfine : fine → Sound gzip source build e ⟨disk, fuse⟩) :
    Durable.Ensures (fun writer => writer = ⟨disk, fuse⟩)
      (buildLocked gzip build (source.items.take e))
      (fun result writer => ∃ progress', Returned build e progress' result writer.disk ∧
        (∀ item ∈ source.items.take e, item.identity = build.identity) ∧
        Whole gzip dies source e (e / source.bucketSpan) progress'.reloaded writer.disk ∧
        (fine → Intact writer.disk))
      (fun _ writer => ¬fine ∧ Whole gzip dies source e k progress writer.disk) := by
  have hk : k * source.bucketSpan ≤ e := hdisk.bucket_le.trans hbefore
  have hplan : Plan gzip dies fine (fun found => Laid gzip dies source e found.segments ∧
      found.state = disk.state ∧ PublishedTo gzip source k found) source build e := by
    refine ⟨hbuild, hcount, ?_, ?_, fun h => (hfine h).identity, fun h => (hfine h).rawHead.ge,
      fun h => (hfine h).segments⟩
    · intro digest value found bytes hfound hnew hpart
      exact ⟨hfound.1, keptBy_state _ _ _ _ found bytes hfound.2.1 hnew hpart,
        keptBy_publishedTo _ _ _ found bytes hfound.2.2 hnew hpart⟩
    · intro bucketId segment _ hend hsegment
      exact (keptBy_laid (fun _ h => h) hsegment hend).and
        ((keptBy_state _ _ _ _).and (keptBy_publishedTo _ _ _))
  have hlocked := buildLocked_whole hplan hpos hwhole (fun h => (hfine h).rawHead) hdisk.reached hk
  apply hlocked.mono
  · rintro writer rfl
    exact ⟨hdisk.loaded build hbuild,
      ⟨⟨hdisk.laid.mono hbefore, rfl, hdisk.published⟩, hdisk.published⟩, hfuse,
      fun h => (hfine h).clean⟩
  · rintro result writer ⟨progress', found, hresult, hreached, hhead, hidentity, ⟨hlaid, -, -⟩,
      hpublished, hintact, hwriter⟩
    refine ⟨progress', ⟨hhead, hresult, by rw [hwriter]⟩, hidentity,
      ⟨?_, hreached.reloaded, ?_, ?_, ?_⟩, fun h => ?_⟩
    · exact loaded_nextState hbuild (by rw [hwriter])
    · exact Nat.div_mul_le_self _ _
    · rw [hwriter]
      exact hlaid
    · exact published_congr (by rw [hwriter]) (by rw [hwriter]) hpublished
    · rw [hwriter]
      exact (hintact h).of_files rfl rfl
  · rintro failure writer ⟨hnot, hlaid, hstate, hpublished⟩
    exact ⟨hnot, hdisk.loaded.of_state hstate, hdisk.reached, hk, hlaid, hpublished⟩

variable {disk : Disk} {progress : Progress}

theorem buildLocked_keeps_head (hcount : e ≤ source.items.length)
    (hremainder : e % source.bucketSpan ≠ 0) {before k : Nat} (hbefore : before ≤ e)
    (hdisk : Whole gzip dies source before k progress disk) :
    Durable.Ensures (fun writer => writer = ⟨disk, none⟩)
      (buildLocked gzip (source.headBuild e) (source.items.take e))
      (fun result writer => ∃ progress' segment,
        Returned (source.headBuild e) e progress' result writer.disk ∧
        Headed gzip dies source e e segment progress'.reloaded writer.disk)
      (fun _ writer => Whole gzip dies source e k progress writer.disk) := by
  have hk : k * source.bucketSpan ≤ e := hdisk.bucket_le.trans hbefore
  have hrest : ∀ path value, KeptBy (fun _ => False) path value fun found =>
      found.state = disk.state ∧ PublishedTo gzip source k found :=
    fun path value => (keptBy_state _ _ _ _).and (keptBy_publishedTo _ _ _)
  have hplan : Plan gzip (fun _ => False) False
      (fun found => Laid gzip dies source e found.segments ∧
        (found.state = disk.state ∧ PublishedTo gzip source k found)) source (source.headBuild e)
      e := by
    refine ⟨builds_headBuild source e, hcount, ?_, ?_, False.elim, False.elim, False.elim⟩
    · intro digest value found bytes hfound hnew hpart
      exact ⟨hfound.1, hrest _ _ found bytes hfound.2 hnew hpart⟩
    · intro bucketId segment _ hend hsegment
      exact (keptBy_laid (fun _ h => h.elim) hsegment hend).and (hrest _ _)
  have hlocked := buildLocked_head hplan hrest hremainder False.elim hdisk.reached hk
  apply hlocked.mono
  · rintro writer rfl
    refine ⟨hdisk.loaded _ (builds_headBuild source e),
      ⟨⟨hdisk.laid.mono hbefore, rfl, hdisk.published⟩, hdisk.published⟩, ?_, False.elim⟩
    intro rest cut hfuse
    cases hfuse
  · rintro result writer ⟨progress', segment, found, hresult, hreached, hrefs, -, hpublished, hhead,
      -, hwriter⟩
    refine ⟨progress', segment, ⟨rfl, hresult, by rw [hwriter]⟩, ?_⟩
    refine ⟨loaded_nextState (builds_headBuild source e) (by rw [hwriter]), hreached.reloaded,
      hremainder, le_refl e, ?_, ?_, ?_⟩
    · rw [hwriter]
      exact hrefs
    · exact published_congr (by rw [hwriter]) (by rw [hwriter]) hpublished
    · rw [hwriter]
      exact hhead
  · rintro failure writer ⟨-, hlaid, hstate, hpublished⟩
    exact ⟨hdisk.loaded.of_state hstate, hdisk.reached, hk, hlaid, hpublished⟩

theorem buildLocked_keeps_headed (hbuild : source.Builds build) (hcount : e ≤ source.items.length)
    (hpos : 0 < e) {before h : Nat} (hbefore : before ≤ e) {segment : Segment}
    (hdisk : Headed gzip dies source before h segment progress disk)
    (hidle : Idle source build progress.segmentCount e) (fuse : Option (Nat × Option Nat)) :
    Durable.Ensures (fun writer => writer = ⟨disk, fuse⟩)
      (buildLocked gzip build (source.items.take e))
      (fun result writer => Returned build e progress result writer.disk ∧
        Headed gzip dies source e h segment progress.reloaded writer.disk)
      (fun _ writer => Headed gzip dies source e h segment progress writer.disk) := by
  have hsealed : progress.sealedIds = Finset.range progress.segmentCount := by
    rw [hdisk.reached.sealedIds, hdisk.reached.segmentCount]
  have hlocked := @buildLocked_idle source _ gzip build e ⟨disk, fuse⟩ progress
    progress.segmentCount hbuild hcount hpos hidle (hdisk.loaded build hbuild) hsealed
  apply hlocked.mono (fun _ hs => hs)
  · rintro result writer ⟨hresult, hhead, hwriter⟩
    refine ⟨⟨hhead, hresult, by rw [hwriter]⟩, ?_⟩
    refine ⟨loaded_nextState hbuild (by rw [hwriter]), hdisk.reached.reloaded, hdisk.unfinished,
      hdisk.head_le.trans hbefore, ?_, ?_, ?_⟩
    · rw [hwriter]
      exact hdisk.laid
    · exact published_congr (by rw [hwriter]) (by rw [hwriter]) hdisk.published
    · rw [hwriter]
      exact hdisk.head
  · intro failure writer hwriter
    rw [hwriter]
    exact ⟨hdisk.loaded, hdisk.reached, hdisk.unfinished, hdisk.head_le.trans hbefore, hdisk.laid,
      hdisk.published, hdisk.head⟩

end

end

end IntegrityGuardian.MemoryPlane
