import IntegrityGuardian.MemoryPlane.Calls
import IntegrityGuardian.MemoryPlane.Manifests
import IntegrityGuardian.MemoryPlane.Plain

/-!
# Incremental builds

Calls that seal no bucket before it is full build the directory that one call over
the last prefix builds, whatever raised or died on the way.
-/

namespace IntegrityGuardian.MemoryPlane

open Python Library

/-- A call seals no bucket that its stream ends in the middle of, unless it is the
declared head: its head lies before the end of that bucket and is not sealed. -/
def Call.Settles (bucketSpan : Nat) (call : Call) : Prop :=
  (call.count : Int) < call.rawHead → call.count % bucketSpan ≠ 0 →
    call.rawHead < (((call.count - 1) / bucketSpan + 1) * bucketSpan : Nat) ∧
      call.sealHead = false

/-- Each call sees at least the events of the calls before it. -/
def Growing (before : Nat) (calls : List Call) : Prop :=
  List.Pairwise (· ≤ ·) (before :: calls.map Call.count)

section
variable [UnicodeData] {gzip : Bytes → Bytes} {dies : Option Nat → Prop} {source : Source}

theorem Whole.mono {e e' k : Nat} {progress : Progress} {disk : Disk}
    (h : Whole gzip dies source e k progress disk) (hle : e ≤ e') :
    Whole gzip dies source e' k progress disk :=
  ⟨h.loaded, h.reached, h.bucket_le.trans hle, h.laid.mono hle, h.published⟩

theorem whole_empty (hstart : source.start = 0) (hprevious : source.previous = [])
    (hcounted : source.counted = 0) (hcovered : source.covered = 0) :
    Whole gzip dies source 0 0 ⟨∅, [], 0, 0, 0, [], 0⟩ Disk.empty := by
  refine ⟨fun _ _ => rfl, ⟨?_, rfl, ?_, ?_, rfl, ?_⟩, by simp, ?_, ?_⟩
  · exact hstart.le
  · have hhead := @headDigest_start _ gzip source
    rw [hstart, hprevious] at hhead
    exact hhead
  · rw [hcounted]
    simp
  · rw [hcovered, hstart]
    rfl
  · intro bucketId digest bytes hread
    rw [Disk.empty, Dict.get_empty] at hread
    cases hread
  · exact fun _ _ hlt => absurd hlt (Nat.not_lt_zero _)

end

section
variable [UnicodeData] {gzip : Bytes → Bytes} {dies : Option Nat → Prop} {log : Log}
  {bucketSpan : Nat} {hspan : 0 < bucketSpan}

variable {call : Call}

omit [UnicodeData] in
theorem settles_whole (hsettles : call.Settles bucketSpan)
    (hhead : (call.count : Int) ≤ call.rawHead) (hremainder : call.count % bucketSpan ≠ 0) :
    (call.build (log.source bucketSpan hspan)).isComplete ((call.count - 1) / bucketSpan) = false := by
  rw [← Bool.not_eq_true, isComplete_iff (builds_call (log.source bucketSpan hspan) call)]
  show ¬(((call.count - 1) / bucketSpan + 1) * bucketSpan : Nat) ≤ call.rawHead
  rcases hhead.lt_or_eq with hlt | heq
  · exact not_le.2 (hsettles hlt hremainder).1
  · obtain ⟨-, hhigh, hbucket⟩ := head_between hspan hremainder
    rw [hbucket, ← heq]
    omega

/-- A call that does not seal the head keeps a directory of full buckets; when it
returns, all buckets that are full are sealed. -/
theorem call_keeps_whole (hcount : call.count ≤ log.items.length)
    (hflag : call.sealHead = false) (hsettles : call.Settles bucketSpan)
    (hdies : ∀ rest cut, call.fuse = some (rest, cut) → dies cut) {before k : Nat}
    (hbefore : before ≤ call.count) {progress : Progress} {disk : Disk}
    (hdisk : Whole gzip dies (log.source bucketSpan hspan) before k progress disk) :
    (∃ k' progress', Whole gzip dies (log.source bucketSpan hspan) call.count k' progress'
      (log.call gzip bucketSpan call disk).2) ∧
    ∀ result, (log.call gzip bucketSpan call disk).1 = .ok result →
      ∃ progress', Returned (call.build (log.source bucketSpan hspan)) call.count progress' result
        (log.call gzip bucketSpan call disk).2 ∧
      (∀ item ∈ log.items.take call.count,
        item.identity = (call.build (log.source bucketSpan hspan)).identity) ∧
      Whole gzip dies (log.source bucketSpan hspan) call.count (call.count / bucketSpan)
        progress'.reloaded (log.call gzip bucketSpan call disk).2 := by
  have hcall := @call_meets _ gzip log bucketSpan hspan call disk
    (fun result found => ∃ progress',
      Returned (call.build (log.source bucketSpan hspan)) call.count progress' result found ∧
      (∀ item ∈ log.items.take call.count,
        item.identity = (call.build (log.source bucketSpan hspan)).identity) ∧
      Whole gzip dies (log.source bucketSpan hspan) call.count (call.count / bucketSpan)
        progress'.reloaded found)
    (Whole gzip dies (log.source bucketSpan hspan) call.count k progress) (hdisk.mono hbefore)
    fun hpos => (buildLocked_keeps_whole (builds_call (log.source bucketSpan hspan) call) hcount hpos
      (fun hhead hremainder => ⟨settles_whole hsettles hhead hremainder, hflag⟩) hbefore hdisk hdies
      False.elim).mono (fun _ hs => hs)
      (fun _ _ ⟨progress', hreturned, hidentity, hwhole, _⟩ =>
        ⟨progress', hreturned, hidentity, hwhole⟩) fun _ _ h => h.2
  rcases hcall with ⟨result, hok, progress', hreturned, hidentity, hwhole⟩ | ⟨failure, herror, hwhole⟩
  · refine ⟨⟨_, _, hwhole⟩, ?_⟩
    intro result' hok'
    rw [hok] at hok'
    cases hok'
    exact ⟨progress', hreturned, hidentity, hwhole⟩
  · refine ⟨⟨k, progress, hwhole⟩, ?_⟩
    intro result hok
    rw [herror] at hok
    cases hok

theorem calls_keep_whole (calls : List Call) (hcount : ∀ call ∈ calls, call.count ≤ log.items.length)
    (hflag : ∀ call ∈ calls, call.sealHead = false)
    (hsettles : ∀ call ∈ calls, call.Settles bucketSpan)
    (hdies : ∀ call ∈ calls, ∀ rest cut, call.fuse = some (rest, cut) → dies cut) {top : Nat}
    (htop : ∀ call ∈ calls, call.count ≤ top) :
    ∀ {before k : Nat} {progress : Progress} {disk : Disk}, before ≤ top → Growing before calls →
      Whole gzip dies (log.source bucketSpan hspan) before k progress disk →
      ∃ k' progress', Whole gzip dies (log.source bucketSpan hspan) top k' progress'
        (log.calls gzip bucketSpan calls disk) := by
  induction calls with
  | nil =>
    intro before k progress disk hbefore _ hdisk
    exact ⟨k, progress, hdisk.mono hbefore⟩
  | cons call calls ih =>
    intro before k progress disk _ hgrowing hdisk
    rw [Growing, List.map_cons, List.pairwise_cons] at hgrowing
    obtain ⟨⟨k', progress', hnext⟩, -⟩ := call_keeps_whole (hcount call (by simp))
      (hflag call (by simp)) (hsettles call (by simp)) (hdies call (by simp))
      (hgrowing.1 _ (by simp)) hdisk
    exact ih (fun c hc => hcount c (by simp [hc])) (fun c hc => hflag c (by simp [hc]))
      (fun c hc => hsettles c (by simp [hc])) (fun c hc => hdies c (by simp [hc]))
      (fun c hc => htop c (by simp [hc])) (htop call (by simp)) hgrowing.2 hnext

end

/-! ## The directory after a build -/

section
variable [UnicodeData] {gzip : Bytes → Bytes} {dies : Option Nat → Prop} {source : Source}

/-- A manifest cut off where a process may die does not have the digest of the whole. -/
def Untorn (gzip : Bytes → Bytes) (dies : Option Nat → Prop) (source : Source) : Prop :=
  ∀ bucketId segment length, source.segment gzip bucketId = some segment → dies (some length) →
    sha256Bytes (segment.manifest.take length) = sha256Bytes segment.manifest →
    segment.manifest.take length = segment.manifest

theorem Part.eq_of_sha256Bytes (huntorn : Untorn gzip dies source) {bucketId : Nat}
    {segment : Segment} (hsegment : source.segment gzip bucketId = some segment) {bytes : Bytes}
    (hpart : Part dies segment.manifest bytes)
    (hsha : sha256Bytes bytes = sha256Bytes segment.manifest) : bytes = segment.manifest := by
  cases hpart with
  | inl hwhole => exact hwhole
  | inr htorn =>
    obtain ⟨length, hdies, htorn⟩ := htorn
    rw [htorn] at hsha ⊢
    exact huntorn bucketId segment length hsegment hdies hsha

variable {e : Nat} {progress : Progress} {disk : Disk}

theorem segments_whole (hstart : source.start = 0) (huntorn : Untorn gzip dies source)
    (h : Whole gzip dies source e (e / source.bucketSpan) progress disk) (bucketId : Nat)
    (digest : Str) (bytes : Bytes) :
    disk.segments[toLex (bucketId, digest)]? = some bytes ↔
      ∃ segment, source.segment gzip bucketId = some segment ∧
        bucketId < e / source.bucketSpan ∧ digest = sha256Bytes segment.manifest ∧
        bytes = segment.manifest := by
  have hfile : ∀ bucketId segment bytes, source.segment gzip bucketId = some segment →
      bucketId < e / source.bucketSpan →
      disk.segments[toLex (bucketId, sha256Bytes segment.manifest)]? = some bytes →
      bytes = segment.manifest := by
    intro bucketId segment bytes hsegment hlt hread
    obtain ⟨found, hfound, -, -, content, hcontent, hsha⟩ :=
      h.published bucketId (by omega) hlt
    rw [hsegment] at hfound
    cases hfound
    obtain ⟨found, hfound, -, hpart, -⟩ := h.laid bucketId _ bytes hread
    rw [hsegment] at hfound
    cases hfound
    rw [Disk.read, hread] at hcontent
    cases hcontent
    exact hpart.eq_of_sha256Bytes huntorn hsegment hsha
  constructor
  · intro hread
    obtain ⟨segment, hsegment, rfl, -, hend⟩ := h.laid bucketId digest bytes hread
    have hlt : bucketId < e / source.bucketSpan := by
      rw [Nat.lt_iff_add_one_le, Nat.le_div_iff_mul_le source.span_pos]
      exact hend
    exact ⟨segment, hsegment, hlt, rfl, hfile bucketId segment bytes hsegment hlt hread⟩
  · rintro ⟨segment, hsegment, hlt, rfl, rfl⟩
    obtain ⟨found, hfound, -, -, content, hcontent, -⟩ := h.published bucketId (by omega) hlt
    rw [hsegment] at hfound
    cases hfound
    rw [hfile bucketId segment content hsegment hlt hcontent] at hcontent
    exact hcontent

variable {bucketId : Nat}

theorem references_whole (hstart : source.start = 0) (huntorn : Untorn gzip dies source)
    (h : Whole gzip dies source e (e / source.bucketSpan) progress disk)
    (hlt : bucketId < e / source.bucketSpan) {segment : Segment}
    (hsegment : source.segment gzip bucketId = some segment) :
    disk.references bucketId = [(sha256Bytes segment.manifest, segment.manifest)] := by
  have hmem : ∀ file, file ∈ disk.segments.toList.filter (fun file => (ofLex file.1).1 = bucketId) ↔
      file = (toLex (bucketId, sha256Bytes segment.manifest), segment.manifest) := by
    rintro ⟨key, bytes⟩
    rw [List.mem_filter, Dict.mem_toList, decide_eq_true_eq]
    constructor
    · rintro ⟨hread, hbucket⟩
      obtain ⟨found, hfound, -, hdigest, rfl⟩ :=
        (segments_whole hstart huntorn h (ofLex key).1 (ofLex key).2 bytes).1 hread
      rw [hbucket, hsegment] at hfound
      cases hfound
      rw [← hdigest, ← hbucket]
      rfl
    · intro hfile
      cases hfile
      exact ⟨(segments_whole hstart huntorn h _ _ _).2 ⟨segment, hsegment, hlt, rfl, rfl⟩, rfl⟩
  have hnodup : (disk.segments.toList.filter
      (fun file => (ofLex file.1).1 = bucketId)).Nodup :=
    (List.Nodup.of_map _ (Dict.keys_toList_nodup disk.segments)).filter _
  have hsingle := List.perm_of_nodup_nodup_toFinset_eq hnodup (List.nodup_singleton
    (toLex (bucketId, sha256Bytes segment.manifest), segment.manifest)) (by
      ext file
      rw [List.mem_toFinset, hmem, List.mem_toFinset, List.mem_singleton])
  rw [Disk.references, List.perm_singleton.1 hsingle]
  rfl

/-- What `manifest_at_bucket` returns for a bucket of the chain. -/
def Source.manifestAt (gzip : Bytes → Bytes) (source : Source) (bucketId : Nat) : Json × Str :=
  match source.segment gzip bucketId with
  | some segment => ((readJson segment.manifest).getD .null, sha256Bytes segment.manifest)
  | none => (.null, [])

omit [UnicodeData] in
theorem hasObject_of_good {digest : Str} (h : Good (.object digest) disk) :
    disk.hasObject digest = true := by
  obtain ⟨bytes, hread, hsha⟩ := h
  rw [Disk.read] at hread
  rw [Disk.hasObject, hread]
  exact decide_eq_true hsha

theorem manifestAtBucket_whole (hstart : source.start = 0) (huntorn : Untorn gzip dies source)
    (h : Whole gzip dies source e (e / source.bucketSpan) progress disk)
    (hlt : bucketId < e / source.bucketSpan) :
    manifestAtBucket disk bucketId = .ok (source.manifestAt gzip bucketId) := by
  obtain ⟨segment, hsegment, hpayload, hobject, -⟩ := h.published bucketId (by omega) hlt
  obtain ⟨previous, hprevious, hseal⟩ : ∃ previous, source.headDigest gzip bucketId = some previous ∧
      source.sealComplete gzip bucketId previous = .ok segment := by
    cases hprevious : source.headDigest gzip bucketId with
    | none =>
      rw [Source.segment, hprevious] at hsegment
      cases hsegment
    | some previous => exact ⟨previous, rfl, sealComplete_of_segment hprevious hsegment⟩
  obtain ⟨-, doc, hdoc⟩ := segmentOf_describes hseal
  obtain ⟨files, hfiles, hsha⟩ := hdoc.payload
  unfold manifestAtBucket
  rw [references_whole hstart huntorn h hlt hsegment]
  refine ensure_bind_eq_ok.2 ⟨rfl, ?_⟩
  rw [Source.manifestAt, hsegment]
  simp only [hdoc.read]
  refine ensure_bind_eq_ok.2 ⟨⟨hdoc.protocol, hdoc.production⟩, ?_⟩
  refine ensure_bind_eq_ok.2 ⟨hdoc.bucketId, ?_⟩
  refine ensure_bind_eq_ok.2 ⟨hasObject_of_good hobject, ?_⟩
  refine bind_eq_ok.2 ⟨files, mapError_eq_ok.2 (Json.item_eq_ok.2 hfiles), ?_⟩
  refine bind_eq_ok.2 ⟨_, mapError_eq_ok.2 (Json.textItem_eq_ok.2 hsha), ?_⟩
  exact ensure_bind_eq_ok.2 ⟨hasObject_of_good hpayload, rfl⟩

theorem iterManifests_whole (hstart : source.start = 0) (huntorn : Untorn gzip dies source)
    (h : Whole gzip dies source e (e / source.bucketSpan) progress disk) {state : State}
    (hstate : disk.state = some state) (hcount : state.segmentCount = e / source.bucketSpan) :
    iterManifests disk =
      .ok ((List.range (e / source.bucketSpan)).map (source.manifestAt gzip)) := by
  rw [iterManifests, hstate]
  simp only [hcount]
  apply mapM_eq_ok_map
  intro bucketId hmem
  exact manifestAtBucket_whole hstart huntorn h (List.mem_range.1 hmem)

end

/-! ## One build of a prefix -/

theorem intact_empty : Intact Disk.empty := by
  intro path bytes hread
  cases path with
  | object digest =>
    rw [Disk.read, Disk.empty, Dict.get_empty] at hread
    cases hread
  | segment bucketId digest =>
    rw [Disk.read, Disk.empty, Dict.get_empty] at hread
    cases hread

section
variable [UnicodeData] {gzip : Bytes → Bytes} {log : Log} {bucketSpan : Nat}

/-- One call over the first `count` events. -/
def Call.once (count : Nat) : Call := ⟨count, count, false, none⟩

variable {call : Call} {disk : Disk} {count k n : Nat} {progress : Progress} {segment : Segment}

theorem call_returns (hspan : 0 < bucketSpan)
    (hvalid : (Call.once count).Valid log bucketSpan) (hcount : count ≤ log.items.length)
    (hidentity : ∀ item ∈ log.items.take count,
      item.identity = ((Call.once count).build (log.source bucketSpan hspan)).identity)
    (hsegments : ∀ bucketId, (bucketId + 1) * bucketSpan ≤ count →
      ∃ segment, (log.source bucketSpan hspan).segment gzip bucketId = some segment)
    {before : Nat} (hbefore : before ≤ count)
    (hdisk : Whole gzip (fun _ => False) (log.source bucketSpan hspan) before k progress disk)
    (hintact : Intact disk) :
    ∃ result progress', (log.call gzip bucketSpan (Call.once count) disk).1 = .ok result ∧
      Returned ((Call.once count).build (log.source bucketSpan hspan)) count progress' result
        (log.call gzip bucketSpan (Call.once count) disk).2 ∧
      Whole gzip (fun _ => False) (log.source bucketSpan hspan) count (count / bucketSpan)
        progress'.reloaded (log.call gzip bucketSpan (Call.once count) disk).2 ∧
      Intact (log.call gzip bucketSpan (Call.once count) disk).2 := by
  have hbuild := builds_call (log.source bucketSpan hspan) (Call.once count)
  have hkeeps := @buildLocked_keeps_whole _ gzip (fun _ => False) (log.source bucketSpan hspan)
    count _ hbuild hcount hvalid.count_pos
    (fun hhead hremainder => ⟨settles_whole (fun hlt => absurd hlt (lt_irrefl _)) hhead hremainder, rfl⟩)
    before k hbefore _ _ hdisk none (fun _ _ h => by cases h) True
    fun _ => ⟨hidentity, rfl, fun bucketId _ => hsegments bucketId, rfl, hintact⟩
  have hcall := @call_valid_meets _ gzip log bucketSpan hspan (Call.once count) disk
    (fun result found => ∃ progress',
      Returned ((Call.once count).build (log.source bucketSpan hspan)) count progress' result found ∧
      Whole gzip (fun _ => False) (log.source bucketSpan hspan) count (count / bucketSpan)
        progress'.reloaded found ∧ Intact found)
    (fun _ => False) hvalid (hkeeps.mono (fun _ hs => hs)
      (fun _ _ ⟨progress', hreturned, _, hwhole, hintact'⟩ =>
        ⟨progress', hreturned, hwhole, hintact' trivial⟩)
      fun _ _ h => h.1 trivial)
  rcases hcall with ⟨result, hok, progress', hreturned, hwhole, hintact'⟩ | ⟨-, -, hfalse⟩
  · exact ⟨result, progress', hok, hreturned, hwhole, hintact'⟩
  · exact hfalse.elim

theorem calls_concat (calls : List Call) (last : Call) (disk : Disk) :
    log.calls gzip bucketSpan (calls ++ [last]) disk =
      (log.call gzip bucketSpan last (log.calls gzip bucketSpan calls disk)).2 := by
  induction calls generalizing disk with
  | nil => rfl
  | cons call calls ih => exact ih _

theorem nextState_congr {source : Source} {call' : Call} {progress' : Progress}
    (h : Reached gzip source k progress.reloaded) (h' : Reached gzip source k progress'.reloaded)
    (hhead : (call.build source).rawHead = (call'.build source).rawHead) :
    nextState (call.build source) progress = nextState (call'.build source) progress' := by
  have hprevious : progress.previous = progress'.previous :=
    Option.some.inj (h.previous.symm.trans h'.previous)
  have hcovered : progress.lastCovered = progress'.lastCovered :=
    h.lastCovered.trans h'.lastCovered.symm
  have hevents : progress.eventCount = progress'.eventCount :=
    h.eventCount.trans h'.eventCount.symm
  have hcount : progress.segmentCount = progress'.segmentCount :=
    h.segmentCount.trans h'.segmentCount.symm
  have hsealed : progress.sealedIds = progress'.sealedIds :=
    h.sealedIds.trans h'.sealedIds.symm
  unfold nextState
  rw [hhead, hprevious, hcovered, hevents, hcount, hsealed]
  rfl

/-- The lengths at which the processes of some calls die inside a file. -/
def torn (calls : List Call) (cut : Option Nat) : Prop :=
  ∃ call ∈ calls, ∃ rest, call.fuse = some (rest, cut)

/-- Calls that do not seal the head and seal no bucket their stream ends inside leave,
once the last of them returns, what one call over the last prefix leaves. -/
theorem incremental_build_eq_once (calls : List Call) (last : Call) (hspan : 0 < bucketSpan)
    (hgrowing : Growing 0 (calls ++ [last]))
    (hcount : ∀ call ∈ calls ++ [last], call.count ≤ log.items.length)
    (hflag : ∀ call ∈ calls ++ [last], call.sealHead = false)
    (hsettles : ∀ call ∈ calls ++ [last], call.Settles bucketSpan)
    (huntorn : Untorn gzip (torn (calls ++ [last])) (log.source bucketSpan hspan))
    (hok : ∃ result, (log.call gzip bucketSpan last
      (log.calls gzip bucketSpan calls Disk.empty)).1 = .ok result) :
    ∃ manifests,
      (∃ result, (log.call gzip bucketSpan (Call.once last.count) Disk.empty).1 = .ok result) ∧
      (log.calls gzip bucketSpan (calls ++ [last]) Disk.empty).segments =
        (log.call gzip bucketSpan (Call.once last.count) Disk.empty).2.segments ∧
      (log.calls gzip bucketSpan (calls ++ [last]) Disk.empty).state =
        (log.call gzip bucketSpan (Call.once last.count) Disk.empty).2.state ∧
      iterManifests (log.calls gzip bucketSpan (calls ++ [last]) Disk.empty) = .ok manifests ∧
      iterManifests (log.call gzip bucketSpan (Call.once last.count) Disk.empty).2 =
        .ok manifests := by
  obtain ⟨result, hok⟩ := hok
  have htop : ∀ call ∈ calls, call.count ≤ last.count := by
    intro call hcall
    rw [Growing, List.map_append, ← List.cons_append, List.pairwise_append] at hgrowing
    exact hgrowing.2.2 _ (List.mem_cons_of_mem _ (List.mem_map_of_mem hcall)) _ (by simp)
  have hbefore : Growing 0 calls := by
    rw [Growing, List.map_append, ← List.cons_append, List.pairwise_append] at hgrowing
    exact hgrowing.1
  have hdies : ∀ call ∈ calls ++ [last], ∀ rest cut, call.fuse = some (rest, cut) →
      torn (calls ++ [last]) cut := fun call hcall rest cut hfuse => ⟨call, hcall, rest, hfuse⟩
  obtain ⟨k, progress, hwhole⟩ := calls_keep_whole calls
    (fun call hcall => hcount call (List.mem_append_left _ hcall))
    (fun call hcall => hflag call (List.mem_append_left _ hcall))
    (fun call hcall => hsettles call (List.mem_append_left _ hcall))
    (fun call hcall => hdies call (List.mem_append_left _ hcall)) htop (Nat.zero_le _) hbefore
    (@whole_empty _ gzip (torn (calls ++ [last])) (log.source bucketSpan hspan) rfl rfl rfl rfl)
  have hlast : last ∈ calls ++ [last] := by simp
  obtain ⟨progress', hreturned, hidentity, hafter⟩ := (call_keeps_whole (hcount last hlast)
    (hflag last hlast) (hsettles last hlast) (hdies last hlast) (le_refl _) hwhole).2 result hok
  have hvalid : last.Valid log bucketSpan := by
    by_contra hinvalid
    obtain ⟨failure, hfailed⟩ := @call_invalid _ gzip log bucketSpan last hinvalid
      (log.calls gzip bucketSpan calls Disk.empty)
    rw [hfailed] at hok
    cases hok
  have hvalid' : (Call.once last.count).Valid log bucketSpan := by
    have hpos := hvalid.count_pos
    exact ⟨hvalid.span_ge, hvalid.span_le, hvalid.first, by simp only [Call.once]; omega⟩
  obtain ⟨result', progress'', hok', hreturned', honce, -⟩ := call_returns hspan hvalid'
    (hcount last hlast) hidentity (by
      intro bucketId hend
      obtain ⟨segment, hsegment, -⟩ := hafter.published bucketId (Nat.zero_le _) (by
        rw [Nat.lt_iff_add_one_le, Nat.le_div_iff_mul_le hspan]
        exact hend)
      exact ⟨segment, hsegment⟩) (Nat.zero_le _) (whole_empty rfl rfl rfl rfl) intact_empty
  have huntorn' : Untorn gzip (fun _ => False) (log.source bucketSpan hspan) :=
    fun _ _ _ _ hfalse => hfalse.elim
  rw [calls_concat]
  refine ⟨_, ⟨result', hok'⟩, ?_, ?_, iterManifests_whole rfl huntorn hafter hreturned.state
    hafter.reached.segmentCount, iterManifests_whole rfl huntorn' honce hreturned'.state
    honce.reached.segmentCount⟩
  · apply Dict.ext
    intro key
    apply Option.ext
    intro bytes
    exact (segments_whole rfl huntorn hafter (ofLex key).1 (ofLex key).2 bytes).trans
      (segments_whole rfl huntorn' honce (ofLex key).1 (ofLex key).2 bytes).symm
  · rw [hreturned.state, hreturned'.state]
    exact congrArg some (nextState_congr hafter.reached honce.reached hreturned.rawHead)

/-! ## Logs of plain events -/

/-- The event with cursor `i + 1` of a log without content. -/
def plainItem (i : Nat) : Item where
  tenantId := str "tenant"
  namespaceId := str "namespace"
  edgeId := str "edge"
  cursor := i + 1
  eventUid := List.replicate i (Json.ch 'u')
  tsUtc := str "2026-01-01T00:00:00Z"
  payloadSha256 := .null
  envelopeSha256 := .null
  event := []
  source := .null
  batchSha256 := []
  sourceFirst := 1
  source_wf := rfl

/-- A log of `n` events without content. -/
def plainLog (n : Nat) : Log where
  items := (List.range n).map plainItem
  contiguous := by
    intro i item hitem
    rw [List.getElem?_map, Option.map_eq_some_iff] at hitem
    obtain ⟨j, hj, rfl⟩ := hitem
    obtain ⟨-, rfl⟩ := List.getElem?_eq_some_iff.1 hj
    rw [List.getElem_range]
    rfl

omit [UnicodeData] in
theorem head?_plainLog (n : Nat) : (plainLog (n + 1)).items.head? = some (plainItem 0) := by
  show ((List.range (n + 1)).map plainItem).head? = some (plainItem 0)
  rw [List.range_succ_eq_map]
  rfl

omit [UnicodeData] in
theorem plainItem_plain (i : Nat) : (plainItem i).Plain := by
  refine ⟨rfl, ?_, any_isSurrogate_str _, rfl, rfl, rfl⟩
  rw [List.any_eq_false]
  intro c hc
  rw [List.eq_of_mem_replicate hc]
  decide

omit [UnicodeData] in
theorem plainLog_plain (n : Nat) (hspan : 0 < bucketSpan) :
    ((plainLog n).source bucketSpan hspan).Plain := by
  have hhead : ∀ (f : Item → Str), (∀ i, (f (plainItem i)).any CodePoint.isSurrogate = false) →
      (((plainLog n).items.head?.map f).getD []).any CodePoint.isSurrogate = false := by
    intro f hf
    cases n with
    | zero => rfl
    | succ n =>
      rw [head?_plainLog]
      exact hf 0
  refine ⟨?_, ?_, hhead _ fun _ => any_isSurrogate_str _, hhead _ fun _ => any_isSurrogate_str _,
    hhead _ fun _ => any_isSurrogate_str _, rfl⟩
  · intro item hitem
    obtain ⟨i, -, rfl⟩ := List.mem_map.1 hitem
    exact plainItem_plain i
  · rw [Log.source, plainLog, List.map_map]
    apply List.nodup_range.map
    intro i j hij
    have hlength := congrArg List.length hij
    simpa [plainItem] using hlength

omit [UnicodeData] in
theorem plainLog_identity (hpos : 0 < n) (hspan : 0 < bucketSpan) (call : Call) :
    ∀ item ∈ (plainLog n).items.take count,
      item.identity = (call.build ((plainLog n).source bucketSpan hspan)).identity := by
  intro item hitem
  obtain ⟨i, -, rfl⟩ := List.mem_map.1 (List.mem_of_mem_take hitem)
  obtain ⟨m, rfl⟩ := Nat.exists_eq_add_one_of_ne_zero hpos.ne'
  simp only [Call.build, Log.source, head?_plainLog]
  rfl

omit [UnicodeData] in
theorem plainLog_valid (hn : 0 < n) (hcount : 0 < call.count)
    (hhead : 1 ≤ call.rawHead) (hge : 16 ≤ bucketSpan) (hle : bucketSpan ≤ 1000000) :
    call.Valid (plainLog n) bucketSpan := by
  refine ⟨hge, hle, ?_, hhead⟩
  rw [List.head?_take, if_neg hcount.ne']
  obtain ⟨m, rfl⟩ := Nat.exists_eq_add_one_of_ne_zero hn.ne'
  rw [head?_plainLog]
  simp

omit [UnicodeData] in
theorem length_plainLog (n : Nat) : (plainLog n).items.length = n := by
  simp [plainLog]

theorem plainLog_returns {before : Nat} (hspan : 0 < bucketSpan) (hge : 16 ≤ bucketSpan)
    (hle : bucketSpan ≤ 1000000) (hpos : 0 < count) (hcount : count ≤ n) (hbefore : before ≤ count)
    (hdisk : Whole gzip (fun _ => False) ((plainLog n).source bucketSpan hspan) before k progress
      disk) (hintact : Intact disk) :
    ∃ result progress', ((plainLog n).call gzip bucketSpan (Call.once count) disk).1 = .ok result ∧
      Whole gzip (fun _ => False) ((plainLog n).source bucketSpan hspan) count (count / bucketSpan)
        progress' ((plainLog n).call gzip bucketSpan (Call.once count) disk).2 ∧
      Intact ((plainLog n).call gzip bucketSpan (Call.once count) disk).2 := by
  have hlength := length_plainLog n
  obtain ⟨result, progress', hok, -, hwhole, hintact'⟩ := call_returns hspan
    (plainLog_valid (by omega) hpos (by simp only [Call.once]; omega) hge hle) (by omega)
    (plainLog_identity (by omega) hspan _)
    (fun bucketId hend => segment_plain (plainLog_plain n hspan) (Nat.zero_le _) (by
      show (bucketId + 1) * bucketSpan ≤ (plainLog n).items.length
      omega))
    hbefore hdisk hintact
  exact ⟨result, _, hok, hwhole, hintact'⟩

/-! ## A stream that ends inside a bucket -/

/-- A call whose stream ends inside its first bucket while the declared head lies beyond it. -/
def Call.short (count : Nat) (rawHead : Int) : Call := ⟨count, rawHead, false, none⟩

/-- Everything is in order and the reference, if it is there, is to the segment. -/
structure Leaves (segment : Segment) (disk : Disk) : Prop where
  state : disk.state = none
  reference : ∀ bytes, disk.read (.segment 0 (sha256Bytes segment.manifest)) = some bytes →
    bytes = segment.manifest

omit [UnicodeData] in
theorem keptBy_leaves_object (segment : Segment) (digest : Str) (value : Bytes) :
    KeptBy (fun _ => False) (.object digest) value (Leaves segment) := by
  intro disk bytes hleaves _ _
  refine ⟨by rw [state_write, hleaves.state], ?_⟩
  intro content hread
  rw [read_write, if_neg (by simp)] at hread
  exact hleaves.reference content hread

omit [UnicodeData] in
theorem keptBy_leaves_segment (segment : Segment) :
    KeptBy (fun _ => False) (.segment 0 (sha256Bytes segment.manifest)) segment.manifest
      (Leaves segment) := by
  intro disk bytes hleaves _ hpart
  refine ⟨by rw [state_write, hleaves.state], ?_⟩
  intro content hread
  rw [read_write, if_pos rfl] at hread
  cases hread
  exact hpart.resolve_right fun ⟨_, hfalse, _⟩ => hfalse

/-- What a build on an empty directory leaves that seals the bucket its stream ends in. -/
theorem buildLocked_short {rawHead : Int} (hspan : 0 < bucketSpan)
    (hpos : 0 < count) (hcount : count ≤ n) (hinside : count < bucketSpan)
    (hhead : (bucketSpan : Int) ≤ rawHead) (hsegment : segmentOf gzip
      ((Call.short count rawHead).build ((plainLog n).source bucketSpan hspan)) 0
      (((plainLog n).source bucketSpan hspan).bucketItems 0 count) [] = .ok segment) :
    Durable.Ensures (fun writer => writer = ⟨Disk.empty, none⟩)
      (buildLocked gzip ((Call.short count rawHead).build ((plainLog n).source bucketSpan hspan))
        (((plainLog n).source bucketSpan hspan).items.take count))
      (fun _ _ => False)
      (fun _ writer => Leaves segment writer.disk ∧ Intact writer.disk ∧
        Good (.segment 0 (sha256Bytes segment.manifest)) writer.disk) := by
  have hlength : count ≤ ((plainLog n).source bucketSpan hspan).items.length := by
    show count ≤ (plainLog n).items.length
    rw [length_plainLog]
    exact hcount
  have hbeyond : ∀ bucketId, ¬(bucketId + 1) * bucketSpan ≤ count := by
    intro bucketId hle
    rw [Nat.add_mul] at hle
    omega
  have hplan : Plan gzip (fun _ => False) True (Leaves segment)
      ((plainLog n).source bucketSpan hspan)
      ((Call.short count rawHead).build ((plainLog n).source bucketSpan hspan)) count := by
    refine ⟨builds_call _ _, hlength, keptBy_leaves_object segment, ?_, ?_, ?_, ?_⟩
    · exact fun bucketId _ _ hle => absurd hle (hbeyond bucketId)
    · exact fun _ => plainLog_identity (by omega) hspan _
    · exact fun _ => by simp only [Call.build, Call.short]; omega
    · exact fun _ bucketId _ hle => absurd hle (hbeyond bucketId)
  have hempty := @whole_empty _ gzip (fun _ => False) ((plainLog n).source bucketSpan hspan) rfl rfl
    rfl rfl
  refine ⟨?_⟩
  rintro writer rfl
  unfold buildLocked
  simp only [Durable.exec_bind, Durable.exec_get, Durable.exec_lift,
    hempty.loaded _ (builds_call _ (Call.short count rawHead))]
  rw [← Durable.exec_bind]
  have hstanding : Standing gzip (fun _ => False) True (Leaves segment)
      ((plainLog n).source bucketSpan hspan) count 0 ⟨none, [], 0, ⟨∅, [], 0, 0, 0, [], 0⟩⟩
      ⟨Disk.empty, none⟩ := by
    refine ⟨0, by simp, hempty.reached, ⟨rfl, rfl, by simp, by simp [Source.bucketItems]⟩,
      ⟨⟨rfl, ?_⟩, hempty.published⟩, ?_, fun _ => ⟨rfl, intact_empty⟩⟩
    · intro bytes hread
      rw [Disk.read, Disk.empty, Dict.get_empty] at hread
      cases hread
    · intro rest cut hfuse
      cases hfuse
  refine Durable.Ensures.meets (Durable.Ensures.bind ((feed_standing hplan _).mono (fun _ hs => hs)
    (fun _ _ h => h) fun _ _ h => absurd trivial h.1) fun loop => ⟨?_⟩) _ hstanding
  rintro writer ⟨⟨k, hk, hreached, hfed, ⟨hleaves, hpublished⟩, hfuse, hclean⟩, -, -⟩
  have hzero : (count - 1) / bucketSpan = 0 := Nat.div_eq_of_lt (by omega)
  have hk : k = 0 := by
    by_contra hne
    have := Nat.mul_le_mul_right bucketSpan (Nat.pos_of_ne_zero hne)
    have hle : k * bucketSpan ≤ count := hk
    omega
  subst hk
  obtain ⟨first, hfirst, hfirstCursor⟩ := @head?_bucketItems
    ((plainLog n).source bucketSpan hspan) 0 count (by omega) hlength
  obtain ⟨last, hlast, -⟩ := @getLast?_bucketItems
    ((plainLog n).source bucketSpan hspan) 0 count (by omega) hlength
  have hprevious : loop.progress.previous = [] :=
    Option.some.inj (hreached.previous.symm.trans hempty.reached.previous)
  have hseal := @sealBucket_ensures _ gzip (fun _ => False) True (Leaves segment)
    ((Call.short count rawHead).build ((plainLog n).source bucketSpan hspan)) 0 _ first last
    loop.progress (by rw [hreached.sealedIds]; simp)
    (.inl ((isComplete_iff (builds_call _ _) 0).2 (by
      rw [Nat.zero_add, Nat.one_mul]
      exact hhead))) hfirst hlast
    (hreached.lastCovered_lt hfirstCursor)
    (fun _ => ⟨segment, by rw [hprevious]; exact hsegment⟩) (keptBy_leaves_object segment)
    (by
      intro found hfound
      rw [hprevious, hsegment] at hfound
      cases hfound
      exact keptBy_leaves_segment segment)
  have hbucket : loop.bucket = ((plainLog n).source bucketSpan hspan).bucketItems 0 count := by
    rw [hfed.bucket]
    exact if_neg (Nat.not_lt_zero _)
  have hbucketId : loop.bucketId = some 0 := by
    rw [hfed.bucketId, if_neg (by omega)]
    exact congrArg some hzero
  unfold finish sealLast
  rw [hbucketId, hbucket]
  refine Durable.Ensures.meets (Durable.Ensures.bind (hseal.mono (fun _ hs => hs) (fun _ _ h => h)
    fun _ _ h => absurd trivial h.1) fun progress' => ?_) writer ⟨hleaves, hfuse, hclean⟩
  rw [hfed.previousCursor, if_pos (by simp only [Call.build, Call.short]; omega)]
  apply Durable.ensures_throw
  rintro writer' ⟨found, hfound, -, ⟨hleaves', -, -, hgood⟩, -, hclean'⟩
  rw [hprevious, hsegment] at hfound
  cases hfound
  exact ⟨hleaves', (hclean' trivial).whole, hgood⟩

omit [UnicodeData] in
theorem keptBy_read (path other : Path) (value content : Bytes) :
    KeptBy (fun _ => False) path value fun disk => disk.read other = some content := by
  intro disk bytes hread hnew _
  rw [read_write, if_neg]
  · exact hread
  · rintro rfl
    rw [hnew] at hread
    cases hread

/-- The next call returns and keeps the reference that was left. -/
theorem once_keeps_reference (hspan : 0 < bucketSpan) (hge : 16 ≤ bucketSpan)
    (hle : bucketSpan ≤ 1000000) (hpos : 0 < count) (hcount : count ≤ n)
    (hleaves : Leaves segment disk) (hintact : Intact disk)
    (hgood : Good (.segment 0 (sha256Bytes segment.manifest)) disk) :
    ∃ result, ((plainLog n).call gzip bucketSpan (Call.once count) disk).1 = .ok result ∧
      ((plainLog n).call gzip bucketSpan (Call.once count) disk).2.read
        (.segment 0 (sha256Bytes segment.manifest)) = some segment.manifest := by
  have hlength : ((plainLog n).source bucketSpan hspan).items.length = n := length_plainLog n
  have hread : disk.read (.segment 0 (sha256Bytes segment.manifest)) = some segment.manifest := by
    obtain ⟨bytes, hread, -⟩ := hgood
    rw [hread, hleaves.reference bytes hread]
  have hplan : Plan gzip (fun _ => False) True
      (fun found => found.read (.segment 0 (sha256Bytes segment.manifest)) = some segment.manifest)
      ((plainLog n).source bucketSpan hspan)
      ((Call.once count).build ((plainLog n).source bucketSpan hspan)) count := by
    refine ⟨builds_call _ _, by omega, fun _ _ => keptBy_read _ _ _ _,
      fun _ _ _ _ _ => keptBy_read _ _ _ _, fun _ => plainLog_identity (by omega) hspan _,
      fun _ => le_refl _, ?_⟩
    intro _ bucketId hstart hend
    exact segment_plain (plainLog_plain n hspan) hstart (by omega)
  have hempty := @whole_empty _ gzip (fun _ => False) ((plainLog n).source bucketSpan hspan) rfl rfl
    rfl rfl
  have hlocked := buildLocked_whole hplan hpos
    (fun hhead hremainder => ⟨settles_whole (fun hlt => absurd hlt (lt_irrefl _)) hhead hremainder, rfl⟩)
    (fun _ => rfl) hempty.reached (by simp)
  have hcall := @call_valid_meets _ gzip (plainLog n) bucketSpan hspan (Call.once count) disk
    (fun _ found => found.read (.segment 0 (sha256Bytes segment.manifest)) = some segment.manifest)
    (fun _ => False)
    (plainLog_valid (by omega) hpos (by simp only [Call.once]; omega) hge hle) (by
      apply hlocked.mono
      · rintro writer rfl
        refine ⟨?_, ⟨hread, fun _ _ hlt => absurd hlt (Nat.not_lt_zero _)⟩, ?_,
          fun _ => ⟨rfl, hintact⟩⟩
        · exact hempty.loaded.of_state hleaves.state _ (builds_call _ _)
        · intro rest cut hfuse
          cases hfuse
      · rintro result writer ⟨progress, found, -, -, -, -, hfound, -, -, hwriter⟩
        rw [hwriter]
        exact hfound
      · exact fun _ _ h => h.1 trivial)
  rcases hcall with ⟨result, hok, hfound⟩ | ⟨-, -, hfalse⟩
  · exact ⟨result, hok, hfound⟩
  · exact hfalse.elim

end

attribute [local instance] asciiUnicodeData

/-- Two calls over a plain log, and one over its last prefix. -/
theorem incremental_plain_log : (plainLog 40).items.length = 40 ∧ ∀ gzip : Bytes → Bytes,
    ∃ manifests,
      (∃ result, ((plainLog 40).call gzip 16 (Call.once 40) Disk.empty).1 = .ok result) ∧
      ((plainLog 40).calls gzip 16 [Call.once 20, Call.once 40] Disk.empty).segments =
        ((plainLog 40).call gzip 16 (Call.once 40) Disk.empty).2.segments ∧
      ((plainLog 40).calls gzip 16 [Call.once 20, Call.once 40] Disk.empty).state =
        ((plainLog 40).call gzip 16 (Call.once 40) Disk.empty).2.state ∧
      iterManifests ((plainLog 40).calls gzip 16 [Call.once 20, Call.once 40] Disk.empty) =
        .ok manifests ∧
      iterManifests ((plainLog 40).call gzip 16 (Call.once 40) Disk.empty).2 = .ok manifests := by
  refine ⟨length_plainLog 40, fun gzip => ?_⟩
  obtain ⟨-, progress, -, hwhole, hintact⟩ := plainLog_returns (by decide : 0 < 16) (by decide)
    (by decide) (by decide : 0 < 20) (by decide : 20 ≤ 40) (Nat.zero_le _)
    (@whole_empty _ gzip _ ((plainLog 40).source 16 (by decide)) rfl rfl rfl rfl) intact_empty
  obtain ⟨result, -, hok, -, -⟩ := plainLog_returns (by decide : 0 < 16) (by decide) (by decide)
    (by decide : 0 < 40) (by decide : 40 ≤ 40) (by decide) hwhole hintact
  have hcalls : ∀ call ∈ [Call.once 20] ++ [Call.once 40], call.count ≤ 40 ∧
      call.sealHead = false ∧ call.Settles 16 := by
    intro call hcall
    simp only [List.cons_append, List.nil_append, List.mem_cons, List.not_mem_nil, or_false] at hcall
    rcases hcall with rfl | rfl
    · exact ⟨by decide, rfl, fun h => absurd h (lt_irrefl _)⟩
    · exact ⟨by decide, rfl, fun h => absurd h (lt_irrefl _)⟩
  have hcount : ∀ call ∈ [Call.once 20] ++ [Call.once 40],
      call.count ≤ (plainLog 40).items.length := by
    rw [length_plainLog]
    exact fun call hcall => (hcalls call hcall).1
  have huntorn : Untorn gzip (torn ([Call.once 20] ++ [Call.once 40]))
      ((plainLog 40).source 16 (by decide)) := by
    rintro bucketId segment length - ⟨call, hcall, rest, hfuse⟩
    simp only [List.cons_append, List.nil_append, List.mem_cons, List.not_mem_nil, or_false] at hcall
    rcases hcall with rfl | rfl
    · cases hfuse
    · cases hfuse
  have hbefore : (plainLog 40).calls gzip 16 [Call.once 20] Disk.empty =
      ((plainLog 40).call gzip 16 (Call.once 20) Disk.empty).2 := by
    rw [Log.calls, Log.calls]
  rw [← hbefore] at hok
  have hgrowing : Growing 0 ([Call.once 20] ++ [Call.once 40]) := by
    simp [Growing, Call.once]
  have hflag : ∀ call ∈ [Call.once 20] ++ [Call.once 40], call.sealHead = false :=
    fun call hcall => (hcalls call hcall).2.1
  have hsettles : ∀ call ∈ [Call.once 20] ++ [Call.once 40], call.Settles 16 :=
    fun call hcall => (hcalls call hcall).2.2
  have hresult : ∃ result, ((plainLog 40).call gzip 16 (Call.once 40)
      ((plainLog 40).calls gzip 16 [Call.once 20] Disk.empty)).1 = .ok result := ⟨result, hok⟩
  have h := @incremental_build_eq_once _ gzip (plainLog 40) 16 [Call.once 20] (Call.once 40)
    (by decide) hgrowing hcount hflag hsettles huntorn hresult
  rw [show (Call.once 40).count = 40 from rfl] at h
  exact h

/-- A stream of one event under a declared head of sixteen raises and leaves a reference
to a bucket of one event.  The next call returns, and its directory is not that of one
build. -/
theorem short_stream_leaves_reference : Growing 0 [Call.short 1 16, Call.once 16] ∧
    ∀ gzip : Bytes → Bytes,
      (∃ failure, ((plainLog 16).call gzip 16 (Call.short 1 16) Disk.empty).1 = .error failure) ∧
      (∃ result, ((plainLog 16).call gzip 16 (Call.once 16)
        ((plainLog 16).call gzip 16 (Call.short 1 16) Disk.empty).2).1 = .ok result) ∧
      ((plainLog 16).calls gzip 16 [Call.short 1 16, Call.once 16] Disk.empty).segments ≠
        ((plainLog 16).call gzip 16 (Call.once 16) Disk.empty).2.segments := by
  refine ⟨by simp [Growing, Call.short, Call.once], fun gzip => ?_⟩
  have hplain : ((plainLog 16).source 16 (by decide)).Plain := plainLog_plain 16 (by decide)
  obtain ⟨segment, hsegment⟩ := @segmentOf_bucketItems _ gzip _ hplain
    ((Call.short 1 16).build ((plainLog 16).source 16 (by decide))) (builds_call _ _) 0 1 (by simp)
    (by show 1 ≤ (plainLog 16).items.length; rw [length_plainLog]; decide) [] rfl
  have hshort := buildLocked_short (by decide : 0 < 16) (by decide) (by decide : 1 ≤ 16) (by decide)
    (le_refl _) hsegment
  have hcall := @call_valid_meets _ gzip (plainLog 16) 16 (by decide) (Call.short 1 16) Disk.empty
    (fun _ _ => False)
    (fun disk => Leaves segment disk ∧ Intact disk ∧
      Good (.segment 0 (sha256Bytes segment.manifest)) disk)
    (plainLog_valid (by decide) (by decide) (by decide) (by decide) (by decide)) hshort
  rcases hcall with ⟨-, -, hfalse⟩ | ⟨failure, herror, hleaves, hintact, hgood⟩
  · exact hfalse.elim
  obtain ⟨result, hok, hread⟩ := once_keeps_reference (by decide : 0 < 16) (by decide) (by decide)
    (by decide : 0 < 16) (le_refl 16) hleaves hintact hgood
  refine ⟨⟨failure, herror⟩, ⟨result, hok⟩, ?_⟩
  rw [Log.calls, Log.calls, Log.calls]
  intro hsame
  obtain ⟨-, progress, -, honce, -⟩ := plainLog_returns (by decide : 0 < 16) (by decide) (by decide)
    (by decide : 0 < 16) (le_refl 16) (Nat.zero_le _)
    (@whole_empty _ gzip _ ((plainLog 16).source 16 (by decide)) rfl rfl rfl rfl) intact_empty
  rw [Disk.read, hsame] at hread
  obtain ⟨found, hfound, -, -, hmanifest⟩ := (segments_whole rfl
    (fun _ _ _ _ hfalse => hfalse.elim) honce 0 _ _).1 hread
  -- The two manifests differ in the number of their events.
  obtain ⟨previous, hprevious, -⟩ := @headDigest_plain _ gzip _ hplain 0 (le_refl 0) (by simp)
  obtain ⟨-, doc, hdoc⟩ := segmentOf_describes hsegment
  obtain ⟨-, doc', hdoc'⟩ := segmentOf_describes (sealComplete_of_segment hprevious hfound)
  have hread' := hdoc.read
  rw [hmanifest, hdoc'.read] at hread'
  cases hread'
  have hevents := hdoc.eventCount.symm.trans hdoc'.eventCount
  rw [length_bucketItems, length_bucketItems] at hevents
  · cases hevents
  · show (0 + 1) * 16 ≤ (plainLog 16).items.length
    rw [length_plainLog]
  · show 1 ≤ (plainLog 16).items.length
    rw [length_plainLog]
    decide

end IntegrityGuardian.MemoryPlane
