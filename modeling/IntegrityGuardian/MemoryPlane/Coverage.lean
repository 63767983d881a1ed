import IntegrityGuardian.MemoryPlane.Incremental

/-!
# Coverage

Which events the segments of a directory hold, when heads are sealed as well.  A
sealed head closes its bucket, so that the events that come later into this bucket
are in no segment; until a later bucket is sealed, they are not counted as covered.
-/

namespace IntegrityGuardian.MemoryPlane

open Python Library

/-- A call after a sealed head that seals no further bucket. -/
def Call.Continues (bucketSpan : Nat) (disk : Disk) (call : Call) : Prop :=
  ∀ state, disk.state = some state → state.lastCovered % bucketSpan ≠ 0 →
    call.count ≤ state.segmentCount * bucketSpan ∨
      (call.rawHead < ((state.segmentCount + 1) * bucketSpan : Nat) ∧
        (call.sealHead = true → call.rawHead < call.count))

section
variable [UnicodeData] (gzip : Bytes → Bytes) (log : Log)

/-- Every call seals no bucket its stream ends inside but the declared head, and no
bucket after a sealed head. -/
def Log.Orderly (bucketSpan : Nat) : List Call → Disk → Prop
  | [], _ => True
  | call :: rest, disk => call.Settles bucketSpan ∧ call.Continues bucketSpan disk ∧
    Log.Orderly bucketSpan rest (log.call gzip bucketSpan call disk).2

/-- An event is in the segment of a reference: its cursor is in the range of the manifest,
whose payload is that of the events of this range. -/
def Disk.Contains (disk : Disk) (reference : Nat × Str) (item : Item) : Prop :=
  ∃ bytes doc first last base payload statistics files,
    disk.segments[toLex reference]? = some bytes ∧ readJson bytes = some doc ∧
    doc.get? (str "first_cursor") = some (.int first) ∧
    doc.get? (str "last_cursor") = some (.int last) ∧
    first ≤ item.cursor ∧ item.cursor ≤ last ∧
    compactPayload gzip (log.items.filter fun event => first ≤ event.cursor ∧ event.cursor ≤ last)
      base = .ok (payload, statistics) ∧
    doc.get? (str "payload") = some files ∧
    files.get? (str "sha256") = some (.str (sha256Bytes payload)) ∧
    Good (.object (sha256Bytes payload)) disk

end

/-! ## Directories with a sealed head -/

section
variable [UnicodeData] {gzip : Bytes → Bytes} {source : Source}

/-- What calls without crashes leave, after `e` events. -/
def Indexed (gzip : Bytes → Bytes) (source : Source) (e : Nat) (progress : Progress) (disk : Disk) :
    Prop :=
  (∃ k, Whole gzip (fun _ => False) source e k progress disk) ∨
    ∃ h segment, Headed gzip (fun _ => False) source e h segment progress disk

variable {disk : Disk} {progress : Progress}

theorem Headed.mono {e e' h : Nat} {segment : Segment}
    (hdisk : Headed gzip (fun _ => False) source e h segment progress disk) (hle : e ≤ e') :
    Headed gzip (fun _ => False) source e' h segment progress disk :=
  ⟨hdisk.loaded, hdisk.reached, hdisk.unfinished, hdisk.head_le.trans hle, hdisk.laid,
    hdisk.published, hdisk.head⟩

omit [UnicodeData] in
theorem Loaded.state (h : Loaded source disk progress) (hcovered : progress.lastCovered ≠ 0) :
    ∃ state, disk.state = some state ∧ state.lastCovered = progress.lastCovered ∧
      state.segmentCount = progress.segmentCount := by
  have hload := h (source.headBuild 0) (builds_headBuild source 0)
  unfold loadState at hload
  split at hload
  · cases hload
    exact absurd rfl hcovered
  · rename_i state hstate
    obtain ⟨-, hload⟩ := ensure_bind_eq_ok.1 hload
    cases hload
    exact ⟨state, hstate, rfl, rfl⟩

end

/-! ## One call -/

section
variable [UnicodeData] {gzip : Bytes → Bytes} {log : Log} {bucketSpan : Nat}
  {hspan : 0 < bucketSpan} {call : Call} {disk : Disk} {before : Nat} {progress : Progress}

/-- What a call leaves, and what it has done when it returns. -/
def Advances (gzip : Bytes → Bytes) (source : Source) (call : Call)
    (outcome : Except Failure Receipt × Disk) : Prop :=
  (∃ progress', Indexed gzip source call.count progress' outcome.2) ∧
    ∀ result, outcome.1 = .ok result → ∃ progress',
      Returned (call.build source) call.count progress' result outcome.2 ∧
      Indexed gzip source call.count progress'.reloaded outcome.2

theorem advances_of_meets {source : Source} {outcome : Except Failure Receipt × Disk}
    (h : (∃ result, outcome.1 = .ok result ∧ ∃ progress',
        Returned (call.build source) call.count progress' result outcome.2 ∧
        Indexed gzip source call.count progress'.reloaded outcome.2) ∨
      (∃ failure, outcome.1 = .error failure ∧
        ∃ progress', Indexed gzip source call.count progress' outcome.2)) :
    Advances gzip source call outcome := by
  rcases h with ⟨result, hok, progress', hreturned, hindexed⟩ | ⟨failure, herror, hindexed⟩
  · refine ⟨⟨_, hindexed⟩, ?_⟩
    intro result' hok'
    rw [hok] at hok'
    cases hok'
    exact ⟨progress', hreturned, hindexed⟩
  · refine ⟨hindexed, ?_⟩
    intro result hok
    rw [herror] at hok
    cases hok

theorem call_advances_whole (hcount : call.count ≤ log.items.length) (hfuse : call.fuse = none)
    (hsettles : call.Settles bucketSpan) (hbefore : before ≤ call.count) {k : Nat}
    (hdisk : Whole gzip (fun _ => False) (log.source bucketSpan hspan) before k progress disk) :
    Advances gzip (log.source bucketSpan hspan) call (log.call gzip bucketSpan call disk) := by
  apply advances_of_meets
  refine @call_meets _ gzip log bucketSpan hspan call disk
    (fun result found => ∃ progress',
      Returned (call.build (log.source bucketSpan hspan)) call.count progress' result found ∧
      Indexed gzip (log.source bucketSpan hspan) call.count progress'.reloaded found)
    (fun found => ∃ progress', Indexed gzip (log.source bucketSpan hspan) call.count progress' found)
    ⟨progress, .inl ⟨k, hdisk.mono hbefore⟩⟩ fun hpos => ?_
  by_cases hhead : call.rawHead = call.count ∧ call.count % bucketSpan ≠ 0 ∧ call.sealHead = true
  · -- The head is sealed before its bucket is full.
    have hbuild : call.build (log.source bucketSpan hspan) =
        (log.source bucketSpan hspan).headBuild call.count := by
      rw [Call.build, hhead.1, hhead.2.2]
      rfl
    rw [hbuild, hfuse]
    apply (buildLocked_keeps_head hcount hhead.2.1 hbefore hdisk).mono (fun _ hs => hs)
    · rintro result writer ⟨progress', segment, hreturned, hheaded⟩
      exact ⟨progress', hreturned, .inr ⟨call.count, segment, hheaded⟩⟩
    · exact fun _ _ hwhole => ⟨progress, .inl ⟨k, hwhole⟩⟩
  · have hwhole : (call.count : Int) ≤ call.rawHead → call.count % bucketSpan ≠ 0 →
        (call.build (log.source bucketSpan hspan)).isComplete ((call.count - 1) / bucketSpan) =
          false ∧ call.sealHead = false := by
      intro hle hpartial
      refine ⟨settles_whole hsettles hle hpartial, ?_⟩
      rcases hle.lt_or_eq with hlt | heq
      · exact (hsettles hlt hpartial).2
      · rw [← Bool.not_eq_true]
        exact fun hflag => hhead ⟨heq.symm, hpartial, hflag⟩
    apply (buildLocked_keeps_whole (builds_call (log.source bucketSpan hspan) call) hcount hpos
      hwhole hbefore hdisk (fun rest cut h => by rw [hfuse] at h; cases h) False.elim).mono
      (fun _ hs => hs)
    · rintro result writer ⟨progress', hreturned, -, hafter, -⟩
      exact ⟨progress', hreturned, .inl ⟨_, hafter⟩⟩
    · exact fun _ _ h => ⟨progress, .inl ⟨k, h.2⟩⟩

theorem call_advances_headed (hcount : call.count ≤ log.items.length)
    (hcontinues : call.Continues bucketSpan disk) (hbefore : before ≤ call.count) {h : Nat}
    {segment : Segment}
    (hdisk : Headed gzip (fun _ => False) (log.source bucketSpan hspan) before h segment progress
      disk) :
    Advances gzip (log.source bucketSpan hspan) call (log.call gzip bucketSpan call disk) := by
  have hcovered := hdisk.reached.lastCovered
  have hpartial : h % bucketSpan ≠ 0 := hdisk.unfinished
  obtain ⟨state, hstate, hlast, hsegments⟩ := hdisk.loaded.state (by
    rw [hcovered]
    rintro hzero
    have hzero' : h = 0 := by exact_mod_cast hzero
    rw [hzero', Nat.zero_mod] at hpartial
    exact hpartial rfl)
  have hidle : Idle (log.source bucketSpan hspan) (call.build (log.source bucketSpan hspan))
      progress.segmentCount call.count := by
    rw [← hsegments]
    apply hcontinues state hstate
    rw [hlast, hcovered]
    exact_mod_cast hpartial
  apply advances_of_meets
  refine @call_meets _ gzip log bucketSpan hspan call disk
    (fun result found => ∃ progress',
      Returned (call.build (log.source bucketSpan hspan)) call.count progress' result found ∧
      Indexed gzip (log.source bucketSpan hspan) call.count progress'.reloaded found)
    (fun found => ∃ progress', Indexed gzip (log.source bucketSpan hspan) call.count progress' found)
    ⟨progress, .inr ⟨h, segment, hdisk.mono hbefore⟩⟩ fun hpos => ?_
  apply (buildLocked_keeps_headed (builds_call (log.source bucketSpan hspan) call) hcount hpos hbefore
    hdisk hidle call.fuse).mono (fun _ hs => hs)
  · rintro result writer ⟨hreturned, hheaded⟩
    exact ⟨progress, hreturned, .inr ⟨h, segment, hheaded⟩⟩
  · exact fun _ _ hheaded => ⟨progress, .inr ⟨h, segment, hheaded⟩⟩

theorem call_advances (hcount : call.count ≤ log.items.length) (hfuse : call.fuse = none)
    (hsettles : call.Settles bucketSpan) (hcontinues : call.Continues bucketSpan disk)
    (hbefore : before ≤ call.count)
    (hdisk : Indexed gzip (log.source bucketSpan hspan) before progress disk) :
    Advances gzip (log.source bucketSpan hspan) call (log.call gzip bucketSpan call disk) := by
  cases hdisk with
  | inl hwhole =>
    obtain ⟨k, hwhole⟩ := hwhole
    exact call_advances_whole hcount hfuse hsettles hbefore hwhole
  | inr hheaded =>
    obtain ⟨h, segment, hheaded⟩ := hheaded
    exact call_advances_headed hcount hcontinues hbefore hheaded

theorem calls_advance (calls : List Call) (last : Call)
    (hcount : ∀ call ∈ calls ++ [last], call.count ≤ log.items.length)
    (hfuse : ∀ call ∈ calls ++ [last], call.fuse = none) :
    ∀ {before : Nat} {progress : Progress} {disk : Disk}, Growing before (calls ++ [last]) →
      log.Orderly gzip bucketSpan (calls ++ [last]) disk →
      Indexed gzip (log.source bucketSpan hspan) before progress disk →
      Advances gzip (log.source bucketSpan hspan) last
        (log.call gzip bucketSpan last (log.calls gzip bucketSpan calls disk)) := by
  induction calls with
  | nil =>
    intro before progress disk hgrowing horderly hdisk
    rw [Growing, List.nil_append, List.map_cons, List.pairwise_cons] at hgrowing
    exact call_advances (hcount last (by simp)) (hfuse last (by simp)) horderly.1 horderly.2.1
      (hgrowing.1 _ (by simp)) hdisk
  | cons call calls ih =>
    intro before progress disk hgrowing horderly hdisk
    rw [Growing, List.cons_append, List.map_cons, List.pairwise_cons] at hgrowing
    obtain ⟨⟨progress', hnext⟩, -⟩ := call_advances (hcount call (by simp)) (hfuse call (by simp))
      horderly.1 horderly.2.1 (hgrowing.1 _ (by simp)) hdisk
    exact ih (fun c hc => hcount c (List.mem_cons_of_mem _ hc))
      (fun c hc => hfuse c (List.mem_cons_of_mem _ hc)) hgrowing.2 horderly.2.2 hnext

end

/-! ## Where an event is -/

section
variable [UnicodeData] {gzip : Bytes → Bytes} {source : Source} {e : Nat} {progress : Progress}
  {disk : Disk}

variable {bucketId top : Nat} {segment : Segment}

omit [UnicodeData] in
/-- The items of a bucket are the events of a range of cursors. -/
theorem bucketItems_eq_filter {n : Nat} (hle : bucketId * source.bucketSpan ≤ n) :
    source.items.filter (fun item =>
      ((bucketId * source.bucketSpan : Nat) : Int) + 1 ≤ item.cursor ∧ item.cursor ≤ (n : Int)) =
      source.bucketItems bucketId n := by
  have hsplit : source.items = source.items.take (bucketId * source.bucketSpan) ++
      source.bucketItems bucketId n ++ source.items.drop n := by
    have htake : source.items.take n = source.items.take (bucketId * source.bucketSpan) ++
        source.bucketItems bucketId n := by
      conv_lhs => rw [← List.take_append_drop (bucketId * source.bucketSpan) (source.items.take n),
        List.take_take, min_eq_left hle]
      rfl
    rw [← htake, List.take_append_drop]
  have hcursor : ∀ (i : Nat) (item : Item), source.items[i]? = some item →
      item.cursor = (i : Int) + 1 := source.contiguous
  conv_lhs => rw [hsplit]
  rw [List.filter_append, List.filter_append]
  have hbefore : (source.items.take (bucketId * source.bucketSpan)).filter (fun item =>
      ((bucketId * source.bucketSpan : Nat) : Int) + 1 ≤ item.cursor ∧ item.cursor ≤ (n : Int)) =
      [] := by
    rw [List.filter_eq_nil_iff]
    intro item hitem
    obtain ⟨i, hi⟩ := List.getElem?_of_mem hitem
    have hlt : i < bucketId * source.bucketSpan := by
      by_contra hge
      rw [List.getElem?_take_eq_none (not_lt.1 hge)] at hi
      cases hi
    rw [List.getElem?_take_of_lt hlt] at hi
    have := hcursor i item hi
    rw [decide_eq_true_eq]
    omega
  have hafter : (source.items.drop n).filter (fun item =>
      ((bucketId * source.bucketSpan : Nat) : Int) + 1 ≤ item.cursor ∧ item.cursor ≤ (n : Int)) =
      [] := by
    rw [List.filter_eq_nil_iff]
    intro item hitem
    obtain ⟨i, hi⟩ := List.getElem?_of_mem hitem
    rw [List.getElem?_drop] at hi
    have := hcursor (n + i) item hi
    rw [decide_eq_true_eq]
    push_cast at this
    omega
  have hinside : (source.bucketItems bucketId n).filter (fun item =>
      ((bucketId * source.bucketSpan : Nat) : Int) + 1 ≤ item.cursor ∧ item.cursor ≤ (n : Int)) =
      source.bucketItems bucketId n := by
    rw [List.filter_eq_self]
    intro item hitem
    obtain ⟨i, hi⟩ := List.getElem?_of_mem hitem
    rw [Source.bucketItems, List.getElem?_drop] at hi
    have hlt : bucketId * source.bucketSpan + i < n := by
      by_contra hge
      rw [List.getElem?_take_eq_none (not_lt.1 hge)] at hi
      cases hi
    rw [List.getElem?_take_of_lt hlt] at hi
    have := hcursor _ item hi
    rw [decide_eq_true_eq]
    push_cast at this ⊢
    omega
  rw [hbefore, hinside, hafter, List.nil_append, List.append_nil]

/-- The part of each bucket that is sealed, and its files. -/
structure Atlas (gzip : Bytes → Bytes) (source : Source) (progress : Progress) (disk : Disk)
    (part : Nat → Option (Nat × Segment)) : Prop where
  reference : ∀ bucketId digest bytes, disk.segments[toLex (bucketId, digest)]? = some bytes →
    ∃ n segment, part bucketId = some (n, segment) ∧ digest = sha256Bytes segment.manifest ∧
      bytes = segment.manifest
  sealed : ∀ bucketId n segment, part bucketId = some (n, segment) →
    bucketId * source.bucketSpan < n ∧ n ≤ (bucketId + 1) * source.bucketSpan ∧
      n ≤ source.items.length ∧ ∃ build previous,
        segmentOf gzip build bucketId (source.bucketItems bucketId n) previous = .ok segment
  covered : ∀ i : Nat, (i : Int) < progress.lastCovered →
    ∃ n segment, part (i / source.bucketSpan) = some (n, segment) ∧ i < n ∧
      Published (i / source.bucketSpan) segment disk
  counted : (progress.eventCount : Int) = progress.lastCovered

theorem segment_part (hsegment : source.segment gzip bucketId = some segment)
    (hle : (bucketId + 1) * source.bucketSpan ≤ source.items.length) :
    bucketId * source.bucketSpan < (bucketId + 1) * source.bucketSpan ∧
      (bucketId + 1) * source.bucketSpan ≤ (bucketId + 1) * source.bucketSpan ∧
      (bucketId + 1) * source.bucketSpan ≤ source.items.length ∧ ∃ build previous,
        segmentOf gzip build bucketId
          (source.bucketItems bucketId ((bucketId + 1) * source.bucketSpan)) previous =
            .ok segment := by
  refine ⟨?_, le_refl _, hle, ?_⟩
  · have := source.span_pos
    rw [Nat.add_mul]
    omega
  · cases hprevious : source.headDigest gzip bucketId with
    | none =>
      rw [Source.segment, hprevious] at hsegment
      cases hsegment
    | some previous => exact ⟨_, previous, sealComplete_of_segment hprevious hsegment⟩

/-- The full buckets of the first `top` events. -/
def Source.full (gzip : Bytes → Bytes) (source : Source) (top bucketId : Nat) :
    Option (Nat × Segment) :=
  if (bucketId + 1) * source.bucketSpan ≤ top then
    (source.segment gzip bucketId).map fun segment => ((bucketId + 1) * source.bucketSpan, segment)
  else none

theorem full_eq_some {n : Nat} (h : source.full gzip top bucketId = some (n, segment)) :
    (bucketId + 1) * source.bucketSpan ≤ top ∧ n = (bucketId + 1) * source.bucketSpan ∧
      source.segment gzip bucketId = some segment := by
  unfold Source.full at h
  split_ifs at h with hle
  obtain ⟨found, hfound, hpair⟩ := Option.map_eq_some_iff.1 h
  cases hpair
  exact ⟨hle, rfl, hfound⟩

theorem Laid.full {segments : Dict (Nat ×ₗ Str) Bytes}
    (h : Laid gzip (fun _ => False) source top segments) {digest : Str}
    {bytes : Bytes} (hread : segments[toLex (bucketId, digest)]? = some bytes) :
    ∃ n segment, source.full gzip top bucketId = some (n, segment) ∧
      digest = sha256Bytes segment.manifest ∧ bytes = segment.manifest := by
  obtain ⟨segment, hsegment, hdigest, hpart, hend⟩ := h bucketId digest bytes hread
  refine ⟨(bucketId + 1) * source.bucketSpan, segment, ?_, hdigest,
    hpart.resolve_right fun ⟨_, hfalse, _⟩ => hfalse⟩
  rw [Source.full, if_pos hend, hsegment]
  rfl

theorem PublishedTo.full {k : Nat} (h : PublishedTo gzip source k disk)
    (hstart : source.start = 0) (htop : k * source.bucketSpan ≤ top) {i : Nat}
    (hlt : i < k * source.bucketSpan) :
    ∃ n segment, source.full gzip top (i / source.bucketSpan) = some (n, segment) ∧ i < n ∧
      Published (i / source.bucketSpan) segment disk := by
  have hbucket : i / source.bucketSpan < k := by
    rw [Nat.div_lt_iff_lt_mul source.span_pos]
    exact hlt
  have hend : (i / source.bucketSpan + 1) * source.bucketSpan ≤ k * source.bucketSpan :=
    Nat.mul_le_mul_right _ hbucket
  obtain ⟨segment, hsegment, hpublished⟩ := h _ (by rw [hstart]; exact Nat.zero_le _) hbucket
  refine ⟨(i / source.bucketSpan + 1) * source.bucketSpan, segment, ?_, ?_, hpublished⟩
  · rw [Source.full, if_pos (hend.trans htop), hsegment]
    rfl
  · have hhigh := Nat.lt_div_mul_add (a := i) source.span_pos
    rw [Nat.add_mul]
    omega

theorem atlas_whole (hstart : source.start = 0) (hcounted : source.counted = 0)
    (hcovered : source.covered = 0) (hlength : e ≤ source.items.length) {k : Nat}
    (h : Whole gzip (fun _ => False) source e k progress disk) :
    Atlas gzip source progress disk (source.full gzip e) := by
  have hlast : progress.lastCovered = (k * source.bucketSpan : Nat) := by
    rw [h.reached.lastCovered, hstart, hcovered]
    split_ifs with hzero
    · rw [hzero, Nat.zero_mul]
    · rfl
  refine ⟨fun _ _ _ hread => h.laid.full hread, ?_, ?_, ?_⟩
  · intro bucketId n segment hpart
    obtain ⟨hle, rfl, hsegment⟩ := full_eq_some hpart
    exact segment_part hsegment (hle.trans hlength)
  · intro i hi
    rw [hlast] at hi
    exact h.published.full hstart h.bucket_le (by exact_mod_cast hi)
  · rw [h.reached.eventCount, hlast, hcounted, hstart]
    simp

theorem atlas_headed (hstart : source.start = 0) (hcounted : source.counted = 0)
    (hlength : e ≤ source.items.length) {h : Nat}
    (hdisk : Headed gzip (fun _ => False) source e h segment progress disk) :
    Atlas gzip source progress disk fun bucketId =>
      if bucketId = h / source.bucketSpan then some (h, segment)
      else source.full gzip h bucketId := by
  obtain ⟨hlow, hhigh, -⟩ := head_between source.span_pos hdisk.unfinished
  have hbeyond : ∀ bucketId, (bucketId + 1) * source.bucketSpan ≤ h →
      bucketId ≠ h / source.bucketSpan := by
    rintro bucketId hle rfl
    omega
  refine ⟨?_, ?_, ?_, ?_⟩
  · intro bucketId digest bytes hread
    rcases hdisk.laid with hlaid | ⟨before, found, hlaid, hfound, hsegments⟩
    · obtain ⟨n, other, hpart, hrest⟩ := hlaid.full hread
      refine ⟨n, other, ?_, hrest⟩
      rw [if_neg (hbeyond bucketId (full_eq_some hpart).1)]
      exact hpart
    · rw [hdisk.reached.isHead] at hfound
      cases hfound
      rw [hsegments, Dict.get_insert] at hread
      split_ifs at hread with hsame
      · cases hread
        rw [toLex_inj, Prod.mk.injEq] at hsame
        exact ⟨h, segment, if_pos hsame.1.symm, hsame.2.symm, rfl⟩
      · obtain ⟨n, other, hpart, hrest⟩ := hlaid.full hread
        refine ⟨n, other, ?_, hrest⟩
        rw [if_neg (hbeyond bucketId (full_eq_some hpart).1)]
        exact hpart
  · intro bucketId n found hpart
    split_ifs at hpart with hbucket
    · cases hpart
      rw [hbucket]
      refine ⟨hlow, hhigh.le, hdisk.head_le.trans hlength, ?_⟩
      have hhead := hdisk.reached.isHead
      rw [Source.partialHead] at hhead
      obtain ⟨previous, hprevious, hhead⟩ := Option.bind_eq_some_iff.1 hhead
      refine ⟨source.headBuild h, previous, ?_⟩
      cases hok : segmentOf gzip (source.headBuild h) (h / source.bucketSpan)
        (source.bucketItems (h / source.bucketSpan) h) previous with
      | ok found' =>
        rw [hok] at hhead
        cases hhead
        rfl
      | error failure =>
        rw [hok] at hhead
        cases hhead
    · obtain ⟨hle, rfl, hsegment⟩ := full_eq_some hpart
      exact segment_part hsegment (hle.trans (hdisk.head_le.trans hlength))
  · intro i hi
    rw [hdisk.reached.lastCovered] at hi
    have hi' : i < h := by exact_mod_cast hi
    by_cases hbucket : i / source.bucketSpan = h / source.bucketSpan
    · refine ⟨h, segment, if_pos hbucket, hi', ?_⟩
      rw [hbucket]
      exact hdisk.head
    · have hlt : i < h / source.bucketSpan * source.bucketSpan := by
        rw [← Nat.div_lt_iff_lt_mul source.span_pos]
        have := Nat.div_le_div_right (c := source.bucketSpan) hi'.le
        omega
      obtain ⟨n, found, hpart, hrest⟩ := hdisk.published.full hstart hlow.le hlt
      refine ⟨n, found, ?_, hrest⟩
      rw [if_neg hbucket]
      exact hpart
  · have hevents := hdisk.reached.eventCount
    rw [hcounted, hstart] at hevents
    rw [hdisk.reached.lastCovered]
    omega

theorem Indexed.atlas (hstart : source.start = 0) (hcounted : source.counted = 0)
    (hcovered : source.covered = 0) (hlength : e ≤ source.items.length)
    (h : Indexed gzip source e progress disk) : ∃ part, Atlas gzip source progress disk part := by
  cases h with
  | inl hwhole =>
    obtain ⟨k, hwhole⟩ := hwhole
    exact ⟨_, atlas_whole hstart hcounted hcovered hlength hwhole⟩
  | inr hheaded =>
    obtain ⟨h, segment, hheaded⟩ := hheaded
    exact ⟨_, atlas_headed hstart hcounted hlength hheaded⟩

variable {part : Nat → Option (Nat × Segment)}

theorem Atlas.range (h : Atlas gzip source progress disk part) {bucketId n : Nat}
    {segment : Segment} (hpart : part bucketId = some (n, segment)) :
    ∃ doc build previous, Describes gzip build bucketId (source.bucketItems bucketId n) segment doc ∧
      doc.get? (str "first_cursor") = some (.int ((bucketId * source.bucketSpan : Nat) + 1)) ∧
      doc.get? (str "last_cursor") = some (.int n) ∧
      segmentOf gzip build bucketId (source.bucketItems bucketId n) previous = .ok segment := by
  obtain ⟨hlow, -, hlength, build, previous, hsegment⟩ := h.sealed bucketId n segment hpart
  obtain ⟨-, doc, hdoc⟩ := segmentOf_describes hsegment
  obtain ⟨first, hfirst, hfirstCursor⟩ := head?_bucketItems hlow hlength
  obtain ⟨last, hlast, hlastCursor⟩ := getLast?_bucketItems hlow hlength
  refine ⟨doc, build, previous, hdoc, ?_, ?_, hsegment⟩
  · rw [hdoc.firstCursor, hfirst, Option.map_some, hfirstCursor]
  · rw [hdoc.lastCursor, hlast, Option.map_some, hlastCursor]

end

section
variable [UnicodeData] {gzip : Bytes → Bytes} {log : Log} {bucketSpan : Nat}
  {hspan : 0 < bucketSpan} {progress : Progress} {disk : Disk}
  {part : Nat → Option (Nat × Segment)}

variable {item : Item} {i : Nat}

theorem Atlas.contains (h : Atlas gzip (log.source bucketSpan hspan) progress disk part)
    (hitem : log.items[i]? = some item) (hcovered : item.cursor ≤ progress.lastCovered) :
    ∃ n segment, part (i / bucketSpan) = some (n, segment) ∧
      disk.Contains gzip log (i / bucketSpan, sha256Bytes segment.manifest) item := by
  have hcursor := log.contiguous i item hitem
  obtain ⟨n, segment, hpart, hin, hpayload, -, content, hread, -⟩ := h.covered i (by omega)
  refine ⟨n, segment, hpart, ?_⟩
  obtain ⟨doc, build, previous, hdoc, hfirst, hlast, hsegment⟩ := h.range hpart
  obtain ⟨⟨statistics, hcompact⟩, -⟩ := segmentOf_describes hsegment
  obtain ⟨files, hfiles, hsha⟩ := hdoc.payload
  obtain ⟨n', segment', hpart', -, rfl⟩ := h.reference _ _ content hread
  have hsame : some (n, segment) = some (n', segment') := hpart.symm.trans hpart'
  cases hsame
  have hlow := (h.sealed _ n segment hpart).1
  have hdiv := Nat.div_mul_le_self i bucketSpan
  have hfilter := bucketItems_eq_filter hlow.le
  refine ⟨segment.manifest, doc, _, _, build.bucketStart (i / bucketSpan), segment.payload,
    statistics, files, hread, hdoc.read, hfirst, hlast, ?_, ?_, ?_, hfiles, hsha, hpayload⟩
  · rw [hcursor]
    exact_mod_cast Nat.succ_le_succ hdiv
  · rw [hcursor]
    exact_mod_cast hin
  · rw [← hcompact, ← hfilter]
    rfl

theorem Atlas.unique (h : Atlas gzip (log.source bucketSpan hspan) progress disk part)
    (hitem : log.items[i]? = some item) {n : Nat} {segment : Segment}
    (hpart : part (i / bucketSpan) = some (n, segment)) {reference : Nat × Str}
    (hcontains : disk.Contains gzip log reference item) :
    reference = (i / bucketSpan, sha256Bytes segment.manifest) := by
  obtain ⟨bytes, doc, first, last, base, payload, statistics, files, hread, hjson, hfirst, hlast,
    hge, hle, -⟩ := hcontains
  have hcursor := log.contiguous i item hitem
  obtain ⟨bucketId, digest⟩ := reference
  obtain ⟨n', segment', hpart', rfl, rfl⟩ := h.reference bucketId digest bytes hread
  obtain ⟨doc', build, previous, hdoc', hfirst', hlast', -⟩ := h.range hpart'
  have hdocs : doc = doc' := Option.some.inj (hjson.symm.trans hdoc'.read)
  subst hdocs
  have hfirstEq : first = ((bucketId * bucketSpan : Nat) : Int) + 1 := by
    have := hfirst.symm.trans hfirst'
    cases this
    rfl
  have hlastEq : last = (n' : Int) := by
    have := hlast.symm.trans hlast'
    cases this
    rfl
  have hend : n' ≤ (bucketId + 1) * bucketSpan := (h.sealed bucketId n' segment' hpart').2.1
  have hbucket : bucketId = i / bucketSpan := by
    symm
    apply Nat.div_eq_of_lt_le
    · omega
    · omega
  subst hbucket
  have hsame : some (n, segment) = some (n', segment') := hpart.symm.trans hpart'
  cases hsame
  rfl

/-- In a sequence of calls that seal no bucket their stream ends inside but the declared
head, and no bucket after a sealed head, every covered event is in exactly one segment
after each call that returns, and as many events are counted as are covered. -/
theorem coverage_law (calls : List Call) (last : Call) (hgrowing : Growing 0 (calls ++ [last]))
    (hcount : ∀ call ∈ calls ++ [last], call.count ≤ log.items.length)
    (hfuse : ∀ call ∈ calls ++ [last], call.fuse = none)
    (horderly : log.Orderly gzip bucketSpan (calls ++ [last]) Disk.empty) (result : Receipt)
    (hok : (log.call gzip bucketSpan last (log.calls gzip bucketSpan calls Disk.empty)).1 =
      .ok result) :
    (∀ item ∈ log.items, item.cursor ≤ result.coverageThrough →
      ∃! reference, (log.calls gzip bucketSpan (calls ++ [last]) Disk.empty).Contains gzip log
        reference item) ∧
    (result.totalEvents : Int) = result.coverageThrough := by
  have hvalid : last.Valid log bucketSpan := by
    by_contra hinvalid
    obtain ⟨failure, hfailed⟩ := @call_invalid _ gzip log bucketSpan last hinvalid
      (log.calls gzip bucketSpan calls Disk.empty)
    rw [hfailed] at hok
    cases hok
  have hspan : 0 < bucketSpan := by
    have := hvalid.span_ge
    omega
  have hempty : Indexed gzip (log.source bucketSpan hspan) 0 _ Disk.empty :=
    .inl ⟨0, whole_empty rfl rfl rfl rfl⟩
  obtain ⟨-, hreturns⟩ := calls_advance calls last hcount hfuse hgrowing horderly hempty
  obtain ⟨progress, hreturned, hindexed⟩ := hreturns result hok
  obtain ⟨part, hatlas⟩ := hindexed.atlas rfl rfl rfl (hcount last (by simp))
  rw [calls_concat, hreturned.receipt]
  refine ⟨?_, hatlas.counted⟩
  intro item hitem hcovered
  obtain ⟨i, hi⟩ := List.getElem?_of_mem hitem
  obtain ⟨n, segment, hpart, hcontains⟩ := hatlas.contains hi hcovered
  exact ⟨_, hcontains, fun reference hother => hatlas.unique hi hpart hother⟩

end

/-! ## Sealed heads of plain logs -/

section
variable [UnicodeData] {gzip : Bytes → Bytes} {bucketSpan : Nat}

/-- One call that seals the head. -/
def Call.head (count : Nat) : Call := ⟨count, count, true, none⟩

/-- Sealing the head of a plain log inside its first bucket. -/
theorem head_call_returns {n count : Nat} (hspan : 0 < bucketSpan) (hge : 16 ≤ bucketSpan)
    (hle : bucketSpan ≤ 1000000) (hpos : 0 < count) (hcount : count ≤ n)
    (hinside : count < bucketSpan) :
    ∃ result progress segment,
      ((plainLog n).call gzip bucketSpan (Call.head count) Disk.empty).1 = .ok result ∧
      ReachedHead gzip ((plainLog n).source bucketSpan hspan) count segment progress ∧
      Loaded ((plainLog n).source bucketSpan hspan)
        ((plainLog n).call gzip bucketSpan (Call.head count) Disk.empty).2 progress ∧
      Intact ((plainLog n).call gzip bucketSpan (Call.head count) Disk.empty).2 := by
  have hlength : ((plainLog n).source bucketSpan hspan).items.length = n := length_plainLog n
  have hplain := plainLog_plain n hspan
  have hpartial : count % bucketSpan ≠ 0 := by
    rw [Nat.mod_eq_of_lt hinside]
    omega
  have hzero : count / bucketSpan = 0 := Nat.div_eq_of_lt hinside
  have hbeyond : ∀ bucketId, ¬(bucketId + 1) * bucketSpan ≤ count := by
    intro bucketId hle
    rw [Nat.add_mul] at hle
    omega
  have hplan : Plan gzip (fun _ => False) True (fun disk => True ∧ True)
      ((plainLog n).source bucketSpan hspan)
      (((plainLog n).source bucketSpan hspan).headBuild count) count := by
    refine ⟨builds_headBuild _ _, by omega, fun _ _ _ _ h _ _ => h, fun _ _ _ _ _ _ _ h _ _ => h,
      fun _ => plainLog_identity (by omega) hspan (Call.head count), fun _ => le_refl _, ?_⟩
    exact fun _ bucketId _ hle => absurd hle (hbeyond bucketId)
  have hempty := @whole_empty _ gzip (fun _ => False) ((plainLog n).source bucketSpan hspan) rfl rfl
    rfl rfl
  have hhead : ∃ segment,
      ((plainLog n).source bucketSpan hspan).partialHead gzip count = some segment := by
    obtain ⟨segment, hsegment⟩ := @segmentOf_bucketItems _ gzip _ hplain
      (((plainLog n).source bucketSpan hspan).headBuild count) (builds_headBuild _ _) 0 count
      (by omega) (by omega) [] rfl
    refine ⟨segment, ?_⟩
    rw [Source.partialHead, show count / ((plainLog n).source bucketSpan hspan).bucketSpan = 0
      from hzero, hempty.reached.previous, Option.bind_some, hsegment]
    rfl
  have hlocked := @buildLocked_head _ _ gzip True count (fun _ => True) (fun _ => True) hplan
    (fun _ _ _ _ h _ _ => h) hpartial (fun _ => hhead) 0 _ hempty.reached (by simp)
  have hcall := @call_valid_meets _ gzip (plainLog n) bucketSpan hspan (Call.head count) Disk.empty
    (fun _ found => ∃ progress segment,
      ReachedHead gzip ((plainLog n).source bucketSpan hspan) count segment progress ∧
      Loaded ((plainLog n).source bucketSpan hspan) found progress ∧ Intact found)
    (fun _ => False)
    (plainLog_valid (by omega) hpos (by simp only [Call.head]; omega) hge hle) (by
      apply hlocked.mono
      · rintro writer rfl
        refine ⟨hempty.loaded _ (builds_headBuild _ _), ⟨⟨trivial, trivial⟩, hempty.published⟩, ?_,
          fun _ => ⟨rfl, intact_empty⟩⟩
        intro rest cut hfuse
        cases hfuse
      · rintro result writer ⟨progress, segment, found, -, hreached, -, -, -, -, hintact, hwriter⟩
        refine ⟨progress.reloaded, segment, hreached.reloaded,
          loaded_nextState (builds_headBuild _ count) (by rw [hwriter]), ?_⟩
        rw [hwriter]
        exact (hintact trivial).of_files rfl rfl
      · exact fun _ _ h => h.1 trivial)
  rcases hcall with ⟨result, hok, progress, segment, hreached, hloaded, hintact⟩ | ⟨-, -, hfalse⟩
  · exact ⟨result, progress, segment, hok, hreached, hloaded, hintact⟩
  · exact hfalse.elim

/-- The rest of a plain log after a sealed head of its first bucket. -/
def afterHead (n count : Nat) (hspan : 0 < bucketSpan) (hinside : count < bucketSpan)
    (segment : Segment) : Source :=
  { (plainLog n).source bucketSpan hspan with
    start := 1
    previous := sha256Bytes segment.manifest
    counted := count
    covered := count
    covered_le := by
      show count ≤ 1 * bucketSpan
      omega }

/-- After a sealed head, a call that seals a later bucket covers events that it does not
count. -/
theorem call_after_head {n count total : Nat} (hspan : 0 < bucketSpan) (hge : 16 ≤ bucketSpan)
    (hle : bucketSpan ≤ 1000000) (hpos : 0 < count) (hinside : count < bucketSpan)
    (htotal : total ≤ n) (hlater : 2 * bucketSpan ≤ total) (hwhole : total % bucketSpan = 0)
    {progress : Progress} {segment : Segment} {disk : Disk}
    (hreached : ReachedHead gzip ((plainLog n).source bucketSpan hspan) count segment progress)
    (hloaded : Loaded ((plainLog n).source bucketSpan hspan) disk progress) (hintact : Intact disk) :
    ∃ result, ((plainLog n).call gzip bucketSpan (Call.once total) disk).1 = .ok result ∧
      result.coverageThrough = total ∧
      result.totalEvents = count + (total / bucketSpan - 1) * bucketSpan := by
  have hlength : (plainLog n).items.length = n := length_plainLog n
  have hzero : count / bucketSpan = 0 := Nat.div_eq_of_lt hinside
  have hsource := plainLog_plain n hspan
  have hplain : (afterHead n count hspan hinside segment).Plain :=
    ⟨hsource.item, hsource.nodup, hsource.tenantId, hsource.namespaceId, hsource.edgeId,
      any_isSurrogate_sha256Bytes _⟩
  have hbuilds : (afterHead n count hspan hinside segment).Builds
      ((Call.once total).build ((plainLog n).source bucketSpan hspan)) := ⟨rfl, rfl, rfl, rfl⟩
  have hplan : Plan gzip (fun _ => False) True (fun _ => True)
      (afterHead n count hspan hinside segment)
      ((Call.once total).build ((plainLog n).source bucketSpan hspan)) total := by
    refine ⟨hbuilds, by rw [← hlength] at htotal; exact htotal, fun _ _ _ _ h _ _ => h,
      fun _ _ _ _ _ _ _ h _ _ => h, fun _ => plainLog_identity (by omega) hspan _,
      fun _ => le_refl _, ?_⟩
    intro _ bucketId hstart hend
    refine segment_plain hplain hstart (hend.trans ?_)
    rw [← hlength] at htotal
    exact htotal
  have hstart : Reached gzip (afterHead n count hspan hinside segment) 1 progress := by
    refine ⟨le_refl _, ?_, ?_, ?_, ?_, ?_⟩
    · rw [hreached.sealedIds]
      exact congrArg (fun k => Finset.range (k + 1)) hzero
    · rw [hreached.previous]
      exact headDigest_start (afterHead n count hspan hinside segment)
    · have hevents := hreached.eventCount
      simp only [Log.source] at hevents
      simp only [afterHead]
      omega
    · rw [hreached.segmentCount]
      exact congrArg (· + 1) hzero
    · rw [hreached.lastCovered]
      rfl
  have hmultiple : total = total / bucketSpan * bucketSpan := by
    have := Nat.div_add_mod total bucketSpan
    rw [hwhole, Nat.mul_comm] at this
    omega
  have hlocked := buildLocked_whole hplan (by omega) (fun _ hpartial => absurd hwhole hpartial)
    (fun _ => rfl) hstart (by
      show 1 * bucketSpan ≤ total
      omega)
  have hcall := @call_valid_meets _ gzip (plainLog n) bucketSpan hspan (Call.once total) disk
    (fun result _ => result.coverageThrough = total ∧
      result.totalEvents = count + (total / bucketSpan - 1) * bucketSpan)
    (fun _ => False)
    (plainLog_valid (by omega) (by simp only [Call.once]; omega) (by simp only [Call.once]; omega)
      hge hle) (by
      apply hlocked.mono
      · rintro writer rfl
        refine ⟨hloaded _ (builds_call _ _), ⟨trivial, ?_⟩, ?_, fun _ => ⟨rfl, hintact⟩⟩
        · intro bucketId hfrom hto
          have hfrom' : 1 ≤ bucketId := hfrom
          omega
        · intro rest cut hfuse
          cases hfuse
      · rintro result writer ⟨progress', -, hresult, hreached', -⟩
        rw [hresult]
        refine ⟨?_, hreached'.eventCount⟩
        show progress'.lastCovered = total
        rw [hreached'.lastCovered, if_neg]
        · exact congrArg Nat.cast hmultiple.symm
        · have htwo : 2 ≤ total / bucketSpan := by
            rw [Nat.le_div_iff_mul_le hspan]
            exact hlater
          show total / bucketSpan ≠ 1
          omega
      · exact fun _ _ h => h.1 trivial)
  rcases hcall with ⟨result, hok, hresult⟩ | ⟨-, -, hfalse⟩
  · exact ⟨result, hok, hresult⟩
  · exact hfalse.elim

end

attribute [local instance] asciiUnicodeData

/-- The head of one event is sealed, and then the second bucket: seventeen events are
counted and thirty-two covered. -/
theorem sealed_head_loses_events : Growing 0 [Call.head 1, Call.once 32] ∧
    ∀ gzip : Bytes → Bytes,
      (∃ first, ((plainLog 32).call gzip 16 (Call.head 1) Disk.empty).1 = .ok first) ∧
      ∃ result, ((plainLog 32).call gzip 16 (Call.once 32)
          ((plainLog 32).calls gzip 16 [Call.head 1] Disk.empty)).1 = .ok result ∧
        result.coverageThrough = 32 ∧ result.totalEvents = 17 := by
  refine ⟨by simp [Growing, Call.head, Call.once], fun gzip => ?_⟩
  obtain ⟨first, progress, segment, hfirst, hreached, hloaded, hintact⟩ :=
    @head_call_returns _ gzip 16 32 1 (by decide) (by decide) (by decide) (by decide) (by decide)
      (by decide)
  obtain ⟨result, hok, hcovered, htotal⟩ := call_after_head (by decide) (by decide) (by decide)
    (by decide) (by decide : 1 < 16) (le_refl 32) (by decide) (by decide) hreached hloaded hintact
  refine ⟨⟨first, hfirst⟩, result, ?_, hcovered, htotal⟩
  rw [Log.calls, Log.calls]
  exact hok

/-- Two calls over a plain log. -/
theorem coverage_plain_log : (plainLog 40).items.length = 40 ∧ ∀ gzip : Bytes → Bytes,
    ∃ result, ((plainLog 40).call gzip 16 (Call.once 40)
        ((plainLog 40).calls gzip 16 [Call.once 20] Disk.empty)).1 = .ok result ∧
      (∀ item ∈ (plainLog 40).items, item.cursor ≤ result.coverageThrough → ∃! reference,
        ((plainLog 40).calls gzip 16 ([Call.once 20] ++ [Call.once 40]) Disk.empty).Contains gzip
          (plainLog 40) reference item) ∧
      (result.totalEvents : Int) = result.coverageThrough := by
  refine ⟨length_plainLog 40, fun gzip => ?_⟩
  obtain ⟨-, progress, -, hwhole, hintact⟩ := plainLog_returns (by decide : 0 < 16) (by decide)
    (by decide) (by decide : 0 < 20) (by decide : 20 ≤ 40) (Nat.zero_le _)
    (@whole_empty _ gzip _ ((plainLog 40).source 16 (by decide)) rfl rfl rfl rfl) intact_empty
  obtain ⟨result, -, hok, -, -⟩ := plainLog_returns (by decide : 0 < 16) (by decide) (by decide)
    (by decide : 0 < 40) (by decide : 40 ≤ 40) (by decide) hwhole hintact
  have hbefore : (plainLog 40).calls gzip 16 [Call.once 20] Disk.empty =
      ((plainLog 40).call gzip 16 (Call.once 20) Disk.empty).2 := by
    rw [Log.calls, Log.calls]
  have hlast : progress.lastCovered = 16 := hwhole.reached.lastCovered
  have horderly : (plainLog 40).Orderly gzip 16 ([Call.once 20] ++ [Call.once 40]) Disk.empty := by
    refine ⟨fun h => absurd h (lt_irrefl _), ?_, fun h => absurd h (lt_irrefl _), ?_, trivial⟩
    · intro state hstate
      cases hstate
    intro state hstate hpartial
    obtain ⟨found, hfound, hcovered, -⟩ := hwhole.loaded.state (by rw [hlast]; decide)
    have hsame : some state = some found := hstate.symm.trans hfound
    cases hsame
    rw [hcovered, hlast] at hpartial
    exact absurd (by decide) hpartial
  have hcalls : ∀ call ∈ [Call.once 20] ++ [Call.once 40], call.count ≤ 40 ∧ call.fuse = none := by
    intro call hcall
    simp only [List.cons_append, List.nil_append, List.mem_cons, List.not_mem_nil, or_false] at hcall
    rcases hcall with rfl | rfl
    · exact ⟨by decide, rfl⟩
    · exact ⟨by decide, rfl⟩
  have hcount : ∀ call ∈ [Call.once 20] ++ [Call.once 40],
      call.count ≤ (plainLog 40).items.length := by
    rw [length_plainLog]
    exact fun call hcall => (hcalls call hcall).1
  have hgrowing : Growing 0 ([Call.once 20] ++ [Call.once 40]) := by
    simp [Growing, Call.once]
  rw [← hbefore] at hok
  exact ⟨result, hok, coverage_law [Call.once 20] (Call.once 40) hgrowing hcount
    (fun call hcall => (hcalls call hcall).2) horderly result hok⟩

end IntegrityGuardian.MemoryPlane
