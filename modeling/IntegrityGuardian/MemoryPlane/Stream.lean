import IntegrityGuardian.MemoryPlane.Sealing

/-!
# Feeding a stream into an index

The loop of `build_store_stream` over a prefix of a log.  It seals a bucket when
the next one begins, so it seals complete buckets only, and in their order.
-/

namespace IntegrityGuardian.MemoryPlane

open Python Library

variable {source : Source}

/-! ## Buckets of a log -/

variable {item : Item} {n : Nat}

theorem bucketItems_succ {bucketId : Nat} (hle : bucketId * source.bucketSpan ≤ n)
    (hitem : source.items[n]? = some item) :
    source.bucketItems bucketId (n + 1) = source.bucketItems bucketId n ++ [item] := by
  obtain ⟨hlt, rfl⟩ := List.getElem?_eq_some_iff.1 hitem
  unfold Source.bucketItems
  rw [List.take_add_one, List.getElem?_eq_getElem hlt, Option.toList_some, List.drop_append_of_le_length]
  rw [List.length_take]
  omega

theorem length_bucketItems {bucketId : Nat} (hn : n ≤ source.items.length) :
    (source.bucketItems bucketId n).length = n - bucketId * source.bucketSpan := by
  simp [Source.bucketItems, hn]

theorem head?_bucketItems {bucketId n : Nat} (hlt : bucketId * source.bucketSpan < n)
    (hn : n ≤ source.items.length) :
    ∃ first, (source.bucketItems bucketId n).head? = some first ∧
      first.cursor = (bucketId * source.bucketSpan : Nat) + 1 := by
  have hget : (source.bucketItems bucketId n).head? =
      source.items[bucketId * source.bucketSpan]? := by
    rw [Source.bucketItems, List.head?_drop, List.getElem?_take_of_lt hlt]
  have hsome : bucketId * source.bucketSpan < source.items.length := by omega
  refine ⟨_, hget.trans (List.getElem?_eq_getElem hsome), ?_⟩
  exact source.contiguous _ _ (List.getElem?_eq_getElem hsome)

theorem getLast?_bucketItems {bucketId n : Nat} (hlt : bucketId * source.bucketSpan < n)
    (hn : n ≤ source.items.length) :
    ∃ last, (source.bucketItems bucketId n).getLast? = some last ∧ last.cursor = (n : Int) := by
  have hsome : n - 1 < source.items.length := by omega
  have hget : (source.bucketItems bucketId n).getLast? = source.items[n - 1]? := by
    rw [List.getLast?_eq_getElem?, length_bucketItems hn, Source.bucketItems, List.getElem?_drop,
      List.getElem?_take_of_lt (by omega)]
    congr 1
    omega
  refine ⟨_, hget.trans (List.getElem?_eq_getElem hsome), ?_⟩
  have hcursor := source.contiguous _ _ (List.getElem?_eq_getElem hsome)
  omega

theorem bucketOf_cursor (hitem : source.items[n]? = some item) :
    ((item.cursor - 1) / (source.bucketSpan : Int)).toNat = n / source.bucketSpan := by
  rw [source.contiguous n item hitem, Int.add_sub_cancel, ← Int.natCast_ediv, Int.toNat_natCast]

theorem bucket_begins {span : Nat} (hspan : 0 < span) (hn : 0 < n)
    (hne : n / span ≠ (n - 1) / span) :
    n = ((n - 1) / span + 1) * span ∧ n / span = (n - 1) / span + 1 := by
  have hlow := Nat.div_mul_le_self (n - 1) span
  have hhigh := Nat.lt_div_mul_add (a := n - 1) hspan
  have hle : ((n - 1) / span + 1) * span ≤ n := by
    by_contra hlt
    apply hne
    apply Nat.div_eq_of_lt_le
    · omega
    · omega
  have heq : n = ((n - 1) / span + 1) * span := by
    rw [Nat.add_mul, Nat.one_mul] at hle ⊢
    omega
  refine ⟨heq, ?_⟩
  conv_lhs => rw [heq]
  exact Nat.mul_div_cancel _ hspan

/-! ## Sealing along the chain -/

section
variable [UnicodeData] (gzip : Bytes → Bytes)

/-- The variables of a build once the buckets before `k` are sealed. -/
structure Reached (source : Source) (k : Nat) (progress : Progress) : Prop where
  start_le : source.start ≤ k
  sealedIds : progress.sealedIds = Finset.range k
  previous : source.headDigest gzip k = some progress.previous
  eventCount : progress.eventCount = source.counted + (k - source.start) * source.bucketSpan
  segmentCount : progress.segmentCount = k
  lastCovered : progress.lastCovered =
    ((if k = source.start then source.covered else k * source.bucketSpan : Nat) : Int)

/-- The files of the chain are there up to a bucket. -/
def PublishedTo (source : Source) (k : Nat) (disk : Disk) : Prop :=
  ∀ bucketId, source.start ≤ bucketId → bucketId < k →
    ∃ segment, source.segment gzip bucketId = some segment ∧ Published bucketId segment disk

/-- A build over the first `e` items of a log, with what is kept on the disk. -/
structure Plan (dies : Option Nat → Prop) (fine : Prop) (inv : Disk → Prop) (source : Source) (build : Build) (e : Nat) :
    Prop where
  builds : source.Builds build
  count_le : e ≤ source.items.length
  object : ∀ digest value, KeptBy dies (.object digest) value inv
  segment : ∀ bucketId segment, source.start ≤ bucketId → (bucketId + 1) * source.bucketSpan ≤ e →
    source.segment gzip bucketId = some segment →
    KeptBy dies (.segment bucketId (sha256Bytes segment.manifest)) segment.manifest inv
  identity : fine → ∀ item ∈ source.items.take e, item.identity = build.identity
  head_le : fine → (e : Int) ≤ build.rawHead
  segments : fine → ∀ bucketId, source.start ≤ bucketId →
    (bucketId + 1) * source.bucketSpan ≤ e → ∃ segment, source.segment gzip bucketId = some segment

variable {gzip} {dies : Option Nat → Prop} {fine : Prop} {inv : Disk → Prop} {build : Build} {e : Nat}

theorem keptBy_publishedTo (k : Nat) (path : Path) (value : Bytes) :
    KeptBy dies path value (PublishedTo gzip source k) := by
  intro disk bytes hpublished hnew hpart bucketId hstart hlt
  obtain ⟨segment, hsegment, hpayload, hobject, hreference⟩ := hpublished bucketId hstart hlt
  exact ⟨segment, hsegment, keptBy_good dies path value _ disk bytes hpayload hnew hpart,
    keptBy_good dies path value _ disk bytes hobject hnew hpart,
    keptBy_good dies path value _ disk bytes hreference hnew hpart⟩

variable {item : Item} {events : List Item} {bucketId k n : Nat} {progress : Progress}

theorem Reached.lastCovered_lt (h : Reached gzip source k progress)
    {first : Item} (hfirst : first.cursor = (k * source.bucketSpan : Nat) + 1) :
    progress.lastCovered < first.cursor := by
  rw [h.lastCovered, hfirst]
  split_ifs with hstart
  · have hle := source.covered_le
    rw [hstart]
    omega
  · omega

/-- Sealing the next bucket of the chain. -/
theorem sealBucket_next (plan : Plan gzip dies fine inv source build e)
    (hreached : Reached gzip source k progress)
    (hle : (k + 1) * source.bucketSpan ≤ e) (hcomplete : build.isComplete k = true) :
    Durable.Ensures (Ready dies fine fun disk => inv disk ∧ PublishedTo gzip source k disk)
      (sealBucket gzip build k (source.bucketItems k ((k + 1) * source.bucketSpan)) progress)
      (fun progress' writer => Reached gzip source (k + 1) progress' ∧
        Ready dies fine (fun disk => inv disk ∧ PublishedTo gzip source (k + 1) disk) writer)
      (fun _ writer => ¬fine ∧ inv writer.disk) := by
  have hlength : (k + 1) * source.bucketSpan ≤ source.items.length := hle.trans plan.count_le
  have hlt : k * source.bucketSpan < (k + 1) * source.bucketSpan := by
    rw [Nat.add_mul]
    have := source.span_pos
    omega
  obtain ⟨first, hfirst, hfirstCursor⟩ := head?_bucketItems hlt hlength
  obtain ⟨last, hlast, hlastCursor⟩ := getLast?_bucketItems hlt hlength
  have hsame := @segmentOf_complete _ gzip source build plan.builds k hcomplete
    (source.bucketItems k ((k + 1) * source.bucketSpan)) progress.previous
  have hunsealed : k ∉ progress.sealedIds := by
    rw [hreached.sealedIds]
    simp
  have hwrite := @sealBucket_ensures _ gzip dies fine
    (fun disk => inv disk ∧ PublishedTo gzip source k disk) build k _ first last progress hunsealed
    (.inl hcomplete) hfirst hlast (hreached.lastCovered_lt hfirstCursor)
    (by
      intro hfine
      obtain ⟨segment, hsegment⟩ := plan.segments hfine k hreached.start_le hle
      exact ⟨segment, hsame.trans (sealComplete_of_segment hreached.previous hsegment)⟩)
    (fun digest value => (plan.object digest value).and (keptBy_publishedTo _ _ _))
    (fun segment hsegment => (plan.segment k segment hreached.start_le hle
      (segment_of_ok hreached.previous (hsame.symm.trans hsegment))).and (keptBy_publishedTo _ _ _))
  apply hwrite.mono (fun _ hs => hs)
  · rintro progress' writer ⟨segment, hsegment, hadvanced, ⟨⟨hinv, hpublished⟩, hnew⟩, hrest⟩
    have hchain : source.segment gzip k = some segment :=
      segment_of_ok hreached.previous (hsame.symm.trans hsegment)
    refine ⟨?_, ⟨hinv, ?_⟩, hrest⟩
    · constructor
      · have := hreached.start_le
        omega
      · rw [hadvanced.sealedIds, hreached.sealedIds, Finset.range_add_one]
      · rw [headDigest_succ hreached.start_le, hchain, hadvanced.previous]
        rfl
      · have hstart := hreached.start_le
        rw [hadvanced.eventCount, hreached.eventCount, length_bucketItems hlength,
          Nat.sub_add_comm hstart, Nat.add_mul, Nat.add_mul]
        omega
      · rw [hadvanced.segmentCount, hreached.segmentCount]
      · have hstart := hreached.start_le
        rw [hadvanced.lastCovered, hlastCursor, if_neg (by omega)]
    · intro bucketId hstart hbefore
      by_cases hlast : bucketId = k
      · subst hlast
        exact ⟨segment, hchain, hnew⟩
      · exact hpublished bucketId hstart (by omega)
  · exact fun _ _ h => ⟨h.1, h.2.1⟩

/-! ## The loop -/

/-- The variables of the loop after `n` items, when the buckets before `k` are sealed. -/
structure Fed (source : Source) (n k : Nat) (loop : Loop) : Prop where
  previousCursor : loop.previousCursor = n
  bucketId : loop.bucketId = if n = 0 then none else some ((n - 1) / source.bucketSpan)
  bucketId_le : (n - 1) / source.bucketSpan ≤ k
  bucket : loop.bucket = if (n - 1) / source.bucketSpan < k then [] else source.bucketItems k n

/-- Where the loop stands after `n` items. -/
def Standing (gzip : Bytes → Bytes) (dies : Option Nat → Prop) (fine : Prop) (inv : Disk → Prop) (source : Source)
    (e n : Nat) (loop : Loop) (writer : Writer) : Prop :=
  ∃ k, k * source.bucketSpan ≤ e ∧ Reached gzip source k loop.progress ∧ Fed source n k loop ∧
    Ready dies fine (fun disk => inv disk ∧ PublishedTo gzip source k disk) writer

theorem sealBucket_sealed (hsealed : bucketId ∈ progress.sealedIds) :
    sealBucket gzip build bucketId events progress = pure progress := if_pos hsealed

omit [UnicodeData] in
theorem bucketItems_self (k : Nat) : source.bucketItems k (k * source.bucketSpan) = [] := by
  unfold Source.bucketItems
  rw [List.drop_eq_nil_iff, List.length_take]
  omega

omit [UnicodeData] in
theorem bucket_first (hitem : source.items[n]? = some item)
    (hbegin : n = n / source.bucketSpan * source.bucketSpan) (hle : n / source.bucketSpan ≤ k) :
    (if n / source.bucketSpan ∈ Finset.range k then [] else [] ++ [item]) =
      if n / source.bucketSpan < k then [] else source.bucketItems k (n + 1) := by
  simp only [Finset.mem_range]
  split_ifs with hlt
  · rfl
  · have hk : k = n / source.bucketSpan := by omega
    rw [bucketItems_succ (by rw [hk]; omega) hitem]
    conv_rhs => rw [hbegin, ← hk, bucketItems_self]

omit [UnicodeData] in
theorem bucket_next (hitem : source.items[n]? = some item)
    (hsame : n / source.bucketSpan = (n - 1) / source.bucketSpan)
    (hle : n / source.bucketSpan ≤ k) {bucket : List Item} (hbucket : bucket =
      if (n - 1) / source.bucketSpan < k then [] else source.bucketItems k n) :
    (if n / source.bucketSpan ∈ Finset.range k then bucket else bucket ++ [item]) =
      if n / source.bucketSpan < k then [] else source.bucketItems k (n + 1) := by
  rw [hbucket, ← hsame]
  simp only [Finset.mem_range]
  split_ifs with hlt
  · rfl
  · have hk : k = n / source.bucketSpan := by omega
    have hbegin := Nat.div_mul_le_self n source.bucketSpan
    rw [bucketItems_succ (by rw [hk]; omega) hitem]

/-- The bucket and the variables of a round before its item is added. -/
def Turned (gzip : Bytes → Bytes) (dies : Option Nat → Prop) (fine : Prop) (inv : Disk → Prop) (source : Source)
    (e n : Nat) (item : Item) (result : List Item × Progress) (writer : Writer) : Prop :=
  ∃ k, k * source.bucketSpan ≤ e ∧ Reached gzip source k result.2 ∧ n / source.bucketSpan ≤ k ∧
    (if n / source.bucketSpan ∈ Finset.range k then result.1 else result.1 ++ [item]) =
      (if n / source.bucketSpan < k then [] else source.bucketItems k (n + 1)) ∧
    Ready dies fine (fun disk => inv disk ∧ PublishedTo gzip source k disk) writer

theorem sealBucket_turned (plan : Plan gzip dies fine inv source build e) (hn : n < e)
    (hitem : source.items[n]? = some item) (hhead : (n : Int) < build.rawHead)
    {loop : Loop} {current : Nat} (hcurrent : loop.bucketId = some current)
    (hcross : n / source.bucketSpan ≠ current) :
    Durable.Ensures (Standing gzip dies fine inv source e n loop)
      (sealBucket gzip build current loop.bucket loop.progress >>= fun progress =>
        pure ([], progress))
      (Turned gzip dies fine inv source e n item) (fun _ writer => ¬fine ∧ inv writer.disk) := by
  refine ⟨?_⟩
  rintro writer ⟨k, hk, hreached, hfed, hready⟩
  have hpos : n ≠ 0 := by
    rintro rfl
    rw [hfed.bucketId] at hcurrent
    cases hcurrent
  have heq : current = (n - 1) / source.bucketSpan := by
    rw [hfed.bucketId, if_neg hpos] at hcurrent
    exact (Option.some.inj hcurrent).symm
  obtain ⟨hend, hnext⟩ := bucket_begins source.span_pos (Nat.pos_of_ne_zero hpos)
    (heq ▸ hcross)
  have hbegin : n = n / source.bucketSpan * source.bucketSpan := by
    rw [hnext]
    exact hend
  rw [← heq] at hend hnext
  by_cases hdone : current < k
  · rw [sealBucket_sealed (by rw [hreached.sealedIds]; simpa using hdone), pure_bind]
    exact ⟨k, hk, hreached, by omega, bucket_first hitem hbegin (by omega), hready⟩
  · have hcurrentK : current = k := by
      have := hfed.bucketId_le
      omega
    subst hcurrentK
    have hcomplete : build.isComplete current = true := by
      simp only [Build.isComplete, Build.bucketEnd, plan.builds.bucketSpan, decide_eq_true_eq]
      have hcast : (n : Int) = ((current : Int) + 1) * source.bucketSpan := by exact_mod_cast hend
      omega
    have hbucket : loop.bucket =
        source.bucketItems current ((current + 1) * source.bucketSpan) := by
      rw [hfed.bucket, ← heq, if_neg hdone, ← hend]
    rw [hbucket]
    have hseal := sealBucket_next plan hreached (by omega) hcomplete
    refine Durable.Ensures.meets (hseal.bind fun progress' => Durable.ensures_pure ?_) writer hready
    rintro writer' ⟨hreached', hready'⟩
    exact ⟨current + 1, by omega, hreached', by omega, bucket_first hitem hbegin (by omega), hready'⟩

theorem turnBucket_turned (plan : Plan gzip dies fine inv source build e) (hn : n < e)
    (hitem : source.items[n]? = some item) (hhead : (n : Int) < build.rawHead) (loop : Loop) :
    Durable.Ensures (Standing gzip dies fine inv source e n loop)
      (turnBucket gzip build (n / source.bucketSpan) loop)
      (Turned gzip dies fine inv source e n item) (fun _ writer => ¬fine ∧ inv writer.disk) := by
  unfold turnBucket
  cases hcurrent : loop.bucketId with
  | none =>
    apply Durable.ensures_pure
    rintro writer ⟨k, hk, hreached, hfed, hready⟩
    have hzero : n = 0 := by
      by_contra hpos
      rw [hfed.bucketId, if_neg hpos] at hcurrent
      cases hcurrent
    subst hzero
    have hle : 0 / source.bucketSpan ≤ k := by simp
    exact ⟨k, hk, hreached, hle, bucket_next hitem (by simp) hle hfed.bucket, hready⟩
  | some current =>
    by_cases hcross : n / source.bucketSpan ≠ current
    · simp only [if_pos hcross]
      exact sealBucket_turned plan hn hitem hhead hcurrent hcross
    · simp only [if_neg hcross]
      apply Durable.ensures_pure
      rintro writer ⟨k, hk, hreached, hfed, hready⟩
      have hpos : n ≠ 0 := by
        rintro rfl
        rw [hfed.bucketId] at hcurrent
        cases hcurrent
      have hsame : n / source.bucketSpan = (n - 1) / source.bucketSpan := by
        rw [hfed.bucketId, if_neg hpos] at hcurrent
        rw [not_not.1 hcross]
        exact (Option.some.inj hcurrent).symm
      have hle : n / source.bucketSpan ≤ k := by
        rw [hsame]
        exact hfed.bucketId_le
      exact ⟨k, hk, hreached, hle, bucket_next hitem hsame hle hfed.bucket, hready⟩

theorem feedItem_standing (plan : Plan gzip dies fine inv source build e) (hn : n < e)
    (hitem : source.items[n]? = some item) (loop : Loop) :
    Durable.Ensures (Standing gzip dies fine inv source e n loop) (feedItem gzip build item loop)
      (fun loop' writer => Standing gzip dies fine inv source e (n + 1) loop' writer ∧
        item.identity = build.identity ∧ (n : Int) < build.rawHead)
      (fun _ writer => ¬fine ∧ inv writer.disk) := by
  have hmem : item ∈ source.items.take e :=
    List.mem_of_getElem? ((List.getElem?_take_of_lt hn).trans hitem)
  have hcursor := source.contiguous n item hitem
  unfold feedItem
  by_cases hidentity : item.identity = build.identity
  swap
  · rw [if_pos hidentity]
    apply Durable.ensures_throw
    rintro writer ⟨k, -, -, -, hready⟩
    exact ⟨fun hfine => hidentity (plan.identity hfine item hmem), hready.1.1⟩
  rw [if_neg (not_not.2 hidentity)]
  by_cases hbounded : item.cursor ≤ loop.previousCursor ∨ build.rawHead < item.cursor
  · rw [if_pos hbounded]
    apply Durable.ensures_throw
    rintro writer ⟨k, -, -, hfed, hready⟩
    refine ⟨fun hfine => ?_, hready.1.1⟩
    have hhead := plan.head_le hfine
    have hprevious := hfed.previousCursor
    omega
  rw [if_neg hbounded, plan.builds.bucketSpan, bucketOf_cursor hitem]
  have hhead : (n : Int) < build.rawHead := by omega
  refine Durable.Ensures.bind (m := Turned gzip dies fine inv source e n item) ?_ ?_
  · exact turnBucket_turned plan hn hitem hhead loop
  · rintro ⟨bucket, progress⟩
    apply Durable.ensures_pure
    rintro writer ⟨k, hk, hreached, hle, hbucket, hready⟩
    refine ⟨⟨k, hk, hreached, ?_, hready⟩, hidentity, hhead⟩
    constructor
    · exact hcursor
    · exact (if_neg (Nat.succ_ne_zero n)).symm
    · rwa [Nat.add_sub_cancel]
    · simp only [Nat.add_sub_cancel]
      rw [hreached.sealedIds]
      exact hbucket

theorem feed_ensures {items : List Item} {inv : Nat → Loop → Writer → Prop}
    {fail : Failure → Writer → Prop}
    (hround : ∀ n item, items[n]? = some item → ∀ loop,
      Durable.Ensures (inv n loop) (feedItem gzip build item loop) (inv (n + 1)) fail)
    (loop : Loop) :
    Durable.Ensures (inv 0 loop) (feed gzip build items loop) (inv items.length) fail := by
  suffices h : ∀ (rest : List Item) (n : Nat), items.drop n = rest → n ≤ items.length → ∀ loop,
      Durable.Ensures (inv n loop) (feed gzip build rest loop) (inv items.length) fail by
    exact h items 0 rfl (Nat.zero_le _) loop
  intro rest
  induction rest with
  | nil =>
    intro n hdrop hn loop
    have hend : n = items.length := le_antisymm hn (List.drop_eq_nil_iff.1 hdrop)
    subst hend
    exact Durable.ensures_pure fun _ hs => hs
  | cons item rest ih =>
    intro n hdrop _ loop
    have hlt : n < items.length := by
      by_contra hge
      rw [List.drop_eq_nil_iff.2 (not_lt.1 hge)] at hdrop
      cases hdrop
    rw [List.drop_eq_getElem_cons hlt, List.cons.injEq] at hdrop
    have hitem : items[n]? = some item := by
      rw [List.getElem?_eq_getElem hlt, hdrop.1]
    exact (hround n item hitem loop).bind fun loop' => ih (n + 1) hdrop.2 hlt loop'

theorem feed_standing (plan : Plan gzip dies fine inv source build e) (loop : Loop) :
    Durable.Ensures (Standing gzip dies fine inv source e 0 loop)
      (feed gzip build (source.items.take e) loop)
      (fun loop' writer => Standing gzip dies fine inv source e e loop' writer ∧
        (∀ item ∈ source.items.take e, item.identity = build.identity) ∧
        (0 < e → (e : Int) ≤ build.rawHead))
      (fun _ writer => ¬fine ∧ inv writer.disk) := by
  have hlength : (source.items.take e).length = e := by
    rw [List.length_take, min_eq_left plan.count_le]
  have hfeed := @feed_ensures _ gzip build (source.items.take e)
    (fun n loop' writer => Standing gzip dies fine inv source e n loop' writer ∧
      (∀ item ∈ source.items.take n, item.identity = build.identity) ∧
      (0 < n → (n : Int) ≤ build.rawHead))
    (fun _ writer => ¬fine ∧ inv writer.disk) (by
      intro n item hitem loop
      have hn : n < e := by
        have hlt := (List.getElem?_eq_some_iff.1 hitem).1
        omega
      rw [List.getElem?_take_of_lt hn] at hitem
      refine ⟨?_⟩
      rintro writer ⟨hstanding, hidentity, -⟩
      refine Durable.Ensures.meets ((feedItem_standing plan hn hitem loop).mono (fun _ hs => hs) ?_
        fun _ _ h => h) writer hstanding
      rintro loop' writer' ⟨hstanding', hitemIdentity, hhead⟩
      refine ⟨hstanding', ?_, fun _ => by omega⟩
      intro other hother
      rw [List.take_add_one, hitem, Option.toList_some, List.mem_append, List.mem_singleton] at hother
      cases hother with
      | inl hmem => exact hidentity other hmem
      | inr heq =>
        rw [heq]
        exact hitemIdentity)
    loop
  rw [hlength] at hfeed
  apply hfeed.mono
  · intro writer hstanding
    refine ⟨hstanding, ?_, fun h => absurd h (lt_irrefl 0)⟩
    simp
  · exact fun _ _ h => h
  · exact fun _ _ h => h

/-! ## The end of the source -/

theorem sealBucket_skipped
    (hcomplete : build.isComplete bucketId = false) (hhead : build.sealHead = false) :
    sealBucket gzip build bucketId events progress = pure progress := by
  unfold sealBucket
  simp [hcomplete, hhead]

omit [UnicodeData] in
theorem lastBucket_cases {span e : Nat} (hspan : 0 < span) (hpos : 0 < e) (hk : k * span ≤ e)
    (hle : (e - 1) / span ≤ k) : ((e - 1) / span < k ∧ e = k * span) ∨
      ((e - 1) / span = k ∧ k * span < e ∧ e ≤ (k + 1) * span) := by
  have hlow := Nat.div_mul_le_self (e - 1) span
  have hhigh := Nat.lt_div_mul_add (a := e - 1) hspan
  rcases Nat.lt_or_ge ((e - 1) / span) k with hlt | hge
  · left
    refine ⟨hlt, ?_⟩
    have hmul : ((e - 1) / span + 1) * span ≤ k * span := Nat.mul_le_mul_right _ hlt
    rw [Nat.add_mul] at hmul
    omega
  · right
    have heq : (e - 1) / span = k := le_antisymm hle hge
    rw [heq] at hlow hhigh
    refine ⟨heq, by omega, ?_⟩
    rw [Nat.add_mul]
    omega

omit [UnicodeData] in
theorem isComplete_iff (hbuild : source.Builds build) (k : Nat) :
    build.isComplete k = true ↔ (((k + 1) * source.bucketSpan : Nat) : Int) ≤ build.rawHead := by
  simp [Build.isComplete, Build.bucketEnd, hbuild.bucketSpan]

/-- The last bucket, where it is not sealed before it is full. -/
theorem sealLast_whole (plan : Plan gzip dies fine inv source build e) (hpos : 0 < e)
    (hhead : (e : Int) ≤ build.rawHead)
    (hwhole : e % source.bucketSpan ≠ 0 →
      build.isComplete ((e - 1) / source.bucketSpan) = false ∧ build.sealHead = false)
    (loop : Loop) :
    Durable.Ensures (Standing gzip dies fine inv source e e loop) (sealLast gzip build loop)
      (fun progress writer => Reached gzip source (e / source.bucketSpan) progress ∧
        Ready dies fine (fun disk => inv disk ∧
          PublishedTo gzip source (e / source.bucketSpan) disk) writer)
      (fun _ writer => ¬fine ∧ inv writer.disk) := by
  refine ⟨?_⟩
  rintro writer ⟨k, hk, hreached, hfed, hready⟩
  unfold sealLast
  rw [hfed.bucketId, if_neg (by omega)]
  rcases lastBucket_cases source.span_pos hpos hk hfed.bucketId_le with ⟨hlt, hend⟩ | ⟨heq, hlow, hhigh⟩
  · have hquotient : e / source.bucketSpan = k := by
      rw [hend, Nat.mul_div_cancel _ source.span_pos]
    simp only
    rw [sealBucket_sealed (by rw [hreached.sealedIds]; simpa using hlt), hquotient]
    exact ⟨hreached, hready⟩
  · by_cases hfull : e = (k + 1) * source.bucketSpan
    · have hquotient : e / source.bucketSpan = k + 1 := by
        rw [hfull, Nat.mul_div_cancel _ source.span_pos]
      have hcomplete : build.isComplete k = true := by
        rw [isComplete_iff plan.builds, ← hfull]
        exact hhead
      simp only
      rw [hfed.bucket, heq, if_neg (lt_irrefl k), hquotient]
      conv in source.bucketItems k e => rw [hfull]
      exact (sealBucket_next plan hreached (by omega) hcomplete).meets writer hready
    · have hquotient : e / source.bucketSpan = k := by
        apply Nat.div_eq_of_lt_le
        · omega
        · rw [Nat.succ_mul]
          rw [Nat.add_mul] at hhigh hfull
          omega
      have hremainder : e % source.bucketSpan ≠ 0 := by
        intro hzero
        have hmul := Nat.div_add_mod e source.bucketSpan
        rw [hzero, hquotient, Nat.mul_comm] at hmul
        omega
      obtain ⟨hcomplete, hseal⟩ := hwhole hremainder
      simp only
      rw [sealBucket_skipped hcomplete hseal, hquotient]
      exact ⟨hreached, hready⟩

omit [UnicodeData] in
theorem replaceState_ensures (state : State) (pre : Writer → Prop) :
    Durable.Ensures pre (replaceState state)
      (fun _ writer => ∃ before, pre before ∧
        writer.disk = { before.disk with state := some state })
      (fun _ writer => pre writer ∧ writer.fuse ≠ none) := by
  refine ⟨?_⟩
  intro writer hpre
  unfold replaceState
  simp only [Durable.exec_bind, Durable.exec_get]
  split
  · rename_i torn hfuse
    exact ⟨hpre, by simp [hfuse]⟩
  · simp only [Durable.exec_set]
    exact ⟨writer, hpre, rfl⟩

theorem finish_ensures {pre : Writer → Prop} {done : Progress → Writer → Prop} {kept : Disk → Prop}
    {loop : Loop} (hcursor : ∀ writer, pre writer → loop.previousCursor = e)
    (hseal : Durable.Ensures pre (sealLast gzip build loop) done
      (fun _ writer => ¬fine ∧ kept writer.disk))
    (hkept : ∀ progress writer, done progress writer →
      build.rawHead ≠ e ∨ writer.fuse ≠ none → ¬fine ∧ kept writer.disk) :
    Durable.Ensures pre (finish gzip build loop)
      (fun result writer => ∃ progress before, result = receipt build progress ∧
        done progress before ∧ build.rawHead = e ∧
        writer.disk = { before.disk with state := some (nextState build progress) })
      (fun _ writer => ¬fine ∧ kept writer.disk) := by
  refine ⟨?_⟩
  intro writer hpre
  have hend := hcursor writer hpre
  unfold finish
  refine Durable.Ensures.meets (hseal.bind fun progress => ?_) writer hpre
  rw [hend]
  split
  · rename_i hne
    apply Durable.ensures_throw
    intro writer' hdone
    exact hkept progress writer' hdone (.inl (Ne.symm hne))
  · rename_i heq
    have hreplace := replaceState_ensures (nextState build progress) (done progress)
    refine Durable.Ensures.bind (hreplace.mono (fun _ hs => hs) (fun _ _ h => h)
      fun _ writer' h => hkept progress writer' h.1 (.inr h.2)) fun _ => Durable.ensures_pure ?_
    rintro writer' ⟨before, hdone, hdisk⟩
    exact ⟨progress, before, rfl, hdone, (not_not.1 heq).symm, hdisk⟩

/-- A build that seals no bucket before it is full. -/
theorem buildLocked_whole (plan : Plan gzip dies fine inv source build e) (hpos : 0 < e)
    (hwhole : (e : Int) ≤ build.rawHead → e % source.bucketSpan ≠ 0 →
      build.isComplete ((e - 1) / source.bucketSpan) = false ∧ build.sealHead = false)
    (hexact : fine → build.rawHead = e)
    (hreached : Reached gzip source k progress) (hk : k * source.bucketSpan ≤ e) : Durable.Ensures
      (fun writer => loadState build writer.disk = .ok progress ∧
        Ready dies fine (fun disk => inv disk ∧ PublishedTo gzip source k disk) writer)
      (buildLocked gzip build (source.items.take e))
      (fun result writer => ∃ progress' disk, result = receipt build progress' ∧
        Reached gzip source (e / source.bucketSpan) progress' ∧ build.rawHead = e ∧
        (∀ item ∈ source.items.take e, item.identity = build.identity) ∧
        inv disk ∧ PublishedTo gzip source (e / source.bucketSpan) disk ∧ (fine → Intact disk) ∧
        writer.disk = { disk with state := some (nextState build progress') })
      (fun _ writer => ¬fine ∧ inv writer.disk) := by
  refine ⟨?_⟩
  rintro writer ⟨hload, hready⟩
  unfold buildLocked
  simp only [Durable.exec_bind, Durable.exec_get, Durable.exec_lift, hload]
  have hstanding : Standing gzip dies fine inv source e 0 ⟨none, [], 0, progress⟩ writer := by
    refine ⟨k, hk, hreached, ⟨rfl, rfl, by simp, ?_⟩, hready⟩
    simp [Source.bucketItems]
  rw [← Durable.exec_bind]
  refine Durable.Ensures.meets ((feed_standing plan _).bind fun loop => ?_) writer hstanding
  by_cases hfed : (∀ item ∈ source.items.take e, item.identity = build.identity) ∧
      (e : Int) ≤ build.rawHead
  swap
  · exact Durable.ensures_absurd fun _ hs => hfed ⟨hs.2.1, hs.2.2 hpos⟩
  have hseal := sealLast_whole plan hpos hfed.2 (hwhole hfed.2) loop
  have hfinish := @finish_ensures _ gzip fine build e
    (Standing gzip dies fine inv source e e loop)
    (fun progress' writer => Reached gzip source (e / source.bucketSpan) progress' ∧
      Ready dies fine (fun disk => inv disk ∧
        PublishedTo gzip source (e / source.bucketSpan) disk) writer) inv loop
    (fun _ ⟨_, _, _, hfed', _⟩ => hfed'.previousCursor) hseal
    (by
      rintro progress' writer' ⟨-, hready'⟩ hbad
      refine ⟨fun hfine => ?_, hready'.1.1⟩
      cases hbad with
      | inl hhead => exact hhead (hexact hfine)
      | inr hfuse => exact hfuse (hready'.2.2 hfine).fuse)
  apply hfinish.mono (fun _ hs => hs.1)
  · rintro result writer' ⟨progress', before, hresult, ⟨hreached', hready'⟩, hhead, hdisk⟩
    exact ⟨progress', before.disk, hresult, hreached', hhead, hfed.1, hready'.1.1, hready'.1.2,
      fun h => (hready'.2.2 h).whole, hdisk⟩
  · exact fun _ _ h => h

/-! ## Builds that seal the head -/

/-- The build of the first `e` items that seals their last bucket. -/
def Source.headBuild (source : Source) (e : Nat) : Build :=
  ⟨source.tenantId, source.namespaceId, source.edgeId, source.bucketSpan, e, true⟩

omit [UnicodeData] in
theorem builds_headBuild (source : Source) (e : Nat) : source.Builds (source.headBuild e) :=
  ⟨rfl, rfl, rfl, rfl⟩

/-- The files of the last bucket of `e` items, sealed before it is full. -/
def Source.partialHead (gzip : Bytes → Bytes) (source : Source) (e : Nat) : Option Segment :=
  (source.headDigest gzip (e / source.bucketSpan)).bind fun previous =>
    (segmentOf gzip (source.headBuild e) (e / source.bucketSpan)
      (source.bucketItems (e / source.bucketSpan) e) previous).toOption

/-- The variables of a build once the head is sealed. -/
structure ReachedHead (gzip : Bytes → Bytes) (source : Source) (e : Nat) (segment : Segment)
    (progress : Progress) : Prop where
  isHead : source.partialHead gzip e = some segment
  sealedIds : progress.sealedIds = Finset.range (e / source.bucketSpan + 1)
  previous : progress.previous = sha256Bytes segment.manifest
  eventCount : progress.eventCount + source.start * source.bucketSpan = source.counted + e
  segmentCount : progress.segmentCount = e / source.bucketSpan + 1
  lastCovered : progress.lastCovered = e

omit [UnicodeData] in
theorem head_between {span e : Nat} (hspan : 0 < span) (hremainder : e % span ≠ 0) :
    e / span * span < e ∧ e < (e / span + 1) * span ∧ (e - 1) / span = e / span := by
  have hmul := Nat.div_add_mod e span
  have hlt := Nat.mod_lt e hspan
  rw [Nat.mul_comm] at hmul
  refine ⟨by omega, by rw [Nat.add_mul]; omega, ?_⟩
  apply Nat.div_eq_of_lt_le
  · omega
  · rw [Nat.succ_mul]
    omega

/-- The last bucket, where it is sealed before it is full. -/
theorem sealLast_head (hcount : e ≤ source.items.length)
    (hremainder : e % source.bucketSpan ≠ 0) (loop : Loop)
    (hobject : ∀ digest value, KeptBy dies (.object digest) value inv)
    (hsegment : ∀ segment, source.partialHead gzip e = some segment →
      KeptBy dies (.segment (e / source.bucketSpan) (sha256Bytes segment.manifest))
        segment.manifest inv)
    (hfine : fine → ∃ segment, source.partialHead gzip e = some segment) :
    Durable.Ensures (Standing gzip dies fine inv source e e loop)
      (sealLast gzip (source.headBuild e) loop)
      (fun progress writer => ∃ segment, ReachedHead gzip source e segment progress ∧
        Ready dies fine (fun disk => (inv disk ∧
          PublishedTo gzip source (e / source.bucketSpan) disk) ∧
          Published (e / source.bucketSpan) segment disk) writer)
      (fun _ writer => ¬fine ∧ inv writer.disk) := by
  obtain ⟨hlow, hhigh, hbucket⟩ := head_between source.span_pos hremainder
  refine ⟨?_⟩
  rintro writer ⟨k, hk, hreached, hfed, hready⟩
  have hkEq : k = e / source.bucketSpan := by
    rcases lastBucket_cases source.span_pos (by omega) hk hfed.bucketId_le with ⟨-, hend⟩ | ⟨heq, -, -⟩
    · rw [hend, Nat.mul_mod_left] at hremainder
      exact absurd rfl hremainder
    · rw [← heq, hbucket]
  subst hkEq
  obtain ⟨first, hfirst, hfirstCursor⟩ := head?_bucketItems hlow hcount
  obtain ⟨last, hlast, hlastCursor⟩ := getLast?_bucketItems hlow hcount
  have hof : ∀ segment, segmentOf gzip (source.headBuild e) (e / source.bucketSpan)
      (source.bucketItems (e / source.bucketSpan) e) loop.progress.previous = .ok segment →
      source.partialHead gzip e = some segment := by
    intro segment hok
    rw [Source.partialHead, hreached.previous, Option.bind_some, hok]
    rfl
  have hunsealed : e / source.bucketSpan ∉ loop.progress.sealedIds := by
    rw [hreached.sealedIds]
    simp
  have hseal := @sealBucket_ensures _ gzip dies fine
    (fun disk => inv disk ∧ PublishedTo gzip source (e / source.bucketSpan) disk)
    (source.headBuild e) (e / source.bucketSpan) _ first last loop.progress hunsealed (.inr rfl)
    hfirst hlast (hreached.lastCovered_lt hfirstCursor)
    (by
      intro h
      obtain ⟨segment, hhead⟩ := hfine h
      rw [Source.partialHead, hreached.previous, Option.bind_some] at hhead
      cases hok : segmentOf gzip (source.headBuild e) (e / source.bucketSpan)
        (source.bucketItems (e / source.bucketSpan) e) loop.progress.previous with
      | ok found => exact ⟨found, rfl⟩
      | error failure =>
        rw [hok] at hhead
        cases hhead)
    (fun digest value => (hobject digest value).and (keptBy_publishedTo _ _ _))
    (fun segment hok => (hsegment segment (hof segment hok)).and (keptBy_publishedTo _ _ _))
  unfold sealLast
  rw [hfed.bucketId, if_neg (by omega), hbucket, hfed.bucket, hbucket, if_neg (lt_irrefl _)]
  refine Durable.Ensures.meets (hseal.mono (fun _ hs => hs) ?_ fun _ _ h => ⟨h.1, h.2.1⟩) writer
    hready
  rintro progress' writer' ⟨segment, hok, hadvanced, hready'⟩
  refine ⟨segment, ⟨hof segment hok, ?_, hadvanced.previous, ?_, ?_, ?_⟩, hready'⟩
  · rw [hadvanced.sealedIds, hreached.sealedIds, Finset.range_add_one]
  · have hstart := Nat.mul_le_mul_right source.bucketSpan hreached.start_le
    rw [hadvanced.eventCount, hreached.eventCount, length_bucketItems hcount, Nat.sub_mul]
    omega
  · rw [hadvanced.segmentCount, hreached.segmentCount]
  · rw [hadvanced.lastCovered, hlastCursor]

/-- The references `refs` allows, or one more to the head of `e` items. -/
def WithHead (gzip : Bytes → Bytes) (source : Source) (e : Nat)
    (refs : Dict (Nat ×ₗ Str) Bytes → Prop) (segments : Dict (Nat ×ₗ Str) Bytes) : Prop :=
  refs segments ∨ ∃ before segment, refs before ∧ source.partialHead gzip e = some segment ∧
    segments = before.insert (toLex (e / source.bucketSpan, sha256Bytes segment.manifest))
      segment.manifest

theorem keptBy_withHead {refs : Dict (Nat ×ₗ Str) Bytes → Prop} {segment : Segment}
    (hhead : source.partialHead gzip e = some segment) :
    KeptBy (fun _ => False) (.segment (e / source.bucketSpan) (sha256Bytes segment.manifest)) segment.manifest
      (fun disk => WithHead gzip source e refs disk.segments) := by
  intro disk bytes hdisk hnew hpart
  have hbytes : bytes = segment.manifest := hpart.resolve_right fun ⟨_, h, _⟩ => h
  subst hbytes
  cases hdisk with
  | inl hrefs => exact .inr ⟨disk.segments, segment, hrefs, hhead, rfl⟩
  | inr hthere =>
    obtain ⟨before, found, -, hfound, hsegments⟩ := hthere
    rw [hhead] at hfound
    cases hfound
    rw [Disk.read, hsegments, Dict.get_insert, if_pos rfl] at hnew
    cases hnew

omit [UnicodeData] in
theorem fuse_eq_none {fuse : Option (Nat × Option Nat)}
    (h : ∀ rest cut, fuse = some (rest, cut) → False) : fuse = none := by
  cases fuse with
  | none => rfl
  | some budget => exact (h budget.1 budget.2 rfl).elim

theorem sealLast_unfused (build : Build) (loop : Loop) (segments : Dict (Nat ×ₗ Str) Bytes) :
    Durable.Ensures (fun writer => writer.fuse = none ∧ writer.disk.segments = segments)
      (sealLast gzip build loop) (fun _ _ => True)
      (fun _ writer => writer.disk.segments = segments) := by
  unfold sealLast
  split
  · exact sealBucket_unfused _ _ _ _ _
  · exact Durable.ensures_pure fun _ _ => trivial

/-- A build that seals the head and does not crash: where it fails it leaves no
reference to the head. -/
theorem buildLocked_head {refs : Dict (Nat ×ₗ Str) Bytes → Prop} {rest : Disk → Prop}
    (plan : Plan gzip (fun _ => False) fine (fun disk => refs disk.segments ∧ rest disk) source
      (source.headBuild e) e)
    (hrest : ∀ path value, KeptBy (fun _ => False) path value rest) (hremainder : e % source.bucketSpan ≠ 0)
    (hfine : fine → ∃ segment, source.partialHead gzip e = some segment) {k : Nat}
    {progress : Progress} (hreached : Reached gzip source k progress)
    (hk : k * source.bucketSpan ≤ e) :
    Durable.Ensures
      (fun writer => loadState (source.headBuild e) writer.disk = .ok progress ∧
        Ready (fun _ => False) fine (fun disk => (refs disk.segments ∧ rest disk) ∧
          PublishedTo gzip source k disk) writer)
      (buildLocked gzip (source.headBuild e) (source.items.take e))
      (fun result writer => ∃ progress' segment disk,
        result = receipt (source.headBuild e) progress' ∧
        ReachedHead gzip source e segment progress' ∧
        WithHead gzip source e refs disk.segments ∧ rest disk ∧
        PublishedTo gzip source (e / source.bucketSpan) disk ∧
        Published (e / source.bucketSpan) segment disk ∧ (fine → Intact disk) ∧
        writer.disk = { disk with state := some (nextState (source.headBuild e) progress') })
      (fun _ writer => ¬fine ∧ refs writer.disk.segments ∧ rest writer.disk) := by
  have hpos : 0 < e := Nat.pos_of_ne_zero fun hzero => hremainder (by rw [hzero, Nat.zero_mod])
  refine ⟨?_⟩
  rintro writer ⟨hload, hready⟩
  unfold buildLocked
  simp only [Durable.exec_bind, Durable.exec_get, Durable.exec_lift, hload]
  have hstanding : Standing gzip (fun _ => False) fine (fun disk => refs disk.segments ∧ rest disk) source e 0
      ⟨none, [], 0, progress⟩ writer := by
    refine ⟨k, hk, hreached, ⟨rfl, rfl, by simp, ?_⟩, hready⟩
    simp [Source.bucketItems]
  rw [← Durable.exec_bind]
  refine Durable.Ensures.meets ((feed_standing plan _).bind fun loop => ⟨?_⟩) writer hstanding
  rintro writer' ⟨hstanding', -, -⟩
  have hkeptHead := @sealLast_head source _ gzip (fun _ => False) fine
    (fun disk => WithHead gzip source e refs disk.segments ∧ rest disk) e plan.count_le hremainder loop
    (fun digest value disk bytes hdisk hnew hpart =>
      ⟨hdisk.1, hrest _ _ disk bytes hdisk.2 hnew hpart⟩)
    (fun segment hsegment => (keptBy_withHead hsegment).and (hrest _ _)) hfine
  have hunfused : writer'.fuse = none := by
    obtain ⟨_, _, _, _, _, hfuse, _⟩ := hstanding'
    exact fuse_eq_none hfuse
  have hrefs : refs writer'.disk.segments := by
    obtain ⟨_, _, _, _, hinv, _⟩ := hstanding'
    exact hinv.1.1
  have hseal := hkeptHead.and
    (sealLast_unfused (source.headBuild e) loop writer'.disk.segments)
  have hfinish := @finish_ensures _ gzip fine (source.headBuild e) e _ _
    (fun disk => refs disk.segments ∧ rest disk) loop
    (fun _ ⟨⟨_, _, _, hfed', _⟩, _⟩ => hfed'.previousCursor)
    (hseal.mono (fun _ hs => hs) (fun _ _ h => h) fun _ writer'' h =>
      ⟨h.1.1, by rw [h.2]; exact hrefs, h.1.2.2⟩)
    (by
      rintro progress' writer'' ⟨⟨segment, -, -, hfuse, -⟩, -⟩ hbad
      cases hbad with
      | inl hhead => exact absurd rfl hhead
      | inr hfused => exact absurd (fuse_eq_none hfuse) hfused)
  refine Durable.Ensures.meets (hfinish.mono (fun _ hs => hs) ?_ fun _ _ h => h) writer' ⟨?_, ?_⟩
  · rintro result last ⟨progress', before, hresult, ⟨⟨segment, hhead, hready', -, hclean'⟩, -⟩, -,
      hdisk⟩
    exact ⟨progress', segment, before.disk, hresult, hhead, hready'.1.1.1, hready'.1.1.2,
      hready'.1.2, hready'.2, fun h => (hclean' h).whole, hdisk⟩
  · obtain ⟨k', hk', hreached', hfed, ⟨⟨hrefs', hrest'⟩, hpublished⟩, hfuse, hclean⟩ := hstanding'
    exact ⟨k', hk', hreached', hfed, ⟨⟨.inl hrefs', hrest'⟩, hpublished⟩, hfuse, hclean⟩
  · exact ⟨hunfused, rfl⟩

/-! ## Builds that seal nothing -/

/-- A build over the first `e` items that finds the buckets before `count` sealed and
does not seal the next one. -/
def Idle (source : Source) (build : Build) (count e : Nat) : Prop :=
  e ≤ count * source.bucketSpan ∨
    (build.rawHead < ((count + 1) * source.bucketSpan : Nat) ∧
      (build.sealHead = true → build.rawHead < e))

/-- The loop has changed nothing but its own variables. -/
structure Untouched (source : Source) (writer : Writer) (progress : Progress) (n : Nat)
    (loop : Loop) (writer' : Writer) : Prop where
  writer : writer' = writer
  progress : loop.progress = progress
  previousCursor : loop.previousCursor = n
  bucketId : loop.bucketId = if n = 0 then none else some ((n - 1) / source.bucketSpan)

section
variable {writer : Writer} {progress : Progress} {count : Nat}

variable {n : Nat}

omit [UnicodeData] in
theorem sealed_of_idle (hidle : Idle source build count e)
    (hsealed : progress.sealedIds = Finset.range count) {current : Nat} (hn : n < e)
    (hhead : (n : Int) < build.rawHead) (hend : n = (current + 1) * source.bucketSpan) :
    current ∈ progress.sealedIds := by
  rw [hsealed, Finset.mem_range]
  by_contra hge
  have hmul : (count + 1) * source.bucketSpan ≤ (current + 1) * source.bucketSpan :=
    Nat.mul_le_mul_right _ (by omega)
  cases hidle with
  | inl hle =>
    rw [Nat.add_mul] at hmul
    omega
  | inr hbefore => omega

theorem turnBucket_idle (hidle : Idle source build count e)
    (hsealed : progress.sealedIds = Finset.range count) (hn : n < e)
    (hhead : (n : Int) < build.rawHead) (loop : Loop) :
    Durable.Ensures (Untouched source writer progress n loop)
      (turnBucket gzip build (n / source.bucketSpan) loop)
      (fun result writer' => writer' = writer ∧ result.2 = progress)
      (fun _ writer' => writer' = writer) := by
  refine ⟨?_⟩
  intro writer' hloop
  unfold turnBucket
  rw [hloop.bucketId]
  by_cases hzero : n = 0
  · rw [if_pos hzero]
    exact ⟨hloop.writer, hloop.progress⟩
  · rw [if_neg hzero]
    by_cases hcross : n / source.bucketSpan ≠ (n - 1) / source.bucketSpan
    · obtain ⟨hend, -⟩ := bucket_begins source.span_pos (Nat.pos_of_ne_zero hzero) hcross
      simp only [if_pos hcross]
      rw [hloop.progress, sealBucket_sealed (sealed_of_idle hidle hsealed hn hhead hend), pure_bind]
      exact ⟨hloop.writer, rfl⟩
    · simp only [if_neg hcross]
      exact ⟨hloop.writer, hloop.progress⟩

theorem feedItem_idle (hbuild : source.Builds build) (hidle : Idle source build count e)
    (hsealed : progress.sealedIds = Finset.range count) (hn : n < e) {item : Item}
    (hitem : source.items[n]? = some item) (loop : Loop) :
    Durable.Ensures (Untouched source writer progress n loop) (feedItem gzip build item loop)
      (fun loop' writer' => Untouched source writer progress (n + 1) loop' writer' ∧
        (n : Int) < build.rawHead)
      (fun _ writer' => writer' = writer) := by
  have hcursor := source.contiguous n item hitem
  unfold feedItem
  split
  · exact Durable.ensures_throw fun _ hs => hs.writer
  split
  · exact Durable.ensures_throw fun _ hs => hs.writer
  · rename_i hbounded
    have hhead : (n : Int) < build.rawHead := by omega
    rw [hbuild.bucketSpan, bucketOf_cursor hitem]
    refine (turnBucket_idle hidle hsealed hn hhead loop).bind fun result => ?_
    apply Durable.ensures_pure
    rintro writer' ⟨hwriter, hprogress⟩
    exact ⟨⟨hwriter, hprogress, hcursor, (if_neg (Nat.succ_ne_zero n)).symm⟩, hhead⟩

theorem sealLast_idle (hbuild : source.Builds build) (hpos : 0 < e)
    (hidle : Idle source build count e) (hsealed : progress.sealedIds = Finset.range count)
    (hhead : (e : Int) ≤ build.rawHead) {loop : Loop} (hprogress : loop.progress = progress)
    (hbucket : loop.bucketId = some ((e - 1) / source.bucketSpan)) :
    sealLast gzip build loop = pure progress := by
  unfold sealLast
  rw [hbucket, hprogress]
  have hlow := Nat.div_mul_le_self (e - 1) source.bucketSpan
  have hhigh := Nat.lt_div_mul_add (a := e - 1) source.span_pos
  by_cases hlast : (e - 1) / source.bucketSpan < count
  · exact sealBucket_sealed (by rw [hsealed]; simpa using hlast)
  · have hmul : count * source.bucketSpan ≤ (e - 1) / source.bucketSpan * source.bucketSpan :=
      Nat.mul_le_mul_right _ (by omega)
    cases hidle with
    | inl hle => omega
    | inr hbefore =>
      have hmul' : (count + 1) * source.bucketSpan ≤
          ((e - 1) / source.bucketSpan + 1) * source.bucketSpan :=
        Nat.mul_le_mul_right _ (by omega)
      have hincomplete : build.isComplete ((e - 1) / source.bucketSpan) = false := by
        rw [← Bool.not_eq_true, isComplete_iff hbuild]
        omega
      have hflag : build.sealHead = false := by
        rw [← Bool.not_eq_true]
        intro hflag
        have := hbefore.2 hflag
        omega
      exact sealBucket_skipped hincomplete hflag

/-- An idle build over a log. -/
theorem buildLocked_idle (hbuild : source.Builds build) (hcount : e ≤ source.items.length)
    (hpos : 0 < e) (hidle : Idle source build count e)
    (hload : loadState build writer.disk = .ok progress)
    (hsealed : progress.sealedIds = Finset.range count) :
    Durable.Ensures (fun writer' => writer' = writer)
      (buildLocked gzip build (source.items.take e))
      (fun result writer' => result = receipt build progress ∧ build.rawHead = e ∧
        writer'.disk = { writer.disk with state := some (nextState build progress) })
      (fun _ writer' => writer'.disk = writer.disk) := by
  refine ⟨?_⟩
  rintro writer' rfl
  unfold buildLocked
  simp only [Durable.exec_bind, Durable.exec_get, Durable.exec_lift, hload]
  rw [← Durable.exec_bind]
  have hlength : (source.items.take e).length = e := by
    rw [List.length_take, min_eq_left hcount]
  have hfeed := @feed_ensures _ gzip build (source.items.take e)
    (fun n loop' writer'' => Untouched source writer' progress n loop' writer'' ∧
      (0 < n → (n : Int) ≤ build.rawHead))
    (fun _ writer'' => writer'' = writer') (by
      intro n item hitem loop
      have hn : n < e := by
        have hlt := (List.getElem?_eq_some_iff.1 hitem).1
        omega
      rw [List.getElem?_take_of_lt hn] at hitem
      refine (feedItem_idle hbuild hidle hsealed hn hitem loop).mono (fun _ hs => hs.1) ?_
        fun _ _ h => h
      exact fun _ _ h => ⟨h.1, fun _ => by omega⟩)
    ⟨none, [], 0, progress⟩
  rw [hlength] at hfeed
  refine Durable.Ensures.meets (Durable.Ensures.bind (hfeed.mono (fun _ hs => hs)
    (fun _ _ h => h) fun _ _ h => congrArg Writer.disk h) fun loop => ?_) writer'
    ⟨⟨rfl, rfl, rfl, rfl⟩, fun h => absurd h (lt_irrefl 0)⟩
  refine ⟨?_⟩
  rintro writer'' ⟨hloop, hhead⟩
  have hskip : sealLast gzip build loop = pure progress :=
    sealLast_idle hbuild hpos hidle hsealed (hhead hpos) hloop.progress
      (hloop.bucketId.trans (if_neg (by omega)))
  unfold finish
  rw [hskip, pure_bind, hloop.previousCursor]
  split
  · simp only [Durable.exec_throw]
    exact congrArg Writer.disk hloop.writer
  · rename_i heq
    have hreplace := replaceState_ensures (nextState build progress) (fun w => w = writer')
    refine Durable.Ensures.meets (Durable.Ensures.bind (hreplace.mono (fun _ hs => hs)
      (fun _ _ h => h) fun _ _ h => congrArg Writer.disk h.1) fun _ => Durable.ensures_pure ?_)
      writer'' hloop.writer
    rintro last ⟨before, rfl, hdisk⟩
    exact ⟨rfl, (not_not.1 heq).symm, hdisk⟩

end

end

end IntegrityGuardian.MemoryPlane
