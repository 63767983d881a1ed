import IntegrityGuardian.MemoryPlane.Sealing

/-!
# Buckets that can always be sealed

Sealing a bucket fails where a text cannot be encoded, where two events share an
identifier, or where a cursor precedes the bucket.  For events without content the
first two are plain conditions on their envelopes.
-/

namespace IntegrityGuardian.MemoryPlane

open Python Library

/-- An event without content, whose envelope can be written. -/
structure Item.Plain (item : Item) : Prop where
  event : item.event = []
  eventUid : item.eventUid.any CodePoint.isSurrogate = false
  tsUtc : item.tsUtc.any CodePoint.isSurrogate = false
  payloadSha256 : item.payloadSha256.encodable = true
  envelopeSha256 : item.envelopeSha256.encodable = true
  source : item.source.encodable = true

theorem any_isSurrogate_sha256Bytes (value : Bytes) :
    (sha256Bytes value).any CodePoint.isSurrogate = false := by
  apply Json.any_isSurrogate_ascii
  rw [List.all_eq_true]
  intro c hc
  have hhex := isLowerHex_of_mem_hex hc
  simp only [CodePoint.isLowerHex, Bool.or_eq_true, Bool.and_eq_true, decide_eq_true_eq] at hhex ⊢
  omega

theorem encodable_str {s : Str} (h : s.any CodePoint.isSurrogate = false) :
    (Json.str s).encodable = true := by
  rw [Json.encodable, h]
  rfl

theorem canonicalJson_of_encodable {value : Json} (h : value.encodable = true) :
    ∃ bytes, canonicalJson value = .ok bytes := by
  obtain ⟨bytes, hbytes⟩ := canonicalBytes_of_encodable h
  exact ⟨bytes, mapError_eq_ok.2 hbytes⟩

theorem encodeDeltas_ok {cursors : List Int} {base : Int} (h : ∀ cursor ∈ cursors, base ≤ cursor) :
    ∃ values, encodeDeltas cursors base = .ok values := by
  unfold encodeDeltas
  rw [if_neg]
  · exact ⟨_, rfl⟩
  · rw [List.any_eq_true]
    rintro ⟨cursor, hcursor, hlt⟩
    have hle := h cursor (List.mem_dedup.1 ((List.mem_insertionSort _).1 hcursor))
    rw [decide_eq_true_eq] at hlt
    omega

theorem postings_ok {keyed : List (Int × List Str)} {base : Int}
    (hbase : ∀ item ∈ keyed, base ≤ item.1)
    (hkeys : ∀ item ∈ keyed, ∀ key ∈ item.2, key.any CodePoint.isSurrogate = false) :
    ∃ values, postings keyed base = .ok values ∧ ∀ value ∈ values, value.encodable = true := by
  have hdeltas : ∀ key, ∃ values,
      encodeDeltas ((keyed.filter fun item => key ∈ item.2).map Prod.fst) base = .ok values := by
    intro key
    apply encodeDeltas_ok
    intro cursor hcursor
    obtain ⟨item, hitem, rfl⟩ := List.mem_map.1 hcursor
    exact hbase item (List.mem_of_mem_filter hitem)
  choose deltas hdeltas using hdeltas
  refine ⟨_, mapM_eq_ok_map (g := fun key => Json.arr [.str key, .arr ((deltas key).map .int)]) ?_, ?_⟩
  · intro key _
    rw [hdeltas]
    rfl
  · intro value hvalue
    obtain ⟨key, hkey, rfl⟩ := List.mem_map.1 hvalue
    rw [List.mem_insertionSort, List.mem_dedup, List.mem_flatMap] at hkey
    obtain ⟨item, hitem, hmem⟩ := hkey
    simp only [Json.encodable, Json.encodableItems, hkeys item hitem key hmem, Bool.not_false,
      Bool.true_and, Bool.and_true]
    rw [Json.encodableItems_iff]
    intro value hvalue
    obtain ⟨n, -, rfl⟩ := List.mem_map.1 hvalue
    rfl

section
variable [UnicodeData]

/-- The body of an event without content. -/
def blank : Str := (str "\n").intercalate (List.replicate 7 [])

theorem eventBody_nil : eventBody [] = .ok blank := rfl

theorem tokens_blank : tokens blank = [] := by
  have hruns : (blank.splitOnP fun c => !isTokenChar c).filter (fun run => 2 ≤ run.length) = [] := by
    decide
  rw [tokens, hruns]
  rfl

theorem vectorBands_blank : ∀ key ∈ vectorBands (simhash64 blank),
    key.any CodePoint.isSurrogate = false := by
  have hhash : simhash64 blank = 2 ^ 64 - 1 := by
    rw [simhash64, tokens_blank]
    decide
  rw [hhash]
  decide

theorem indexTerms_blank : indexTerms blank = [] := by
  rw [indexTerms, tokens_blank]
  rfl

theorem graphKeys_nil : graphKeys [] = [] := rfl

omit [UnicodeData] in
theorem encodable_payload (base : Int) (semantic : Bytes) {uids : List (Str ×ₗ Int)}
    {fts graph vector : List Json}
    (huids : ∀ uid ∈ uids, (ofLex uid).1.any CodePoint.isSurrogate = false)
    (hfts : ∀ value ∈ fts, value.encodable = true)
    (hgraph : ∀ value ∈ graph, value.encodable = true)
    (hvector : ∀ value ∈ vector, value.encodable = true) :
    (Json.fields
      [("protocol", .str (protocol ++ str ".payload")),
        ("bucket_start", .int base),
        ("uids", .arr (uids.map fun uid => .arr [.str (ofLex uid).1, .int (ofLex uid).2])),
        ("fts", .arr fts),
        ("graph", .arr graph),
        ("vector_lsh16x4", .arr vector),
        ("semantic_events_sha256", .str (sha256Bytes semantic)),
        ("production_authority", .bool false)]).encodable = true := by
  apply Json.encodable_fields
  have hprotocol : (Json.str (protocol ++ str ".payload")).encodable = true := by
    apply encodable_str
    rw [List.any_append, protocol, any_isSurrogate_str, any_isSurrogate_str]
    rfl
  have huidsEncodable : (Json.arr (uids.map fun uid =>
      .arr [.str (ofLex uid).1, .int (ofLex uid).2])).encodable = true := by
    rw [Json.encodable, Json.encodableItems_iff]
    intro value hvalue
    obtain ⟨uid, huid, rfl⟩ := List.mem_map.1 hvalue
    simp [Json.encodable, Json.encodableItems, huids uid huid]
  have hsemantic := encodable_str (any_isSurrogate_sha256Bytes semantic)
  simp only [List.forall_mem_cons, hprotocol, huidsEncodable, hsemantic]
  simp only [Json.encodable, Json.encodableItems_iff, true_and]
  exact ⟨hfts, hgraph, hvector, by simp⟩

variable {gzip : Bytes → Bytes}

/-- A bucket of plain events has a payload. -/
theorem compactPayload_ok {events : List Item} {base : Int} (hplain : ∀ item ∈ events, item.Plain)
    (hnodup : (events.map Item.eventUid).Nodup) (hbase : ∀ item ∈ events, base ≤ item.cursor) :
    ∃ result, compactPayload gzip events base = .ok result := by
  have hline : ∀ item : Item, ∃ bytes, item ∈ events → semanticLine item = .ok bytes := by
    intro item
    by_cases hitem : item ∈ events
    · have hencodable : (Json.arr [.int item.cursor, .str item.eventUid, item.payloadSha256,
          item.envelopeSha256]).encodable = true := by
        simp [Json.encodable, Json.encodableItems, (hplain item hitem).eventUid,
          (hplain item hitem).payloadSha256, (hplain item hitem).envelopeSha256]
      obtain ⟨bytes, hbytes⟩ := canonicalJson_of_encodable hencodable
      exact ⟨bytes, fun _ => hbytes⟩
    · exact ⟨[], fun h => absurd h hitem⟩
  choose line hline using hline
  have hbodies : events.mapM itemBody = .ok (events.map fun item => (item.cursor, blank)) := by
    apply mapM_eq_ok_map
    intro item hitem
    rw [itemBody, (hplain item hitem).event, eventBody_nil]
    rfl
  have hbaseOf : ∀ {keys : Item → List Str} {item : Int × List Str},
      item ∈ events.map (fun item => (item.cursor, keys item)) → base ≤ item.1 := by
    intro keys item hitem
    obtain ⟨event, hevent, rfl⟩ := List.mem_map.1 hitem
    exact hbase event hevent
  obtain ⟨fts, hfts, hftsEncodable⟩ := @postings_ok
    (events.map fun item => (item.cursor, indexTerms blank)) base (fun item => hbaseOf) (by
      intro item hitem key hkey
      obtain ⟨event, -, rfl⟩ := List.mem_map.1 hitem
      rw [indexTerms_blank] at hkey
      cases hkey)
  obtain ⟨graph, hgraph, hgraphEncodable⟩ := @postings_ok
    (events.map fun item => (item.cursor, graphKeys item.event)) base (fun item => hbaseOf) (by
      intro item hitem key hkey
      obtain ⟨event, hevent, rfl⟩ := List.mem_map.1 hitem
      rw [(hplain event hevent).event, graphKeys_nil] at hkey
      cases hkey)
  obtain ⟨vector, hvector, hvectorEncodable⟩ := @postings_ok
    (events.map fun item => (item.cursor, vectorBands (simhash64 blank))) base (fun item => hbaseOf)
    (by
      intro item hitem key hkey
      obtain ⟨event, -, rfl⟩ := List.mem_map.1 hitem
      exact vectorBands_blank key hkey)
  unfold compactPayload
  rw [mapM_eq_ok_map (fun item hitem => hline item hitem), ok_bind, hbodies, ok_bind,
    ensure_of hnodup, ok_bind]
  simp only [List.map_map, Function.comp_def]
  rw [hfts, ok_bind, hgraph, ok_bind, hvector, ok_bind]
  have huids : ∀ uid ∈ (events.map fun item =>
      toLex (item.eventUid, item.cursor)).insertionSort (· ≤ ·),
      (ofLex uid).1.any CodePoint.isSurrogate = false := by
    intro uid huid
    rw [List.mem_insertionSort] at huid
    obtain ⟨item, hitem, rfl⟩ := List.mem_map.1 huid
    exact (hplain item hitem).eventUid
  obtain ⟨raw, hraw⟩ := canonicalJson_of_encodable (encodable_payload base
    (events.map line).flatten huids hftsEncodable hgraphEncodable hvectorEncodable)
  rw [hraw]
  exact ⟨_, rfl⟩

variable {events : List Item}

omit [UnicodeData] in
theorem encodable_bucketSources (hplain : ∀ item ∈ events, item.Plain) :
    ∀ value ∈ bucketSources events, value.encodable = true := by
  have hfold : ∀ (events : List Item) (sources : List (Str × Int × Json)),
      (∀ item ∈ events, item.Plain) → (∀ entry ∈ sources, entry.2.2.encodable = true) →
      ∀ entry ∈ events.foldl setSource sources, entry.2.2.encodable = true := by
    intro events
    induction events with
    | nil => exact fun _ _ h => h
    | cons event events ih =>
      intro sources hplain hsources
      apply ih _ (fun item hitem => hplain item (List.mem_cons_of_mem _ hitem))
      intro entry hentry
      unfold setSource at hentry
      split at hentry
      · obtain ⟨old, hold, rfl⟩ := List.mem_map.1 hentry
        split
        · exact (hplain event (by simp)).source
        · exact hsources old hold
      · rw [List.mem_append, List.mem_singleton] at hentry
        cases hentry with
        | inl hold => exact hsources entry hold
        | inr hnew =>
          rw [hnew]
          exact (hplain event (by simp)).source
  intro value hvalue
  obtain ⟨entry, hentry, rfl⟩ := List.mem_map.1 hvalue
  exact hfold events [] hplain (by simp) entry ((List.mem_insertionSort _).1 hentry)

omit [UnicodeData] in
theorem foldl_choice {choose : Str → Str → Str} (hchoose : ∀ a b, choose a b = a ∨ choose a b = b)
    {good : Str → Prop} (texts : List Str) {first : Str} (hfirst : good first)
    (htexts : ∀ text ∈ texts, good text) : good (texts.foldl choose first) := by
  induction texts generalizing first with
  | nil => exact hfirst
  | cons text texts ih =>
    apply ih _ (fun t ht => htexts t (List.mem_cons_of_mem _ ht))
    cases hchoose first text with
    | inl h =>
      rw [h]
      exact hfirst
    | inr h =>
      rw [h]
      exact htexts text (by simp)

/-- The texts of a build can be written. -/
structure Build.Plain (build : Build) : Prop where
  tenantId : build.tenantId.any CodePoint.isSurrogate = false
  namespaceId : build.namespaceId.any CodePoint.isSurrogate = false
  edgeId : build.edgeId.any CodePoint.isSurrogate = false

omit [UnicodeData] in
theorem manifestBytes_ok {build : Build} (hbuild : build.Plain) (bucketId : Nat)
    {events : List Item} {first last : Item} (hplain : ∀ item ∈ events, item.Plain)
    (hfirst : first.Plain) (payload : Bytes) (statistics : Statistics) {previous : Str}
    (hprevious : previous.any CodePoint.isSurrogate = false) :
    ∃ bytes, manifestBytes build bucketId events first last payload statistics previous =
      .ok bytes := by
  have htexts : ∀ text ∈ events.map Item.tsUtc, text.any CodePoint.isSurrogate = false := by
    intro text htext
    obtain ⟨item, hitem, rfl⟩ := List.mem_map.1 htext
    exact (hplain item hitem).tsUtc
  have hencodable : (Json.fields (manifestFields build bucketId events first last payload statistics
      previous)).encodable = true := by
    apply Json.encodable_fields
    have hprotocol : (Json.str (protocol ++ str ".manifest")).encodable = true := by
      apply encodable_str
      rw [List.any_append, protocol, any_isSurrogate_str, any_isSurrogate_str]
      rfl
    have hmin := encodable_str (@foldl_choice _ min_choice
      (fun s => s.any CodePoint.isSurrogate = false) (events.map Item.tsUtc) _ hfirst.tsUtc htexts)
    have hmax := encodable_str (@foldl_choice _ max_choice
      (fun s => s.any CodePoint.isSurrogate = false) (events.map Item.tsUtc) _ hfirst.tsUtc htexts)
    have hpayload : (Json.fields [("sha256", .str (sha256Bytes payload)),
        ("bytes", .int payload.length)]).encodable = true := by
      apply Json.encodable_fields
      simp only [List.forall_mem_cons, encodable_str (any_isSurrogate_sha256Bytes payload)]
      simp [Json.encodable]
    have hstatistics : statistics.json.encodable = true := by
      apply Json.encodable_fields
      simp [Json.encodable]
    simp only [manifestFields, List.forall_mem_cons, hprotocol, hmin, hmax, hpayload, hstatistics,
      encodable_str hbuild.tenantId, encodable_str hbuild.namespaceId, encodable_str hbuild.edgeId,
      encodable_str hprevious, true_and]
    simp only [Json.encodable, Json.encodableItems_iff, true_and]
    exact ⟨encodable_bucketSources hplain, by simp⟩
  obtain ⟨bytes, hbytes⟩ := canonicalJson_of_encodable hencodable
  exact ⟨bytes ++ [10], by rw [manifestBytes, hbytes]; rfl⟩

theorem segmentOf_plain {build : Build} (hbuild : build.Plain) {bucketId : Nat}
    (hne : events ≠ []) (hplain : ∀ item ∈ events, item.Plain)
    (hnodup : (events.map Item.eventUid).Nodup)
    (hbase : ∀ item ∈ events, build.bucketStart bucketId ≤ item.cursor) {previous : Str}
    (hprevious : previous.any CodePoint.isSurrogate = false) :
    ∃ segment, segmentOf gzip build bucketId events previous = .ok segment := by
  obtain ⟨first, hfirst⟩ := Option.ne_none_iff_exists'.1 (mt List.head?_eq_none_iff.1 hne)
  obtain ⟨last, hlast⟩ := Option.ne_none_iff_exists'.1 (mt List.getLast?_eq_none_iff.1 hne)
  obtain ⟨result, hresult⟩ := @compactPayload_ok _ gzip events _ hplain hnodup hbase
  obtain ⟨manifest, hmanifest⟩ := @manifestBytes_ok build hbuild bucketId events first last hplain
    (hplain first (List.mem_of_head? hfirst)) result.1 result.2 previous hprevious
  refine ⟨⟨result.1, manifest⟩, ?_⟩
  unfold segmentOf
  rw [hfirst, hlast, hresult]
  simp only [ok_bind]
  rw [hmanifest]
  rfl

/-! ## Plain logs -/

/-- A log of plain events with identifiers of their own. -/
structure Source.Plain (source : Source) : Prop where
  item : ∀ item ∈ source.items, item.Plain
  nodup : (source.items.map Item.eventUid).Nodup
  tenantId : source.tenantId.any CodePoint.isSurrogate = false
  namespaceId : source.namespaceId.any CodePoint.isSurrogate = false
  edgeId : source.edgeId.any CodePoint.isSurrogate = false
  previous : source.previous.any CodePoint.isSurrogate = false

variable {source : Source}

omit [UnicodeData] in
theorem Source.Plain.build (h : source.Plain) {build : Build} (hbuild : source.Builds build) :
    build.Plain :=
  ⟨by rw [hbuild.tenantId, h.tenantId], by rw [hbuild.namespaceId, h.namespaceId],
    by rw [hbuild.edgeId, h.edgeId]⟩

theorem segmentOf_bucketItems (h : source.Plain) {build : Build} (hbuild : source.Builds build)
    {bucketId n : Nat} (hlt : bucketId * source.bucketSpan < n) (hn : n ≤ source.items.length)
    {previous : Str} (hprevious : previous.any CodePoint.isSurrogate = false) :
    ∃ segment, segmentOf gzip build bucketId (source.bucketItems bucketId n) previous =
      .ok segment := by
  have hsub : (source.bucketItems bucketId n).Sublist source.items :=
    (List.drop_sublist _ _).trans (List.take_sublist _ _)
  apply segmentOf_plain (h.build hbuild)
  · rw [← List.length_pos_iff]
    simp only [Source.bucketItems, List.length_drop, List.length_take]
    omega
  · exact fun item hitem => h.item item (hsub.mem hitem)
  · exact h.nodup.sublist (hsub.map _)
  · intro item hitem
    obtain ⟨i, hi⟩ := List.getElem?_of_mem hitem
    rw [Source.bucketItems, List.getElem?_drop] at hi
    have hcursor := source.contiguous _ item
      (hi.symm.trans (List.getElem?_take_of_lt (by
        by_contra hge
        rw [List.getElem?_take_eq_none (not_lt.1 hge)] at hi
        cases hi)) |>.symm)
    rw [Build.bucketStart, hbuild.bucketSpan, hcursor]
    push_cast
    omega
  · exact hprevious

theorem headDigest_plain (h : source.Plain) : ∀ {bucketId : Nat}, source.start ≤ bucketId →
    bucketId * source.bucketSpan ≤ source.items.length →
    ∃ previous, source.headDigest gzip bucketId = some previous ∧
      previous.any CodePoint.isSurrogate = false := by
  intro bucketId hstart hle
  induction bucketId, hstart using Nat.le_induction with
  | base => exact ⟨source.previous, headDigest_start source, h.previous⟩
  | succ bucketId hstart ih =>
    have hspan := source.span_pos
    rw [Nat.add_mul] at hle
    obtain ⟨previous, hprevious, hencodable⟩ := ih (by omega)
    obtain ⟨segment, hsegment⟩ := @segmentOf_bucketItems _ gzip source h (source.build bucketId)
      ⟨rfl, rfl, rfl, rfl⟩ bucketId ((bucketId + 1) * source.bucketSpan)
      (by rw [Nat.add_mul]; omega) (by rw [Nat.add_mul]; omega) previous hencodable
    refine ⟨sha256Bytes segment.manifest, ?_, any_isSurrogate_sha256Bytes _⟩
    rw [headDigest_succ hstart, segment_of_ok hprevious hsegment]
    rfl

theorem segment_plain (h : source.Plain) {bucketId : Nat} (hstart : source.start ≤ bucketId)
    (hle : (bucketId + 1) * source.bucketSpan ≤ source.items.length) :
    ∃ segment, source.segment gzip bucketId = some segment := by
  have hspan := source.span_pos
  have hbefore : bucketId * source.bucketSpan < (bucketId + 1) * source.bucketSpan := by
    rw [Nat.add_mul]
    omega
  obtain ⟨previous, hprevious, hencodable⟩ := @headDigest_plain _ gzip source h bucketId hstart
    (by omega)
  obtain ⟨segment, hsegment⟩ := @segmentOf_bucketItems _ gzip source h (source.build bucketId)
    ⟨rfl, rfl, rfl, rfl⟩ bucketId ((bucketId + 1) * source.bucketSpan) hbefore hle previous hencodable
  exact ⟨segment, segment_of_ok hprevious hsegment⟩

end

end IntegrityGuardian.MemoryPlane
