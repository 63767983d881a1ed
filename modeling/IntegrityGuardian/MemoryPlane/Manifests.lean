import IntegrityGuardian.MemoryPlane.Sealing

/-!
# Reading back what was sealed

A manifest is one line of canonical JSON; `manifest_at_bucket` decodes it and
checks the files it names.
-/

namespace IntegrityGuardian.MemoryPlane

open Python Library

theorem readJson_line {value : Json} (hwf : value.wf = true) {bytes : Bytes}
    (h : canonicalBytes value = .ok bytes) : readJson (bytes ++ [10]) = some value.sortKeys := by
  have hline : encodeUtf8 (value.dumps ++ [Json.ch '\n']) = some (bytes ++ [10]) := by
    have hbytes := canonicalBytes_eq_ok.1 h
    unfold encodeUtf8 at hbytes ⊢
    split_ifs at hbytes with hsurrogate
    cases hbytes
    rw [if_neg, List.flatMap_append]
    · rfl
    · rw [List.any_append, Bool.or_eq_true, not_or]
      exact ⟨hsurrogate, by decide⟩
  rw [readJson, decodeUtf8_encodeUtf8 hline, Option.bind_some, Json.dumps,
    Json.loads_render_append (Json.wf_sortKeys hwf) _ (by decide)]
  · rfl
  · intro c tail hc
    cases hc
    exact .inr (.inr (.inr rfl))

theorem wf_setSource {sources : List (Str × Int × Json)} (item : Item)
    (h : ∀ entry ∈ sources, entry.2.2.wf = true) :
    ∀ entry ∈ setSource sources item, entry.2.2.wf = true := by
  intro entry hentry
  unfold setSource at hentry
  split at hentry
  · obtain ⟨old, hold, rfl⟩ := List.mem_map.1 hentry
    split
    · exact item.source_wf
    · exact h old hold
  · rw [List.mem_append, List.mem_singleton] at hentry
    cases hentry with
    | inl hold => exact h entry hold
    | inr hnew =>
      rw [hnew]
      exact item.source_wf

theorem wf_bucketSources (events : List Item) :
    ∀ value ∈ bucketSources events, value.wf = true := by
  have hfold : ∀ (events : List Item) (sources : List (Str × Int × Json)),
      (∀ entry ∈ sources, entry.2.2.wf = true) →
      ∀ entry ∈ events.foldl setSource sources, entry.2.2.wf = true := by
    intro events
    induction events with
    | nil => exact fun _ h => h
    | cons event events ih => exact fun sources h => ih _ (wf_setSource event h)
  intro value hvalue
  obtain ⟨entry, hentry, rfl⟩ := List.mem_map.1 hvalue
  exact hfold events [] (by simp) entry ((List.mem_insertionSort _).1 hentry)

section
variable {build : Build} {bucketId : Nat} {events : List Item} {first last : Item} {payload : Bytes}
  {statistics : Statistics} {previous : Str}

theorem wf_payload (payload : Bytes) : (Json.fields [("sha256", .str (sha256Bytes payload)),
    ("bytes", .int payload.length)]).wf = true := by
  apply Json.wf_fields
  · simp
  · simp [Json.wf]

theorem wf_manifest : (Json.fields (manifestFields build bucketId events first last payload
    statistics previous)).wf = true := by
  have hpayload := wf_payload payload
  have hstatistics : statistics.json.wf = true := by
    apply Json.wf_fields
    · simp
    · simp [Json.wf]
  apply Json.wf_fields
  · rw [manifestFields]
    simp only [List.map_cons, List.map_nil]
    decide
  · simp only [manifestFields, List.forall_mem_cons, Json.wf, Json.wfItems_iff, hpayload, hstatistics]
    simpa using wf_bucketSources events

theorem readJson_manifestBytes {manifest : Bytes}
    (h : manifestBytes build bucketId events first last payload statistics previous =
      .ok manifest) :
    ∃ doc, readJson manifest = some doc ∧ ∀ key,
      doc.get? (str key) = ((manifestFields build bucketId events first last payload statistics
        previous).lookup key).map Json.sortKeys := by
  obtain ⟨bytes, hbytes, hmanifest⟩ := bind_eq_ok.1 h
  cases hmanifest
  refine ⟨_, readJson_line wf_manifest (mapError_eq_ok.1 hbytes), ?_⟩
  intro key
  rw [Json.get?_sortKeys wf_manifest, Json.get?_fields]

end

section
variable [UnicodeData] {gzip : Bytes → Bytes}

/-- What the manifest of a segment says. -/
structure Describes (gzip : Bytes → Bytes) (build : Build) (bucketId : Nat) (events : List Item)
    (segment : Segment) (doc : Json) : Prop where
  read : readJson segment.manifest = some doc
  protocol : doc.get? (str "protocol") = some (.str (protocol ++ str ".manifest"))
  production : doc.get? (str "production_authority") = some (.bool false)
  bucketId : doc.get? (str "bucket_id") = some (.int bucketId)
  firstCursor : doc.get? (str "first_cursor") = events.head?.map fun item => .int item.cursor
  lastCursor : doc.get? (str "last_cursor") = events.getLast?.map fun item => .int item.cursor
  eventCount : doc.get? (str "event_count") = some (.int events.length)
  payload : ∃ files, doc.get? (str "payload") = some files ∧
    files.get? (str "sha256") = some (.str (sha256Bytes segment.payload))

theorem segmentOf_describes {build : Build} {bucketId : Nat} {events : List Item} {previous : Str}
    {segment : Segment} (h : segmentOf gzip build bucketId events previous = .ok segment) :
    (∃ statistics, compactPayload gzip events (build.bucketStart bucketId) =
      .ok (segment.payload, statistics)) ∧ ∃ doc, Describes gzip build bucketId events segment doc := by
  unfold segmentOf at h
  split at h
  · rename_i first last hfirst hlast
    obtain ⟨⟨payload, statistics⟩, hpayload, h⟩ := bind_eq_ok.1 h
    obtain ⟨manifest, hmanifest, h⟩ := bind_eq_ok.1 h
    cases h
    refine ⟨⟨statistics, hpayload⟩, ?_⟩
    obtain ⟨doc, hread, hget⟩ := readJson_manifestBytes hmanifest
    refine ⟨doc, hread, ?_, ?_, ?_, ?_, ?_, ?_, ?_⟩
    · rw [hget]
      rfl
    · rw [hget]
      rfl
    · rw [hget]
      rfl
    · rw [hget, hfirst]
      rfl
    · rw [hget, hlast]
      rfl
    · rw [hget]
      rfl
    · refine ⟨_, by rw [hget]; rfl, ?_⟩
      rw [Json.get?_sortKeys (wf_payload payload), Json.get?_fields]
      rfl
  · cases h

end

end IntegrityGuardian.MemoryPlane
