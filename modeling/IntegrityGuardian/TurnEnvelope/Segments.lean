import IntegrityGuardian.Canonical.Encoding
import IntegrityGuardian.Library.GreedyPacking
import IntegrityGuardian.Python.ByteFrames
import IntegrityGuardian.TurnEnvelope.Envelopes

/-!
# The segments of a prompt

The client splits a prompt with `split_prompt`; the Action Log server takes the list
through `validate_mind_query_segments` and hashes it with `mind_query_segments_digest`
of `codex_action_log.py`.
-/

namespace IntegrityGuardian.TurnEnvelope

open Python Library
open Python.Json (ch)

/-! ## The server -/

def mindQueryMaxSegments : Nat := 65
def mindQueryMaxSegmentBytes : Nat := 4096
def mindQueryMaxUtf8Bytes : Nat := 262144

/-- What `validate_mind_query_segments` raises. -/
inductive QueryError where
  | typeError (message : Str)
  | valueError (message : Str)
  | unicodeEncodeError
  deriving DecidableEq

/-- `f"q_segments[{index}] …"`. -/
def atIndex (index : Nat) (message : String) : Str :=
  str "q_segments[" ++ Json.decimal index ++ str "] " ++ str message

/-- One round of the loop: the segment and the octets counted so far. -/
def querySegment (index total : Nat) (item : Json) : Except QueryError (Str × Nat) :=
  match item with
  | .str s => do
    ensure (s ≠ []) (.valueError (atIndex index "must be nonempty"))
    match encodeUtf8 s with
    | none => .error .unicodeEncodeError
    | some encoded => do
      ensure (encoded.length ≤ mindQueryMaxSegmentBytes)
        (.valueError (atIndex index "exceeds the 4096-byte UTF-8 limit"))
      ensure (total + encoded.length ≤ mindQueryMaxUtf8Bytes)
        (.valueError (str "q_segments exceeds the 262144-byte UTF-8 limit"))
      .ok (s, total + encoded.length)
  | _ => .error (.typeError (atIndex index "must be a string"))

/-- The loop over the items from `index` on. -/
def querySegments : Nat → Nat → List Json → Except QueryError (List Str)
  | _, _, [] => .ok []
  | index, total, item :: items => do
    let (s, total) ← querySegment index total item
    let segments ← querySegments (index + 1) total items
    .ok (s :: segments)

/-- `validate_mind_query_segments`. -/
def validateMindQuerySegments (value : Json) : Except QueryError (List Str) :=
  match value with
  | .arr items => do
    ensure (items ≠ []) (.valueError (str "q_segments must contain at least one segment"))
    ensure (items.length ≤ mindQueryMaxSegments)
      (.valueError (str "q_segments exceeds the 65-segment limit"))
    let segments ← querySegments 0 0 items
    ensure (Str.strip segments.flatten ≠ [])
      (.valueError (str "q_segments must contain a non-whitespace query"))
    .ok segments
  | _ => .error (.typeError (str "q_segments must be a JSON array of nonempty strings"))

/-- `b"integrity.action-log.q-segments/v1\0"`. -/
def segmentsDomain : Bytes :=
  (str "integrity.action-log.q-segments/v1").flatMap utf8Octets ++ [0]

/-- The octets a segment adds to the digest. -/
def segmentMaterial (segment : Str) : Except Exc Bytes :=
  match encodeUtf8 segment with
  | none => .error .unicodeEncodeError
  | some encoded => do
    ensure (encoded.length < 256 ^ 8) .overflowError
    .ok (lengthFrame 8 encoded)

/-- What `mind_query_segments_digest` hashes. -/
def segmentsMaterial (segments : List Str) : Except Exc Bytes := do
  let materials ← segments.mapM segmentMaterial
  .ok (segmentsDomain ++ materials.flatten)

/-- `mind_query_segments_digest`. -/
def mindQuerySegmentsDigest (segments : List Str) : Except Exc Str := do
  let material ← segmentsMaterial segments
  .ok (str "sha256:" ++ hex (sha256 material))

/-! ## The client -/

/-- The octets of one character. -/
def charSize (c : CodePoint) : Nat := (utf8Octets c).length

theorem charSize_pos (c : CodePoint) : 0 < charSize c :=
  List.length_pos_of_ne_nil (utf8Octets_ne_nil c)

theorem charSize_le (c : CodePoint) : charSize c ≤ 4 := by
  unfold charSize utf8Octets
  split_ifs <;> simp

theorem packSize_charSize (s : Str) : packSize charSize s = (s.flatMap utf8Octets).length := by
  rw [packSize, List.length_flatMap]
  rfl

theorem splitLoop_eq_pack (maximumBytes : Nat) (prompt current : Str) (currentBytes : Nat) :
    splitLoop maximumBytes prompt current currentBytes =
      pack charSize maximumBytes prompt current currentBytes := by
  fun_induction splitLoop maximumBytes prompt current currentBytes with
  | case1 => rw [pack, if_pos rfl]
  | case2 current used hne => rw [pack, if_neg hne]
  | case3 c rest current used size hfull ih =>
    rw [pack, ih]
    exact (if_pos hfull).symm
  | case4 c rest current used size hfits ih =>
    rw [pack, ih]
    exact (if_neg hfits).symm

variable {material raw : Bytes} {segments : List Str} {prompt s : Str}

theorem encodeUtf8_eq_some : encodeUtf8 s = some raw ↔
      s.any CodePoint.isSurrogate = false ∧ s.flatMap utf8Octets = raw := by
  rw [encodeUtf8, Option.ite_none_left_eq_some, Option.some.injEq, Bool.not_eq_true]

theorem ne_nil_of_strip (h : s.strip ≠ []) : s ≠ [] := by
  rintro rfl
  exact h rfl

/-- The segments of a prompt: what `split_prompt` returns for one within the bound. -/
structure Segmented (prompt : Str) (segments : List Str) : Prop where
  whole : segments.flatten = prompt
  nonempty : ∀ segment ∈ segments, segment ≠ []
  bounded : ∀ segment ∈ segments, (segment.flatMap utf8Octets).length ≤ segmentBytes
  positive : 1 ≤ segments.length
  few : segments.length ≤ mindQueryMaxSegments

theorem segmented_splitLoop (hprompt : prompt ≠ [])
    (hbytes : (prompt.flatMap utf8Octets).length ≤ maxPromptBytes) :
    Segmented prompt (splitLoop segmentBytes prompt [] 0) := by
  rw [splitLoop_eq_pack]
  have hwhole : (pack charSize segmentBytes prompt [] 0).flatten = prompt :=
    pack_flatten prompt [] 0
  have hlength : ((pack charSize segmentBytes prompt [] 0).length - 1) * (segmentBytes + 1 - 4) <
      packSize charSize ([] ++ prompt) :=
    pack_length charSize_le charSize_pos rfl hprompt
  rw [List.nil_append, packSize_charSize] at hlength
  refine ⟨hwhole, pack_ne_nil, ?_, ?_, ?_⟩
  · intro segment hsegment
    rw [← packSize_charSize]
    apply pack_fits _ rfl (Nat.zero_le _) segment hsegment
    intro c
    exact (charSize_le c).trans (by decide)
  · rw [Nat.one_le_iff_ne_zero, Ne, List.length_eq_zero_iff]
    intro hnil
    rw [hnil] at hwhole
    exact hprompt hwhole.symm
  · -- 65 segments but the last hold 4093 octets each, and that is more than the prompt has
    simp only [segmentBytes, maxPromptBytes, mindQueryMaxSegments] at *
    omega

theorem splitPrompt_eq_ok (hblank : prompt.strip ≠ [])
    (hraw : encodeUtf8 prompt = some raw) (hbytes : raw.length ≤ maxPromptBytes) :
    ∃ segments, splitPrompt prompt = .ok segments ∧ Segmented prompt segments := by
  obtain ⟨hsurrogates, rfl⟩ := encodeUtf8_eq_some.1 hraw
  have hsegmented := segmented_splitLoop (ne_nil_of_strip hblank) hbytes
  refine ⟨_, ?_, hsegmented⟩
  refine ensure_bind_eq_ok.2 ⟨hblank, ensure_bind_eq_ok.2 ⟨hsurrogates, ?_⟩⟩
  refine ensure_bind_eq_ok.2 ⟨⟨?_, hsegmented.whole⟩, rfl⟩
  exact List.length_pos_iff.1 hsegmented.positive

theorem isHexDigest_sha256Bytes (raw : Bytes) : isHexDigest (sha256Bytes raw) = true := by
  have hlength : (sha256Bytes raw).length = 64 := by
    rw [sha256Bytes, length_hex, length_sha256]
  rw [isHexDigest, hlength, Bool.and_eq_true, decide_eq_true_eq, List.all_eq_true]
  exact ⟨rfl, fun c hc => isLowerHex_of_mem_hex hc⟩

theorem validateCommon_staged {vault : Vault} {machineId threadId turnId turnRef : Str}
    {generation now : Int} {value : Envelope}
    (h : stagedEnvelope vault prompt machineId threadId turnId generation now turnRef =
      .ok value) : validateCommon value turnRef = .ok () := by
  unfold stagedEnvelope at h
  obtain ⟨hblank, h⟩ := ensure_bind_eq_ok.1 h
  cases hraw : encodeUtf8 prompt with
  | none => simp [hraw] at h
  | some raw =>
    rw [hraw] at h
    obtain ⟨hbytes, h⟩ := ensure_bind_eq_ok.1 h
    obtain ⟨hgeneration, h⟩ := ensure_bind_eq_ok.1 h
    obtain ⟨segments, hsegments, h⟩ := bind_eq_ok.1 h
    obtain ⟨⟨encoding, payload⟩, -, h⟩ := bind_eq_ok.1 h
    obtain ⟨digest, hdigest, h⟩ := bind_eq_ok.1 h
    obtain ⟨machine, -, h⟩ := bind_eq_ok.1 h
    obtain ⟨thread, -, h⟩ := bind_eq_ok.1 h
    obtain ⟨turn, -, h⟩ := bind_eq_ok.1 h
    obtain ⟨expires, -, h⟩ := bind_eq_ok.1 h
    cases h
    obtain ⟨segments', hsegments', hsegmented⟩ := splitPrompt_eq_ok hblank hraw hbytes
    rw [hsegments'] at hsegments
    cases hsegments
    have hraw0 : 1 ≤ raw.length := by
      obtain ⟨-, rfl⟩ := encodeUtf8_eq_some.1 hraw
      have hlength := length_le_flatMap_utf8Octets prompt
      have hpos := List.length_pos_of_ne_nil (ne_nil_of_strip hblank)
      omega
    unfold validateCommon
    refine bind_eq_ok.2 ⟨digest, hdigest, ensure_bind_eq_ok.2 ⟨rfl, ?_⟩⟩
    refine ensure_bind_eq_ok.2 ⟨isHexDigest_sha256Bytes raw, ?_⟩
    exact ensure_eq_ok.2 ⟨hraw0, hbytes, hsegmented.positive, hsegmented.few, hgeneration⟩

/-! ## From the client to the server -/

theorem querySegments_ok {index total : Nat} (hnonempty : ∀ segment ∈ segments, segment ≠ [])
    (hencodable : ∀ segment ∈ segments, segment.any CodePoint.isSurrogate = false)
    (hbounded : ∀ segment ∈ segments,
      (segment.flatMap utf8Octets).length ≤ mindQueryMaxSegmentBytes)
    (htotal : total + (segments.flatten.flatMap utf8Octets).length ≤ mindQueryMaxUtf8Bytes) :
    querySegments index total (segments.map Json.str) = .ok segments := by
  induction segments generalizing index total with
  | nil => rfl
  | cons s segments ih =>
    have hs : encodeUtf8 s = some (s.flatMap utf8Octets) :=
      encodeUtf8_eq_some.2 ⟨hencodable s List.mem_cons_self, rfl⟩
    rw [List.flatten_cons, List.flatMap_append, List.length_append] at htotal
    have hone : querySegment index total (.str s) =
        .ok (s, total + (s.flatMap utf8Octets).length) := by
      rw [querySegment, hs]
      refine ensure_bind_eq_ok.2 ⟨hnonempty s List.mem_cons_self, ?_⟩
      refine ensure_bind_eq_ok.2 ⟨hbounded s List.mem_cons_self, ?_⟩
      exact ensure_bind_eq_ok.2 ⟨by omega, rfl⟩
    rw [List.map_cons, querySegments, hone, ok_bind]
    refine bind_eq_ok.2 ⟨segments, ?_, rfl⟩
    exact ih (fun t ht => hnonempty t (List.mem_cons_of_mem s ht))
      (fun t ht => hencodable t (List.mem_cons_of_mem s ht))
      (fun t ht => hbounded t (List.mem_cons_of_mem s ht)) (by omega)

theorem Segmented.accepted (h : Segmented prompt segments)
    (hblank : prompt.strip ≠ []) (hraw : encodeUtf8 prompt = some raw)
    (hbytes : raw.length ≤ maxPromptBytes) :
    validateMindQuerySegments (.arr (segments.map .str)) = .ok segments := by
  obtain ⟨hsurrogates, rfl⟩ := encodeUtf8_eq_some.1 hraw
  have hencodable : ∀ segment ∈ segments, segment.any CodePoint.isSurrogate = false := by
    intro segment hsegment
    rw [List.any_eq_false] at hsurrogates ⊢
    intro c hc
    apply hsurrogates c
    rw [← h.whole]
    exact List.mem_flatten_of_mem hsegment hc
  have hnonempty : segments.map Json.str ≠ [] := by
    rw [Ne, List.map_eq_nil_iff]
    exact List.length_pos_iff.1 h.positive
  refine ensure_bind_eq_ok.2 ⟨hnonempty, ?_⟩
  refine ensure_bind_eq_ok.2 ⟨by rw [List.length_map]; exact h.few, ?_⟩
  refine bind_eq_ok.2 ⟨segments, ?_, ?_⟩
  · apply querySegments_ok h.nonempty hencodable h.bounded
    rw [h.whole, Nat.zero_add]
    exact hbytes
  · rw [h.whole]
    exact ensure_bind_eq_ok.2 ⟨hblank, rfl⟩

/-! ## The digest -/

theorem segmentMaterial_eq_ok {segment : Str} : segmentMaterial segment = .ok material ↔
      segment.any CodePoint.isSurrogate = false ∧
      (segment.flatMap utf8Octets).length < 256 ^ 8 ∧
      material = lengthFrame 8 (segment.flatMap utf8Octets) := by
  unfold segmentMaterial
  cases hraw : encodeUtf8 segment with
  | none =>
    simp only [reduceCtorEq, false_iff]
    rintro ⟨hencodable, -⟩
    rw [encodeUtf8_eq_some.2 ⟨hencodable, rfl⟩] at hraw
    cases hraw
  | some raw =>
    obtain ⟨hencodable, rfl⟩ := encodeUtf8_eq_some.1 hraw
    rw [ensure_bind_eq_ok, Except.ok.injEq, eq_comm]
    exact ⟨fun h => ⟨hencodable, h⟩, fun h => h.2⟩

theorem segmentsMaterial_eq_ok (h : segmentsMaterial segments = .ok material) :
    (∀ segment ∈ segments, (segment.flatMap utf8Octets).length < 256 ^ 8) ∧
      material = segmentsDomain ++
        (segments.map fun s => s.flatMap utf8Octets).flatMap (lengthFrame 8) := by
  obtain ⟨materials, hmaterials, h⟩ := bind_eq_ok.1 h
  cases h
  rw [mapM_eq_ok] at hmaterials
  clear h
  induction hmaterials with
  | nil => simp
  | cons hone _ ih =>
    obtain ⟨-, hlength, rfl⟩ := segmentMaterial_eq_ok.1 hone
    obtain ⟨hlengths, hrest⟩ := ih
    refine ⟨?_, ?_⟩
    · intro segment hsegment
      rcases List.mem_cons.1 hsegment with rfl | hsegment
      · exact hlength
      · exact hlengths segment hsegment
    · rw [List.flatten_cons, List.map_cons, List.flatMap_cons, List.append_cancel_left hrest]

theorem segmentsMaterial_inj {segments' : List Str} (h : segmentsMaterial segments = .ok material)
    (h' : segmentsMaterial segments' = .ok material) : segments = segments' := by
  obtain ⟨hlengths, rfl⟩ := segmentsMaterial_eq_ok h
  obtain ⟨hlengths', hsame⟩ := segmentsMaterial_eq_ok h'
  have hencoded := flatMap_lengthFrame_inj (by omega) (by simpa using hlengths)
    (by simpa using hlengths') (List.append_cancel_left hsame)
  exact List.map_injective_iff.2 (fun _ _ => flatMap_utf8Octets_injective) hencoded

/-! ## The guarantee -/

/-- Every prompt that can be staged can be delivered, and its digest names it. -/
theorem every_staged_prompt_deliverable {prompt : Str} (hblank : prompt.strip ≠ [])
    {raw : Bytes} (hraw : encodeUtf8 prompt = some raw) (hbytes : raw.length ≤ maxPromptBytes) :
    (∃ segments, splitPrompt prompt = .ok segments ∧ segments.flatten = prompt ∧
      (∀ segment ∈ segments, segment ≠ [] ∧ (segment.flatMap utf8Octets).length ≤ 4096) ∧
      segments.length ≤ 65 ∧
      validateMindQuerySegments (.arr (segments.map .str)) = .ok segments) ∧
    (∀ vault machineId threadId turnId generation now turnRef value,
      stagedEnvelope vault prompt machineId threadId turnId generation now turnRef = .ok value →
        validateCommon value turnRef = .ok ()) ∧
    ∀ segments segments' material, segmentsMaterial segments = .ok material →
      segmentsMaterial segments' = .ok material → segments = segments' := by
  obtain ⟨segments, hsegments, hsegmented⟩ := splitPrompt_eq_ok hblank hraw hbytes
  refine ⟨⟨segments, hsegments, hsegmented.whole, ?_, hsegmented.few, ?_⟩, ?_, ?_⟩
  · intro segment hsegment
    exact ⟨hsegmented.nonempty segment hsegment, hsegmented.bounded segment hsegment⟩
  · exact hsegmented.accepted hblank hraw hbytes
  · intro _ _ _ _ _ _ _ _ h
    exact validateCommon_staged h
  · intro _ _ _ h h'
    exact segmentsMaterial_inj h h'

/-- A short prompt is delivered in one segment. -/
theorem short_prompt_deliverable :
    splitPrompt (str "status?") = .ok [str "status?"] ∧
      validateMindQuerySegments (.arr [.str (str "status?")]) = .ok [str "status?"] := by
  have hsplit : splitPrompt (str "status?") = .ok [str "status?"] := by decide
  obtain ⟨⟨segments, hsegments, -, -, -, haccepted⟩, -⟩ :=
    @every_staged_prompt_deliverable (str "status?") (by decide) _ rfl (by decide)
  rw [hsplit] at hsegments
  cases hsegments
  exact ⟨hsplit, haccepted⟩

end IntegrityGuardian.TurnEnvelope
