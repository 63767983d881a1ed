import IntegrityGuardian.Ledger.Store
import IntegrityGuardian.Library.SnapshotLoop

/-!
# What a retained checkpoint pins

Two tables, whoever wrote them, that verify against one checkpoint hold the same
events in the same order.  The only assumption is that no two of the messages
the two verifications hash have the same SHA-256 value: event frames, leaves and
inner nodes of the two trees.
-/

namespace IntegrityGuardian.Ledger

open Python Library

/-! ## The hashed messages -/

/-- The bytes `event_digest` hashes. -/
def eventFrame (event : Json) : Option Bytes :=
  match canonicalBytes event with
  | .ok b => some (digestPrefix (str "ledger-event-v1") ++ b)
  | .error _ => none

/-- The bytes hashed for the event of a row. -/
def rowFrame (row : StoredRow) : Option Bytes := (readEvent row).toOption.bind eventFrame

def eventFrames (table : List StoredRow) : List Bytes := (storedOrder table).filterMap rowFrame

/-- The bytes `_leaf_hash` hashes. -/
def leafFrame (digest : Str) : Bytes := leafPrefix ++ digest.map fun c => UInt8.ofNat c.val

/-- The bytes `_node_hash` hashes. -/
def nodeFrame (pair : Bytes × Bytes) : Bytes := nodePrefix ++ pair.1 ++ pair.2

/-- The event digests of a table, in ledger order. -/
def tableDigests (table : List StoredRow) : List Str := (eventFrames table).map sha256Digest

/-- Every message that the digests and the Merkle root of a table hash. -/
def hashedMessages (table : List StoredRow) : List Bytes :=
  eventFrames table ++ (tableDigests table).map leafFrame
    ++ (PromotedMerkle.treePairs nodeHash (tableDigests table).length
      ((tableDigests table).map asciiLeafHash)).map nodeFrame

/-! ## Frames determine what they frame -/

theorem eq_of_map_eq {α β : Type} {f : α → β} {S : Set α} (hf : Set.InjOn f S) {xs ys : List α}
    (hxs : ∀ x ∈ xs, x ∈ S) (hys : ∀ y ∈ ys, y ∈ S) (h : xs.map f = ys.map f) : xs = ys := by
  induction xs generalizing ys with
  | nil => exact (List.map_eq_nil_iff.1 h.symm).symm
  | cons x xs ih =>
    cases ys with
    | nil => cases h
    | cons y ys =>
      obtain ⟨hhead, htail⟩ := List.cons.inj h
      have hx := List.forall_mem_cons.1 hxs
      have hy := List.forall_mem_cons.1 hys
      rw [hf hx.1 hy.1 hhead, ih hx.2 hy.2 htail]

theorem sha256Digest_ascii (payload : Bytes) :
    ∀ c ∈ sha256Digest payload, c.val < 0x80 := by
  have hall := isDigest_ascii (isDigest_hashText (length_sha256 payload))
  intro c hc
  simpa using List.all_eq_true.1 hall c hc

theorem leafFrame_injOn : Set.InjOn leafFrame {d | ∀ c ∈ d, c.val < 0x80} := by
  intro d hd e he h
  have hchar : Set.InjOn (fun c : CodePoint => UInt8.ofNat c.val) {c | c.val < 0x80} := by
    intro a ha b hb hab
    have hval := congrArg UInt8.toNat hab
    simp only [UInt8.toNat_ofNat'] at hval
    change a.val < 0x80 at ha
    change b.val < 0x80 at hb
    apply Fin.ext
    omega
  exact eq_of_map_eq hchar hd he (List.append_cancel_left h)

theorem nodeFrame_injOn :
    Set.InjOn nodeFrame {p | p.1.length = 32 ∧ p.2.length = 32} := by
  rintro ⟨a, b⟩ ⟨ha, -⟩ ⟨c, d⟩ ⟨hc, -⟩ h
  simp only [nodeFrame, List.append_assoc] at h
  obtain ⟨rfl, rfl⟩ := List.append_inj (List.append_cancel_left h) (ha.trans hc.symm)
  rfl

/-! ## What a verified row attests -/

/-- The row holds an event with this frame, and its columns are the event's. -/
structure Attests (row : StoredRow) (frame : Bytes) : Prop where
  event : ∃ event b fields, readEvent row = .ok event ∧ canonicalBytes event = .ok b ∧
    frame = digestPrefix (str "ledger-event-v1") ++ b ∧ readFields event = .ok fields ∧
    row.tenantId = .text fields.tenantId ∧ row.sourceId = .text fields.sourceId ∧
    row.sourceSequence.equalsInt fields.sourceSequence = true ∧
    row.previousEventDigest = .ofOptionalText fields.previousEventDigest
  digest : row.eventDigest = .text (sha256Digest frame)

theorem Attests.rowFrame_eq {row : StoredRow} {frame : Bytes} (h : Attests row frame) :
    rowFrame row = some frame := by
  obtain ⟨event, b, -, hread, hbytes, rfl, -⟩ := h.event
  simp only [rowFrame, hread, Except.toOption, Option.bind, eventFrame, hbytes]

theorem filterMap_rowFrame {rows : List StoredRow} {frames : List Bytes}
    (h : List.Forall₂ Attests rows frames) : rows.filterMap rowFrame = frames := by
  induction h with
  | nil => rfl
  | cons hattests _ ih => rw [List.filterMap_cons, hattests.rowFrame_eq, ih]

section
variable [UnicodeData]

theorem attests_of_replayRow {tenantId : Str} {s s' : Replay} {row : StoredRow} {event : Json}
    (h : replayRow tenantId s row = .ok (event, s')) :
    ∃ frame, Attests row frame ∧ s'.reconstructed = s.reconstructed ++ [sha256Digest frame] := by
  unfold replayRow raising checkIndexed at h
  obtain ⟨event', hread, h⟩ := bind_eq_ok.1 h
  obtain ⟨calculated, hdigest, h⟩ := bind_eq_ok.1 h
  obtain ⟨hcolumn, h⟩ := ensure_bind_eq_ok.1 h
  obtain ⟨fields, hfields, h⟩ := bind_eq_ok.1 h
  obtain ⟨htenant, h⟩ := ensure_bind_eq_ok.1 h
  obtain ⟨hsource, h⟩ := ensure_bind_eq_ok.1 h
  obtain ⟨hsequence, h⟩ := ensure_bind_eq_ok.1 h
  obtain ⟨hprevious, h⟩ := ensure_bind_eq_ok.1 h
  obtain ⟨-, h⟩ := ensure_bind_eq_ok.1 h
  obtain ⟨_, _, h⟩ := bind_eq_ok.1 h
  obtain ⟨-, h⟩ := ensure_bind_eq_ok.1 h
  obtain ⟨-, h⟩ := ensure_bind_eq_ok.1 h
  obtain ⟨-, h⟩ := ensure_bind_eq_ok.1 h
  cases h
  rw [mapError_eq_ok] at hdigest hfields
  obtain ⟨b, hbytes, rfl⟩ := digestObject_eq_ok hdigest
  refine ⟨_, ⟨⟨event, b, fields, hread, hbytes, rfl, hfields, of_decide_eq_true htenant,
    of_decide_eq_true hsource, hsequence, of_decide_eq_true hprevious⟩, hcolumn⟩, rfl⟩

variable [Ed25519]

variable {ledger : Identity} {checkpoint : Json} {checkpointKey : Option TrustedKey}
  {sourcePublicKeys : Str → Option TrustedKey}

/-- Every row the loop of `verify` passes attests its event, and the digests of
the events are what the loop reconstructs. -/
theorem attests_of_loop {tenantId : Str} {rows : List StoredRow} {s s' : Replay}
    (h : rows.foldlM (verifyRow tenantId sourcePublicKeys) s = .ok s') :
    ∃ frames, List.Forall₂ Attests rows frames ∧
      s'.reconstructed = s.reconstructed ++ frames.map sha256Digest := by
  induction rows generalizing s with
  | nil =>
    cases h
    exact ⟨[], List.Forall₂.nil, by simp⟩
  | cons row rows ih =>
    rw [List.foldlM_cons] at h
    obtain ⟨mid, hrow, h⟩ := bind_eq_ok.1 h
    unfold verifyRow at hrow
    obtain ⟨⟨event, mid'⟩, hreplay, hrow⟩ := bind_eq_ok.1 hrow
    obtain ⟨⟨⟩, -, hrow⟩ := bind_eq_ok.1 hrow
    cases hrow
    obtain ⟨frame, hattests, hmid⟩ := attests_of_replayRow hreplay
    obtain ⟨frames, hframes, hlast⟩ := ih h
    refine ⟨frame :: frames, List.Forall₂.cons hattests hframes, ?_⟩
    rw [hlast, hmid]
    simp

omit [UnicodeData] in
theorem root_of_verifyCheckpoint {reconstructed : List Str}
    (h : verifyCheckpoint ledger reconstructed checkpoint checkpointKey = .ok ()) :
    ∃ root, checkpoint.intItem (str "tree_size") = .ok reconstructed.length ∧
      checkpoint.textItem (str "root_digest") = .ok root ∧
      merkleRoot reconstructed = .ok root := by
  unfold verifyCheckpoint raising at h
  cases checkpointKey with
  | none => cases h
  | some key =>
    simp only at h
    obtain ⟨_, _, h⟩ := bind_eq_ok.1 h
    obtain ⟨-, h⟩ := ensure_bind_eq_ok.1 h
    obtain ⟨_, _, h⟩ := bind_eq_ok.1 h
    obtain ⟨_, _, h⟩ := bind_eq_ok.1 h
    obtain ⟨-, h⟩ := ensure_bind_eq_ok.1 h
    obtain ⟨_, _, h⟩ := bind_eq_ok.1 h
    obtain ⟨-, h⟩ := ensure_bind_eq_ok.1 h
    obtain ⟨_, _, h⟩ := bind_eq_ok.1 h
    obtain ⟨_, _, h⟩ := bind_eq_ok.1 h
    obtain ⟨-, h⟩ := ensure_bind_eq_ok.1 h
    obtain ⟨_, _, h⟩ := bind_eq_ok.1 h
    obtain ⟨-, h⟩ := ensure_bind_eq_ok.1 h
    obtain ⟨treeSize, hsize, h⟩ := bind_eq_ok.1 h
    obtain ⟨heq, h⟩ := ensure_bind_eq_ok.1 h
    obtain ⟨-, h⟩ := ensure_bind_eq_ok.1 h
    obtain ⟨rootDigest, hrootDigest, h⟩ := bind_eq_ok.1 h
    obtain ⟨root, hroot, h⟩ := bind_eq_ok.1 h
    obtain ⟨hsame, -⟩ := ensure_bind_eq_ok.1 h
    rw [mapError_eq_ok] at hsize hrootDigest hroot
    exact ⟨root, heq ▸ hsize, hsame ▸ hrootDigest, hroot⟩

theorem attests_of_verify {table : List StoredRow} {report : Verification}
    (h : verify ledger table sourcePublicKeys (some checkpoint) checkpointKey = .ok report) :
    List.Forall₂ Attests (storedOrder table) (eventFrames table) ∧
      ∃ root, checkpoint.intItem (str "tree_size") = .ok (tableDigests table).length ∧
        checkpoint.textItem (str "root_digest") = .ok root ∧
        merkleRoot (tableDigests table) = .ok root := by
  unfold verify at h
  obtain ⟨s, hloop, h⟩ := bind_eq_ok.1 h
  obtain ⟨⟨⟩, hcheckpoint, -⟩ := bind_eq_ok.1 h
  obtain ⟨frames, hframes, hreconstructed⟩ := attests_of_loop hloop
  have hfilter : eventFrames table = frames := filterMap_rowFrame hframes
  have hdigests : s.reconstructed = tableDigests table := by
    rw [hreconstructed, tableDigests, hfilter]
    rfl
  rw [hdigests] at hcheckpoint
  rw [hfilter]
  exact ⟨hframes, root_of_verifyCheckpoint hcheckpoint⟩

end

/-! ## Equal roots -/

theorem wf_of_readEvent {row : StoredRow} {event : Json} (h : readEvent row = .ok event) :
    parseColumn row.eventJson = some event ∧ event.wf = true := by
  unfold readEvent at h
  cases hparse : parseColumn row.eventJson with
  | none => simp [hparse] at h
  | some v =>
    simp only [hparse] at h
    obtain ⟨-, h⟩ := ensure_bind_eq_ok.1 h
    cases h
    refine ⟨rfl, ?_⟩
    cases hcolumn : row.eventJson with
    | blob b =>
      rw [hcolumn, parseColumn] at hparse
      cases hloads : parseJsonStrict b with
      | error e => simp [hloads, Except.toOption] at hparse
      | ok v =>
        simp only [hloads, Except.toOption, Option.some.injEq] at hparse
        exact hparse ▸ Json.loadsBytes_wf hloads
    | text s =>
      rw [hcolumn, parseColumn] at hparse
      cases hloads : parseJsonStrictText s with
      | error e => simp [hloads, Except.toOption] at hparse
      | ok v =>
        simp only [hloads, Except.toOption, Option.some.injEq] at hparse
        exact hparse ▸ Json.loads_wf hloads
    | _ => simp [hcolumn, parseColumn] at hparse

variable {root : Str}

theorem root_of_merkleRoot {digests : List Str}
    (hascii : ∀ d ∈ digests, ∀ c ∈ d, c.val < 0x80) (h : merkleRoot digests = .ok root) :
    ∃ node, PromotedMerkle.root nodeHash digests.length (digests.map asciiLeafHash) = some node ∧
      root = hashText node := by
  have hmapM := mapM_leafHash fun d hd => List.all_eq_true.2 fun c hc => by
    simpa using hascii d hd c hc
  unfold merkleRoot at h
  rw [hmapM, ok_bind, List.length_map] at h
  cases hroot : PromotedMerkle.root nodeHash digests.length (digests.map asciiLeafHash) with
  | none => simp [hroot] at h
  | some node =>
    simp only [hroot, Except.ok.injEq] at h
    exact ⟨node, rfl, h.symm⟩

/-- Two lists of event frames of one length and one root are equal, if nothing
hashed on the way collides. -/
theorem frames_eq_of_root_eq {frames₁ frames₂ : List Bytes} {M : Set Bytes}
    (hM : Set.InjOn sha256 M) (hframes : ∀ m, m ∈ frames₁ ∨ m ∈ frames₂ → m ∈ M)
    (hleaves : ∀ m, m ∈ frames₁ ∨ m ∈ frames₂ → leafFrame (sha256Digest m) ∈ M)
    (hnodes₁ : ∀ p ∈ PromotedMerkle.treePairs nodeHash (frames₁.map sha256Digest).length
      ((frames₁.map sha256Digest).map asciiLeafHash), nodeFrame p ∈ M)
    (hnodes₂ : ∀ p ∈ PromotedMerkle.treePairs nodeHash (frames₂.map sha256Digest).length
      ((frames₂.map sha256Digest).map asciiLeafHash), nodeFrame p ∈ M)
    (hlength : (frames₁.map sha256Digest).length = (frames₂.map sha256Digest).length)
    (h₁ : merkleRoot (frames₁.map sha256Digest) = .ok root)
    (h₂ : merkleRoot (frames₂.map sha256Digest) = .ok root) : frames₁ = frames₂ := by
  have hascii : ∀ frames : List Bytes, ∀ d ∈ frames.map sha256Digest, ∀ c ∈ d, c.val < 0x80 := by
    intro frames d hd
    obtain ⟨m, -, rfl⟩ := List.mem_map.1 hd
    exact sha256Digest_ascii m
  obtain ⟨node₁, htree₁, hnode₁⟩ := root_of_merkleRoot (hascii frames₁) h₁
  obtain ⟨node₂, htree₂, hnode₂⟩ := root_of_merkleRoot (hascii frames₂) h₂
  have hnode : node₂ = node₁ := hashText_injective (hnode₂.symm.trans hnode₁)
  rw [← hlength] at htree₂ hnodes₂
  rw [hnode] at htree₂
  -- inner nodes: pairs of 32-byte hashes are determined by their frame
  have hpairs : Set.InjOn (Function.uncurry nodeHash)
      {p | nodeFrame p ∈ M ∧ p.1.length = 32 ∧ p.2.length = 32} := by
    intro p hp q hq hpq
    exact nodeFrame_injOn hp.2 hq.2 (hM hp.1 hq.1 hpq)
  have hlengths : ∀ (digests : List Str) (fuel : Nat),
      ∀ p ∈ PromotedMerkle.treePairs nodeHash fuel (digests.map asciiLeafHash),
        p.1.length = 32 ∧ p.2.length = 32 := fun digests fuel =>
    PromotedMerkle.treePairs_satisfies (P := fun x : Bytes => x.length = 32) length_nodeHash
      (fun _ => length_of_mem_leaves)
  have hleafHashes := PromotedMerkle.eq_of_root_eq nodeHash hpairs
    (fun p hp => ⟨hnodes₁ p hp, hlengths _ _ p hp⟩) (fun p hp => ⟨hnodes₂ p hp, hlengths _ _ p hp⟩)
    (by simpa using hlength) htree₁ htree₂
  -- leaves: a leaf frame determines its digest, and a digest its event frame
  rw [List.map_map, List.map_map] at hleafHashes
  have hinj : Set.InjOn (asciiLeafHash ∘ sha256Digest) {m | m ∈ frames₁ ∨ m ∈ frames₂} := by
    intro m hm n hn hmn
    have hframe := hM (hleaves m hm) (hleaves n hn) hmn
    have hdigest := leafFrame_injOn (sha256Digest_ascii m) (sha256Digest_ascii n) hframe
    exact hM (hframes m hm) (hframes n hn) (sha256Digest_inj hdigest)
  exact eq_of_map_eq hinj (fun m hm => Or.inl hm) (fun m hm => Or.inr hm) hleafHashes

/-! ## The pinned table -/

/-- Rows that hold the same event, whatever its bytes, with the same columns. -/
structure SameRow (a b : StoredRow) : Prop where
  event : ∃ v w, parseColumn a.eventJson = some v ∧ parseColumn b.eventJson = some w ∧
    v.sortKeys = w.sortKeys
  eventDigest : a.eventDigest = b.eventDigest
  tenantId : a.tenantId = b.tenantId
  sourceId : a.sourceId = b.sourceId
  /-- Both columns hold this number, as an `INTEGER` or as the `REAL` equal to it. -/
  sourceSequence : ∃ n, a.sourceSequence.equalsInt n = true ∧ b.sourceSequence.equalsInt n = true
  previousEventDigest : a.previousEventDigest = b.previousEventDigest

theorem sameRow_of_attests {a b : StoredRow} {frame : Bytes} (ha : Attests a frame)
    (hb : Attests b frame) : SameRow a b := by
  obtain ⟨v, bytes, fields, hreadv, hbytesv, rfl, hfieldsv, htenant, hsource, hsequence,
    hprevious⟩ := ha.event
  obtain ⟨w, bytes', fields', hreadw, hbytesw, hframe, hfieldsw, htenant', hsource', hsequence',
    hprevious'⟩ := hb.event
  have hsame : bytes = bytes' := List.append_cancel_left hframe
  rw [← hsame] at hbytesw
  obtain ⟨hparsev, hwfv⟩ := wf_of_readEvent hreadv
  obtain ⟨hparsew, hwfw⟩ := wf_of_readEvent hreadw
  have hsorted := sortKeys_eq_of_canonicalBytes_eq hwfv hwfw hbytesv hbytesw
  have hfields : fields = fields' := by
    rw [← readFields_sortKeys hwfv, hsorted, readFields_sortKeys hwfw, hfieldsw] at hfieldsv
    exact (Except.ok.inj hfieldsv).symm
  rw [← hfields] at htenant' hsource' hsequence' hprevious'
  exact {
    event := ⟨v, w, hparsev, hparsew, hsorted⟩
    eventDigest := ha.digest.trans hb.digest.symm
    tenantId := htenant.trans htenant'.symm
    sourceId := hsource.trans hsource'.symm
    sourceSequence := ⟨_, hsequence, hsequence'⟩
    previousEventDigest := hprevious.trans hprevious'.symm }

/-- A retained checkpoint pins the ledger: two tables that verify against it,
with whatever keys, have the same events with the same columns in the same
order, so none can be altered, dropped, inserted or moved. -/
theorem checkpoint_pins_ledger [UnicodeData] [Ed25519] {ledger : Identity}
    {table₁ table₂ : List StoredRow} {keys₁ keys₂ : Str → Option TrustedKey} {checkpoint : Json}
    {checkpointKey₁ checkpointKey₂ : Option TrustedKey} {report₁ report₂ : Verification}
    (hsha : Set.InjOn sha256 {m | m ∈ hashedMessages table₁ ++ hashedMessages table₂})
    (h₁ : verify ledger table₁ keys₁ (some checkpoint) checkpointKey₁ = .ok report₁)
    (h₂ : verify ledger table₂ keys₂ (some checkpoint) checkpointKey₂ = .ok report₂) :
    List.Forall₂ SameRow (storedOrder table₁) (storedOrder table₂) := by
  obtain ⟨hattests₁, root, hsize₁, hroot₁, hmerkle₁⟩ := attests_of_verify h₁
  obtain ⟨hattests₂, root', hsize₂, hroot₂, hmerkle₂⟩ := attests_of_verify h₂
  have hroot : root' = root := Except.ok.inj (hroot₂.symm.trans hroot₁)
  have hlength : (tableDigests table₁).length = (tableDigests table₂).length :=
    Int.ofNat_inj.1 (Except.ok.inj (hsize₁.symm.trans hsize₂))
  have hframes : eventFrames table₁ = eventFrames table₂ := by
    apply frames_eq_of_root_eq hsha _ _ _ _ hlength hmerkle₁ (hroot ▸ hmerkle₂)
    · intro m hm
      simp only [hashedMessages, List.mem_append, Set.mem_ofPred_eq]
      tauto
    · intro m hm
      have hmem : leafFrame (sha256Digest m) ∈ (tableDigests table₁).map leafFrame ∨
          leafFrame (sha256Digest m) ∈ (tableDigests table₂).map leafFrame :=
        hm.imp (fun h => List.mem_map_of_mem (List.mem_map_of_mem h))
          (fun h => List.mem_map_of_mem (List.mem_map_of_mem h))
      simp only [hashedMessages, List.mem_append, Set.mem_ofPred_eq]
      tauto
    · intro p hp
      have hmem := List.mem_map_of_mem (f := nodeFrame) hp
      exact List.mem_append_left _ (List.mem_append_right _ hmem)
    · intro p hp
      have hmem := List.mem_map_of_mem (f := nodeFrame) hp
      exact List.mem_append_right _ (List.mem_append_right _ hmem)
  rw [← hframes] at hattests₂
  have hcomp := forall₂_comp hattests₁ hattests₂.flip
  refine hcomp.imp fun a b hframe => ?_
  obtain ⟨frame, ha, hb⟩ := hframe
  exact sameRow_of_attests ha hb

/-! ## A ledger of one event -/

namespace Sample

def eventSignature : Bytes :=
  [139, 171, 26, 124, 14, 236, 155, 141, 106, 189, 105, 118, 238, 6, 53, 172, 90, 104, 226, 148,
    124, 39, 122, 220, 203, 168, 65, 102, 181, 160, 112, 176, 171, 22, 79, 52, 156, 6, 22, 103,
    134, 71, 201, 139, 48, 214, 80, 97, 94, 15, 229, 227, 2, 173, 210, 210, 159, 194, 18, 137,
    127, 131, 251, 6]

def checkpointSignature : Bytes :=
  [177, 142, 111, 50, 110, 246, 132, 64, 166, 98, 35, 230, 55, 218, 0, 146, 44, 108, 181, 197,
    250, 94, 39, 192, 151, 95, 59, 42, 2, 24, 247, 199, 75, 130, 179, 14, 200, 36, 198, 14, 248,
    113, 120, 205, 125, 143, 173, 59, 40, 129, 41, 150, 168, 160, 45, 176, 141, 117, 157, 126,
    191, 164, 170, 7]

/-- The event's identity, its digest and the root over it. -/
def identity : Bytes :=
  [242, 62, 161, 237, 115, 34, 250, 101, 107, 138, 36, 237, 185, 41, 228, 77, 66, 69, 228, 26,
    222, 35, 149, 230, 109, 81, 95, 238, 186, 185, 74, 33]

def eventHash : Bytes :=
  [103, 97, 50, 244, 202, 223, 165, 249, 65, 94, 9, 244, 147, 145, 154, 56, 99, 97, 84, 28, 96,
    37, 10, 61, 94, 121, 231, 216, 190, 158, 205, 52]

def rootHash : Bytes :=
  [135, 75, 173, 78, 86, 77, 35, 9, 115, 83, 96, 31, 141, 203, 212, 200, 52, 59, 164, 104, 202,
    146, 182, 212, 196, 183, 166, 28, 83, 153, 233, 173]

/-- Ed25519 on the sample documents: the key accepts their two signatures. -/
@[reducible] def ed25519 : Ed25519 where
  PrivateKey := Empty
  PublicKey := Unit
  sign key := nomatch key
  verify _ signature _ :=
    signature == eventSignature || signature == checkpointSignature

def key : @TrustedKey ed25519 := @TrustedKey.mk ed25519 (str "k") ()

def event : Json := .obj [
  (str "event_id", .str (str "event:" ++ hex identity)),
  (str "event_type", .str (str "observation")),
  (str "payload_digest", .str (repeatedDigest '0')),
  (str "previous_event_digest", .null),
  (str "protocol", .str (str "integrity-guardian/ledger-event/v1")),
  (str "recorded_at", .str (str "2026-01-01T00:00:00Z")),
  (str "signature", signatureObject (str "k") (base64url eventSignature)),
  (str "source_id", .str (str "s")),
  (str "source_sequence", .int 0),
  (str "tenant_id", .str (str "t"))]

def eventDigest : Str := hashText eventHash

def checkpoint : Json := .obj [
  (str "checkpoint_id", .str (str "c")),
  (str "created_at", .str (str "2026-01-01T00:00:00Z")),
  (str "last_event_digest", .str eventDigest),
  (str "ledger_id", .str (str "l")),
  (str "protocol", .str (str "integrity-guardian/checkpoint/v1")),
  (str "root_digest", .str (hashText rootHash)),
  (str "signature", signatureObject (str "k") (base64url checkpointSignature)),
  (str "signer_id", .str (str "k")),
  (str "tenant_id", .str (str "t")),
  (str "tree_size", .int 1)]

/-- The row an append writes. -/
def row : StoredRow where
  ledgerSequence := 1
  eventDigest := .text eventDigest
  tenantId := .text (str "t")
  sourceId := .text (str "s")
  sourceSequence := .integer 0
  previousEventDigest := .null
  eventJson := .blob (event.dumps.flatMap utf8Octets)

/-- The same event under another key, as text with white space and a `REAL` number. -/
def rewritten : StoredRow where
  ledgerSequence := 7
  eventDigest := .text eventDigest
  tenantId := .text (str "t")
  sourceId := .text (str "s")
  sourceSequence := .real (some 0)
  previousEventDigest := .null
  eventJson := .text (str " " ++ event.dumps)

def frame : Bytes := digestPrefix (str "ledger-event-v1") ++ event.dumps.flatMap utf8Octets

def ledger : Identity := ⟨str "t", str "l"⟩

def report : Verification := ⟨true, str "t", str "l", 1, 1, true⟩

theorem evaluated :
    @verify asciiUnicodeData ed25519 ledger [row] (fun _ => some key) (some checkpoint) (some key)
      = .ok report ∧
    @verify asciiUnicodeData ed25519 ledger [rewritten] (fun _ => some key) (some checkpoint)
      (some key) = .ok report ∧
    hashedMessages [row] ++ hashedMessages [rewritten]
      = [frame, leafFrame eventDigest, frame, leafFrame eventDigest] ∧
    sha256 frame ≠ sha256 (leafFrame eventDigest) := by
  decide +kernel

end Sample

/-- A table and a rewritten copy verify against one checkpoint, and hold the same row. -/
theorem checkpoint_pins_sample : List.Forall₂ SameRow [Sample.row] [Sample.rewritten] := by
  obtain ⟨hrow, hrewritten, hmessages, hne⟩ := Sample.evaluated
  refine @checkpoint_pins_ledger asciiUnicodeData Sample.ed25519 Sample.ledger [Sample.row]
    [Sample.rewritten] _ _ Sample.checkpoint _ _ _ _ ?_ hrow hrewritten
  rw [hmessages]
  intro m hm n hn hmn
  simp only [List.mem_cons, List.not_mem_nil, or_false, Set.mem_ofPred_eq] at hm hn
  rcases hm with rfl | rfl | rfl | rfl <;> rcases hn with rfl | rfl | rfl | rfl <;>
    first
      | rfl
      | exact absurd hmn hne
      | exact absurd hmn.symm hne

end IntegrityGuardian.Ledger
