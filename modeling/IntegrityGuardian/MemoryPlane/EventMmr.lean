import IntegrityGuardian.Ledger.Merkle
import IntegrityGuardian.Library.MountainRange
import IntegrityGuardian.Python.ByteFrames

/-!
# The event mountain range

`seed_delta_sync.py` keeps the imported events under the peaks of a mountain range
and their root.  The peaks of a log are those of its length in binary, and the
root commits to every event before it.
-/

namespace IntegrityGuardian.MemoryPlane

open Python Library Library.MountainRange
open IntegrityGuardian.Ledger (isDigest isDigest_iff hashText hashText_injective)

/-- How the functions of `seed_delta_sync.py` fail. -/
inductive SeedFailure where
  | seedCatalogError (message : Str)
  | raised (e : Exc)
  | indexError
  deriving DecidableEq

/-- `MMR_LEAF_DOMAIN`. -/
def mmrLeafDomain : Bytes := (str "integrity-seed-event-mmr-leaf-v1").flatMap utf8Octets ++ [0]

/-- `MMR_NODE_DOMAIN`. -/
def mmrNodeDomain : Bytes := (str "integrity-seed-event-mmr-node-v1").flatMap utf8Octets ++ [0]

/-- `MMR_ROOT_DOMAIN`. -/
def mmrRootDomain : Bytes := (str "integrity-seed-event-mmr-root-v1").flatMap utf8Octets ++ [0]

/-- `digest`. -/
def digest (domain value : Bytes) : Str := sha256Digest (domain ++ value)

/-- `n.to_bytes(width, "big")`. -/
def toBytes (width : Nat) (n : Int) : Except SeedFailure Bytes :=
  if 0 ≤ n ∧ n < 256 ^ width then .ok (Sha256.bigEndian width n.toNat)
  else .error (.raised .overflowError)

/-- `bytes.fromhex(text.split(":", 1)[1])`. -/
def digestBytes (text : Str) : Except SeedFailure Bytes :=
  if Json.ch ':' ∈ text then
    match fromhex text.afterColon with
    | some bytes => .ok bytes
    | none => .error (.raised (.valueError []))
  else .error .indexError

/-- `leaf_hash`. -/
def leafHash (eventId : Int) (eventDigest : Str) : Except SeedFailure Str :=
  if (str "sha256:").isPrefixOf eventDigest then do
    let id ← toBytes 8 eventId
    let body ← digestBytes eventDigest
    .ok (digest mmrLeafDomain (id ++ body))
  else .error (.seedCatalogError (str "Seed event digest is outside the SHA-256 profile"))

/-- The hash of two nodes. -/
def nodeHash (left right : Str) : Except SeedFailure Str := do
  let left ← digestBytes left
  let right ← digestBytes right
  .ok (digest mmrNodeDomain (left ++ right))

/-- The loop of `append_peak`, over the peaks from the last one on. -/
def carryPeaks : List (Peak Str) → Nat → Str → Except SeedFailure (List (Peak Str))
  | [], height, node => .ok [⟨height, node⟩]
  | peak :: rest, height, node =>
    if peak.height = height then do
      let node ← nodeHash peak.hash node
      carryPeaks rest (height + 1) node
    else .ok (⟨height, node⟩ :: peak :: rest)

/-- `append_peak`. -/
def appendPeak (peaks : List (Peak Str)) (eventId : Int) (eventDigest : Str) :
    Except SeedFailure (List (Peak Str)) := do
  let node ← leafHash eventId eventDigest
  let peaks ← carryPeaks peaks.reverse 0 node
  .ok peaks.reverse

/-- What a peak adds to the material of the root. -/
def peakMaterial (peak : Peak Str) : Except SeedFailure Bytes := do
  let height ← toBytes 2 peak.height
  let hash ← digestBytes peak.hash
  .ok (height ++ hash)

/-- `mmr_root`. -/
def mmrRoot (peaks : List (Peak Str)) (eventCount : Int) : Except SeedFailure Str := do
  let count ← toBytes 8 eventCount
  let material ← peaks.mapM peakMaterial
  .ok (digest mmrRootDomain (count ++ material.flatten))

/-- The peaks after appending some events, as in `rebuild_mmr`. -/
def appendPeaks (peaks : List (Peak Str)) (events : List (Int × Str)) :
    Except SeedFailure (List (Peak Str)) :=
  events.foldlM (fun peaks event => appendPeak peaks event.1 event.2) peaks

/-! ## Hashes as texts -/

/-- The bytes of a digest. -/
def bytesOf (text : Str) : Bytes := (fromhex text.afterColon).getD []

theorem bytesOf_hashText (bytes : Bytes) : bytesOf (hashText bytes) = bytes := by
  rw [bytesOf, hashText, Ledger.afterColon_sha256, fromhex_hex]
  rfl

theorem colon_mem_sha256 (s : Str) : Json.ch ':' ∈ str "sha256:" ++ s := by
  apply List.mem_append_left
  decide

theorem digestBytes_hashText (bytes : Bytes) : digestBytes (hashText bytes) = .ok bytes := by
  rw [digestBytes, hashText, if_pos (colon_mem_sha256 _), Ledger.afterColon_sha256, fromhex_hex]

theorem digest_eq_hashText (domain value : Bytes) :
    digest domain value = hashText (sha256 (domain ++ value)) := rfl

/-- A hash that the range holds. -/
def IsHash (text : Str) : Prop := ∃ bytes : Bytes, bytes.length = 32 ∧ text = hashText bytes

theorem isHash_digest (domain value : Bytes) : IsHash (digest domain value) :=
  ⟨_, length_sha256 _, digest_eq_hashText domain value⟩

/-- The hash of two hashes. -/
def joined (left right : Str) : Str := digest mmrNodeDomain (bytesOf left ++ bytesOf right)

theorem nodeHash_eq {left right : Str} (hleft : IsHash left) (hright : IsHash right) :
    nodeHash left right = .ok (joined left right) := by
  obtain ⟨a, -, rfl⟩ := hleft
  obtain ⟨b, -, rfl⟩ := hright
  rw [nodeHash, digestBytes_hashText, ok_bind, digestBytes_hashText, ok_bind, joined,
    bytesOf_hashText, bytesOf_hashText]

/-- The hash of an event that `leaf_hash` accepts. -/
def leafText (event : Int × Str) : Str :=
  digest mmrLeafDomain (Sha256.bigEndian 8 event.1.toNat ++ bytesOf event.2)

/-- An event that `leaf_hash` accepts. -/
structure Hashable (event : Int × Str) : Prop where
  id_nonneg : 0 ≤ event.1
  id_lt : event.1 < 256 ^ 8
  profile : (str "sha256:").isPrefixOf event.2 = true
  decodes : fromhex event.2.afterColon ≠ none

variable {event : Int × Str} {events : List (Int × Str)} {peaks : List (Peak Str)} {height : Nat}
  {peak : Peak Str} {hash : Str}

theorem leafHash_eq (h : Hashable event) : leafHash event.1 event.2 = .ok (leafText event) := by
  obtain ⟨bytes, hbytes⟩ := Option.ne_none_iff_exists'.1 h.decodes
  obtain ⟨rest, hrest⟩ := List.isPrefixOf_iff_prefix.1 h.profile
  have hcolon : Json.ch ':' ∈ event.2 := by
    rw [← hrest]
    exact colon_mem_sha256 rest
  rw [leafHash, if_pos h.profile, toBytes, if_pos ⟨h.id_nonneg, h.id_lt⟩, ok_bind, digestBytes,
    if_pos hcolon, hbytes, ok_bind, leafText, bytesOf, hbytes]
  rfl

theorem leafHash_eq_ok (h : leafHash event.1 event.2 = .ok hash) : Hashable event := by
  unfold leafHash at h
  split_ifs at h with hprofile
  obtain ⟨id, hid, h⟩ := bind_eq_ok.1 h
  obtain ⟨body, hbody, -⟩ := bind_eq_ok.1 h
  unfold toBytes at hid
  split_ifs at hid with hrange
  refine ⟨hrange.1, hrange.2, hprofile, ?_⟩
  intro hnone
  unfold digestBytes at hbody
  split_ifs at hbody
  rw [hnone] at hbody
  cases hbody

/-! ## The peaks of a log -/

theorem carryPeaks_eq (hpeaks : ∀ peak ∈ peaks, IsHash peak.hash)
    {node : Str} (hnode : IsHash node) :
    carryPeaks peaks height node = .ok (carry joined peaks height node) := by
  induction peaks generalizing height node with
  | nil => rfl
  | cons peak rest ih =>
    rw [carryPeaks, carry]
    split_ifs
    · rw [nodeHash_eq (hpeaks peak List.mem_cons_self) hnode, ok_bind]
      exact ih (fun other hother => hpeaks other (List.mem_cons_of_mem _ hother))
        (isHash_digest _ _)
    · rfl

/-- The peaks over some events and the pairs of hashes below them. -/
def rangeOf (events : List (Int × Str)) : List (Peak Str) × List (Str × Str) :=
  grow joined (events.map leafText)

theorem rangeOf_append_singleton (events : List (Int × Str)) (event : Int × Str) :
    (rangeOf (events ++ [event])).1 = carry joined (rangeOf events).1 0 (leafText event) := by
  rw [rangeOf, List.map_append, List.map_singleton, grow_append_singleton]
  rfl

theorem rangeOf_isHash (events : List (Int × Str)) :
    (∀ peak ∈ (rangeOf events).1, IsHash peak.hash) ∧
      ∀ pair ∈ (rangeOf events).2, IsHash pair.1 ∧ IsHash pair.2 := by
  apply grow_forall
  · intro left right
    exact isHash_digest _ _
  · intro leaf hleaf
    obtain ⟨event, -, rfl⟩ := List.mem_map.1 hleaf
    exact isHash_digest _ _

theorem appendPeaks_append_singleton (peaks : List (Peak Str)) (events : List (Int × Str))
    (event : Int × Str) :
    appendPeaks peaks (events ++ [event]) =
      appendPeaks peaks events >>= fun peaks => appendPeak peaks event.1 event.2 := by
  rw [appendPeaks, List.foldlM_append]
  show (appendPeaks peaks events >>= fun peaks => appendPeak peaks event.1 event.2 >>= pure) = _
  simp only [bind_pure]

theorem appendPeaks_eq (h : ∀ event ∈ events, Hashable event) :
    appendPeaks [] events = .ok (rangeOf events).1.reverse := by
  induction events using List.reverseRecOn with
  | nil => rfl
  | append_singleton events event ih =>
    have hbefore := ih fun other hother => h other (List.mem_append_left _ hother)
    have hevent : Hashable event := h event (List.mem_append_right _ List.mem_cons_self)
    have hleaf : IsHash (leafText event) := isHash_digest _ _
    rw [appendPeaks_append_singleton, hbefore, ok_bind, appendPeak, leafHash_eq hevent, ok_bind,
      List.reverse_reverse, carryPeaks_eq (rangeOf_isHash events).1 hleaf, ok_bind,
      rangeOf_append_singleton]

theorem hashable_of_appendPeaks
    (h : appendPeaks [] events = .ok peaks) : ∀ event ∈ events, Hashable event := by
  induction events using List.reverseRecOn generalizing peaks with
  | nil =>
    intro event hevent
    cases hevent
  | append_singleton events last ih =>
    rw [appendPeaks_append_singleton] at h
    obtain ⟨before, hbefore, hlast⟩ := bind_eq_ok.1 h
    obtain ⟨hash, hhash, -⟩ := bind_eq_ok.1 hlast
    intro event hevent
    rcases List.mem_append.1 hevent with hevent | hevent
    · exact ih hbefore event hevent
    · rw [List.mem_singleton.1 hevent]
      exact leafHash_eq_ok hhash

theorem rangeOf_range (events : List (Int × Str)) :
    ∃ blocks, Range joined {pair | pair ∈ (rangeOf events).2} (rangeOf events).1 blocks ∧
      blocks.reverse.flatten = events.map leafText :=
  grow_range _

theorem rangeOf_heights (events : List (Int × Str)) :
    (rangeOf events).1.map Peak.height = events.length.bitIndices := by
  obtain ⟨blocks, hrange, hleaves⟩ := rangeOf_range events
  rw [hrange.heights, hleaves, List.length_map]

/-- The hash of the perfect tree over `2 ^ height` events. -/
def perfectHash : Nat → List (Int × Str) → Except SeedFailure Str
  | 0, [event] => leafHash event.1 event.2
  | 0, _ => .error .indexError
  | height + 1, events => do
    let left ← perfectHash height (events.take (2 ^ height))
    let right ← perfectHash height (events.drop (2 ^ height))
    nodeHash left right

theorem perfectHash_eq (h : ∀ event ∈ events, Hashable event)
    (hroot : root joined height (events.map leafText) = some hash) :
    perfectHash height events = .ok hash ∧ IsHash hash := by
  induction height generalizing events hash with
  | zero =>
    match events, h, hroot with
    | [event], h, hroot =>
      cases hroot
      exact ⟨leafHash_eq (h event List.mem_cons_self), isHash_digest _ _⟩
  | succ height ih =>
    rw [root, ← List.map_take, ← List.map_drop] at hroot
    split at hroot
    · rename_i left right hleft hright
      cases hroot
      have hl := ih (fun event hevent => h event (List.mem_of_mem_take hevent)) hleft
      have hr := ih (fun event hevent => h event (List.mem_of_mem_drop hevent)) hright
      refine ⟨?_, isHash_digest _ _⟩
      rw [perfectHash, hl.1, ok_bind, hr.1, ok_bind, nodeHash_eq hl.2 hr.2]
    · cases hroot

theorem exists_flatten_of_flatten_eq_map {α β : Type} {f : α → β} {bs : List (List β)}
    {xs : List α} (h : bs.flatten = xs.map f) :
    ∃ cs : List (List α), cs.flatten = xs ∧ cs.map (List.map f) = bs := by
  induction bs generalizing xs with
  | nil =>
    rw [List.flatten_nil, eq_comm, List.map_eq_nil_iff] at h
    exact ⟨[], h.symm, rfl⟩
  | cons b bs ih =>
    rw [List.flatten_cons, eq_comm, List.map_eq_append_iff] at h
    obtain ⟨first, rest, rfl, rfl, hrest⟩ := h
    obtain ⟨cs, rfl, rfl⟩ := ih hrest.symm
    exact ⟨first :: cs, rfl, rfl⟩

theorem rangeOf_blocks (h : ∀ event ∈ events, Hashable event) :
    ∃ blocks : List (List (Int × Str)), blocks.flatten = events ∧
      List.Forall₂ (fun peak block => perfectHash peak.height block = .ok peak.hash)
        (rangeOf events).1.reverse blocks := by
  obtain ⟨leaves, hrange, hleaves⟩ := rangeOf_range events
  obtain ⟨blocks, rfl, hblocks⟩ := exists_flatten_of_flatten_eq_map hleaves
  refine ⟨blocks, rfl, ?_⟩
  have hroots := List.rel_reverse hrange.forall₂
  rw [← hblocks, List.forall₂_map_right_iff] at hroots
  have hmem : ∀ block ∈ blocks, ∀ event ∈ block, Hashable event := by
    intro block hblock event hevent
    exact h event (List.mem_flatten_of_mem hblock hevent)
  have hpairs := (List.forall₂_and_left _ _).2 ⟨hmem, hroots.flip⟩
  refine (hpairs.imp ?_).flip
  intro block peak hpeak
  exact (perfectHash_eq hpeak.1 hpeak.2).1

/-! ## The material of the root -/

/-- The bytes of a peak in the root. -/
def peakFrame (peak : Peak Str) : Bytes := Sha256.bigEndian 2 peak.height ++ bytesOf peak.hash

theorem peakMaterial_eq_ok (hhash : IsHash peak.hash) {material : Bytes} :
    peakMaterial peak = .ok material ↔ peak.height < 256 ^ 2 ∧ material = peakFrame peak := by
  obtain ⟨bytes, -, hbytes⟩ := hhash
  rw [peakMaterial, toBytes, hbytes, digestBytes_hashText, peakFrame, hbytes, bytesOf_hashText]
  split_ifs with hrange
  · rw [ok_bind, ok_bind, Except.ok.injEq, Int.toNat_natCast]
    constructor
    · intro h
      refine ⟨?_, h.symm⟩
      omega
    · intro h
      exact h.2.symm
  · constructor
    · intro h
      cases h
    · intro h
      omega

theorem length_peakFrame (hhash : IsHash peak.hash) : (peakFrame peak).length = 34 := by
  obtain ⟨bytes, hlength, hbytes⟩ := hhash
  rw [peakFrame, List.length_append, Sha256.length_bigEndian, hbytes, bytesOf_hashText, hlength]

theorem peakFrame_inj {peak' : Peak Str} (hhash : IsHash peak.hash)
    (hhash' : IsHash peak'.hash) (hheight : peak.height = peak'.height)
    (h : peakFrame peak = peakFrame peak') : peak = peak' := by
  obtain ⟨bytes, -, hbytes⟩ := hhash
  obtain ⟨bytes', -, hbytes'⟩ := hhash'
  obtain ⟨-, hsame⟩ := List.append_inj h (by simp)
  rw [hbytes, hbytes', bytesOf_hashText, bytesOf_hashText] at hsame
  rw [Peak.mk.injEq]
  exact ⟨hheight, by rw [hbytes, hbytes', hsame]⟩

theorem peaks_eq_of_frames {peaks' : List (Peak Str)}
    (hhash : ∀ peak ∈ peaks, IsHash peak.hash) (hhash' : ∀ peak ∈ peaks', IsHash peak.hash)
    (hheights : peaks.map Peak.height = peaks'.map Peak.height)
    (h : (peaks.map peakFrame).flatten = (peaks'.map peakFrame).flatten) : peaks = peaks' := by
  induction peaks generalizing peaks' with
  | nil =>
    rw [List.map_nil, eq_comm, List.map_eq_nil_iff] at hheights
    rw [hheights]
  | cons peak rest ih =>
    cases peaks' with
    | nil => cases hheights
    | cons peak' rest' =>
      simp only [List.map_cons, List.flatten_cons, List.cons.injEq] at hheights h
      have hpeak := hhash peak List.mem_cons_self
      have hpeak' := hhash' peak' List.mem_cons_self
      obtain ⟨hfirst, hrest⟩ := List.append_inj h
        (by rw [length_peakFrame hpeak, length_peakFrame hpeak'])
      rw [peakFrame_inj hpeak hpeak' hheights.1 hfirst,
        ih (fun other hother => hhash other (List.mem_cons_of_mem _ hother))
          (fun other hother => hhash' other (List.mem_cons_of_mem _ hother)) hheights.2 hrest]

/-! ## The messages that are hashed -/

/-- What is hashed for an event. -/
def leafFrame (event : Int × Str) : Bytes :=
  mmrLeafDomain ++ (Sha256.bigEndian 8 event.1.toNat ++ bytesOf event.2)

/-- What is hashed for two nodes. -/
def nodeFrame (pair : Str × Str) : Bytes := mmrNodeDomain ++ (bytesOf pair.1 ++ bytesOf pair.2)

/-- What is hashed for the root of a log. -/
def rootFrame (events : List (Int × Str)) : Bytes :=
  mmrRootDomain ++ (Sha256.bigEndian 8 events.length ++
    ((rangeOf events).1.reverse.map peakFrame).flatten)

/-- The messages hashed for the peaks and the root of a log. -/
def mmrFrames (events : List (Int × Str)) : List Bytes :=
  rootFrame events :: (events.map leafFrame ++ (rangeOf events).2.map nodeFrame)

theorem mmrRoot_eq_ok (events : List (Int × Str)) {root : Str} :
    mmrRoot (rangeOf events).1.reverse events.length = .ok root ↔
      events.length < 256 ^ 8 ∧ root = hashText (sha256 (rootFrame events)) := by
  have hhash : ∀ peak ∈ (rangeOf events).1.reverse, IsHash peak.hash := by
    intro peak hpeak
    exact (rangeOf_isHash events).1 peak (List.mem_reverse.1 hpeak)
  rw [mmrRoot, toBytes]
  split_ifs with hcount
  · rw [ok_bind, Int.toNat_natCast]
    have hlength : events.length < 256 ^ 8 := by omega
    have hmaterial : (rangeOf events).1.reverse.mapM peakMaterial =
        .ok ((rangeOf events).1.reverse.map peakFrame) := by
      apply mapM_eq_ok_map
      intro peak hpeak
      refine (peakMaterial_eq_ok (hhash peak hpeak)).2 ⟨?_, rfl⟩
      have hheight : peak.height ∈ events.length.bitIndices := by
        rw [← rangeOf_heights]
        exact List.mem_map_of_mem (List.mem_reverse.1 hpeak)
      have hpower := Nat.two_pow_le_of_mem_bitIndices hheight
      have hsmall : peak.height < 64 := by
        rw [← Nat.pow_lt_pow_iff_right (a := 2) (by omega)]
        omega
      omega
    rw [hmaterial, ok_bind, Except.ok.injEq]
    constructor
    · intro h
      exact ⟨hlength, h.symm⟩
    · intro h
      exact h.2.symm
  · constructor
    · intro h
      cases h
    · intro h
      omega

/-! ## A root determines its log -/

theorem map_eq_of_map_eq {α β γ : Type} {f : α → β} {g : α → γ} {xs ys : List α}
    (hfg : ∀ x ∈ xs, ∀ y ∈ ys, f x = f y → g x = g y) (h : xs.map f = ys.map f) :
    xs.map g = ys.map g := by
  induction xs generalizing ys with
  | nil =>
    rw [List.map_nil, eq_comm, List.map_eq_nil_iff] at h
    rw [h]
  | cons x xs ih =>
    cases ys with
    | nil => cases h
    | cons y ys =>
      rw [List.map_cons, List.map_cons, List.cons.injEq] at h
      rw [List.map_cons, List.map_cons, hfg x List.mem_cons_self y List.mem_cons_self h.1,
        ih (fun x hx y hy => hfg x (List.mem_cons_of_mem _ hx) y (List.mem_cons_of_mem _ hy))
          h.2]

section
variable {xs ys : List (Int × Str)}
  (hsha : Set.InjOn sha256 {m | m ∈ mmrFrames xs ∨ m ∈ mmrFrames ys})
include hsha

theorem joined_injOn :
    Set.InjOn (Function.uncurry joined) {pair | pair ∈ (rangeOf xs).2 ∨ pair ∈ (rangeOf ys).2} := by
  intro pair hpair pair' hpair' h
  have hframe : ∀ p, p ∈ (rangeOf xs).2 ∨ p ∈ (rangeOf ys).2 →
      nodeFrame p ∈ mmrFrames xs ∨ nodeFrame p ∈ mmrFrames ys := by
    intro p hp
    refine hp.imp ?_ ?_
    · intro hp
      exact List.mem_cons_of_mem _ (List.mem_append_right _ (List.mem_map_of_mem hp))
    · intro hp
      exact List.mem_cons_of_mem _ (List.mem_append_right _ (List.mem_map_of_mem hp))
  have hhash : ∀ p, p ∈ (rangeOf xs).2 ∨ p ∈ (rangeOf ys).2 → IsHash p.1 ∧ IsHash p.2 := by
    intro p hp
    exact hp.elim ((rangeOf_isHash xs).2 p) ((rangeOf_isHash ys).2 p)
  have hsame : nodeFrame pair = nodeFrame pair' :=
    hsha (hframe pair hpair) (hframe pair' hpair') (hashText_injective h)
  obtain ⟨⟨a, ha, hleft⟩, b, -, hright⟩ := hhash pair hpair
  obtain ⟨⟨a', ha', hleft'⟩, b', -, hright'⟩ := hhash pair' hpair'
  have hbytes := List.append_cancel_left hsame
  rw [hleft, hright, hleft', hright'] at hbytes
  simp only [bytesOf_hashText] at hbytes
  obtain ⟨hfirst, hsecond⟩ := List.append_inj hbytes (ha.trans ha'.symm)
  apply Prod.ext
  · rw [hleft, hleft', hfirst]
  · rw [hright, hright', hsecond]

theorem leafText_inj (hxs : ∀ event ∈ xs, Hashable event) (hys : ∀ event ∈ ys, Hashable event)
    {x y : Int × Str} (hx : x ∈ xs) (hy : y ∈ ys) (h : leafText x = leafText y) :
    (x.1, bytesOf x.2) = (y.1, bytesOf y.2) := by
  have hsame : leafFrame x = leafFrame y := hsha
    (.inl (List.mem_cons_of_mem _ (List.mem_append_left _ (List.mem_map_of_mem hx))))
    (.inr (List.mem_cons_of_mem _ (List.mem_append_left _ (List.mem_map_of_mem hy))))
    (hashText_injective h)
  obtain ⟨hid, hbytes⟩ := List.append_inj (List.append_cancel_left hsame) (by simp)
  have hx := hxs x hx
  have hy := hys y hy
  have hxn := hx.id_nonneg
  have hyn := hy.id_nonneg
  have hxl := hx.id_lt
  have hyl := hy.id_lt
  have hnat := bigEndian_inj (by omega) (by omega) hid
  rw [Prod.mk.injEq]
  exact ⟨by omega, hbytes⟩

theorem events_eq_of_root_eq (hxs : ∀ event ∈ xs, Hashable event)
    (hys : ∀ event ∈ ys, Hashable event) {root : Str}
    (hroot : mmrRoot (rangeOf xs).1.reverse xs.length = .ok root)
    (hroot' : mmrRoot (rangeOf ys).1.reverse ys.length = .ok root) :
    (xs.map fun event => (event.1, bytesOf event.2)) =
      ys.map fun event => (event.1, bytesOf event.2) := by
  obtain ⟨hcount, hxroot⟩ := (mmrRoot_eq_ok xs).1 hroot
  obtain ⟨hcount', hyroot⟩ := (mmrRoot_eq_ok ys).1 hroot'
  have hframe : rootFrame xs = rootFrame ys := hsha (.inl List.mem_cons_self)
    (.inr List.mem_cons_self) (hashText_injective (hxroot.symm.trans hyroot))
  obtain ⟨hlength, hmaterial⟩ := List.append_inj (List.append_cancel_left hframe) (by simp)
  have hlength := bigEndian_inj hcount hcount' hlength
  have hpeaks : (rangeOf xs).1.reverse = (rangeOf ys).1.reverse := by
    apply peaks_eq_of_frames _ _ _ hmaterial
    · intro peak hpeak
      exact (rangeOf_isHash xs).1 peak (List.mem_reverse.1 hpeak)
    · intro peak hpeak
      exact (rangeOf_isHash ys).1 peak (List.mem_reverse.1 hpeak)
    · rw [List.map_reverse, List.map_reverse, rangeOf_heights, rangeOf_heights, hlength]
  obtain ⟨blocks, hrange, hleaves⟩ := rangeOf_range xs
  obtain ⟨blocks', hrange', hleaves'⟩ := rangeOf_range ys
  rw [List.reverse_inj] at hpeaks
  have hblocks : blocks = blocks' := by
    have hboth : Range joined {pair | pair ∈ (rangeOf xs).2 ∨ pair ∈ (rangeOf ys).2}
        (rangeOf xs).1 blocks := hrange.mono fun pair hpair => .inl hpair
    apply hboth.blocks_eq (joined_injOn hsha)
    rw [hpeaks]
    exact hrange'.mono fun pair hpair => .inr hpair
  apply map_eq_of_map_eq (f := leafText)
  · intro x hx y hy h
    exact leafText_inj hsha hxs hys hx hy h
  · rw [← hleaves, ← hleaves', hblocks]

end

theorem bytesOf_injOn {text text' : Str} (h : isDigest text = true) (h' : isDigest text' = true)
    (hbytes : bytesOf text = bytesOf text') (hdecodes : fromhex text.afterColon ≠ none)
    (hdecodes' : fromhex text'.afterColon ≠ none) : text = text' := by
  obtain ⟨body, rfl, -, hlower⟩ := isDigest_iff.1 h
  obtain ⟨body', rfl, -, hlower'⟩ := isDigest_iff.1 h'
  rw [Ledger.afterColon_sha256] at hdecodes hdecodes'
  obtain ⟨bytes, hbody⟩ := Option.ne_none_iff_exists'.1 hdecodes
  obtain ⟨bytes', hbody'⟩ := Option.ne_none_iff_exists'.1 hdecodes'
  rw [bytesOf, bytesOf, Ledger.afterColon_sha256, Ledger.afterColon_sha256, hbody, hbody'] at hbytes
  have hsame : bytes = bytes' := hbytes
  rw [← hex_fromhex hlower hbody, ← hex_fromhex hlower' hbody', hsame]

/-! ## The commitment -/

/-- What the peaks say about the events they were folded from. -/
structure PeaksOf (events : List (Int × Str)) (peaks : List (Peak Str)) : Prop where
  decreasing : (peaks.map Peak.height).Pairwise (· > ·)
  set_bits : ∀ height, height ∈ peaks.map Peak.height ↔ events.length.testBit height = true
  blocks : ∃ blocks : List (List (Int × Str)), blocks.flatten = events ∧
    List.Forall₂ (fun peak block => perfectHash peak.height block = .ok peak.hash) peaks blocks

theorem peaksOf_rangeOf {events : List (Int × Str)} (h : ∀ event ∈ events, Hashable event) :
    PeaksOf events (rangeOf events).1.reverse where
  decreasing := by
    rw [List.map_reverse, rangeOf_heights, List.pairwise_reverse]
    exact Nat.bitIndices_sorted.pairwise
  set_bits := by
    intro height
    rw [List.map_reverse, List.mem_reverse, rangeOf_heights, Nat.mem_bitIndices]
  blocks := rangeOf_blocks h

/-- The peaks of a log stand on the set bits of its length, and its root on the whole log:
where SHA-256 has no collision among the messages hashed, no other log of well-formed digests
has that root. -/
theorem event_mmr_commits :
    (∀ events, (∃ peaks, appendPeaks [] events = .ok peaks) ↔ ∀ event ∈ events, Hashable event) ∧
    (∀ events peaks, appendPeaks [] events = .ok peaks → PeaksOf events peaks ∧
      (events.length < 2 ^ 64 ↔ ∃ root, mmrRoot peaks events.length = .ok root)) ∧
    ∀ xs ys peaks peaks' root, appendPeaks [] xs = .ok peaks → appendPeaks [] ys = .ok peaks' →
      mmrRoot peaks xs.length = .ok root → mmrRoot peaks' ys.length = .ok root →
      Set.InjOn sha256 {m | m ∈ mmrFrames xs ∨ m ∈ mmrFrames ys} →
      (xs.map fun event => (event.1, bytesOf event.2)) =
        (ys.map fun event => (event.1, bytesOf event.2)) ∧
      ((∀ event ∈ xs, isDigest event.2 = true) → (∀ event ∈ ys, isDigest event.2 = true) →
        xs = ys) := by
  refine ⟨?_, ?_, ?_⟩
  · intro events
    constructor
    · rintro ⟨peaks, h⟩
      exact hashable_of_appendPeaks h
    · intro h
      exact ⟨_, appendPeaks_eq h⟩
  · intro events peaks h
    have hall := hashable_of_appendPeaks h
    rw [appendPeaks_eq hall] at h
    cases h
    refine ⟨peaksOf_rangeOf hall, ?_⟩
    constructor
    · intro hlength
      exact ⟨_, (mmrRoot_eq_ok events).2 ⟨hlength, rfl⟩⟩
    · rintro ⟨root, hroot⟩
      exact ((mmrRoot_eq_ok events).1 hroot).1
  · intro xs ys peaks peaks' root hx hy hxroot hyroot hsha
    have hxs := hashable_of_appendPeaks hx
    have hys := hashable_of_appendPeaks hy
    rw [appendPeaks_eq hxs] at hx
    rw [appendPeaks_eq hys] at hy
    cases hx
    cases hy
    have hsame := events_eq_of_root_eq hsha hxs hys hxroot hyroot
    refine ⟨hsame, ?_⟩
    intro hxd hyd
    have hids := map_eq_of_map_eq (g := id) ?_ hsame
    · rwa [List.map_id, List.map_id] at hids
    · intro x hx y hy h
      rw [Prod.mk.injEq] at h
      exact Prod.ext h.1 (bytesOf_injOn (hxd x hx) (hyd y hy) h.2 (hxs x hx).decodes
        (hys y hy).decodes)

/-- Two events with the digest of zeros. -/
def zeroEvents : List (Int × Str) :=
  [(1, hashText (List.replicate 32 0)), (2, hashText (List.replicate 32 0))]

theorem zeroEvents_hashable : ∀ event ∈ zeroEvents, Hashable event := by
  have hdecodes : fromhex (hashText (List.replicate 32 0)).afterColon ≠ none := by
    rw [hashText, Ledger.afterColon_sha256, fromhex_hex]
    exact Option.some_ne_none _
  intro event hevent
  simp only [zeroEvents, List.mem_cons, List.not_mem_nil, or_false] at hevent
  rcases hevent with rfl | rfl
  · exact ⟨by decide, by decide, by decide, hdecodes⟩
  · exact ⟨by decide, by decide, by decide, hdecodes⟩

theorem zeroEvents_first_octets :
    ((mmrFrames zeroEvents).map sha256).map List.head? =
      [some 38, some 215, some 255, some 178] := by
  decide +kernel

theorem zeroEvents_injOn :
    Set.InjOn sha256 {m | m ∈ mmrFrames zeroEvents ∨ m ∈ mmrFrames zeroEvents} := by
  have hnodup : ((mmrFrames zeroEvents).map sha256).Nodup := by
    apply List.Nodup.of_map List.head?
    rw [zeroEvents_first_octets]
    decide
  intro m hm m' hm' h
  exact List.inj_on_of_nodup_map hnodup (or_self_iff.1 hm) (or_self_iff.1 hm') h

theorem two_events_committed :
    ∃ peaks root, appendPeaks [] zeroEvents = .ok peaks ∧
      mmrRoot peaks zeroEvents.length = .ok root ∧ PeaksOf zeroEvents peaks ∧
      Set.InjOn sha256 {m | m ∈ mmrFrames zeroEvents ∨ m ∈ mmrFrames zeroEvents} ∧
      (∀ event ∈ zeroEvents, isDigest event.2 = true) ∧ zeroEvents = zeroEvents := by
  obtain ⟨htotal, hpeaks, hunique⟩ := event_mmr_commits
  obtain ⟨peaks, h⟩ := (htotal zeroEvents).2 zeroEvents_hashable
  obtain ⟨hof, hroot⟩ := hpeaks zeroEvents peaks h
  obtain ⟨root, hroot⟩ := hroot.1 (by decide)
  have hdigests : ∀ event ∈ zeroEvents, isDigest event.2 = true := by decide
  exact ⟨peaks, root, h, hroot, hof, zeroEvents_injOn, hdigests,
    (hunique _ _ _ _ _ h h hroot hroot zeroEvents_injOn).2 hdigests hdigests⟩

end IntegrityGuardian.MemoryPlane
