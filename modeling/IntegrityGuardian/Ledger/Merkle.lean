import IntegrityGuardian.Canonical
import IntegrityGuardian.Library.PromotedMerkle

/-!
# The checkpoint tree

The Merkle functions of `ledger.py`.  The tree itself is the promoted-odd tree of
the library at SHA-256 nodes; this module adds what the source wraps around it:
textual digests, audit paths as dictionaries, and a verifier that checks every
step of the path it consumes.
-/

namespace IntegrityGuardian.Ledger

open Python Library
open PromotedMerkle (Side)

/-- The exceptions `ledger.py` raises, next to those of the interpreter. -/
inductive Error where
  | appendError (message : Str)
  | verificationError (message : Str)
  | raised (e : Exc)
  deriving DecidableEq

/-- `_DIGEST.fullmatch`: `sha256:` and 64 lower-case hexadecimal digits. -/
def isDigest (s : Str) : Bool :=
  (str "sha256:").isPrefixOf s && (s.drop 7).length == 64 && (s.drop 7).all CodePoint.isLowerHex

/-- A `dict` with text keys. -/
structure Dict where
  members : List (Str × Json)
  nodup : (members.map Prod.fst).Nodup

namespace Dict

def get? (d : Dict) (key : Str) : Option Json := d.members.lookup key

/-- `set(d) == {a, b}` for distinct keys `a`, `b`. -/
def hasExactly (d : Dict) (a b : Str) : Bool :=
  d.members.length == 2 && (d.get? a).isSome && (d.get? b).isSome

/-- Equality of dictionaries, whatever the order of their items. -/
def Same (d e : Dict) : Prop := ∀ key, d.get? key = e.get? key

end Dict

/-! ## Hashes -/

/-- `b"\x00integrity-guardian-merkle-v1\x00"`. -/
def leafPrefix : Bytes :=
  0 :: (str "integrity-guardian-merkle-v1").map (fun c => UInt8.ofNat c.val) ++ [0]

/-- `b"\x01integrity-guardian-merkle-v1\x00"`. -/
def nodePrefix : Bytes :=
  1 :: (str "integrity-guardian-merkle-v1").map (fun c => UInt8.ofNat c.val) ++ [0]

/-- The hash of an ASCII leaf. -/
def asciiLeafHash (digest : Str) : Bytes :=
  sha256 (leafPrefix ++ digest.map fun c => UInt8.ofNat c.val)

/-- `_leaf_hash`. -/
def leafHash (digest : Str) : Except Exc Bytes :=
  if digest.all (fun c => c.val < 0x80) then .ok (asciiLeafHash digest)
  else .error .unicodeEncodeError

/-- `_node_hash`. -/
def nodeHash (left right : Bytes) : Bytes := sha256 (nodePrefix ++ left ++ right)

/-- `f"sha256:{node.hex()}"`. -/
def hashText (node : Bytes) : Str := str "sha256:" ++ hex node

/-! ## Root and audit path -/

/-- `merkle_root`.  Every pass of the loop shortens the level, so its length is fuel enough. -/
def merkleRoot (digests : List Str) : Except Exc Str := do
  let level ← digests.mapM leafHash
  match PromotedMerkle.root nodeHash level.length level with
  | some node => .ok (hashText node)
  | none => .error (.valueError (str "a checkpoint cannot commit an empty ledger"))

def sideText : Side → Str
  | .left => str "left"
  | .right => str "right"

/-- One entry of an audit path. -/
def pathStep (step : Side × Bytes) : Dict where
  members := [(str "side", .str (sideText step.1)), (str "digest", .str (hashText step.2))]
  nodup := by
    show [str "side", str "digest"].Nodup
    decide

/-- `merkle_inclusion_path`. -/
def merkleInclusionPath (digests : List Str) (leafIndex : Int) : Except Exc (List Dict) :=
  if digests = [] then
    .error (.valueError (str "an inclusion proof requires a non-empty ledger"))
  else if ¬(0 ≤ leafIndex ∧ leafIndex < digests.length) then
    .error (.valueError (str "inclusion leaf index is out of range"))
  else do
    let level ← digests.mapM leafHash
    .ok ((PromotedMerkle.auditPath nodeHash level.length level leafIndex.toNat).map pathStep)

/-! ## The verifier -/

def reject {α : Type} (message : String) : Except Error α :=
  .error (.verificationError (str message))

/-- The checks on one consumed step of the path; the result is the sibling. -/
def readStep (expectedSide : Side) (step : Dict) : Except Error Bytes :=
  if ¬step.hasExactly (str "side") (str "digest")
      ∨ step.get? (str "side") ≠ some (.str (sideText expectedSide)) then
    reject "ledger inclusion audit path direction mismatch"
  else
    match step.get? (str "digest") with
    | some (.str digest) =>
      if isDigest digest then
        match fromhex digest.afterColon with
        | some sibling => .ok sibling
        | none => reject "ledger inclusion sibling digest rejected"
      else reject "ledger inclusion sibling digest rejected"
    | _ => reject "ledger inclusion sibling digest rejected"

/-- The loop of `verify_merkle_inclusion_path`: the node reached and the steps
left over.  `width` shrinks in every pass, so it is fuel enough for itself. -/
def climb : Nat → Nat → Nat → Bytes → List Dict → Except Error (Bytes × List Dict)
  | 0, _, _, node, path => .ok (node, path)
  | fuel + 1, index, width, node, path =>
    if width ≤ 1 then .ok (node, path)
    else
      match PromotedMerkle.expectedSide index width with
      | none => climb fuel (index / 2) ((width + 1) / 2) node path
      | some side =>
        match path with
        | [] => reject "ledger inclusion audit path is incomplete"
        | step :: path => do
          let sibling ← readStep side step
          climb fuel (index / 2) ((width + 1) / 2) (PromotedMerkle.join nodeHash side sibling node)
            path

/-- `verify_merkle_inclusion_path`. -/
def verifyMerkleInclusionPath (eventDigestValue : Str) (leafIndex treeSize : Int)
    (auditPath : List Dict) (expectedRootDigest : Str) : Except Error Unit :=
  if treeSize < 1 ∨ ¬(0 ≤ leafIndex ∧ leafIndex < treeSize) then
    reject "ledger inclusion position rejected"
  else if ¬isDigest eventDigestValue ∨ ¬isDigest expectedRootDigest then
    reject "ledger inclusion digest rejected"
  else do
    let leaf ← (leafHash eventDigestValue).mapError .raised
    let (node, rest) ← climb treeSize.toNat leafIndex.toNat treeSize.toNat leaf auditPath
    if rest ≠ [] then reject "ledger inclusion audit path has extra steps"
    else if hashText node ≠ expectedRootDigest then reject "ledger inclusion Merkle root mismatch"
    else .ok ()

/-! ## Digests as text -/

theorem afterColon_sha256 (s : Str) : (str "sha256:" ++ s).afterColon = s := rfl

variable {node sibling x y : Bytes} {steps : List (Side × Bytes)} {path : List Dict} {ds : List Str}
  {fuel index width : Nat} {s : Str}

theorem isDigest_iff : isDigest s = true ↔
      ∃ h, s = str "sha256:" ++ h ∧ h.length = 64 ∧ ∀ c ∈ h, c.isLowerHex = true := by
  have hlen : (str "sha256:").length = 7 := rfl
  unfold isDigest
  simp only [Bool.and_eq_true, List.isPrefixOf_iff_prefix, beq_iff_eq, List.all_eq_true]
  constructor
  · rintro ⟨⟨⟨h, rfl⟩, hsize⟩, hall⟩
    have hdrop : (str "sha256:" ++ h).drop 7 = h := rfl
    rw [hdrop] at hsize hall
    exact ⟨h, rfl, hsize, hall⟩
  · rintro ⟨h, rfl, hsize, hall⟩
    exact ⟨⟨List.prefix_append _ _, hsize⟩, hall⟩

theorem isDigest_hashText (h : node.length = 32) : isDigest (hashText node) = true := by
  rw [isDigest_iff]
  refine ⟨hex node, rfl, ?_, fun c => isLowerHex_of_mem_hex⟩
  rw [length_hex, h]

theorem hashText_injective : Function.Injective hashText := by
  intro a b h
  exact hex_injective (List.append_cancel_left h)

/-! ## Steps of an audit path -/

theorem Dict.mem_of_get? {d : Dict} {key : Str} (h : (d.get? key).isSome = true) :
    key ∈ d.members.map Prod.fst := by
  obtain ⟨v, hv⟩ := Option.isSome_iff_exists.1 h
  exact List.mem_map.2 ⟨(key, v), (Json.lookup_eq_some_iff_mem d.nodup).1 hv, rfl⟩

theorem Dict.get?_eq_none {d : Dict} {a b key : Str} (h : d.hasExactly a b = true) (hab : a ≠ b)
    (ha : key ≠ a) (hb : key ≠ b) : d.get? key = none := by
  simp only [hasExactly, Bool.and_eq_true, beq_iff_eq] at h
  obtain ⟨⟨hlen, hamem⟩, hbmem⟩ := h
  have hkeys : d.members.map Prod.fst ⊆ [a, b] := by
    have hperm : [a, b].Subperm (d.members.map Prod.fst) := by
      refine List.subperm_of_subset (by simpa using hab) ?_
      intro k hk
      rcases List.mem_pair.1 hk with rfl | rfl
      · exact mem_of_get? hamem
      · exact mem_of_get? hbmem
    exact (hperm.perm_of_length_le (by simp [hlen])).symm.subset
  cases hget : d.get? key with
  | none => rfl
  | some v =>
    have hmem := hkeys (@mem_of_get? d key (by rw [hget]; rfl))
    rcases List.mem_pair.1 hmem with rfl | rfl
    · exact absurd rfl ha
    · exact absurd rfl hb

theorem readStep_pathStep (side : Side) (h : sibling.length = 32) :
    readStep side (pathStep (side, sibling)) = .ok sibling := by
  have hexactly : (pathStep (side, sibling)).hasExactly (str "side") (str "digest") = true := rfl
  have hside : (pathStep (side, sibling)).get? (str "side") = some (.str (sideText side)) := rfl
  have hdigest : (pathStep (side, sibling)).get? (str "digest")
      = some (.str (hashText sibling)) := rfl
  have hafter : (hashText sibling).afterColon = hex sibling := rfl
  unfold readStep
  rw [if_neg (by simp [hexactly, hside]), hdigest]
  simp only [isDigest_hashText h, hafter, fromhex_hex, if_true]

theorem same_of_readStep {side : Side} {step : Dict}
    (h : readStep side step = .ok sibling) : step.Same (pathStep (side, sibling)) := by
  unfold readStep at h
  split at h
  · cases h
  rename_i hkeys
  rw [not_or, not_not, ne_eq, not_not] at hkeys
  obtain ⟨hexactly, hside⟩ := hkeys
  cases hdigest : step.get? (str "digest") with
  | none => simp [hdigest, reject] at h
  | some value =>
    cases value with
    | str digest =>
      simp only [hdigest] at h
      split at h
      · rename_i hisDigest
        obtain ⟨text, rfl, -, hall⟩ := isDigest_iff.1 hisDigest
        rw [afterColon_sha256] at h
        cases hhex : fromhex text with
        | none => simp [hhex, reject] at h
        | some node =>
          simp only [hhex, Except.ok.injEq] at h
          subst h
          have htext : str "sha256:" ++ text = hashText node := by
            rw [hashText, hex_fromhex hall hhex]
          rw [htext] at hdigest
          intro key
          by_cases hkside : key = str "side"
          · rw [hkside, hside]
            rfl
          by_cases hkdigest : key = str "digest"
          · rw [hkdigest, hdigest]
            rfl
          rw [Dict.get?_eq_none hexactly (by decide) hkside hkdigest]
          exact (Dict.get?_eq_none rfl (by decide) hkside hkdigest).symm
      · cases h
    | null => simp [hdigest, reject] at h
    | bool b => simp [hdigest, reject] at h
    | int n => simp [hdigest, reject] at h
    | arr items => simp [hdigest, reject] at h
    | obj members => simp [hdigest, reject] at h

/-! ## The loop and the tree -/

/-- The verifier reads `path` as the library path `steps`. -/
def Reads (path : List Dict) (steps : List (Side × Bytes)) : Prop :=
  List.Forall₂ (fun step s => readStep s.1 step = .ok s.2) path steps

theorem climb_of_reads (hwidth : width ≤ fuel + 1) (hreads : Reads path steps)
    (h : PromotedMerkle.climb nodeHash fuel index width x steps = some (y, [])) :
    climb fuel index width x path = .ok (y, []) := by
  induction fuel generalizing index width x path steps with
  | zero =>
    rw [PromotedMerkle.climb, if_pos (by omega), Option.some.injEq, Prod.mk.injEq] at h
    obtain ⟨rfl, rfl⟩ := h
    cases hreads
    rfl
  | succ fuel ih =>
    rw [PromotedMerkle.climb] at h
    rw [climb]
    by_cases hone : width ≤ 1
    · rw [if_pos hone, Option.some.injEq, Prod.mk.injEq] at h
      obtain ⟨rfl, rfl⟩ := h
      cases hreads
      rw [if_pos hone]
    · rw [if_neg hone] at h ⊢
      cases hside : PromotedMerkle.expectedSide index width with
      | none =>
        simp only [hside] at h ⊢
        exact ih (by omega) hreads h
      | some side =>
        simp only [hside] at h ⊢
        cases hreads with
        | nil => cases h
        | @cons step s path steps hread hreads =>
          obtain ⟨s, sib⟩ := s
          simp only at h hread ⊢
          split at h
          · rename_i hs
            subst hs
            rw [hread, ok_bind]
            exact ih (by omega) hreads h
          · cases h

theorem exists_reads_of_climb
    (hwidth : width ≤ fuel + 1) (h : climb fuel index width x path = .ok (y, [])) :
    ∃ steps, Reads path steps ∧
      PromotedMerkle.climb nodeHash fuel index width x steps = some (y, []) := by
  induction fuel generalizing index width x path with
  | zero =>
    rw [climb, Except.ok.injEq, Prod.mk.injEq] at h
    obtain ⟨rfl, rfl⟩ := h
    exact ⟨[], .nil, by rw [PromotedMerkle.climb, if_pos (by omega)]⟩
  | succ fuel ih =>
    rw [climb] at h
    by_cases hone : width ≤ 1
    · rw [if_pos hone, Except.ok.injEq, Prod.mk.injEq] at h
      obtain ⟨rfl, rfl⟩ := h
      exact ⟨[], .nil, by rw [PromotedMerkle.climb, if_pos hone]⟩
    · rw [if_neg hone] at h
      cases hside : PromotedMerkle.expectedSide index width with
      | none =>
        simp only [hside] at h
        obtain ⟨steps, hreads, hclimb⟩ := ih (by omega) h
        refine ⟨steps, hreads, ?_⟩
        rw [PromotedMerkle.climb, if_neg hone]
        simp only [hside]
        exact hclimb
      | some side =>
        simp only [hside] at h
        cases path with
        | nil => cases h
        | cons step path =>
          obtain ⟨sib, hread, h⟩ := bind_eq_ok.1 h
          obtain ⟨steps, hreads, hclimb⟩ := ih (by omega) h
          refine ⟨(side, sib) :: steps, .cons hread hreads, ?_⟩
          rw [PromotedMerkle.climb, if_neg hone]
          simp only [hside, if_true]
          exact hclimb

theorem mapM_leafHash (h : ∀ d ∈ ds, d.all (fun c => c.val < 0x80) = true) :
    ds.mapM leafHash = .ok (ds.map asciiLeafHash) := by
  induction ds with
  | nil => rfl
  | cons d ds ih =>
    have hd : leafHash d = .ok (asciiLeafHash d) := if_pos (h d (by simp))
    rw [List.mapM_cons, hd, ih fun e he => h e (by simp [he])]
    rfl

theorem isDigest_ascii (h : isDigest s = true) : s.all (fun c => c.val < 0x80) = true := by
  obtain ⟨t, rfl, -, hall⟩ := isDigest_iff.1 h
  rw [List.all_append, Bool.and_eq_true]
  refine ⟨by decide, List.all_eq_true.2 fun c hc => ?_⟩
  have hlower := hall c hc
  simp only [CodePoint.isLowerHex, Bool.or_eq_true, Bool.and_eq_true, decide_eq_true_eq] at hlower
  rw [decide_eq_true_eq]
  omega

/-- The pairs the loop passes to `_node_hash`. -/
def climbHashes : Nat → Nat → Nat → Bytes → List Dict → List (Bytes × Bytes)
  | 0, _, _, _, _ => []
  | fuel + 1, index, width, node, path =>
    if width ≤ 1 then []
    else
      match PromotedMerkle.expectedSide index width with
      | none => climbHashes fuel (index / 2) ((width + 1) / 2) node path
      | some side =>
        match path with
        | [] => []
        | step :: path =>
          match readStep side step with
          | .error _ => []
          | .ok sibling =>
            PromotedMerkle.pairOn side sibling node ::
              climbHashes fuel (index / 2) ((width + 1) / 2)
                (PromotedMerkle.join nodeHash side sibling node) path

/-- The pairs hashed for the root of `ds` and for the check of `d` at `i` along `path`. -/
def hashedPairs (ds : List Str) (d : Str) (i : Nat) (path : List Dict) : List (Bytes × Bytes) :=
  PromotedMerkle.treePairs nodeHash ds.length (ds.map asciiLeafHash) ++
    climbHashes ds.length i ds.length (asciiLeafHash d) path

theorem climbHashes_of_reads {rest : List (Side × Bytes)} (hreads : Reads path steps)
    (h : PromotedMerkle.climb nodeHash fuel index width x steps = some (y, rest)) :
    climbHashes fuel index width x path
      = PromotedMerkle.climbPairs nodeHash fuel index width x steps := by
  induction fuel generalizing index width x path steps with
  | zero => rfl
  | succ fuel ih =>
    rw [PromotedMerkle.climb] at h
    rw [climbHashes, PromotedMerkle.climbPairs]
    by_cases hone : width ≤ 1
    · rw [if_pos hone, if_pos hone]
    · rw [if_neg hone] at h ⊢
      rw [if_neg hone]
      cases hside : PromotedMerkle.expectedSide index width with
      | none =>
        simp only [hside] at h ⊢
        exact ih hreads h
      | some side =>
        simp only [hside] at h ⊢
        cases hreads with
        | nil => cases h
        | @cons step s path steps hread hreads =>
          obtain ⟨s, sib⟩ := s
          simp only at h hread ⊢
          split at h
          · rename_i hs
            subst hs
            simp only [hread]
            rw [ih hreads h]
          · cases h

/-! ## Completeness and soundness -/

theorem length_nodeHash (x y : Bytes) : (nodeHash x y).length = 32 := length_sha256 _

theorem length_of_mem_leaves (h : x ∈ ds.map asciiLeafHash) : x.length = 32 := by
  obtain ⟨d, -, rfl⟩ := List.mem_map.1 h
  exact length_sha256 _

theorem verify_eq_ok_iff {d : Str} {i n : Nat} (hi : i < n) (hnode : node.length = 32) :
    verifyMerkleInclusionPath d i n path (hashText node) = .ok () ↔
      isDigest d = true ∧ climb n i n (asciiLeafHash d) path = .ok (node, []) := by
  unfold verifyMerkleInclusionPath
  rw [if_neg (by omega)]
  by_cases hd : isDigest d = true
  · have hleaf : leafHash d = .ok (asciiLeafHash d) := if_pos (isDigest_ascii hd)
    rw [if_neg (by simp [hd, isDigest_hashText hnode]), hleaf]
    simp only [Except.mapError, ok_bind, hd, true_and, Int.toNat_natCast, bind_eq_ok]
    constructor
    · rintro ⟨⟨node', rest⟩, hclimb, h⟩
      simp only at h
      split at h
      · cases h
      rename_i hrest
      rw [ne_eq, not_not] at hrest
      split at h
      · cases h
      rename_i htext
      rw [ne_eq, not_not] at htext
      rw [hclimb, hrest, hashText_injective htext]
    · intro hclimb
      exact ⟨_, hclimb, by simp⟩
  · rw [if_pos (.inl hd)]
    simp [hd, reject]

/-- Inclusion proofs are complete and sound: the audit path of `ds[i]` is
accepted, and if no two leaves or pairs that are hashed collide, it is the only
path that is, and `ds[i]` the only digest. -/
theorem merkle_inclusion_complete_sound {ds : List Str} (hds : ∀ d ∈ ds, isDigest d = true)
    {i : Nat} (hi : i < ds.length) :
    ∃ root path, merkleRoot ds = .ok root ∧ merkleInclusionPath ds i = .ok path ∧
      verifyMerkleInclusionPath (ds.get ⟨i, hi⟩) i ds.length path root = .ok () ∧
      ∀ d path', Set.InjOn asciiLeafHash {x | x ∈ d :: ds} →
        Set.InjOn (Function.uncurry nodeHash) {p | p ∈ hashedPairs ds d i path'} →
        verifyMerkleInclusionPath d i ds.length path' root = .ok () →
        d = ds.get ⟨i, hi⟩ ∧ List.Forall₂ Dict.Same path' path := by
  have hne : ds ≠ [] := by
    rintro rfl
    cases hi
  have hmapM := mapM_leafHash fun d hd => isDigest_ascii (hds d hd)
  have hlevel : (ds.map asciiLeafHash).length = ds.length := List.length_map _
  obtain ⟨node, hroot⟩ : ∃ node,
      PromotedMerkle.root nodeHash ds.length (ds.map asciiLeafHash) = some node :=
    PromotedMerkle.root_eq_some_of_le nodeHash (by simpa using hne) (by omega)
  have hnode : node.length = 32 :=
    PromotedMerkle.root_satisfies (P := fun x : Bytes => x.length = 32) length_nodeHash
      (fun _ => length_of_mem_leaves) hroot
  have hsteps : ∀ step ∈ PromotedMerkle.auditPath nodeHash ds.length (ds.map asciiLeafHash) i,
      step.2.length = 32 :=
    PromotedMerkle.auditPath_satisfies (P := fun x : Bytes => x.length = 32) length_nodeHash
      (fun _ => length_of_mem_leaves)
  have hget : (ds.map asciiLeafHash)[i]? = some (asciiLeafHash (ds.get ⟨i, hi⟩)) := by
    rw [List.getElem?_map, List.getElem?_eq_getElem hi]
    rfl
  refine ⟨hashText node,
    (PromotedMerkle.auditPath nodeHash ds.length (ds.map asciiLeafHash) i).map pathStep,
    ?_, ?_, ?_, ?_⟩
  · unfold merkleRoot
    rw [hmapM, ok_bind, hlevel, hroot]
  · unfold merkleInclusionPath
    rw [if_neg hne, if_neg (by omega), hmapM, ok_bind, hlevel, Int.toNat_natCast]
  · rw [verify_eq_ok_iff hi hnode]
    refine ⟨hds _ (List.get_mem ds ⟨i, hi⟩), ?_⟩
    have hclimb := PromotedMerkle.climb_auditPath nodeHash hget hroot []
    rw [List.append_nil, hlevel] at hclimb
    refine climb_of_reads (by omega) ?_ hclimb
    unfold Reads
    rw [List.forall₂_map_left_iff, List.forall₂_same]
    intro step hstep
    exact readStep_pathStep step.1 (hsteps step hstep)
  · intro d path' hleaf hpairs hverify
    obtain ⟨-, hclimb⟩ := (verify_eq_ok_iff hi hnode).1 hverify
    obtain ⟨steps, hreads, hlib⟩ := exists_reads_of_climb (by omega) hclimb
    have hhashes := climbHashes_of_reads hreads hlib
    obtain ⟨hleafEq, hpath⟩ := @PromotedMerkle.eq_of_climb_eq_root _ nodeHash
      (ds.map asciiLeafHash) ds.length i (asciiLeafHash d) node steps [] _ hpairs
      (fun p hp => List.mem_append_left _ hp)
      (fun p hp => List.mem_append_right _ (by
        rw [hlevel] at hp
        rw [hhashes]
        exact hp))
      (by omega) hroot (by rw [hlevel]; exact hlib)
    rw [List.append_nil] at hpath
    subst hpath
    constructor
    · rw [hget, Option.some.injEq] at hleafEq
      exact (hleaf (List.mem_cons_of_mem _ (List.get_mem ds ⟨i, hi⟩)) List.mem_cons_self
        hleafEq).symm
    · rw [List.forall₂_map_right_iff]
      exact hreads.imp fun step s hread => same_of_readStep hread

/-- A digest made of one hexadecimal digit. -/
def repeatedDigest (digit : Char) : Str := str "sha256:" ++ List.replicate 64 (Json.ch digit)

/-- Three leaves, the second one in place: nothing that is hashed collides, so
its audit path is accepted and no other. -/
theorem merkle_inclusion_of_three :
    ∃ root path,
      merkleRoot [repeatedDigest '0', repeatedDigest '1', repeatedDigest '2'] = .ok root ∧
      merkleInclusionPath [repeatedDigest '0', repeatedDigest '1', repeatedDigest '2'] 1
        = .ok path ∧
      verifyMerkleInclusionPath (repeatedDigest '1') 1 3 path root = .ok () ∧
      ∀ path', Set.InjOn (Function.uncurry nodeHash)
          {p | p ∈ hashedPairs [repeatedDigest '0', repeatedDigest '1', repeatedDigest '2']
            (repeatedDigest '1') 1 path'} →
        verifyMerkleInclusionPath (repeatedDigest '1') 1 3 path' root = .ok () →
        List.Forall₂ Dict.Same path' path := by
  have hinj : Set.InjOn asciiLeafHash {x | x ∈ repeatedDigest '1' ::
      [repeatedDigest '0', repeatedDigest '1', repeatedDigest '2']} := by
    have hall : ∀ a ∈ [repeatedDigest '0', repeatedDigest '1', repeatedDigest '2'],
        ∀ b ∈ [repeatedDigest '0', repeatedDigest '1', repeatedDigest '2'],
        asciiLeafHash a = asciiLeafHash b → a = b := by
      decide +kernel
    intro a ha b hb hab
    exact hall a (by simp at ha ⊢; tauto) b (by simp at hb ⊢; tauto) hab
  obtain ⟨root, path, hroot, hpath, hverify, hsound⟩ :=
    @merkle_inclusion_complete_sound [repeatedDigest '0', repeatedDigest '1', repeatedDigest '2']
      (by decide) 1 (by decide)
  exact ⟨root, path, hroot, hpath, hverify,
    fun path' hpairs h => (hsound (repeatedDigest '1') path' hinj hpairs h).2⟩

end IntegrityGuardian.Ledger
