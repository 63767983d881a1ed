import IntegrityGuardian.Ledger.Pinning
import IntegrityGuardian.Ledger.Appends
import IntegrityGuardian.Schemas.Texts

/-!
# Inclusion proofs of a run

`event_digests`, `inclusion_proof` and `verify_ledger_inclusion_proof` of
`ledger.py`.  The proof is a document without a signature, so it is worth what
the verifier checks: its schema, the values the reader expects, and the path.
-/

namespace IntegrityGuardian

open Python

namespace Schemas

/-- One item of `audit_path`. -/
def auditStep : Schema :=
  .closed ["side", "digest"] [("side", .enum ["left", "right"]), ("digest", digest)]

/-- `ledger-inclusion-proof.schema.json`. -/
def ledgerInclusionProof : Schema :=
  .closed
    ["protocol", "tenant_id", "ledger_id", "tree_size", "leaf_index", "event_digest",
      "root_digest", "audit_path"]
    [("protocol", .const "integrity-guardian/ledger-inclusion-proof/v1"),
      ("tenant_id", id),
      ("ledger_id", id),
      ("tree_size", .keywords [.ofType .integer, .minimum 1]),
      ("leaf_index", natural),
      ("event_digest", digest),
      ("root_digest", digest),
      ("audit_path", boundedArray 64 auditStep)]

end Schemas

namespace Ledger

open Library
open PromotedMerkle (Side)

/-! ## The verifier -/

/-- The values `verify_ledger_inclusion_proof` is told to expect. -/
structure InclusionExpected where
  tenantId : Option Str
  ledgerId : Option Str
  eventDigest : Option Str
  rootDigest : Option Str
  treeSize : Option Int

/-- The `expected` dictionary, in its order. -/
def InclusionExpected.items (expected : InclusionExpected) : List (String × Option Json) :=
  [("tenant_id", expected.tenantId.map .str), ("ledger_id", expected.ledgerId.map .str),
    ("event_digest", expected.eventDigest.map .str),
    ("root_digest", expected.rootDigest.map .str), ("tree_size", expected.treeSize.map .int)]

/-- One pass of the loop over `expected`. -/
def compareField (proof : Json) (item : String × Option Json) : Except Error Unit :=
  match item.2 with
  | none => .ok ()
  | some value => do
    let actual ← raising (proof.item (str item.1))
    ensure (actual = value) (distrust ("ledger inclusion proof " ++ item.1 ++ " mismatch"))

/-- `dict(step)`; the schema lets objects through only. -/
def readPathStep : Json → Except Error Dict
  | .obj members =>
    if h : (members.map Prod.fst).Nodup then .ok ⟨members, h⟩
    else reject "ledger inclusion audit path rejected"
  | _ => reject "ledger inclusion audit path rejected"

/-- `verify_ledger_inclusion_proof`. -/
def verifyLedgerInclusionProof (proof : Json) (expected : InclusionExpected) :
    Except Error Json := do
  ensure (Schemas.ledgerInclusionProof.accepts proof = true)
    (distrust "ledger inclusion proof schema is invalid")
  expected.items.forM (compareField proof)
  let eventDigestValue ← raising (proof.textItem (str "event_digest"))
  let leafIndex ← raising (proof.intItem (str "leaf_index"))
  let treeSize ← raising (proof.intItem (str "tree_size"))
  let auditPath ← raising (proof.arrayItem (str "audit_path"))
  let expectedRootDigest ← raising (proof.textItem (str "root_digest"))
  let path ← auditPath.mapM readPathStep
  verifyMerkleInclusionPath eventDigestValue leafIndex treeSize path expectedRootDigest
  .ok proof

/-! ## The prover -/

/-- `event_digests`. -/
def eventDigests (rows : List Row) : List Str := (ledgerOrder rows).map Row.eventDigest

/-- The document of `inclusion_proof`. -/
def inclusionDocument (ledger : Identity) (treeSize leafIndex : Nat)
    (eventDigestValue rootDigest : Str) (path : List Dict) : Json :=
  .fields [("protocol", .str (str "integrity-guardian/ledger-inclusion-proof/v1")),
    ("tenant_id", .str ledger.tenantId), ("ledger_id", .str ledger.ledgerId),
    ("tree_size", .int treeSize), ("leaf_index", .int leafIndex),
    ("event_digest", .str eventDigestValue), ("root_digest", .str rootDigest),
    ("audit_path", .arr (path.map fun step => .obj step.members))]

/-- `inclusion_proof`. -/
def inclusionProof (ledger : Identity) (rows : List Row) (eventDigestValue : Str) :
    Except Error Json := do
  let digests := eventDigests rows
  match digests.idxOf? eventDigestValue with
  | none => .error (distrust "ledger inclusion event is absent")
  | some leafIndex => do
    let root ← raising (merkleRoot digests)
    let path ← raising (merkleInclusionPath digests leafIndex)
    verifyLedgerInclusionProof
      (inclusionDocument ledger digests.length leafIndex eventDigestValue root path)
      ⟨some ledger.tenantId, some ledger.ledgerId, some eventDigestValue, none, none⟩

/-! ## What the verifier accepts -/

variable {proof : Json} {expected : InclusionExpected} {d root : Str} {i n : Int}
  {steps : List Json} {path : List Dict} {ds : List Str} {rows : List Row} {ledger : Identity}

theorem compareField_eq_ok {item : String × Option Json} :
    compareField proof item = .ok () ↔ ∀ v, item.2 = some v → proof.get? (str item.1) = some v := by
  unfold compareField
  cases item.2 with
  | none => simp
  | some value =>
    simp only [bind_eq_ok, raising, mapError_eq_ok, Json.item_eq_ok, ensure_eq_ok,
      Option.some.injEq, forall_eq']
    constructor
    · rintro ⟨actual, hactual, rfl⟩
      exact hactual
    · intro hvalue
      exact ⟨value, hvalue, rfl⟩

/-- The fields of a proof as the verifier reads them. -/
structure ReadsProof (proof : Json) (d : Str) (i n : Int) (path : List Dict) (root : Str) :
    Prop where
  eventDigest : proof.get? (str "event_digest") = some (.str d)
  leafIndex : proof.get? (str "leaf_index") = some (.int i)
  treeSize : proof.get? (str "tree_size") = some (.int n)
  auditPath : ∃ steps, proof.get? (str "audit_path") = some (.arr steps) ∧
    steps.mapM readPathStep = .ok path
  rootDigest : proof.get? (str "root_digest") = some (.str root)

theorem verifyLedgerInclusionProof_eq_ok :
    verifyLedgerInclusionProof proof expected = .ok proof ↔
      Schemas.ledgerInclusionProof.accepts proof = true ∧
        (∀ item ∈ expected.items, ∀ v, item.2 = some v → proof.get? (str item.1) = some v) ∧
        ∃ d i n path root, ReadsProof proof d i n path root ∧
          verifyMerkleInclusionPath d i n path root = .ok () := by
  unfold verifyLedgerInclusionProof
  rw [ensure_bind_eq_ok]
  simp only [bind_eq_ok, raising, mapError_eq_ok, Json.textItem_eq_ok, Json.intItem_eq_ok,
    Json.arrayItem_eq_ok]
  refine and_congr_right fun _ => ?_
  constructor
  · rintro ⟨⟨⟩, hitems, d, hd, i, hi, n, hn, steps, hsteps, root, hroot, path, hpath, ⟨⟩, hverify,
      -⟩
    exact ⟨fun item hitem => compareField_eq_ok.1 (forM_eq_ok.1 hitems item hitem),
      d, i, n, path, root, ⟨hd, hi, hn, ⟨steps, hsteps, hpath⟩, hroot⟩, hverify⟩
  · rintro ⟨hitems, d, i, n, path, root, ⟨hd, hi, hn, ⟨steps, hsteps, hpath⟩, hroot⟩, hverify⟩
    have hloop : expected.items.forM (compareField proof) = .ok () :=
      forM_eq_ok.2 fun item hitem => compareField_eq_ok.2 (hitems item hitem)
    exact ⟨(), hloop, d, hd, i, hi, n, hn, steps, hsteps, root, hroot, path, hpath, (), hverify,
      trivial⟩

/-! ## Proofs of what the ledger holds -/

theorem mem_range_nodeHash (x y : Bytes) : nodeHash x y ∈ Set.range sha256 := ⟨_, rfl⟩

theorem mem_range_leaves {x : Bytes} (h : x ∈ ds.map asciiLeafHash) : x ∈ Set.range sha256 := by
  obtain ⟨d, -, rfl⟩ := List.mem_map.1 h
  exact ⟨_, rfl⟩

/-- The audit path of a leaf, and the root it leads to. -/
theorem exists_auditPath {i : Nat} (hds : ∀ d ∈ ds, isDigest d = true) (hi : ds[i]? = some d) :
    ∃ (payload : Bytes) (steps : List (Side × Bytes)), merkleRoot ds = .ok (sha256Digest payload) ∧
      merkleInclusionPath ds i = .ok (steps.map pathStep) ∧
      verifyMerkleInclusionPath d i ds.length (steps.map pathStep) (sha256Digest payload) = .ok () ∧
      (∀ step ∈ steps, step.2 ∈ Set.range sha256) ∧ (ds.length ≤ 2 ^ 64 → steps.length ≤ 64) := by
  obtain ⟨hlt, hd⟩ := List.getElem?_eq_some_iff.1 hi
  have hne : ds ≠ [] := List.ne_nil_of_length_pos (by omega)
  have hmapM := mapM_leafHash fun d hd => isDigest_ascii (hds d hd)
  have hlevel : (ds.map asciiLeafHash).length = ds.length := List.length_map _
  obtain ⟨node, hroot⟩ : ∃ node,
      PromotedMerkle.root nodeHash ds.length (ds.map asciiLeafHash) = some node :=
    PromotedMerkle.root_eq_some_of_le nodeHash (by simpa using hne) (by omega)
  obtain ⟨payload, rfl⟩ : node ∈ Set.range sha256 :=
    PromotedMerkle.root_satisfies mem_range_nodeHash (fun _ => mem_range_leaves) hroot
  have hsteps : ∀ step ∈ PromotedMerkle.auditPath nodeHash ds.length (ds.map asciiLeafHash) i,
      step.2 ∈ Set.range sha256 :=
    PromotedMerkle.auditPath_satisfies (P := fun x => x ∈ Set.range sha256) mem_range_nodeHash
      fun _ => mem_range_leaves
  refine ⟨payload, PromotedMerkle.auditPath nodeHash ds.length (ds.map asciiLeafHash) i, ?_, ?_, ?_,
    hsteps, ?_⟩
  · unfold merkleRoot
    rw [hmapM, ok_bind, hlevel, hroot]
    rfl
  · unfold merkleInclusionPath
    rw [if_neg hne, if_neg (by omega), hmapM, ok_bind, hlevel, Int.toNat_natCast]
  · refine (verify_eq_ok_iff hlt (length_sha256 payload)).2
      ⟨hds d (List.mem_of_getElem? hi), ?_⟩
    have hget : (ds.map asciiLeafHash)[i]? = some (asciiLeafHash d) := by
      rw [List.getElem?_map, hi]
      rfl
    have hclimb := PromotedMerkle.climb_auditPath nodeHash hget hroot []
    rw [List.append_nil, hlevel] at hclimb
    refine climb_of_reads (by omega) ?_ hclimb
    unfold Reads
    rw [List.forall₂_map_left_iff, List.forall₂_same]
    intro step hstep
    obtain ⟨payload, hpayload⟩ := hsteps step hstep
    exact readStep_pathStep step.1 (by rw [← hpayload, length_sha256])
  · intro hlength
    exact PromotedMerkle.length_auditPath_le nodeHash (by rw [hlevel]; exact hlength)

theorem readsProof_inclusionDocument (ledger : Identity) (n i : Nat) (d root : Str)
    (path : List Dict) :
    ReadsProof (inclusionDocument ledger n i d root path) d i n path root := by
  have hpath : (path.map fun step => Json.obj step.members).mapM readPathStep = .ok path := by
    rw [mapM_eq_ok, List.forall₂_map_left_iff, List.forall₂_same]
    intro step _
    exact dif_pos step.nodup
  unfold inclusionDocument
  constructor <;> simp only [Json.get?_fields]
  · rfl
  · rfl
  · rfl
  · exact ⟨_, rfl, hpath⟩
  · rfl

/-- The document meets every expectation that is its own value. -/
theorem meets_inclusionDocument {n i : Nat} {rootDigest : Option Str} {treeSize : Option Int}
    (hroot : ∀ r ∈ rootDigest, r = root) (hsize : ∀ m ∈ treeSize, m = n) :
    ∀ item ∈ InclusionExpected.items
        ⟨some ledger.tenantId, some ledger.ledgerId, some d, rootDigest, treeSize⟩,
      ∀ v, item.2 = some v →
        (inclusionDocument ledger n i d root path).get? (str item.1) = some v := by
  unfold inclusionDocument
  simp only [InclusionExpected.items, List.forall_mem_cons, Json.get?_fields]
  refine ⟨fun v h => h, fun v h => h, fun v h => h, ?_, ?_, by simp⟩
  · intro v h
    obtain ⟨r, hr, rfl⟩ := Option.map_eq_some_iff.1 h
    rw [hroot r hr]
    rfl
  · intro v h
    obtain ⟨m, hm, rfl⟩ := Option.map_eq_some_iff.1 h
    rw [hsize m hm]
    rfl

theorem accepts_pathStep {step : Side × Bytes} (h : step.2 ∈ Set.range sha256) :
    Schemas.auditStep.accepts (.obj (pathStep step).members) = true := by
  obtain ⟨side, node⟩ := step
  obtain ⟨payload, rfl⟩ := h
  have hdisplay : Json.obj (pathStep (side, sha256 payload)).members = .fields
      [("side", .str (sideText side)), ("digest", .str (sha256Digest payload))] := rfl
  rw [hdisplay, Schemas.auditStep, Schema.accepts_closed_fields]
  refine ⟨by simp, by simp, ?_⟩
  simp only [List.forall_mem_cons]
  refine ⟨Schema.accepts_of_lookup rfl ?_, Schema.accepts_of_lookup rfl
    (Schemas.accepts_sha256Digest payload), by simp⟩
  cases side <;> decide

theorem accepts_inclusionDocument {n i : Nat} {p q : Bytes} {steps : List (Side × Bytes)}
    (htenant : Schemas.id.accepts (.str ledger.tenantId) = true)
    (hledger : Schemas.id.accepts (.str ledger.ledgerId) = true) (hn : 1 ≤ n)
    (hsteps : ∀ step ∈ steps, step.2 ∈ Set.range sha256) (hlength : steps.length ≤ 64) :
    Schemas.ledgerInclusionProof.accepts (inclusionDocument ledger n i (sha256Digest p)
      (sha256Digest q) (steps.map pathStep)) = true := by
  rw [inclusionDocument, Schemas.ledgerInclusionProof, Schema.accepts_closed_fields]
  refine ⟨by simp, by simp, ?_⟩
  simp only [List.forall_mem_cons]
  refine ⟨Schema.accepts_of_lookup rfl (Schemas.accepts_const _),
    Schema.accepts_of_lookup rfl htenant, Schema.accepts_of_lookup rfl hledger,
    Schema.accepts_of_lookup rfl ?_, Schema.accepts_of_lookup rfl ?_,
    Schema.accepts_of_lookup rfl (Schemas.accepts_sha256Digest p),
    Schema.accepts_of_lookup rfl (Schemas.accepts_sha256Digest q),
    Schema.accepts_of_lookup rfl (Schemas.accepts_boundedArray.2 ⟨by simpa using hlength, ?_⟩),
    by simp⟩
  · simp [Schema.keywords, Schema.ofType, Schema.minimum, JsonType.of]
    omega
  · simp [Schemas.natural, Schema.keywords, Schema.ofType, Schema.minimum, JsonType.of]
  · simp only [List.map_map, List.forall_mem_map]
    exact fun step hstep => accepts_pathStep (hsteps step hstep)

section
variable [UnicodeData]

theorem length_eventDigests (hs : Sound ledger rows) : (eventDigests rows).length = rows.length := by
  rw [eventDigests, ledgerOrder_eq hs.ordered, List.length_map]

theorem eventDigests_eq_sha256 (hs : Sound ledger rows) (hd : d ∈ eventDigests rows) :
    ∃ payload, d = sha256Digest payload := by
  rw [eventDigests, ledgerOrder_eq hs.ordered] at hd
  obtain ⟨row, hrow, rfl⟩ := List.mem_map.1 hd
  obtain ⟨event, hevent⟩ := hs.recorded row hrow
  obtain ⟨b, -, hdigest⟩ := digestObject_eq_ok hevent.digest
  exact ⟨_, hdigest⟩

theorem isDigest_of_mem (hs : Sound ledger rows) : ∀ d ∈ eventDigests rows, isDigest d = true := by
  intro d hd
  obtain ⟨payload, rfl⟩ := eventDigests_eq_sha256 hs hd
  exact isDigest_hashText (length_sha256 payload)

/-- The tenant of a ledger with an event is an identifier, since the event names it. -/
theorem accepts_tenantId (hs : Sound ledger rows) (hne : rows ≠ []) :
    Schemas.id.accepts (.str ledger.tenantId) = true := by
  obtain ⟨row, hrow⟩ := List.exists_mem_of_ne_nil rows hne
  obtain ⟨event, hevent⟩ := hs.recorded row hrow
  obtain ⟨eventId, -, hfields⟩ := hevent.fields
  unfold readFields at hfields
  obtain ⟨_, -, hfields⟩ := bind_eq_ok.1 hfields
  obtain ⟨tenantId, htenant, hfields⟩ := bind_eq_ok.1 hfields
  obtain ⟨_, -, hfields⟩ := bind_eq_ok.1 hfields
  obtain ⟨_, -, hfields⟩ := bind_eq_ok.1 hfields
  obtain ⟨_, -, hfields⟩ := bind_eq_ok.1 hfields
  cases hfields
  obtain ⟨w, hw, hid⟩ :=
    @Schema.get?_of_closed _ _ _ hevent.valid "tenant_id" Schemas.id (by simp) (by simp)
  rw [Json.textItem_eq_ok.1 htenant, Option.some.injEq] at hw
  rw [← hevent.tenant, hw]
  exact hid

/-- Every digest of the ledger has a proof, which holds for its root and size. -/
theorem exists_inclusionProof (hs : Sound ledger rows)
    (hledger : Schemas.id.accepts (.str ledger.ledgerId) = true) (hlength : rows.length ≤ 2 ^ 64)
    (hd : d ∈ eventDigests rows) :
    ∃ proof root, inclusionProof ledger rows d = .ok proof ∧
      merkleRoot (eventDigests rows) = .ok root ∧
      verifyLedgerInclusionProof proof ⟨some ledger.tenantId, some ledger.ledgerId, some d,
        some root, some rows.length⟩ = .ok proof := by
  have hsize := length_eventDigests hs
  have hne : rows ≠ [] := by
    rintro rfl
    cases hd
  obtain ⟨index, hindex⟩ : ∃ index, (eventDigests rows).idxOf? d = some index :=
    Option.isSome_iff_exists.1 (by simpa using hd)
  have hget : (eventDigests rows)[index]? = some d := by
    obtain ⟨hlt, hd, -⟩ := List.idxOf?_eq_some_iff.1 hindex
    exact List.getElem?_eq_some_iff.2 ⟨hlt, hd⟩
  obtain ⟨q, steps, hroot, hpath, hverify, hsteps, hbound⟩ :=
    exists_auditPath (isDigest_of_mem hs) hget
  obtain ⟨p, rfl⟩ := eventDigests_eq_sha256 hs hd
  have hreads := readsProof_inclusionDocument ledger (eventDigests rows).length index
    (sha256Digest p) (sha256Digest q) (steps.map pathStep)
  have haccepts : Schemas.ledgerInclusionProof.accepts (inclusionDocument ledger
      (eventDigests rows).length index (sha256Digest p) (sha256Digest q) (steps.map pathStep))
      = true :=
    accepts_inclusionDocument (accepts_tenantId hs hne) hledger
      (by rw [hsize]; exact List.length_pos_of_ne_nil hne) hsteps (hbound (by omega))
  refine ⟨_, _, ?_, hroot, verifyLedgerInclusionProof_eq_ok.2 ⟨haccepts, ?_, _, _, _, _, _, hreads,
    hverify⟩⟩
  · unfold inclusionProof raising
    simp only [hindex, hroot, hpath, Except.mapError, ok_bind]
    exact verifyLedgerInclusionProof_eq_ok.2 ⟨haccepts,
      meets_inclusionDocument (by simp) (by simp), _, _, _, _, _, hreads, hverify⟩
  · exact meets_inclusionDocument (by simp) (by simp [hsize])

/-! ## Proofs that are accepted -/

omit [UnicodeData] in
theorem position_of_verify (h : verifyMerkleInclusionPath d i n path root = .ok ()) :
    0 ≤ i ∧ i < n := by
  unfold verifyMerkleInclusionPath at h
  split at h
  · cases h
  · omega

/-- Two of the leaves or pairs hashed for the root and along the path collide. -/
def Collides (ds : List Str) (d : Str) (i : Nat) (path : List Dict) : Prop :=
  ¬Set.InjOn asciiLeafHash {x | x ∈ d :: ds} ∨
    ¬Set.InjOn (Function.uncurry nodeHash) {p | p ∈ hashedPairs ds d i path}

omit [UnicodeData] in
theorem getElem?_of_verify {i : Nat} (hds : ∀ d ∈ ds, isDigest d = true)
    (hroot : merkleRoot ds = .ok root)
    (h : verifyMerkleInclusionPath d i ds.length path root = .ok ()) :
    ds[i]? = some d ∨ Collides ds d i path := by
  by_cases hcollides : Collides ds d i path
  · exact Or.inr hcollides
  left
  obtain ⟨hleaf, hpairs⟩ := not_or.1 hcollides
  rw [not_not] at hleaf hpairs
  have hi : i < ds.length := by
    have hposition := position_of_verify h
    omega
  obtain ⟨node, htree, rfl⟩ :=
    root_of_merkleRoot (fun d hd c hc => by
      simpa using List.all_eq_true.1 (isDigest_ascii (hds d hd)) c hc) hroot
  have hnode : node.length = 32 :=
    PromotedMerkle.root_satisfies (P := fun x : Bytes => x.length = 32) length_nodeHash
      (fun _ => length_of_mem_leaves) htree
  have hlevel : (ds.map asciiLeafHash).length = ds.length := List.length_map _
  obtain ⟨-, hclimb⟩ := (verify_eq_ok_iff hi hnode).1 h
  obtain ⟨steps, hreads, hlib⟩ := exists_reads_of_climb (by omega) hclimb
  obtain ⟨hget, -⟩ := @PromotedMerkle.eq_of_climb_eq_root _ nodeHash (ds.map asciiLeafHash)
    ds.length i (asciiLeafHash d) node steps [] _ hpairs
    (fun p hp => List.mem_append_left _ hp)
    (fun p hp => List.mem_append_right _ (by
      rw [hlevel] at hp
      rw [climbHashes_of_reads hreads hlib]
      exact hp))
    (by omega) htree (by rw [hlevel]; exact hlib)
  rw [List.getElem?_map] at hget
  obtain ⟨e, he, hhash⟩ := Option.map_eq_some_iff.1 hget
  rw [he, hleaf (List.mem_cons_of_mem _ (List.mem_of_getElem? he)) List.mem_cons_self hhash]

variable [Ed25519]

/-- Inclusion proofs of the ledger any calls leave: what it lacks has none, what
it holds has one, and no document proves anything else under its root and size. -/
theorem inclusion_proofs_of_run (ledger : Identity) (calls : List Call) (d : Str) :
    (d ∉ eventDigests (reached ledger calls).rows →
      inclusionProof ledger (reached ledger calls).rows d
        = .error (distrust "ledger inclusion event is absent")) ∧
    (d ∈ eventDigests (reached ledger calls).rows → (reached ledger calls).rows.length ≤ 2 ^ 64 →
      Schemas.id.accepts (.str ledger.ledgerId) = true →
      ∃ proof root, inclusionProof ledger (reached ledger calls).rows d = .ok proof ∧
        merkleRoot (eventDigests (reached ledger calls).rows) = .ok root ∧
        verifyLedgerInclusionProof proof ⟨some ledger.tenantId, some ledger.ledgerId, some d,
          some root, some (reached ledger calls).rows.length⟩ = .ok proof) ∧
    ∀ proof root, merkleRoot (eventDigests (reached ledger calls).rows) = .ok root →
      verifyLedgerInclusionProof proof ⟨none, none, some d, some root,
        some (reached ledger calls).rows.length⟩ = .ok proof →
      ∃ (i : Nat) (path : List Dict),
        ReadsProof proof d i (reached ledger calls).rows.length path root ∧
          ((eventDigests (reached ledger calls).rows)[i]? = some d ∨
            Collides (eventDigests (reached ledger calls).rows) d i path) := by
  have hs := reached_sound ledger calls
  have hsize := length_eventDigests hs
  refine ⟨?_, fun hd hlength hledger => exists_inclusionProof hs hledger hlength hd, ?_⟩
  · intro hd
    unfold inclusionProof
    simp only [List.idxOf?_eq_none_iff.2 hd]
  · intro proof root hroot h
    obtain ⟨-, hitems, d', i, n, path, root', hreads, hverify⟩ :=
      verifyLedgerInclusionProof_eq_ok.1 h
    have hd := hitems ("event_digest", some (.str d)) (by simp [InclusionExpected.items]) _ rfl
    have hr := hitems ("root_digest", some (.str root)) (by simp [InclusionExpected.items]) _ rfl
    have hn := hitems ("tree_size", some (.int (reached ledger calls).rows.length))
      (by simp [InclusionExpected.items]) _ rfl
    rw [hreads.eventDigest, Option.some.injEq, Json.str.injEq] at hd
    rw [hreads.rootDigest, Option.some.injEq, Json.str.injEq] at hr
    rw [hreads.treeSize, Option.some.injEq, Json.int.injEq] at hn
    subst hd hr hn
    obtain ⟨i, rfl⟩ := Int.eq_ofNat_of_zero_le (position_of_verify hverify).1
    rw [← hsize] at hverify
    exact ⟨i, path, hreads, getElem?_of_verify (isDigest_of_mem hs) hroot hverify⟩

end

end Ledger

end IntegrityGuardian
