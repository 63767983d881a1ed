import IntegrityGuardian.Ledger.Inclusion
import IntegrityGuardian.Signing.OwnSignatures

/-!
# Checkpoints of a run

`checkpoint` of `ledger.py`, and what its document is good for: `verify` accepts
it until the next event is appended, and `append_at_checkpoint` appends once.
-/

namespace IntegrityGuardian.Ledger

open Python Library

/-! ## Taking a checkpoint -/

/-- The document of `checkpoint` before it is signed. -/
def checkpointFields (ledger : Identity) (checkpointId : Str) (treeSize : Nat)
    (rootDigest lastEventDigest createdAt signerId : Str) : List (String × Json) :=
  [("protocol", .str (str "integrity-guardian/checkpoint/v1")),
    ("checkpoint_id", .str checkpointId), ("tenant_id", .str ledger.tenantId),
    ("ledger_id", .str ledger.ledgerId), ("tree_size", .int treeSize),
    ("root_digest", .str rootDigest), ("last_event_digest", .str lastEventDigest),
    ("created_at", .str createdAt), ("signer_id", .str signerId)]

section
variable [UnicodeData] [Ed25519]

/-- `checkpoint`; `createdAt` is its argument, or the clock when that is empty. -/
def checkpoint (ledger : Identity) (rows : List Row) (checkpointId : Str) (signer : Ed25519Signer)
    (createdAt : Str) : Except Error Json := do
  let digests := eventDigests rows
  match digests.getLast? with
  | none => .error (refuse "cannot checkpoint an empty ledger")
  | some lastEventDigest => do
    let rootDigest ← raising (merkleRoot digests)
    let document ← raising (signer.sign (.fields (checkpointFields ledger checkpointId
      digests.length rootDigest lastEventDigest createdAt signer.keyId)))
    raising (Schemas.validate Schemas.checkpoint document)
    .ok document

end

section
variable [UnicodeData] [Ed25519Keys] {ledger : Identity} {rows rows' : List Row}
  {checkpointId createdAt : Str} {document : Json} {signer : Ed25519Signer}

omit [Ed25519Keys] in
/-- A sound table that verifies with a checkpoint has the checkpoint's size. -/
theorem Sound.treeSize_of_verify [Ed25519] {sourcePublicKeys : Str → Option TrustedKey}
    {checkpointKey : Option TrustedKey} {report : Verification} (hs : Sound ledger rows)
    (h : verify ledger (rows.map Row.stored) sourcePublicKeys (some document) checkpointKey
      = .ok report) :
    document.intItem (str "tree_size") = .ok rows.length ∧
      ∀ row ∈ rows, SignedBy sourcePublicKeys row := by
  unfold verify at h
  rw [storedOrder_table hs.ordered] at h
  obtain ⟨s, hloop, h⟩ := bind_eq_ok.1 h
  obtain ⟨⟨⟩, hcheckpoint, -⟩ := bind_eq_ok.1 h
  rcases hs.verify_loop sourcePublicKeys with ⟨hsigned, s', hagrees, hloop'⟩ | ⟨-, hloop'⟩
  · rw [hloop, Except.ok.injEq] at hloop'
    obtain ⟨root, hsize, -⟩ := root_of_verifyCheckpoint hcheckpoint
    rw [hloop', hagrees.reconstructed, List.length_map] at hsize
    exact ⟨hsize, hsigned⟩
  · rw [hloop] at hloop'
    cases hloop'

end

/-! ## Appending at one -/

section
variable [UnicodeData] [Ed25519]

/-- The checkpoints at which calls of a run appended. -/
def committedCheckpoints (ledger : Identity) : Database → List Call → List Json
  | _, [] => []
  | db, call :: calls =>
    let after := step ledger call db
    match call.operation, after.1 with
    | .appendAtCheckpoint _ _ document _ _, .ok _ =>
      document.value :: committedCheckpoints ledger after.2 calls
    | _, _ => committedCheckpoints ledger after.2 calls

/-- The document commits to `n` events. -/
def CommitsTo (document : Json) (n : Int) : Prop := document.intItem (str "tree_size") = .ok n

variable {ledger : Identity} {db : Database} {call : Call} {event document : Document}
  {keys : Str → Option TrustedKey} {key : TrustedKey} {validator : Option (List Json → Verdict)}
  {digest : Str} {digests : List Str}

theorem commitsTo_of_appendAtCheckpoint {connection : Nat} (hs : Sound ledger db.rows)
    (h : (appendAtCheckpoint ledger connection event.value keys document.value key validator db).1
      = .ok digest) : CommitsTo document.value db.rows.length := by
  unfold appendAtCheckpoint at h
  cases hwriter : db.writer with
  | some owner =>
    simp only [hwriter] at h
    split at h <;> cases h
  | none =>
    simp only [hwriter] at h
    cases hadmission : admission ledger event.value keys document.value key validator db with
    | error e => simp [hadmission] at h
    | ok verdict =>
      unfold admission at hadmission
      obtain ⟨report, hreport, -⟩ := bind_eq_ok.1 hadmission
      exact (hs.treeSize_of_verify hreport).1

/-- A step keeps the table sound and shortens it never; an append at a checkpoint
commits to the table before it and lengthens it. -/
theorem step_sizes (ledger : Identity) (call : Call) (hs : Sound ledger db.rows) :
    Sound ledger (step ledger call db).2.rows ∧
      db.rows.length ≤ (step ledger call db).2.rows.length ∧
      ∀ event keys document key validator,
        call.operation = .appendAtCheckpoint event keys document key validator →
        ∀ digests, (step ledger call db).1 = .ok digests →
          CommitsTo document.value db.rows.length ∧
            db.rows.length < (step ledger call db).2.rows.length := by
  have hstep := step_outcome call hs
  cases hresult : (step ledger call db).1 with
  | error e =>
    rw [hresult] at hstep
    have hrows : (step ledger call db).2.rows = db.rows := hstep
    rw [hrows]
    refine ⟨hs, le_refl _, ?_⟩
    intro _ _ _ _ _ _ digests h
    cases h
  | ok digests =>
    rw [hresult] at hstep
    obtain ⟨hs', new, hnew, hrecords, -⟩ := hstep
    rw [hnew, List.length_append]
    refine ⟨hnew ▸ hs', Nat.le_add_right .., ?_⟩
    intro event keys document key validator hoperation _ _
    have hlength := hrecords.length_eq
    rw [hoperation] at hlength
    have hone : new.length = 1 := hlength.symm
    refine ⟨?_, by omega⟩
    unfold step at hresult
    simp only [hoperation] at hresult
    obtain ⟨digest, hdigest, -⟩ := map_eq_ok.1 hresult
    exact commitsTo_of_appendAtCheckpoint hs hdigest

/-- The checkpoints of a run commit to at least the events there are, and ever more. -/
theorem committedCheckpoints_increase (hs : Sound ledger db.rows) (calls : List Call) :
    (∀ c ∈ committedCheckpoints ledger db calls, ∃ n, CommitsTo c n ∧ db.rows.length ≤ n) ∧
      (committedCheckpoints ledger db calls).Pairwise fun c c' =>
        ∃ m n, CommitsTo c m ∧ CommitsTo c' n ∧ m < n := by
  induction calls generalizing db with
  | nil => exact ⟨by simp [committedCheckpoints], List.Pairwise.nil⟩
  | cons call calls ih =>
    obtain ⟨hs', hle, hcommit⟩ := step_sizes ledger call hs
    obtain ⟨hleast, hpairwise⟩ := ih hs'
    have hlater : ∀ c ∈ committedCheckpoints ledger (step ledger call db).2 calls,
        ∃ n, CommitsTo c n ∧ db.rows.length ≤ n := by
      intro c hc
      obtain ⟨n, hn, hbound⟩ := hleast c hc
      exact ⟨n, hn, by omega⟩
    unfold committedCheckpoints
    simp only
    split
    · rename_i event keys document key validator digests hoperation hresult
      obtain ⟨hnow, hlt⟩ := hcommit event keys document key validator hoperation digests hresult
      refine ⟨List.forall_mem_cons.2 ⟨⟨_, hnow, le_refl _⟩, hlater⟩,
        List.pairwise_cons.2 ⟨?_, hpairwise⟩⟩
      intro c hc
      obtain ⟨n, hn, hbound⟩ := hleast c hc
      exact ⟨_, n, hnow, hn, by omega⟩
    · exact ⟨hlater, hpairwise⟩

/-- `append_at_checkpoint` is a compare-and-append: over any calls on any
connections, the checkpoints that led to appends commit to ever more events, so
none of them led to two. -/
theorem appends_at_checkpoints_increase (ledger : Identity) (calls : List Call) :
    ((committedCheckpoints ledger Database.empty calls).Pairwise fun c c' =>
        ∃ m n, CommitsTo c m ∧ CommitsTo c' n ∧ m < n) ∧
      (committedCheckpoints ledger Database.empty calls).Nodup := by
  have hs : Sound ledger Database.empty.rows := sound_nil ledger
  obtain ⟨-, hpairwise⟩ := committedCheckpoints_increase hs calls
  refine ⟨hpairwise, hpairwise.imp ?_⟩
  rintro c _ ⟨m, n, hm, hn, hlt⟩ rfl
  rw [CommitsTo, hm, Except.ok.injEq] at hn
  omega

end

end IntegrityGuardian.Ledger
