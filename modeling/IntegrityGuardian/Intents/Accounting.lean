import IntegrityGuardian.Intents.Reconciler
import IntegrityGuardian.Library.SnapshotLoop
import IntegrityGuardian.Python.JsonDisplays
import IntegrityGuardian.Schemas.Texts
import Mathlib.Data.List.Perm.Basic

/-!
# Accounting of observed changes

`reconcile` leaves nothing out: each delta has its entry, in order, and each expected
change that no delta matched has one after them.  The conditions below are those of a
single delta and the intent, so the order of the deltas is the order of their entries.
-/

namespace IntegrityGuardian.Intents

open Python Library

/-- What `reconcile` reads of a verified intent. -/
structure Reading where
  view : Intent
  createdAt : Int
  validFrom : Int
  validUntil : Int

section
variable [UnicodeData]

/-- The reading of a document. -/
structure Reads (document : Json) (r : Reading) : Prop where
  view : readIntent document = .ok r.view
  createdAt : parseTime r.view.createdAt = .ok r.createdAt
  validFrom : parseTime r.view.validFrom = .ok r.validFrom
  validUntil : parseTime r.view.validUntil = .ok r.validUntil

/-- The intent applies to the delta: its target, complete evidence, made before, and valid then. -/
def Applies (r : Reading) (delta : ObservedDelta) : Prop :=
  delta.tenantId = r.view.tenantId ∧ delta.nodeId = r.view.nodeId ∧
    delta.evidenceComplete = true ∧ r.view.retrospective = false ∧
    ∃ observedAt, parseTime delta.observedAt = .ok observedAt ∧ r.createdAt ≤ observedAt ∧
      r.validFrom ≤ observedAt ∧ observedAt ≤ r.validUntil

/-- The expected change at the index has the delta's selector and operation. -/
def Expects (changes : List ExpectedChange) (delta : ObservedDelta) (index : Nat) : Prop :=
  ∃ change, changes[index]? = some change ∧ change.selector = delta.selector ∧
    change.operation = delta.operation

/-- The delta matches the expected change at the index, and no other. -/
def Matches (r : Reading) (delta : ObservedDelta) (index : Nat) : Prop :=
  Applies r delta ∧ ∀ i, Expects r.view.expectedChanges delta i ↔ i = index

/-- The delta is exactly the change it matches, and its check passed. -/
def Succeeds (r : Reading) (delta : ObservedDelta) : Prop :=
  ∃ index change, Matches r delta index ∧ r.view.expectedChanges[index]? = some change ∧
    change.beforeDigest = delta.beforeDigest ∧ change.afterDigest = delta.afterDigest ∧
    delta.postCheck = .pass

/-- The entry of a delta. -/
def deltaEntry (r : Reading) (delta : ObservedDelta) : Except Exc Json :=
  (reconcileDelta r.view r.createdAt r.validFrom r.validUntil delta).map Prod.fst

/-- The entry of an expected change that no delta matched. -/
def unmatchedEntry (r : Reading) (classification : Classification) (index : Nat) :
    Except Exc Json :=
  result classification none (some r.view)
    (str "expected change " ++ Json.decimal index ++ str " was not observed") (some index)

/-- One entry for each delta, in order, and one for each expected change that no delta matched,
in the order of their indexes. -/
structure Account (r : Reading) (observed : List ObservedDelta) (entries missing : List Json) :
    Prop where
  entries : List.Forall₂ (fun delta entry => deltaEntry r delta = .ok entry ∧
    (entry.get? (str "classification") = some (.str (str "authorized_success")) ↔
      Succeeds r delta)) observed entries
  missing : ∃ unmatched classification,
    List.Forall₂ (fun index entry => unmatchedEntry r classification index = .ok entry)
      unmatched missing ∧
    unmatched.Pairwise (· < ·) ∧
    (∀ i, i ∈ unmatched ↔ i < r.view.expectedChanges.length ∧
      ∀ delta ∈ observed, ¬Matches r delta i) ∧
    (classification = .plannedNotObserved ∧ (∀ delta ∈ observed, ∀ i, ¬Matches r delta i) ∨
      classification = .authorizedPartial ∧ ∃ delta ∈ observed, ∃ i, Matches r delta i)

/-! ## One delta -/

variable {payload : Bytes} {view : Intent} {document entry : Json} {judgement : Judgement}
  {changes : List ExpectedChange} {delta : ObservedDelta} {r : Reading}

section
variable [Ed25519]

variable {document : Json} {entries : List (Json × Option Nat)} {observed : List ObservedDelta}
  {r : Reading} {key : TrustedKey}

end

end

end IntegrityGuardian.Intents
