import IntegrityGuardian.Library.OnePass
import IntegrityGuardian.Python.Isoformat
import Mathlib.Algebra.Order.Group.Int
import Mathlib.Data.Finset.Lattice.Fold
import Mathlib.Data.Finset.Sort
import Mathlib.Order.WithBot

/-!
# Relevant gates

`link` and the gate loop of `SeedRelationshipIndex.explain` in `seed_relationships.py`.
The links that are there before the loop are given by the calls that made them.
-/

namespace IntegrityGuardian.SeedRelationships

open Python Library

/-- What the loop reads of the index; `taskStatus` is `task_status.get`. -/
structure Index where
  byId : Finset Int
  taskStatus : Str → Option Str
  asOf : Int

structure Gate where
  gateId : Str
  gateStatus : Str
  observationStatus : Str
  currentClaim : Option Bool
  relatedTaskId : Str
  staleAfter : Str
  externalEventIds : List Int
  productionAuthorization : Bool
  deriving DecidableEq

/-- An entry of `gate_records`, with what is read of its observation. -/
structure GateRecord where
  sourceEventId : Int
  path : Str
  digest : Str
  bindingStatus : Str
  gate : Gate
  deriving DecidableEq

/-! ## Links -/

structure Link where
  strength : Int
  relations : Finset Str
  reasons : List Json

abbrev Links := Int → Option Link

structure LinkCall where
  targetId : Int
  relation : Str
  strength : Int
  reason : Json

section

variable (index : Index) (eventId : Int)

def link (links : Links) (call : LinkCall) : Links :=
  if call.targetId = eventId ∨ call.targetId ∉ index.byId then links
  else
    let current := (links call.targetId).getD ⟨0, ∅, []⟩
    Function.update links call.targetId (some
      { strength := max current.strength call.strength
        relations := insert call.relation current.relations
        reasons :=
          if call.reason ∈ current.reasons then current.reasons
          else current.reasons ++ [call.reason] })

def linkAll (links : Links) (calls : List LinkCall) : Links :=
  calls.foldl (link index eventId) links

/-- `int(links.get(target_id, {}).get("strength", 0))`. -/
def strengthOf (links : Links) (targetId : Int) : Int := ((links targetId).map Link.strength).getD 0

/-- The test of the supporting ids. -/
def supports (links : Links) (targetId : Int) : Prop :=
  targetId = eventId ∨ 70 ≤ strengthOf links targetId

instance (links : Links) : DecidablePred (supports eventId links) :=
  fun _ => inferInstanceAs (Decidable (_ ∨ _))

/-! ## The loop -/

/-- `datetime.fromisoformat` with a naive value read as UTC. -/
def parseUtc (value : Str) : Option Int :=
  if value.strip = [] then none
  else (Datetime.fromisoformat value.strip).map fun d => d.moment (d.utcoffset.getD 0)

inductive Finding where
  | gateAuthorityClaimRejected (gateId : Str)
  | orphanedGateOwner (gateId taskId taskStatus : Str)
  | staleGateEvidence (gateId staleAfter : Str)
  deriving DecidableEq

def gateFindings (gate : Gate) : List Finding :=
  let task := gate.relatedTaskId
  let status := if task ≠ [] then (index.taskStatus task).getD (str "missing") else str "missing"
  let gateIsOpen := gate.gateStatus = str "open" ∨ gate.gateStatus = str "blocked"
  let claimIsCurrent := gate.currentClaim ≠ some false
  (if gate.productionAuthorization then [.gateAuthorityClaimRejected gate.gateId] else [])
    ++ (if gateIsOpen ∧ claimIsCurrent
        ∧ (status = str "complete" ∨ status = str "failed" ∨ status = str "missing") then
      [.orphanedGateOwner gate.gateId task status] else [])
    ++ (if gate.observationStatus = str "stale"
        ∨ ∃ staleAfter ∈ parseUtc gate.staleAfter, staleAfter < index.asOf then
      [.staleGateEvidence gate.gateId gate.staleAfter] else [])

inductive Relevance where
  | directExternalEvidence
  | supportedThroughConnectedEvent
  deriving DecidableEq

structure RelevantGate where
  gate : Gate
  sourceEventId : Int
  sourcePath : Str
  bindingStatus : Str
  relevance : Relevance
  relevanceEventIds : List Int

def gateLinkStrength (record : GateRecord) : Int :=
  let strength :=
    if record.bindingStatus = str "digest-bound" then 90
    else if record.bindingStatus = str "current-unbound" then 80
    else 40
  if eventId ∉ record.gate.externalEventIds then min strength 80 else strength

def gateReason (record : GateRecord) : Json :=
  .obj [(str "kind", .str (str "gate-external-evidence")),
    (str "gate_id", .str record.gate.gateId),
    (str "artifact", .str record.path),
    (str "artifact_digest", .str record.digest),
    (str "binding_status", .str record.bindingStatus)]

def gateCalls (record : GateRecord) : List LinkCall :=
  record.gate.externalEventIds.map fun targetId =>
    ⟨targetId, str "co-supports-gate", gateLinkStrength eventId record, gateReason record⟩

structure Explanation where
  links : Links
  relevantGates : List RelevantGate
  findings : List Finding

def gateStep (s : Explanation) (record : GateRecord) : Explanation :=
  let externalIds := record.gate.externalEventIds
  let supporting := externalIds.filter (supports eventId s.links)
  if supporting = [] then s
  else
    { links := linkAll index eventId s.links (gateCalls eventId record)
      relevantGates := s.relevantGates ++ [
        { gate := record.gate
          sourceEventId := record.sourceEventId
          sourcePath := record.path
          bindingStatus := record.bindingStatus
          relevance :=
            if eventId ∈ externalIds then .directExternalEvidence
            else .supportedThroughConnectedEvent
          relevanceEventIds := supporting }]
      findings := s.findings ++ gateFindings index record.gate }

/-- The loop behind the calls that made the first links. -/
def explainGates (calls : List LinkCall) (gateRecords : List GateRecord) : Explanation :=
  gateRecords.foldl (gateStep index eventId) ⟨linkAll index eventId (fun _ => none) calls, [], []⟩

end

/-! ## What is compared -/

/-- A relevant gate with its event ids as a set. -/
def RelevantGate.asSet (g : RelevantGate) : RelevantGate × Finset Int :=
  ({ g with relevanceEventIds := [] }, g.relevanceEventIds.toFinset)

/-- The strength and the relations of a link. -/
def view (links : Links) (targetId : Int) : WithBot (Int × Finset Str) :=
  match links targetId with
  | some l => ((l.strength, l.relations) : Int × Finset Str)
  | none => ⊥

structure Explanation.Same (s s' : Explanation) : Prop where
  relevantGates : ∀ g, g ∈ s.relevantGates.map RelevantGate.asSet
    ↔ g ∈ s'.relevantGates.map RelevantGate.asSet
  findings : ∀ f, f ∈ s.findings ↔ f ∈ s'.findings
  links : view s.links = view s'.links

end IntegrityGuardian.SeedRelationships
