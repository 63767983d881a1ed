import IntegrityGuardian.Discovery.Record

/-!
# Admission of discovery records

`discovery_admission.py`: the out-of-band classification of source epochs and
the decision whether a verified record may replace the active one of its key.
-/

namespace IntegrityGuardian.Discovery

open Python Library

/-! ## Policies -/

inductive DiscoveryFactClass where
  | static
  | quasiStatic
  | dynamic
  | cache
  | derived
  | theoretical
  | unknown
  deriving DecidableEq

def DiscoveryFactClass.value : DiscoveryFactClass → String
  | .static => "static"
  | .quasiStatic => "quasi-static"
  | .dynamic => "dynamic"
  | .cache => "cache"
  | .derived => "derived"
  | .theoretical => "theoretical"
  | .unknown => "unknown"

/-- `_STABLE_CLASSES`; every other class is in `_WEAK_CLASSES`. -/
def DiscoveryFactClass.stable : DiscoveryFactClass → Bool
  | .static => true
  | .quasiStatic => true
  | _ => false

inductive DiscoveryLifecycle where
  | persistent
  | active
  | ephemeral
  | derived
  | theoretical
  | unknown
  deriving DecidableEq

def DiscoveryLifecycle.value : DiscoveryLifecycle → String
  | .persistent => "persistent"
  | .active => "active"
  | .ephemeral => "ephemeral"
  | .derived => "derived"
  | .theoretical => "theoretical"
  | .unknown => "unknown"

/-- `DiscoverySourceBinding`, with what its constructor checks. -/
structure DiscoverySourceBinding where
  sourceId : Str
  sourceEpoch : Str
  factClass : DiscoveryFactClass
  lifecycle : DiscoveryLifecycle
  sourceId_valid : Schemas.idBody sourceId = true
  sourceEpoch_valid : Schemas.idBody sourceEpoch = true

def DiscoverySourceBinding.key (binding : DiscoverySourceBinding) : SourceKey :=
  toLex (binding.sourceId, binding.sourceEpoch)

def DiscoverySourceBinding.document (binding : DiscoverySourceBinding) : Json :=
  .fields [("source_id", .str binding.sourceId), ("source_epoch", .str binding.sourceEpoch),
    ("fact_class", .str (str binding.factClass.value)),
    ("lifecycle", .str (str binding.lifecycle.value))]

/-- `_ADMISSION_BOUNDARY`. -/
def admissionBoundary : Json :=
  .fields [("execution", .bool false), ("network", .bool false),
    ("priority_is_authority", .bool false), ("production_authority", .bool false),
    ("record_mutation", .bool false)]

/-- `DiscoveryAdmissionPolicy.document`. -/
def policyDocument (policyId : Str) (sourceBindings : List DiscoverySourceBinding) : Json :=
  .fields [("protocol", .str (str "integrity-guardian/discovery-admission-policy/v1")),
    ("policy_id", .str policyId),
    ("source_bindings", .arr (sourceBindings.map DiscoverySourceBinding.document)),
    ("boundary", admissionBoundary)]

section
variable [UnicodeData]

/-- `DiscoveryAdmissionPolicy`: bindings in key order, each key once, and the
digest taken at construction. -/
structure DiscoveryAdmissionPolicy where
  policyId : Str
  sourceBindings : List DiscoverySourceBinding
  digest : Str
  policyId_valid : Schemas.idBody policyId = true
  nonempty : sourceBindings ≠ []
  length_le : sourceBindings.length ≤ 1000
  ordered : sourceBindings.Pairwise fun a b => a.key < b.key
  digest_eq : digestObject (policyDocument policyId sourceBindings)
    (str "discovery-admission-policy-v1") = .ok digest

/-- `binding_for`. -/
def DiscoveryAdmissionPolicy.bindingFor (policy : DiscoveryAdmissionPolicy) (record : Record) :
    Option DiscoverySourceBinding :=
  policy.sourceBindings.find? fun binding => binding.key = record.sourceKey

/-! ## Semantic identities -/

/-- The typed predicate of an assertion. -/
def Assertion.predicate : Assertion → Json
  | .entity _ entityType => .fields [("entity_type", .str entityType)]
  | .relation _ relationType fromEntityId toEntityId fromZoneId toZoneId =>
    .fields [("relation_type", .str relationType), ("from_entity_id", .str fromEntityId),
      ("to_entity_id", .str toEntityId), ("from_zone_id", .str fromZoneId),
      ("to_zone_id", .str toZoneId)]
  | .gap _ classification subjectId =>
    .fields [("classification", .str (str classification.value)),
      ("subject_id", .ofOptionalText subjectId)]

/-- `_semantic_identity`. -/
def semanticIdentity (record : Record) (binding : DiscoverySourceBinding) : Except Exc Str := do
  let core := Json.fields [("source_id", .str binding.sourceId),
    ("kind", .str (str record.assertion.kind.value)),
    ("assertion_id", .str record.assertion.identity),
    ("predicate", record.assertion.predicate),
    ("fact_class", .str (str binding.factClass.value)),
    ("lifecycle", .str (str binding.lifecycle.value))]
  let digest ← digestObject core (str "discovery-semantic-identity-v1")
  .ok (str "discovery-semantic:" ++ digest.afterColon)

/-- `discovery_semantic_identity`. -/
def discoverySemanticIdentity (policy : DiscoveryAdmissionPolicy) (record : Record) :
    Except Error Str :=
  match policy.bindingFor record with
  | none => .error (.admission (str "unbound semantic identity source"))
  | some binding => raising (semanticIdentity record binding)

/-! ## Decisions -/

inductive DiscoveryAdmissionAction where
  | admitted
  | quarantine
  deriving DecidableEq

/-- `DiscoveryAdmissionDecision`. -/
structure DiscoveryAdmissionDecision where
  action : DiscoveryAdmissionAction
  reason : String
  candidateRecordId : Str
  currentRecordId : Option Str
  policyDigest : Str
  semanticIdentity : Option Str
  reviewPriority : Int
  deriving DecidableEq

/-- An action, its reason and the identity it is about. -/
abbrev Verdict := DiscoveryAdmissionAction × String × Option Str

/-- The verdict on a record without an active one of its key. -/
def judgeNew (candidateIdentity : Str) : Option Str → Verdict
  | none => (.admitted, "new-source-owned-assertion", some candidateIdentity)
  | some historical =>
    if candidateIdentity ≠ historical then
      (.quarantine, "historical-semantic-identity-conflict", some candidateIdentity)
    else (.admitted, "historical-semantic-reintroduction", some candidateIdentity)

/-- The verdict on a record that would replace an active one. -/
def judgeReplacement (policy : DiscoveryAdmissionPolicy) (candidate current : Record)
    (candidateBinding : DiscoverySourceBinding) (candidateIdentity : Str) :
    Except Error Verdict :=
  match policy.bindingFor current with
  | none => .ok (.quarantine, "unbound-current-source", some candidateIdentity)
  | some currentBinding => do
    ensure (candidate.assertion.kind = current.assertion.kind
        ∧ candidate.assertion.identity = current.assertion.identity)
      (.admission (str "admission compared unrelated assertions"))
    if currentBinding.factClass.stable ∧ ¬candidateBinding.factClass.stable then
      .ok (.quarantine, "weaker-class-cannot-replace-stable-fact", some candidateIdentity)
    else do
      let currentIdentity ← raising (semanticIdentity current currentBinding)
      if candidateIdentity ≠ currentIdentity then
        .ok (.quarantine, "semantic-identity-conflict", some candidateIdentity)
      else if candidateBinding.sourceEpoch ≠ currentBinding.sourceEpoch then
        .ok (.quarantine, "source-epoch-replacement-requires-explicit-migration",
          some candidateIdentity)
      else if candidate.change = .delete then
        .ok (.admitted, "exact-source-owned-tombstone", some candidateIdentity)
      else .ok (.admitted, "exact-lifecycle-refresh", some candidateIdentity)

/-- The verdict on a record, given the active one and the history of its key. -/
def judge (policy : DiscoveryAdmissionPolicy) (candidate : Record) (current : Option Record)
    (historical : Option Str) : Except Error Verdict :=
  match policy.bindingFor candidate with
  | none => .ok (.quarantine, "unbound-candidate-source", none)
  | some candidateBinding => do
    let candidateIdentity ← raising (semanticIdentity candidate candidateBinding)
    match current with
    | none => .ok (judgeNew candidateIdentity historical)
    | some current => judgeReplacement policy candidate current candidateBinding candidateIdentity

/-- The `review_priority` argument. -/
def checkReviewPriority : Json → Except Error Int
  | .int n => do
    ensure (0 ≤ n ∧ n ≤ 1000000) (.admission (str "admission review priority rejected"))
    .ok n
  | _ => .error (.admission (str "admission review priority rejected"))

/-- `evaluate_discovery_admission`. -/
def evaluateDiscoveryAdmission (policy : DiscoveryAdmissionPolicy) (candidate : Record)
    (current : Option Record) (historical : Option Str) (reviewPriority : Json) :
    Except Error DiscoveryAdmissionDecision := do
  let priority ← checkReviewPriority reviewPriority
  ensure (historical.all (Schemas.hashBody "discovery-semantic:"))
    (.admission (str "admission historical semantic identity rejected"))
  let (action, reason, identity) ← judge policy candidate current historical
  .ok { action, reason
        candidateRecordId := candidate.recordId
        currentRecordId := current.map Record.recordId
        policyDigest := policy.digest
        semanticIdentity := identity
        reviewPriority := priority }

end

end IntegrityGuardian.Discovery
