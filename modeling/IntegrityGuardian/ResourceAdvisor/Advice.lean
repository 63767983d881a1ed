import IntegrityGuardian.Library.Transaction
import IntegrityGuardian.Python.Json
import Mathlib.Algebra.Order.Ring.Rat
import Mathlib.Data.List.MinMax

/-!
# The resource advisor

`metering.py` and `core.py` of the resource advisor: forecasts, rates and
calibrations of configurations, and `advise`.  The spelling of identifiers and
digests, which the constructors check, decides nothing here and is left open; the
Wilson bounds are computed in floating point and are a parameter.
-/

namespace IntegrityGuardian.ResourceAdvisor

open Python Library

/-- An `AdviceError` with its code, or the `ZeroDivisionError` of a `Fraction`. -/
inductive Failure where
  | advice (code : String)
  | zeroDivision
  deriving DecidableEq

def maxCount : Nat := 1000000000000000

/-- `integer(value)`. -/
def integer (value : Nat) : Except Failure Nat := do
  ensure (value ≤ maxCount) (.advice "invalid-integer")
  .ok value

/-- `identity`; every text in a value it is given is ASCII. -/
def identity (value : Json) (domain : Str) : Str :=
  let raw := (domain ++ ⟨0, CodePoint.zero_lt⟩ :: Json.dumps value).map fun c => UInt8.ofNat c.val
  str "sha256:" ++ hex (sha256 raw)

/-! ## Records -/

structure Interval where
  low : Nat
  high : Nat
  ordered : low ≤ high
  bounded : high ≤ maxCount
  deriving DecidableEq

/-- `Interval(low, high)`. -/
def Interval.make (low high : Nat) : Except Failure Interval :=
  if h : low ≤ high ∧ high ≤ maxCount then .ok ⟨low, high, h.1, h.2⟩
  else .error (.advice "invalid-integer")

def Interval.plus (a b : Interval) : Except Failure Interval :=
  Interval.make (a.low + b.low) (a.high + b.high)

def zero : Interval := ⟨0, 0, le_rfl, Nat.zero_le _⟩

inductive NativeReasoning where
  | minimal
  | low
  | medium
  | high
  | maximum
  deriving DecidableEq

def NativeReasoning.text : NativeReasoning → Str
  | minimal => str "minimal"
  | low => str "low"
  | medium => str "medium"
  | high => str "high"
  | maximum => str "maximum"

structure Configuration where
  provider : Str
  model : Str
  revision : Str
  effort : Str
  nativeReasoning : NativeReasoning
  speed : Str
  hostRevision : Str
  capabilities : List Str
  contextWindow : Nat
  outputLimit : Nat
  canonicalCapabilities : capabilities.Pairwise (· < ·)
  hasWindow : 1 ≤ contextWindow ∧ contextWindow ≤ maxCount
  hasOutput : 1 ≤ outputLimit ∧ outputLimit ≤ contextWindow
  deriving DecidableEq

def texts (values : List Str) : Json := .arr (values.map Json.str)

/-- `asdict(configuration)`. -/
def Configuration.asdict (c : Configuration) : Json :=
  .obj [(str "provider", .str c.provider), (str "model", .str c.model),
    (str "revision", .str c.revision), (str "effort", .str c.effort),
    (str "native_reasoning", .str c.nativeReasoning.text), (str "speed", .str c.speed),
    (str "host_revision", .str c.hostRevision), (str "capabilities", texts c.capabilities),
    (str "context_window", .int c.contextWindow), (str "output_limit", .int c.outputLimit)]

def Configuration.key (c : Configuration) : Str :=
  identity c.asdict (str "resource-configuration-v1")

structure Workload where
  family : Str
  environmentDigest : Str
  toolsDigest : Str
  evaluatorDigest : Str
  instructionsDigest : Str
  /-- Novelty, ambiguity, coupling, consequence of error. -/
  complexity : Fin 4 × Fin 4 × Fin 4 × Fin 4
  reliableVerifier : Bool
  capabilities : List Str
  deriving DecidableEq

/-- `asdict(workload)`. -/
def Workload.asdict (w : Workload) : Json :=
  let (novelty, ambiguity, coupling, consequence) := w.complexity
  .obj [(str "family", .str w.family), (str "environment_digest", .str w.environmentDigest),
    (str "tools_digest", .str w.toolsDigest), (str "evaluator_digest", .str w.evaluatorDigest),
    (str "instructions_digest", .str w.instructionsDigest),
    (str "complexity", .arr [.int novelty, .int ambiguity, .int coupling, .int consequence]),
    (str "reliable_verifier", .bool w.reliableVerifier),
    (str "capabilities", texts w.capabilities)]

def Workload.key (w : Workload) : Str := identity w.asdict (str "resource-calibration-scope-v1")

inductive Boundary where
  | entry
  | phase
  | checkpoint
  | milestone
  | failure
  | drift
  | budget
  | unchanged
  deriving DecidableEq

/-- What a calibration rests on; a stage asks for one of the first two. -/
inductive Basis where
  | measured
  | synthetic
  | selfReport
  deriving DecidableEq

structure Stage where
  tenantId : Str
  incidentId : Str
  rootTaskId : Str
  stageId : Str
  workload : Workload
  currentConfiguration : Str
  now : Nat
  checkpoint : Nat
  lastSwitchCheckpoint : Nat
  boundary : Boundary
  inputPeak : Nat
  outputPeak : Nat
  contextDigest : Str
  evidenceMode : Basis
  notSelfReported : evidenceMode ≠ .selfReport
  lastSwitch_le : lastSwitchCheckpoint ≤ checkpoint

/-- The charged buckets of a token count or of a rate. -/
structure Buckets where
  uncachedInput : Option Nat
  cacheRead : Option Nat
  cacheWrite : Option Nat
  output : Option Nat
  deriving DecidableEq

def Buckets.toList (b : Buckets) : List (Option Nat) :=
  [b.uncachedInput, b.cacheRead, b.cacheWrite, b.output]

/-- The sum of the counts, when none of them is missing. -/
def sumCounts : List (Option Nat) → Option Nat
  | [] => some 0
  | count :: counts => do
    let count ← count
    let rest ← sumCounts counts
    some (count + rest)

structure Tokens where
  charged : Buckets
  reasoning : Option Nat
  reasoning_le : ∀ r ∈ reasoning, ∀ o ∈ charged.output, r ≤ o

def Tokens.inputTotal (t : Tokens) : Option Nat := sumCounts (t.charged.toList.take 3)

def Tokens.total (t : Tokens) : Option Nat := sumCounts t.charged.toList

/-- Integer minor units per million tokens. -/
structure Rates where
  configurationId : Str
  unit : Str
  perMillion : Buckets
  validFrom : Nat
  validUntil : Nat
  lasts : validFrom < validUntil

/-- The sum over the buckets; a count that is missing, or has no rate, leaves it open. -/
def charge : List (Option Nat) → List (Option Nat) → Option Nat
  | count :: counts, rate :: rates => do
    let count ← count
    if count ≠ 0 ∧ rate = none then none
    else do
      let rest ← charge counts rates
      some (count * rate.getD 0 + rest)
  | _, _ => some 0

def Rates.quote (rates : Rates) (usage : Tokens) (configurationId : Str) (now : Nat) :
    Except Failure (Option Nat) := do
  ensure (configurationId = rates.configurationId) (.advice "rate-configuration-mismatch")
  if ¬(rates.validFrom ≤ now ∧ now < rates.validUntil) then .ok none
  else
    match charge usage.charged.toList rates.perMillion.toList with
    | none => .ok none
    | some numerator => (integer ((numerator + 999999) / 1000000)).map some

structure Candidate where
  configuration : Configuration
  lowTokens : Tokens
  highTokens : Tokens
  rates : Option Rates
  extraUnits : Interval
  handoffUnits : Interval
  latencyMs : Interval
  handoffMs : Interval
  handoffTokens : Nat
  upright : ∀ pair ∈ lowTokens.charged.toList.zip highTokens.charged.toList,
    ∀ low ∈ pair.1, ∀ high ∈ pair.2, low ≤ high
  ownRates : ∀ r ∈ rates, r.configurationId = configuration.key

def Candidate.key (c : Candidate) : Str := c.configuration.key

structure Calibration where
  configurationId : Str
  workloadId : Str
  accepted : Nat
  trials : Nat
  observedAt : Nat
  expiresAt : Nat
  evidenceDigest : Str
  basis : Basis
  accepted_le : accepted ≤ trials
  hasTrials : 1 ≤ trials ∧ trials ≤ 1000000
  lasts : observedAt < expiresAt
  deriving DecidableEq

structure AdvisoryPolicy where
  minimumQualityBps : Nat
  minimumTrials : Nat
  minimumGainBps : Nat
  minimumGainUnits : Nat
  residenceCheckpoints : Nat
  asksQuality : 1 ≤ minimumQualityBps ∧ minimumQualityBps ≤ 10000

structure Budget where
  unit : Str
  ceiling : Nat
  reservedUnits : Nat
  tokenCeiling : Option Nat
  reservedTokens : Nat
  remainingLatencyMs : Option Nat

structure UsageSummary where
  rootTaskId : Str
  unit : Str
  knownAmount : Nat
  amountComplete : Bool
  knownTokens : Nat
  tokensComplete : Bool
  missingInvocations : List Str
  unknownOperations : List Str
  inputDigest : Str

structure NativeView where
  tenantId : Str
  incidentId : Str
  ready : Bool
  mandatory : Bool
  baselineConfiguration : Option Str
  eligible : List Str
  nativeRouteId : Str
  baselineEligible : ∀ key ∈ baselineConfiguration, key ∈ eligible
  pending : ready = false → eligible = [] ∧ baselineConfiguration = none

/-! ## Evaluation of one candidate -/

/-- Why a candidate is not feasible, with the code of the source. -/
inductive Rejection where
  | nativeIneligible
  | capabilityMissing
  | contextCapacity
  | forecastBelowInputPeak
  | forecastBelowOutputPeak
  | incomparableCostUnit
  | costUnknownOrStale
  | forecastBudgetExceeded
  | latencyBudgetExceeded
  | tokenForecastUnknown
  | tokenBudgetExceeded
  deriving DecidableEq

def Rejection.code : Rejection → String
  | nativeIneligible => "native-ineligible"
  | capabilityMissing => "capability-missing"
  | contextCapacity => "context-capacity"
  | forecastBelowInputPeak => "forecast-below-input-peak"
  | forecastBelowOutputPeak => "forecast-below-output-peak"
  | incomparableCostUnit => "incomparable-cost-unit"
  | costUnknownOrStale => "cost-unknown-or-stale"
  | forecastBudgetExceeded => "forecast-budget-exceeded"
  | latencyBudgetExceeded => "latency-budget-exceeded"
  | tokenForecastUnknown => "token-forecast-unknown"
  | tokenBudgetExceeded => "token-budget-exceeded"

inductive QualityReason where
  | evidenceMissing
  | basisMismatch
  | staleOrFuture
  | sampleTooSmall
  | verifierInadequate
  | supported
  | belowFloor
  deriving DecidableEq

def QualityReason.code : QualityReason → String
  | evidenceMissing => "quality-evidence-missing"
  | basisMismatch => "quality-basis-mismatch"
  | staleOrFuture => "quality-stale-or-future"
  | sampleTooSmall => "quality-sample-too-small"
  | verifierInadequate => "verifier-inadequate"
  | supported => "quality-supported"
  | belowFloor => "quality-below-floor"

/-- An entry of `feasible`. -/
structure Feasible where
  key : Str
  cost : Interval
  quality : Option (Nat × Nat)
  elapsed : Interval

/-- An entry of `qualified`, with the latency that breaks ties. -/
structure Qualified where
  key : Str
  optimistic : ℚ
  pessimistic : ℚ
  elapsed : Interval

structure Evaluation where
  configurationId : Str
  rejected : List Rejection
  qualityReason : QualityReason
  wilsonBps : Option (Nat × Nat)
  estimatedForwardUnits : Option Interval
  estimatedLatencyMs : Interval

/-- One round of the loop over the candidates. -/
structure Assessment where
  evaluation : Evaluation
  feasible : Option Feasible
  qualified : Option Qualified

/-- The rejection when its condition holds. -/
def rejectIf (c : Prop) [Decidable c] (r : Rejection) : List Rejection := if c then [r] else []

@[simp] theorem rejectIf_eq_nil {c : Prop} [Decidable c] {r : Rejection} :
    rejectIf c r = [] ↔ ¬c := by
  unfold rejectIf
  split <;> simp [*]

/-- `_future_cost`, for a candidate that has to be switched to or not. -/
def futureCost (candidate : Candidate) (switching : Bool) (now : Nat) :
    Except Failure (Option Interval × Interval) := do
  let elapsed ← candidate.latencyMs.plus (if switching then candidate.handoffMs else zero)
  match candidate.rates with
  | none => .ok (none, elapsed)
  | some rates => do
    let low ← rates.quote candidate.lowTokens candidate.key now
    let high ← rates.quote candidate.highTokens candidate.key now
    match low, high with
    | some low, some high => do
      let quoted ← Interval.make low high
      let cost ← quoted.plus candidate.extraUnits
      let cost ← cost.plus (if switching then candidate.handoffUnits else zero)
      .ok (some cost, elapsed)
    | _, _ => .ok (none, elapsed)

/-- `Fraction(numerator, denominator)`. -/
def fraction (numerator denominator : Nat) : Except Failure ℚ := do
  ensure (denominator ≠ 0) .zeroDivision
  .ok (numerator / denominator)

section
-- `Calibration.wilson_bps` of the accepted and all trials
variable (wilsonBps : Nat → Nat → Nat × Nat)

/-- The quality of a candidate and what is said about it. -/
def qualityOf (stage : Stage) (policy : AdvisoryPolicy) (item : Option Calibration) :
    Option (Nat × Nat) × QualityReason :=
  match item with
  | none => (none, .evidenceMissing)
  | some item =>
    if item.basis ≠ stage.evidenceMode then (none, .basisMismatch)
    else if ¬(item.observedAt ≤ stage.now ∧ stage.now < item.expiresAt) then (none, .staleOrFuture)
    else if item.trials < policy.minimumTrials then (none, .sampleTooSmall)
    else if stage.workload.reliableVerifier = false then (none, .verifierInadequate)
    else
      let quality := wilsonBps item.accepted item.trials
      (some quality, if policy.minimumQualityBps ≤ quality.1 then .supported else .belowFloor)

/-- The reasons that do not depend on the configuration in use. -/
def staticReasons (stage : Stage) (candidate : Candidate) (budget : Budget) (native : NativeView) :
    List Rejection :=
  let config := candidate.configuration
  rejectIf (candidate.key ∉ native.eligible) .nativeIneligible
    ++ rejectIf (¬∀ c ∈ stage.workload.capabilities, c ∈ config.capabilities) .capabilityMissing
    ++ rejectIf (config.contextWindow < stage.inputPeak + stage.outputPeak
        ∨ config.outputLimit < stage.outputPeak) .contextCapacity
    ++ rejectIf (∃ n ∈ candidate.highTokens.inputTotal, n < stage.inputPeak)
        .forecastBelowInputPeak
    ++ rejectIf (∃ n ∈ candidate.highTokens.charged.output, n < stage.outputPeak)
        .forecastBelowOutputPeak
    ++ rejectIf (∃ rates ∈ candidate.rates, rates.unit ≠ budget.unit) .incomparableCostUnit

/-- The reasons of the forecast. -/
def forecastReasons (candidate : Candidate) (switching : Bool) (usage : UsageSummary)
    (budget : Budget) (cost : Option Interval) (elapsed : Interval) : List Rejection :=
  (match cost with
    | none => [.costUnknownOrStale]
    | some cost =>
      rejectIf (budget.ceiling < usage.knownAmount + budget.reservedUnits + cost.high)
        .forecastBudgetExceeded)
    ++ rejectIf (∃ ms ∈ budget.remainingLatencyMs, ms < elapsed.high) .latencyBudgetExceeded
    ++ match budget.tokenCeiling with
      | none => []
      | some ceiling =>
        match candidate.highTokens.total with
        | none => [.tokenForecastUnknown]
        | some total =>
          rejectIf (ceiling < usage.knownTokens + budget.reservedTokens + total
            + (if switching then candidate.handoffTokens else 0)) .tokenBudgetExceeded

/-- One round of the loop over the candidates. -/
def assess (stage : Stage) (usage : UsageSummary) (budget : Budget) (native : NativeView)
    (policy : AdvisoryPolicy) (evidence : List Calibration) (switching : Bool)
    (candidate : Candidate) : Except Failure Assessment := do
  let key := candidate.key
  let (cost, elapsed) ← futureCost candidate switching stage.now
  let reasons := staticReasons stage candidate budget native
    ++ forecastReasons candidate switching usage budget cost elapsed
  let item := evidence.find? fun item =>
    item.configurationId = key ∧ item.workloadId = stage.workload.key
  let (quality, qualityReason) := qualityOf wilsonBps stage policy item
  let evaluation : Evaluation :=
    ⟨key, reasons.insertionSort (fun a b => a.code ≤ b.code), qualityReason, quality, cost, elapsed⟩
  match cost with
  | none => .ok ⟨evaluation, none, none⟩
  | some cost =>
    if reasons ≠ [] then .ok ⟨evaluation, none, none⟩
    else
      let feasible : Feasible := ⟨key, cost, quality, elapsed⟩
      match quality, qualityReason with
      | some quality, .supported => do
        let optimistic ← fraction (cost.low * 10000) quality.2
        let pessimistic ← fraction (cost.high * 10000) quality.1
        .ok ⟨evaluation, some feasible, some ⟨key, optimistic, pessimistic, elapsed⟩⟩
      | _, _ => .ok ⟨evaluation, some feasible, none⟩

/-! ## Advice -/

inductive Status where
  | reconcileRequired
  | nativePending
  | usageUnknown
  | budgetConflict
  | nativeBaselineUnavailable
  | nativeBaseline
  | baselineNeedsEvidence
  | noSupportedChoice
  | recommend
  | retain
  deriving DecidableEq

structure Verdict where
  status : Status
  selected : Option Str
  reasonCodes : List String
  deriving DecidableEq

/-- What `min` compares. -/
def Qualified.rank (q : Qualified) : ℚ ×ₗ Nat ×ₗ Str :=
  toLex (q.pessimistic, toLex (q.elapsed.high, q.key))

/-- `min(qualified, key=...)`. -/
def best (qualified : List Qualified) : Option Qualified := qualified.argmin Qualified.rank

/-- What follows once some configuration is qualified. -/
def choose (stage : Stage) (policy : AdvisoryPolicy) (qualified : List Qualified)
    (best : Qualified) : Verdict :=
  match qualified.find? fun q => q.key = stage.currentConfiguration with
  | none => ⟨.recommend, best.key, ["evidence-supported-choice", "savings-not-established"]⟩
  | some current =>
    if best.key = stage.currentConfiguration then
      ⟨.retain, stage.currentConfiguration, ["current-choice-remains-supported"]⟩
    else if stage.boundary = .unchanged then
      ⟨.retain, stage.currentConfiguration, ["no-meaningful-boundary"]⟩
    else if ¬(stage.boundary = .failure ∨ stage.boundary = .drift ∨ stage.boundary = .budget)
        ∧ stage.checkpoint - stage.lastSwitchCheckpoint < policy.residenceCheckpoints then
      ⟨.retain, stage.currentConfiguration, ["switch-residence-hysteresis"]⟩
    else
      let gain := current.optimistic - best.pessimistic
      let threshold := max (policy.minimumGainUnits : ℚ)
        (current.optimistic * ((policy.minimumGainBps : ℚ) / 10000))
      if gain ≤ 0 ∨ gain < threshold then
        ⟨.retain, stage.currentConfiguration, ["switch-benefit-not-robust-after-overhead"]⟩
      else
        ⟨.recommend, best.key, ["bounded-estimate-advantage",
          "switch-and-verification-costs-included", "future-savings-not-guaranteed"]⟩

/-- The selection behind the loop. -/
def select (stage : Stage) (policy : AdvisoryPolicy) (native : NativeView)
    (feasible : List Feasible) (qualified : List Qualified) : Verdict :=
  let feasibleAt (key : Option Str) := feasible.find? fun f => some f.key = key
  if native.mandatory then
    match feasibleAt native.baselineConfiguration with
    | none => ⟨.nativeBaselineUnavailable, none,
        ["mandatory-route-preserved", "missing-cost-capacity-or-budget"]⟩
    | some f => ⟨.nativeBaseline, f.key,
        ["mandatory-route-preserved", "quality-not-certified-by-routing"]⟩
  else
    match best qualified with
    | none =>
      let current := some stage.currentConfiguration
      let baseline := if (feasibleAt current).isSome then current else native.baselineConfiguration
      match feasibleAt baseline with
      | some ⟨key, _, none, _⟩ => ⟨.baselineNeedsEvidence, key,
          ["no-proven-cheaper-choice", "not-a-quality-pass"]⟩
      | _ => ⟨.noSupportedChoice, none, ["no-configuration-meets-evidence-and-budget"]⟩
    | some best => choose stage policy qualified best

/-- The document `advise` returns, its digests and constant members apart. -/
structure Advice where
  verdict : Verdict
  currentConfigurationId : Str
  nativeRouteId : Str
  workloadId : Str
  usageDigest : Str
  unit : Str
  knownSpentUnits : Nat
  amountComplete : Bool
  tokensComplete : Bool
  unknownOperations : List Str
  missingInvocations : List Str
  evaluations : List Evaluation
  evidenceMode : Basis

/-- `evidence[key] = item`. -/
def record (evidence : List Calibration) (item : Calibration) :
    Except Failure (List Calibration) :=
  match evidence.find? fun old =>
      old.configurationId = item.configurationId ∧ old.workloadId = item.workloadId with
  | none => .ok (evidence ++ [item])
  | some old => do
    ensure (old = item) (.advice "conflicting-calibration")
    .ok evidence

/-- The answers that no candidate is looked at for. -/
def earlyVerdict (usage : UsageSummary) (budget : Budget) (native : NativeView) : Option Verdict :=
  if usage.unknownOperations ≠ [] then
    some ⟨.reconcileRequired, none, ["unknown-outcome-is-not-routing-failure"]⟩
  else if native.ready = false then some ⟨.nativePending, none, ["native-policy-not-ready"]⟩
  else if usage.amountComplete = false
      ∨ (budget.tokenCeiling.isSome ∧ usage.tokensComplete = false) then
    some ⟨.usageUnknown, none, ["accounting-incomplete-no-zero-imputation"]⟩
  else if budget.ceiling < usage.knownAmount + budget.reservedUnits then
    some ⟨.budgetConflict, none, ["cumulative-budget-exceeded"]⟩
  else none

/-- The checks of the request; they return the evidence by configuration and workload. -/
def admission (stage : Stage) (candidates : List Candidate) (calibrations : List Calibration)
    (usage : UsageSummary) (budget : Budget) (native : NativeView) :
    Except Failure (List Calibration) := do
  ensure (1 ≤ candidates.length ∧ candidates.length ≤ 32) (.advice "candidate-budget")
  ensure (calibrations.length ≤ 256) (.advice "calibration-budget")
  ensure ((candidates.map Candidate.key).Nodup) (.advice "duplicate-configuration")
  ensure (usage.rootTaskId = stage.rootTaskId ∧ usage.unit = budget.unit
    ∧ native.tenantId = stage.tenantId ∧ native.incidentId = stage.incidentId)
    (.advice "advice-scope-mismatch")
  ensure (∀ key ∈ native.eligible, key ∈ candidates.map Candidate.key)
    (.advice "native-unknown-configuration")
  calibrations.foldlM record []

def advise (stage : Stage) (candidates : List Candidate) (calibrations : List Calibration)
    (usage : UsageSummary) (budget : Budget) (native : NativeView) (policy : AdvisoryPolicy) :
    Except Failure Advice := do
  let evidence ← admission stage candidates calibrations usage budget native
  let finish (verdict : Verdict) (evaluations : List Evaluation) : Advice :=
    ⟨verdict, stage.currentConfiguration, native.nativeRouteId, stage.workload.key,
      usage.inputDigest, budget.unit, usage.knownAmount, usage.amountComplete, usage.tokensComplete,
      usage.unknownOperations, usage.missingInvocations, evaluations, stage.evidenceMode⟩
  match earlyVerdict usage budget native with
  | some verdict => .ok (finish verdict [])
  | none => do
    let ordered := candidates.insertionSort fun a b => a.key ≤ b.key
    let assessments ← ordered.mapM fun candidate =>
      assess wilsonBps stage usage budget native policy evidence
        (candidate.key ≠ stage.currentConfiguration) candidate
    let feasible := assessments.filterMap Assessment.feasible
    let qualified := assessments.filterMap Assessment.qualified
    .ok (finish (select stage policy native feasible qualified)
      (assessments.map Assessment.evaluation))

end

end IntegrityGuardian.ResourceAdvisor
