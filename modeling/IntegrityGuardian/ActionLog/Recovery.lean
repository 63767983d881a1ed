import IntegrityGuardian.Python.Isoformat
import IntegrityGuardian.Python.ValueText

/-!
# Recovery annotations

`validate_recovery` of `codex_action_log.py`: an event that claims to recover an
earlier fact names its sources, and its identity is the digest of the fact.
-/

namespace IntegrityGuardian.ActionLog

open Python Library
open Json (ch isDigit)

variable [FloatData]

/-- `raise ValueError(message)`. -/
def refuse (message : String) : Exc := .valueError (str message)

/-- `value.get(key)`, where `None` and a missing key are the same. -/
def found (v : Value) (key : String) : Option Value :=
  match v.get? (str key) with
  | some .null => none
  | other => other

/-- A `dict` with exactly these keys. -/
def hasKeys (keys : List String) : Value → Bool
  | .obj members => members.all (fun m => m.1 ∈ keys.map str) &&
      keys.all fun key => str key ∈ members.map Prod.fst
  | _ => false

/-- The text under a key. -/
def textAt (v : Value) (key : String) : Option Str :=
  match v.get? (str key) with
  | some (.str s) => some s
  | _ => none

/-- A text under a key with a length between one and `most`. -/
def boundedText (v : Value) (key : String) (most : Nat) : Option Str :=
  (textAt v key).filter fun s => 1 ≤ s.length && s.length ≤ most

/-- `sha256` of a value's compact text in key order. -/
def recoveryDigest (v : Value) : Except Exc Str :=
  match encodeUtf8 v.sortKeys.compact with
  | some octets => .ok (hex (sha256 octets))
  | none => .error .unicodeEncodeError

def isHexDigest (s : Str) : Bool := s.length == 64 && s.all CodePoint.isLowerHex

/-- `\d{4}-\d{2}-\d{2}T\d{2}:\d{2}:\d{2}(?:\.\d{1,6})?Z`. -/
def isUtcText (s : Str) : Bool :=
  let shape := str "dddd-dd-ddTdd:dd:dd"
  let head := s.take shape.length
  let tail := s.drop shape.length
  head.length == shape.length
    && (head.zip shape).all (fun p => if p.2 = ch 'd' then isDigit p.1 else p.1 = p.2)
    && match tail with
      | [] => false
      | c :: rest =>
        if c = ch '.' then
          let digits := rest.takeWhile isDigit
          1 ≤ digits.length && digits.length ≤ 6 && rest.dropWhile isDigit == [ch 'Z']
        else c == ch 'Z' && rest == []

def recoveryProtocol : Str := str "integrity.event-recovery/v1"

/-- The checks of one source. -/
def checkSource (source : Value) : Except Exc Unit := do
  ensure (hasKeys ["chat_id", "turn_id", "artifact", "artifact_sha256"] source)
    (refuse "recovery requires chat, turn, artifact and hash")
  ensure (["chat_id", "turn_id", "artifact", "artifact_sha256"].all fun key =>
      (boundedText source key 1024).isSome)
    (refuse "recovery provenance contains missing or oversized values")
  ensure ((textAt source "artifact_sha256").any isHexDigest)
    (refuse "recovery artifact SHA256 is required")

/-- `json.dumps(source, sort_keys=True, ensure_ascii=False)`. -/
def sourceIdentity (source : Value) : Str :=
  Value.encode (str ", ") (str ": ") source.sortKeys

/-- The part of `validate_recovery` about a linked correction. -/
def checkCorrection (eventUid factKey : Str) (details : Value) : Except Exc Unit :=
  match found details "correction" with
  | none => ensure (¬(str "correction:").isPrefixOf factKey)
      (refuse "correction requires an immutable original event link")
  | some correction => do
    ensure (hasKeys ["mode", "target_event_uid", "target_event_digest", "correction_key"]
      correction) (refuse "invalid linked correction")
    ensure (textAt correction "mode" = some (str "superseding") ∧
        (boundedText correction "target_event_uid" 160).any (· ≠ eventUid) ∧
        (boundedText correction "correction_key" 200).isSome ∧
        (textAt correction "target_event_digest").any fun s =>
          (str "sha256:").isPrefixOf s && isHexDigest (s.drop 7))
      (refuse "correction must link an immutable original; in-place mutation forbidden")
    let digest ← recoveryDigest correction
    ensure (factKey = str "correction:" ++ digest)
      (refuse "correction identity does not match original link")

/-- The part of `validate_recovery` about the annotation itself; the key of the fact. -/
def checkAnnotation (eventUid : Str) (recovery : Value) : Except Exc Str := do
  ensure (hasKeys ["protocol", "fact_key", "occurred_at", "sources", "created_at_policy"] recovery)
    (refuse "invalid recovery annotation")
  ensure (textAt recovery "protocol" = some recoveryProtocol ∧
      textAt recovery "created_at_policy" = some (str "server-now"))
    (refuse "recovery cannot supply or backdate creation time")
  let factKey ← match boundedText recovery "fact_key" 200 with
    | some key => .ok key
    | none => .error (refuse "bounded recovery fact_key is required")
  let occurredAt ← match (textAt recovery "occurred_at").filter isUtcText with
    | some text => .ok text
    | none => .error (refuse "recovery occurred_at must be explicit UTC")
  ensure (Datetime.fromisoformat occurredAt).isSome (refuse "invalid recovery occurred_at")
  let sources ← match recovery.get? (str "sources") with
    | some (.arr sources) => .ok sources
    | _ => .error (refuse "bounded recovery provenance is required")
  ensure (1 ≤ sources.length ∧ sources.length ≤ 20)
    (refuse "bounded recovery provenance is required")
  sources.forM checkSource
  ensure ((sources.map sourceIdentity).Pairwise (· < ·))
    (refuse "recovery provenance must be sorted and unique")
  let digest ← recoveryDigest (.obj [(str "protocol", .str recoveryProtocol),
    (str "fact_key", .str factKey)])
  ensure (eventUid = str "client:recovery-v1-" ++ digest)
    (refuse "recovery identity does not match provenance")
  .ok factKey

/-- `validate_recovery`. -/
def validateRecovery (eventUid : Str) (details : Value) : Except Exc Unit :=
  match details with
  | .obj _ =>
    match found details "recovery" with
    | none => ensure (¬(str "client:recovery-v1-").isPrefixOf eventUid)
        (refuse "recovery identity requires provenance")
    | some recovery => do
      let factKey ← checkAnnotation eventUid recovery
      checkCorrection eventUid factKey details
  | _ => ensure (¬(str "client:recovery-v1-").isPrefixOf eventUid)
      (refuse "recovery requires object provenance")

end IntegrityGuardian.ActionLog
