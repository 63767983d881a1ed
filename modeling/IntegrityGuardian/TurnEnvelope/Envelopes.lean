import Mathlib.Data.List.Sort
import Mathlib.Data.Prod.Lex
import IntegrityGuardian.Python.Calendar
import IntegrityGuardian.Signing.OwnSignatures

/-!
# Turn envelopes

`integrity_client_turn_envelope.py`: the root directory as the files it holds,
each operation as the transaction it is under the root lock.  Times are in
microseconds since 1970; the random octets an operation draws are arguments.
-/

namespace IntegrityGuardian.TurnEnvelope

open Python Library
open Python.Json (ch)

inductive Error where
  /-- `TurnEnvelopeError`. -/
  | turnEnvelope (message : Str)
  /-- `UnicodeEncodeError` or an unrepresentable time. -/
  | raised
  deriving DecidableEq

def refuse (message : String) : Error := .turnEnvelope (str message)

def maxPromptBytes : Nat := 262144
def segmentBytes : Nat := 4096
/-- `TTL_SECONDS`. -/
def ttl : Int := 600000000

/-! ## Digests -/

/-- `_sha256_bytes`. -/
def sha256Bytes (value : Bytes) : Str := hex (sha256 value)

/-- `_sha256_text`. -/
def sha256Text (value : Str) : Except Error Str :=
  match encodeUtf8 value with
  | none => .error .raised
  | some raw => .ok (sha256Bytes raw)

/-- `[a-f0-9]{64}`. -/
def isHexDigest (s : Str) : Bool := s.length = 64 && s.all CodePoint.isLowerHex

/-- `_identity_hash`. -/
def identityHash (value : Str) (label : String) : Except Error Str := do
  ensure (value.strip ≠ [] ∧ value.length ≤ 512) (refuse (label ++ " is invalid"))
  sha256Text value

/-! ## Prompts -/

/-- The loop of `split_prompt`, with the current segment. -/
def splitLoop (maximumBytes : Nat) : Str → Str → Nat → List Str
  | [], current, _ => if current = [] then [] else [current]
  | c :: rest, current, currentBytes =>
    let size := (utf8Octets c).length
    if current ≠ [] ∧ currentBytes + size > maximumBytes then
      current :: splitLoop maximumBytes rest [c] size
    else splitLoop maximumBytes rest (current ++ [c]) (currentBytes + size)

/-- `split_prompt`. -/
def splitPrompt (prompt : Str) : Except Error (List Str) := do
  ensure (prompt.strip ≠ []) (refuse "prompt is empty")
  ensure (prompt.any CodePoint.isSurrogate = false) .raised
  let segments := splitLoop segmentBytes prompt [] 0
  ensure (segments ≠ [] ∧ segments.flatten = prompt) (refuse "prompt segmentation failed")
  .ok segments

/-- `_protect` and `_unprotect` of a platform: the prompt under a reference, as a name of the
encoding and a text. -/
structure Vault where
  protect : Bytes → Str → Except Error (Str × Str)
  unprotect : Str → Str → Str → Except Error Bytes

/-- `datetime.fromtimestamp(expires, UTC).isoformat().replace("+00:00", "Z")`. -/
def expiryText (expires : Int) : Except Error Str :=
  let micros := expires + 62135596800000000
  if h : 0 ≤ micros ∧ micros.toNat < 315537897600000000 then
    .ok (Instant.isoformatZ ⟨micros.toNat, h.2⟩)
  else .error .raised

/-! ## Files -/

inductive Status where
  | staged
  | armed
  | claimed
  | committed
  deriving DecidableEq

/-- The members of an envelope; `none` where a tombstone or an unclaimed one has no member. -/
structure Envelope where
  turnRefDigest : Str
  machineIdSha256 : Str
  threadIdSha256 : Str
  turnIdSha256 : Str
  generation : Int
  promptSha256 : Str
  promptBytes : Nat
  segmentCount : Nat
  expiresUtc : Str
  expiresEpoch : Int
  status : Status
  encoding : Option Str
  payload : Option Str
  claimIdSha256 : Option Str
  retireAfterClaim : Bool
  deriving DecidableEq

/-- `_validate_common`. -/
def validateCommon (value : Envelope) (turnRef : Str) : Except Error Unit := do
  let digest ← sha256Text turnRef
  ensure (value.turnRefDigest = str "sha256:" ++ digest)
    (refuse "turn envelope identity mismatch")
  ensure (isHexDigest value.promptSha256 = true) (refuse "turn envelope prompt digest is invalid")
  ensure (1 ≤ value.promptBytes ∧ value.promptBytes ≤ maxPromptBytes ∧ 1 ≤ value.segmentCount
    ∧ value.segmentCount ≤ maxPromptBytes / segmentBytes + 1 ∧ 1 ≤ value.generation)
    (refuse "turn envelope bounds are invalid")

/-! ## Operations -/

/-- What `stage` writes. -/
def stagedEnvelope (vault : Vault) (prompt machineId threadId turnId : Str) (generation now : Int)
    (turnRef : Str) : Except Error Envelope := do
  ensure (prompt.strip ≠ []) (refuse "prompt is empty")
  match encodeUtf8 prompt with
  | none => .error .raised
  | some raw => do
    ensure (raw.length ≤ maxPromptBytes) (refuse "prompt exceeds the 256 KiB envelope bound")
    ensure (1 ≤ generation) (refuse "generation is invalid")
    let segments ← splitPrompt prompt
    let (encoding, payload) ← vault.protect raw turnRef
    let digest ← sha256Text turnRef
    let machineIdSha256 ← identityHash machineId "machine_id"
    let threadIdSha256 ← identityHash threadId "thread_id"
    let turnIdSha256 ← identityHash turnId "turn_id"
    let expiresUtc ← expiryText (now + ttl)
    .ok {
      turnRefDigest := str "sha256:" ++ digest
      machineIdSha256
      threadIdSha256
      turnIdSha256
      generation
      promptSha256 := sha256Bytes raw
      promptBytes := raw.length
      segmentCount := segments.length
      expiresUtc
      expiresEpoch := now + ttl
      status := .staged
      encoding := some encoding
      payload := some payload
      claimIdSha256 := none
      retireAfterClaim := false }

end IntegrityGuardian.TurnEnvelope
