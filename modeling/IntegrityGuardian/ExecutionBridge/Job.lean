import IntegrityGuardian.Library.Transaction
import IntegrityGuardian.Python.Json

/-!
# Jobs of the execution bridge

`Job` of `executor.py`.  Every block under the lock is one step; the calls of all
threads interleave at these blocks.  Replies are held with the output decoded and
without their constant members; times are nanoseconds of the monotonic clock.
-/

namespace IntegrityGuardian.ExecutionBridge

open Python Library

/-- A `Rejected` with its code. -/
inductive Rejected where
  | mk (code : String)
  deriving DecidableEq

def maxOutput : Nat := 65536

/-- `integer(value, low, high)`. -/
def integer (value low high : Int) : Except Rejected Nat := do
  ensure (low ≤ value ∧ value ≤ high) (.mk "invalid_integer")
  .ok value.toNat

def maxInteger : Int := 9007199254740991

inductive JobState where
  | submitted
  | reportedExit
  | unknown
  deriving DecidableEq

structure Job where
  deadline : Nat
  output : Bytes
  base : Nat
  truncated : Bool
  state : JobState
  exitCode : Option Int
  stopRequested : Bool
  stopDeadline : Option Nat

/-- `Job(job_id, deadline, ...)`. -/
def Job.new (deadline : Nat) : Job := ⟨deadline, [], 0, false, .submitted, none, false, none⟩

def Job.append (job : Job) (data : Bytes) (truncated : Bool) : Job :=
  if job.state ≠ .submitted then job
  else
    let output := job.output ++ data
    let excess := output.length - maxOutput
    { job with
      output := output.drop excess
      base := job.base + excess
      truncated := job.truncated || truncated || decide (excess ≠ 0) }

/-- The exit code of a well-formed result of the future. -/
def exitCodeOf (result : Json) : Option Int :=
  match result with
  | .obj members =>
    match members.lookup (str "exitCode"), members.lookup (str "stdout"),
        members.lookup (str "stderr") with
    | some (.int code), some (.str []), some (.str []) =>
      if members.length = 3 ∧ -2147483648 ≤ code ∧ code < 2147483648 then some code else none
    | _, _, _ => none
  | _ => none

/-- `complete`; a future that raises has no result. -/
def Job.complete (job : Job) (result : Option Json) : Job :=
  if job.state ≠ .submitted then job
  else
    match result >>= exitCodeOf with
    | some code => { job with exitCode := some code, state := .reportedExit }
    | none => { job with state := .unknown }

/-- The block of `stop` that takes the request. -/
def Job.stop (job : Job) (now : Nat) : Job :=
  if job.stopRequested = true ∨ job.state = .reportedExit then job
  else { job with stopRequested := true, stopDeadline := some (now + 3000000000) }

/-- The block of `stop` behind a delivery that raised. -/
def Job.stopFailed (job : Job) : Job :=
  if job.state = .submitted then { job with state := .unknown } else job

/-- Whether the first block of `tick` asks for a stop. -/
def Job.shouldStop (job : Job) (revoked : Bool) (now : Nat) : Bool :=
  job.state = .submitted && (revoked || job.deadline ≤ now)

/-- The last block of `tick`. -/
def Job.expire (job : Job) (now : Nat) : Job :=
  if job.state = .submitted ∧ ∃ deadline ∈ job.stopDeadline, deadline ≤ now then
    { job with state := .unknown }
  else job

structure Reply where
  after : Nat
  state : JobState
  exitCode : Option Int
  data : Bytes
  nextCursor : Nat
  gap : Bool
  truncated : Bool
  stopRequested : Bool
  cleanupRequired : Bool
  deriving DecidableEq

def Job.read (job : Job) (after maxBytes : Int) : Except Rejected Reply := do
  let after ← integer after 0 maxInteger
  let maxBytes ← integer maxBytes 1 16384
  let total := job.base + job.output.length
  ensure (after ≤ total) (.mk "invalid_output_cursor")
  let start := max after job.base
  let data := (job.output.drop (start - job.base)).take maxBytes
  .ok ⟨after, job.state, job.exitCode, data, start + data.length, after < job.base, job.truncated,
    job.stopRequested, job.state ≠ .reportedExit⟩

/-! ## Runs with one reader -/

inductive Event where
  | append (data : Bytes) (truncated : Bool)
  | complete (result : Option Json)
  | stop (now : Nat)
  | stopFailed
  /-- A `tick` up to its last block; the request of its stop is a `stop` of its own. -/
  | expire (now : Nat)
  /-- The reader asks for that many bytes behind its cursor. -/
  | read (maxBytes : Int)

/-- A reply, with the number of bytes that had been discarded when it was given. -/
structure Received where
  reply : Reply
  discarded : Nat

/-- The job, the bytes appended while it was submitted, and what its reader received. -/
structure Session where
  job : Job
  appended : Bytes
  cursor : Nat
  replies : List Received

def Session.new (deadline : Nat) : Session := ⟨Job.new deadline, [], 0, []⟩

def Session.step (s : Session) : Event → Session
  | .append data truncated =>
    { s with
      job := s.job.append data truncated
      appended := if s.job.state = .submitted then s.appended ++ data else s.appended }
  | .complete result => { s with job := s.job.complete result }
  | .stop now => { s with job := s.job.stop now }
  | .stopFailed => { s with job := s.job.stopFailed }
  | .expire now => { s with job := s.job.expire now }
  | .read maxBytes =>
    match s.job.read s.cursor maxBytes with
    | .ok reply =>
      { s with
        cursor := reply.nextCursor
        replies := s.replies ++ [⟨reply, s.appended.length - s.job.output.length⟩] }
    | .error _ => s

def Session.run (s : Session) (events : List Event) : Session := events.foldl Session.step s

end IntegrityGuardian.ExecutionBridge
