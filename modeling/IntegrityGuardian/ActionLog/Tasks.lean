import IntegrityGuardian.ActionLog.EventPages
import IntegrityGuardian.Library.SnapshotLoop

/-!
# The tasks of the log

`build_tasks` of `codex_action_log.py`: the lifecycle events are folded into one record a
task, and each record is then given a lease by the last operational event of its task.
-/

namespace IntegrityGuardian.ActionLog

open Python Library
open Json (ch)

/-! ## Actions -/

def openActions : List Str :=
  [str "agent_change_start", str "agent_change_progress", str "agent_change_resumed"]

def pendingActions : List Str := [str "agent_change_pending"]

def pauseActions : List Str := [str "agent_change_paused"]

def closeActions : List Str :=
  [str "agent_change_complete", str "agent_change_blocked", str "agent_change_failed"]

def relationCorrectionActions : List Str := [str "agent_relation_correction"]

def sessionAdmissionActions : List Str := [str "agent_session_admission"]

def taskLifecycleActions : List Str :=
  openActions ++ pendingActions ++ pauseActions ++ closeActions ++ relationCorrectionActions
    ++ sessionAdmissionActions

def taskOperationalActions : List Str :=
  openActions ++ pendingActions ++ pauseActions ++ closeActions
    ++ [str "agent_owner_go", str "agent_verification", str "agent_memory_checkpoint"]

def genericTaskTags : List Str :=
  ["agent-log", "commit", "handoff", "progress", "done", "partial", "blocked", "failed", "complete",
    "in-progress"].map str

/-! ## Events -/

/-- An event as `rows_to_events` reads it. -/
structure LogEvent [FloatData] where
  id : Int
  tsUtc : Str
  createdUtc : Str
  action : Str
  actor : Str
  sessionId : Str
  summary : Str
  details : Value
  tags : Value

section
variable [FloatData] [UnicodeData] [QueryData]

/-- The stripped texts, each once. -/
def distinctTexts (items : List Str) : List Str :=
  items.foldl (fun result item =>
    if item.strip ≠ [] ∧ item.strip ∉ result then result ++ [item.strip] else result) []

/-- `string_list`. -/
def stringList : Option Value → List Str
  | none | some .null => []
  | some (.str s) => distinctTexts (splitTags s)
  | some (.arr items) => distinctTexts (items.map Value.text)
  | some v => distinctTexts [v.text]

namespace LogEvent

variable (event : LogEvent)

/-- `details.get(field)` of `event_details`. -/
def detail (field : String) : Option Value := event.details.get? (str field)

/-- `str(details.get(field) or "")`. -/
def detailText (field : String) : Str := textOr event.details field []

/-- `event_task_id`. -/
def taskId : Str := (event.detailText "task_id").strip

/-- `event_result`. -/
def result : Str := event.detailText "result"

/-- `event_subsystems`. -/
def subsystems : List Str :=
  match stringList (event.detail "subsystem") with
  | [] =>
    (stringList (some event.tags)).filter fun tag => !genericTaskTags.contains (QueryData.lower tag)
  | subsystems => subsystems

/-- `useful_verification`. -/
def usefulVerification : Str :=
  let verification := (event.detailText "verification").strip
  if (["", "pending", "none", "n/a", "unknown"].map str).contains (QueryData.lower verification)
  then [] else verification

/-- `classify_event_kind`. -/
def kind : Str :=
  let explicit := QueryData.lower (event.detailText "kind").strip
  let action := QueryData.lower event.action
  let tags := (stringList (some event.tags)).map QueryData.lower
  let scope := QueryData.lower (event.detailText "scope")
  if explicit ≠ [] then explicit
  else if action = str "agent_change_start" then str "task-start"
  else if action = str "agent_change_progress" then str "task-progress"
  else if action = str "agent_change_pending" then str "task-pending"
  else if action = str "agent_change_paused" then str "task-paused"
  else if action = str "agent_change_resumed" then str "task-resumed"
  else if action = str "agent_change_complete" then str "task-complete"
  else if action = str "agent_change_blocked" then str "blocker"
  else if action = str "agent_change_failed" then str "failure"
  else if str "decision" <:+: action ∨ str "decision" ∈ tags then str "decision"
  else if event.usefulVerification ≠ [] then str "verification"
  else if scope = str "production-impact" ∨ scope = str "config-change"
    ∨ (event.detail "files").any Value.truthy then str "change"
  else if (["audit", "inspect", "check", "read", "observe", "context"].map str).any
    (· <:+: action) then str "observation"
  else str "note"

/-- `task_key_for_event`. -/
def taskKey : Str :=
  if event.taskId ≠ [] then str "task:" ++ event.taskId
  else
    let sessionId := if event.sessionId = [] then str "unknown-session" else event.sessionId
    str "legacy:" ++ sessionId ++ str "|subsystem:" ++ event.subsystems.headD (str "untagged")

end LogEvent

/-- What is told of one event of a task. -/
structure Cursor where
  eventId : Int
  tsUtc : Str
  observedUtc : Str
  action : Str
  kind : Str
  result : Str
  summary : Str
  nextAction : Str
  verification : Str
  scope : Str
  evidenceFiles : List Str
  deriving DecidableEq

/-- `task_event_cursor`. -/
def LogEvent.cursor (event : LogEvent) : Cursor where
  eventId := event.id
  tsUtc := event.tsUtc
  observedUtc := event.createdUtc
  action := event.action
  kind := event.kind
  result := event.result
  summary := event.summary.take 500
  nextAction := (event.detailText "next_action").take 500
  verification := event.usefulVerification.take 500
  scope := (event.detailText "scope").take 96
  evidenceFiles := (stringList (event.detail "evidence_files")).take 8

/-! ## Agents -/

structure Identity where
  agentId : Str
  kind : Str
  vendor : Str
  product : Str
  runtime : Str
  instanceId : Str
  admissionId : Str
  declaredAt : Str
  expiresAt : Str
  capabilityClass : List Str
  deriving DecidableEq

/-- `event_agent_identity`. -/
def LogEvent.agentIdentity (event : LogEvent) : Option Identity :=
  let agent := (event.detail "agent").getD .null
  let agentId := (textOr agent "agent_id" (event.detailText "agent_id")).strip
  if agentId = [] then none
  else some
    { agentId := agentId.take 200
      kind := (textOr agent "kind" []).take 32
      vendor := (textOr agent "vendor" []).take 64
      product := (textOr agent "product" []).take 64
      runtime := (textOr agent "runtime" []).take 64
      instanceId := (textOr agent "instance_id" event.sessionId).take 200
      admissionId := (event.detailText "admission_id").take 200
      declaredAt := (textOr event.details "declared_at" event.tsUtc).take 40
      expiresAt := (event.detailText "expires_at").take 40
      capabilityClass :=
        match event.detail "capability_class" with
        | some (.arr classes) =>
          (classes.filter fun item => item.truthy && item.text.strip != []).map fun item =>
            item.text.take 64
        | _ => [] }

/-! ## Tasks -/

inductive Status where
  | «open»
  | pending
  | paused
  | complete
  | blocked
  | failed
  deriving DecidableEq

def Status.text : Status → Str
  | .open => str "open"
  | .pending => str "pending"
  | .paused => str "paused"
  | .complete => str "complete"
  | .blocked => str "blocked"
  | .failed => str "failed"

/-- The status an action gives its task. -/
def statusAfter (action : Str) : Option Status :=
  if action ∈ closeActions then
    if action = str "agent_change_complete" then some .complete
    else if action = str "agent_change_blocked" then some .blocked
    else some .failed
  else if action ∈ pendingActions then some .pending
  else if action ∈ pauseActions then some .paused
  else if action ∈ openActions then some .open
  else none

/-- The fields that take the last text given. -/
inductive TextField where
  | scope | riskLevel | rollback | verification | nextAction | doneWhen | priority | owner
  | attentionClass | goalId | roadmapItemId | parentTaskId | coordinationReason
  | requestedPauseByUtc | pauseForTaskId
  deriving DecidableEq

def TextField.name : TextField → String
  | .scope => "scope"
  | .riskLevel => "risk_level"
  | .rollback => "rollback"
  | .verification => "verification"
  | .nextAction => "next_action"
  | .doneWhen => "done_when"
  | .priority => "priority"
  | .owner => "owner"
  | .attentionClass => "attention_class"
  | .goalId => "goal_id"
  | .roadmapItemId => "roadmap_item_id"
  | .parentTaskId => "parent_task_id"
  | .coordinationReason => "coordination_reason"
  | .requestedPauseByUtc => "requested_pause_by_utc"
  | .pauseForTaskId => "pause_for_task_id"

/-- The fields that collect lists. -/
inductive ListField where
  | touchedHosts | evidenceFiles | dependsOnTaskIds | relatedTaskIds | supersedesTaskIds
  | blocksTaskIds | preemptsTaskIds | resumeAfterTaskIds | targetThreadIds
  deriving DecidableEq

def ListField.name : ListField → String
  | .touchedHosts => "touched_hosts"
  | .evidenceFiles => "evidence_files"
  | .dependsOnTaskIds => "depends_on_task_ids"
  | .relatedTaskIds => "related_task_ids"
  | .supersedesTaskIds => "supersedes_task_ids"
  | .blocksTaskIds => "blocks_task_ids"
  | .preemptsTaskIds => "preempts_task_ids"
  | .resumeAfterTaskIds => "resume_after_task_ids"
  | .targetThreadIds => "target_thread_ids"

/-- The texts of which the task also tells whether they were ever given. -/
inductive ExplicitField where
  | rollback | verification | nextAction | doneWhen
  deriving DecidableEq

def LogEvent.gives (event : LogEvent) : ExplicitField → Bool
  | .rollback => (event.detailText "rollback").strip != []
  | .verification => event.usefulVerification != []
  | .nextAction => (event.detailText "next_action").strip != []
  | .doneWhen => (event.detailText "done_when").strip != []

inductive SubsystemSource where
  | explicit
  | tags
  | explicitReplace
  deriving DecidableEq

structure TrackedTask where
  taskKey : Str
  taskId : Str
  legacy : Bool
  status : Status
  firstId : Int
  firstTsUtc : Str
  firstObservedUtc : Str
  lastId : Int
  lastTsUtc : Str
  lastObservedUtc : Str
  lastAction : Str
  result : Str
  subsystem : List Str
  subsystemHistory : List Str
  subsystemReplaced : Bool
  subsystemSource : SubsystemSource
  actor : Str
  sessionId : Str
  firstSessionId : Str
  agentId : Str
  firstAgentId : Str
  agentKind : Str
  agentVendor : Str
  agentProduct : Str
  agentRuntime : Str
  admissionId : Str
  admissionDeclaredAt : Str
  admissionExpiresAt : Str
  capabilityClass : List Str
  admittedAgents : List Identity
  summary : Str
  historyCount : Nat
  texts : TextField → Str
  lists : ListField → List Str
  explicit : ExplicitField → Bool
  reportRequired : Bool
  hasStart : Bool
  hasClose : Bool

/-- `str(details.get(field) or "merge").strip().lower()` is `replace`. -/
def LogEvent.replaces (event : LogEvent) (mode : String) : Bool :=
  QueryData.lower (textOr event.details mode (str "merge")).strip == str "replace"

/-- The record of the event a task is first met in. -/
def LogEvent.opened (event : LogEvent) : TrackedTask where
  taskKey := event.taskKey
  taskId := event.taskId
  legacy := event.taskId == []
  status := .open
  firstId := event.id
  firstTsUtc := event.tsUtc
  firstObservedUtc := event.createdUtc
  lastId := event.id
  lastTsUtc := event.tsUtc
  lastObservedUtc := event.createdUtc
  lastAction := event.action
  result := event.result
  subsystem := if event.subsystems = [] then [str "untagged"] else event.subsystems
  subsystemHistory := if event.subsystems = [] then [str "untagged"] else event.subsystems
  subsystemReplaced := event.replaces "subsystem_mode"
  subsystemSource := if stringList (event.detail "subsystem") = [] then .tags else .explicit
  actor := event.actor
  sessionId := event.sessionId
  firstSessionId := event.sessionId
  agentId := []
  firstAgentId := []
  agentKind := []
  agentVendor := []
  agentProduct := []
  agentRuntime := []
  admissionId := []
  admissionDeclaredAt := []
  admissionExpiresAt := []
  capabilityClass := []
  admittedAgents := []
  summary := event.summary
  historyCount := 0
  texts field := event.detailText field.name
  lists field := stringList (event.detail field.name)
  explicit := event.gives
  reportRequired := (event.detail "report_required").any Value.truthy
  hasStart := event.action = str "agent_change_start"
  hasClose := event.action ∈ closeActions

/-- `bind_task_agent`. -/
def TrackedTask.bindAgent (task : TrackedTask) (event : LogEvent) : TrackedTask :=
  match event.agentIdentity with
  | none => task
  | some identity =>
    { task with
      agentId := identity.agentId
      agentKind := identity.kind
      agentVendor := identity.vendor
      agentProduct := identity.product
      agentRuntime := identity.runtime
      admissionId := identity.admissionId
      admissionDeclaredAt := identity.declaredAt
      admissionExpiresAt := identity.expiresAt
      capabilityClass := identity.capabilityClass
      firstAgentId := if task.firstAgentId = [] then identity.agentId else task.firstAgentId
      admittedAgents :=
        if identity.agentId ∈ task.admittedAgents.map Identity.agentId then task.admittedAgents
        else task.admittedAgents ++ [identity] }

/-- The loop that appends what is not there yet. -/
def merged (old more : List Str) : List Str :=
  more.foldl (fun merged value => if value ∈ merged then merged else merged ++ [value]) old

/-- The subsystem fields behind an event. -/
def TrackedTask.bindSubsystems (task : TrackedTask) (event : LogEvent) : TrackedTask :=
  let task := { task with subsystemHistory := merged task.subsystemHistory event.subsystems }
  match stringList (event.detail "subsystem") with
  | [] =>
    if task.subsystemSource ≠ .tags then task
    else
      let before := if task.subsystem = [str "untagged"] ∧ event.subsystems ≠ [] then []
        else task.subsystem
      { task with subsystem := merged before event.subsystems }
  | subsystems =>
    if event.replaces "subsystem_mode" then
      { task with subsystem := subsystems, subsystemSource := .explicitReplace
                  subsystemReplaced := true }
    else
      let before := if task.subsystemSource = .tags then [] else task.subsystem
      { task with subsystem := merged before subsystems, subsystemSource := .explicit
                  subsystemReplaced := false }

/-- The fields of `existing` that an event writes, but the status. -/
def TrackedTask.update (task : TrackedTask) (event : LogEvent) : TrackedTask :=
  let task := { task with
    historyCount := task.historyCount + 1
    lastId := event.id
    lastTsUtc := event.tsUtc
    lastObservedUtc := event.createdUtc
    lastAction := event.action
    result := event.result
    actor := event.actor
    sessionId := event.sessionId
    summary := event.summary }
  let task := if event.action ∈ sessionAdmissionActions then task.bindAgent event else task
  let task := { task with
    texts := fun field =>
      let value := (event.detailText field.name).strip
      if value ≠ [] then value else task.texts field
    explicit := fun field => task.explicit field || event.gives field
    lists := fun field =>
      let values := stringList (event.detail field.name)
      if event.replaces (field.name ++ "_mode") then values else merged (task.lists field) values
    hasStart := task.hasStart || event.action == str "agent_change_start"
    reportRequired :=
      match event.detail "report_required" with
      | some required => required.truthy
      | none => task.reportRequired
    hasClose := task.hasClose || closeActions.contains event.action }
  let task := task.bindSubsystems event
  if event.taskId ≠ [] then { task with taskId := event.taskId, legacy := false } else task

/-- The iteration of the loop on the record of its task. -/
def TrackedTask.absorb (task : TrackedTask) (event : LogEvent) : TrackedTask :=
  let existing := task.update event
  let existing :=
    if event.action ∈ relationCorrectionActions then
      { task with
        lists := existing.lists
        lastId := existing.lastId
        lastTsUtc := existing.lastTsUtc
        lastObservedUtc := existing.lastObservedUtc
        historyCount := existing.historyCount }
    else existing
  { existing with status := (statusAfter event.action).getD existing.status }

/-- The loop over the events. -/
def absorbEvent (includeLegacy : Bool) (tasks : List TrackedTask) (event : LogEvent) :
    List TrackedTask :=
  if event.action ∉ taskLifecycleActions then tasks
  else if event.taskId = [] ∧ includeLegacy = false then tasks
  else if event.taskKey ∈ tasks.map TrackedTask.taskKey then
    updateKey TrackedTask.taskKey event.taskKey (·.absorb event) tasks
  else if event.action ∈ relationCorrectionActions then tasks
  else tasks ++ [event.opened.absorb event]

def tasksOf (includeLegacy : Bool) (events : List LogEvent) : List TrackedTask :=
  events.foldl (absorbEvent includeLegacy) []

/-! ## Cursors -/

/-- An entry of `latest_related` or `latest_operational`. -/
def latest (counts : LogEvent → Bool) (events : List LogEvent) (taskId : Str) : Option Cursor :=
  events.foldl (fun found event =>
    if event.taskId ≠ [] ∧ event.taskId = taskId ∧ counts event then some event.cursor
    else found) none

/-- An entry of `related_counts` or `operational_counts`. -/
def countOf (counts : LogEvent → Bool) (events : List LogEvent) (taskId : Str) : Option Nat :=
  events.foldl (fun found event =>
    if event.taskId ≠ [] ∧ event.taskId = taskId ∧ counts event then some (found.getD 0 + 1)
    else found) none

def isRelated (_ : LogEvent) : Bool := true

def isOperational (event : LogEvent) : Bool := taskOperationalActions.contains event.action

end

/-! ## Leases -/

/-- What `age_fields` computes in floating point. -/
class AgeData where
  Hours : Type
  /-- `round(delta.total_seconds() / 3600, 3)`, of a span in microseconds. -/
  hours : Int → Hours
  /-- `hours >= TASK_LEASE_STALE_AFTER_HOURS`. -/
  isStale : Hours → Bool
  /-- The text of an age. -/
  text : Hours → Str

/-- `parse_event_time`, in microseconds. -/
def parseEventTime (value : Str) : Option Int :=
  if value = [] then none
  else (Datetime.fromisoformat value).map fun d => d.moment (d.utcoffset.getD 0)

section
variable [AgeData]

/-- `age_fields`. -/
structure Age where
  age : Str
  ageHours : Option AgeData.Hours
  stale : Bool

def ageFields (tsUtc : Str) (now : Int) : Age :=
  match parseEventTime tsUtc with
  | none => ⟨[], none, false⟩
  | some parsed =>
    let hours := AgeData.hours (now - parsed)
    ⟨AgeData.text hours, some hours, AgeData.isStale hours⟩

inductive LeaseState where
  | live
  | expired
  | detached
  deriving DecidableEq

inductive QueueState where
  | current
  | recovery
  | archive
  deriving DecidableEq

/-- What follows from the status of a task and the server time of its activity. -/
structure Lease where
  activityObservedTrusted : Bool
  age : Str
  ageHours : Option AgeData.Hours
  stale : Bool
  leaseState : LeaseState
  queueState : QueueState
  coordinationActive : Bool

def Status.isUnfinished (status : Status) : Bool := [.open, .pending, .paused].contains status

/-- `lease_state` and `queue_state`. -/
def leaseStates (status : Status) (hasStart trusted stale : Bool) : LeaseState × QueueState :=
  if !trusted then (.expired, .recovery)
  else if status = .complete then (.detached, .archive)
  else if status ∈ [.blocked, .failed] ∨ status.isUnfinished ∧ hasStart = false then
    (.detached, .recovery)
  else if status.isUnfinished then
    if stale then (.expired, .recovery) else (.live, .current)
  else (.detached, .archive)

def leaseOf (status : Status) (hasStart : Bool) (activityObservedUtc : Str) (now : Int) : Lease :=
  let trusted := (parseEventTime activityObservedUtc).any (· ≤ now)
  let age := ageFields activityObservedUtc now
  let stale := status.isUnfinished && (!trusted || age.stale)
  let states := leaseStates status hasStart trusted stale
  { activityObservedTrusted := trusted
    age := age.age
    ageHours := age.ageHours
    stale := stale
    leaseState := states.1
    queueState := states.2
    coordinationActive := states.1 = .live ∧ states.2 = .current }

end

/-! ## Rows -/

section
variable [FloatData] [UnicodeData] [QueryData] [AgeData]

/-- A row of the answer. -/
structure TaskRow where
  task : TrackedTask
  lastRelatedEvent : Option Cursor
  operationalCursor : Option Cursor
  relatedEventCount : Nat
  operationalEventCount : Nat
  activityEventId : Int
  activityTsUtc : Str
  activityObservedUtc : Str
  lease : Lease
  attention : Bool
  attentionReason : Str
  nextAction : Str
  subsystemText : Str

/-- `attention_reason`, and the next action of a task that has none. -/
def attentionOf (status : Status) (lease : Lease) (preempts : Bool) : Str × Str :=
  if !lease.activityObservedTrusted then
    (str "untrusted-operational-observation",
      str "Reconcile the latest operational event from a trusted server observation before "
        ++ str "archive or continuation.")
  else match status with
    | .open => (if lease.stale then str "stale-open" else str "open",
        str "Reconcile current live state and continue or close this task.")
    | .pending => (if preempts then str "pending-preemption" else str "pending",
        str "Wait for the named task owner to checkpoint, release its lock, and hand over "
          ++ str "execution.")
    | .paused => (str "paused-for-priority-work",
        str "Resume only after the dependency report is complete and live state is reconciled.")
    | .blocked => (str "blocked",
        str "Resolve the blocker or explicitly supersede the task after live verification.")
    | .failed => (str "failed",
        str "Inspect failure evidence and verify rollback/current live state.")
    | .complete => ([], [])

/-- The time of the server a task was last active at. -/
def observedUtc (operational : Option Cursor) (task : TrackedTask) : Str :=
  match operational with
  | some cursor => cursor.observedUtc
  | none => task.lastObservedUtc

/-- The loop over the tasks. -/
def rowOf (events : List LogEvent) (now : Int) (task : TrackedTask) : TaskRow :=
  let operational := latest isOperational events task.taskId
  let activityObservedUtc := observedUtc operational task
  let lease := leaseOf task.status task.hasStart activityObservedUtc now
  let attention := attentionOf task.status lease (task.lists .preemptsTaskIds != [])
  { task := task
    lastRelatedEvent := latest isRelated events task.taskId
    operationalCursor := operational
    relatedEventCount := (countOf isRelated events task.taskId).getD task.historyCount
    operationalEventCount := (countOf isOperational events task.taskId).getD task.historyCount
    activityEventId := ((operational.map Cursor.eventId).filter (· ≠ 0)).getD task.lastId
    activityTsUtc := ((operational.map Cursor.tsUtc).filter (· ≠ [])).getD task.lastTsUtc
    activityObservedUtc := activityObservedUtc
    lease := lease
    attention := lease.queueState = .recovery ∨ task.status ≠ .complete
    attentionReason := attention.1
    nextAction := if task.texts .nextAction = [] then attention.2 else task.texts .nextAction
    subsystemText := [ch ','].intercalate task.subsystem }

/-- The rows before the filters. -/
def taskRows (includeLegacy : Bool) (events : List LogEvent) (now : Int) : List TaskRow :=
  (tasksOf includeLegacy events).map (rowOf events now)

/-- `parse_bool`. -/
def parseBool (value : Option Str) (default : Bool) : Bool :=
  match value with
  | none => default
  | some value => (["1", "true", "yes", "on"].map str).contains (QueryData.lower value.strip)

/-- The filters of the loop over the tasks. -/
def TaskRow.passes (params : Params) (row : TaskRow) : Bool :=
  let task := row.task
  unlessEmpty (QueryData.lower (textParam params "status"))
      (QueryData.lower task.status.text == QueryData.lower (textParam params "status"))
    && unlessEmpty (textParam params "task_id") (task.taskId == textParam params "task_id")
    && unlessEmpty (textParam params "session_id")
      ([task.sessionId, task.firstSessionId].contains (textParam params "session_id"))
    && unlessEmpty (textParam params "subsystem")
      (task.subsystem.contains (textParam params "subsystem"))
    && (!parseBool (first params "stale_only") false || row.lease.stale)
    && (!parseBool (first params "attention_only") false || row.attention)

/-- `build_tasks`. -/
def buildTasks (params : Params) (events : List LogEvent) (now : Int) : List TaskRow :=
  let rows := (taskRows (parseBool (first params "include_legacy") true) events now).filter
    (·.passes params)
  (rows.insertionSort fun a b => b.activityEventId ≤ a.activityEventId).take
    (parseLimit (first params "limit") maxLimit).toNat

end

end IntegrityGuardian.ActionLog
