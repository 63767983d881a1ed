import IntegrityGuardian.ActionLog.PagesExact
import IntegrityGuardian.ActionLog.Tasks
import Mathlib.Data.List.Induction

/-!
# What moves the lease of a task

An event whose action is not operational leaves every status as it is.  The lease of a task
with an operational event stays too; a task without one is dated by its last lifecycle event.
-/

namespace IntegrityGuardian.ActionLog

open Python Library
open Json (ch)

/-! ## Actions -/

variable {action : Str}

theorem statusAfter_of_not_operational (h : action ∉ taskOperationalActions) :
    statusAfter action = none := by
  simp only [taskOperationalActions, List.mem_append, not_or] at h
  obtain ⟨⟨⟨⟨hopen, hpending⟩, hpause⟩, hclose⟩, -⟩ := h
  simp [statusAfter, hopen, hpending, hpause, hclose]

theorem not_start_of_not_operational (h : action ∉ taskOperationalActions) :
    action ≠ str "agent_change_start" := by
  rintro rfl
  apply h
  simp [taskOperationalActions, openActions]

theorem correction_isLifecycle (h : action ∈ relationCorrectionActions) :
    action ∈ taskLifecycleActions := by
  simp only [taskLifecycleActions, List.mem_append]
  exact .inl (.inr h)

/-! ## One event on one record -/

/-- The part of a record that binding an agent or subsystems leaves as it is. -/
structure SameCore (task task' : TrackedTask) : Prop where
  status : task'.status = task.status
  taskKey : task'.taskKey = task.taskKey
  taskId : task'.taskId = task.taskId
  lastId : task'.lastId = task.lastId
  lastTsUtc : task'.lastTsUtc = task.lastTsUtc
  lastObservedUtc : task'.lastObservedUtc = task.lastObservedUtc
  historyCount : task'.historyCount = task.historyCount

theorem SameCore.refl (task : TrackedTask) : SameCore task task := by
  constructor <;> rfl

theorem SameCore.trans {task task' task'' : TrackedTask} (h : SameCore task task')
    (h' : SameCore task' task'') : SameCore task task'' where
  status := h'.status.trans h.status
  taskKey := h'.taskKey.trans h.taskKey
  taskId := h'.taskId.trans h.taskId
  lastId := h'.lastId.trans h.lastId
  lastTsUtc := h'.lastTsUtc.trans h.lastTsUtc
  lastObservedUtc := h'.lastObservedUtc.trans h.lastObservedUtc
  historyCount := h'.historyCount.trans h.historyCount

section
variable [FloatData] [UnicodeData]

theorem bindAgent_core (task : TrackedTask) (event : LogEvent) :
    SameCore task (task.bindAgent event)
      ∧ (task.bindAgent event).hasStart = task.hasStart := by
  unfold TrackedTask.bindAgent
  cases event.agentIdentity with
  | none => exact ⟨.refl task, rfl⟩
  | some identity => exact ⟨by constructor <;> rfl, rfl⟩

variable [QueryData]

theorem bindSubsystems_core (task : TrackedTask) (event : LogEvent) :
    SameCore task (task.bindSubsystems event)
      ∧ (task.bindSubsystems event).hasStart = task.hasStart := by
  unfold TrackedTask.bindSubsystems
  dsimp only
  split
  · split <;> exact ⟨by constructor <;> rfl, rfl⟩
  · split <;> exact ⟨by constructor <;> rfl, rfl⟩

/-- What an event writes into a record, as far as it decides the lease. -/
structure Updated (task : TrackedTask) (event : LogEvent) (task' : TrackedTask) : Prop where
  status : task'.status = task.status
  hasStart : task'.hasStart = (task.hasStart || event.action == str "agent_change_start")
  taskKey : task'.taskKey = task.taskKey
  taskId : task'.taskId = if event.taskId ≠ [] then event.taskId else task.taskId
  lastId : task'.lastId = event.id
  lastTsUtc : task'.lastTsUtc = event.tsUtc
  lastObservedUtc : task'.lastObservedUtc = event.createdUtc
  historyCount : task'.historyCount = task.historyCount + 1

theorem update_spec (task : TrackedTask) (event : LogEvent) :
    Updated task event (task.update event) := by
  unfold TrackedTask.update
  extract_lets noted bound written placed
  have hbound : SameCore noted bound ∧ bound.hasStart = noted.hasStart := by
    show SameCore noted (if _ then _ else _) ∧ (if _ then _ else _ : TrackedTask).hasStart = _
    split
    · exact bindAgent_core noted event
    · exact ⟨.refl noted, rfl⟩
  have hwritten : SameCore bound written := by
    constructor <;> rfl
  have hplaced := bindSubsystems_core written event
  have hcore : SameCore noted placed := (hbound.1.trans hwritten).trans hplaced.1
  have hstart : placed.hasStart = (task.hasStart || event.action == str "agent_change_start") := by
    rw [hplaced.2]
    show (bound.hasStart || _) = _
    rw [hbound.2]
  split
  · rename_i htaskId
    exact ⟨hcore.status, hstart, hcore.taskKey, (if_pos htaskId).symm, hcore.lastId,
      hcore.lastTsUtc, hcore.lastObservedUtc, hcore.historyCount⟩
  · rename_i htaskId
    exact ⟨hcore.status, hstart, hcore.taskKey, hcore.taskId.trans (if_neg htaskId).symm,
      hcore.lastId, hcore.lastTsUtc, hcore.lastObservedUtc, hcore.historyCount⟩

variable {includeLegacy : Bool} {tasks : List TrackedTask} {event : LogEvent} {task : TrackedTask}

theorem absorb_correction (h : event.action ∈ relationCorrectionActions) :
    task.absorb event = { task with
      lists := (task.update event).lists
      lastId := event.id
      lastTsUtc := event.tsUtc
      lastObservedUtc := event.createdUtc
      historyCount := task.historyCount + 1 } := by
  have hspec := update_spec task event
  have hstatus : statusAfter event.action = none := by
    rw [List.mem_singleton.1 h]
    decide
  unfold TrackedTask.absorb
  extract_lets updated restored
  have hrestored : restored = { task with
      lists := (task.update event).lists
      lastId := event.id
      lastTsUtc := event.tsUtc
      lastObservedUtc := event.createdUtc
      historyCount := task.historyCount + 1 } := by
    show (if _ then _ else _) = _
    rw [if_pos h, hspec.lastId, hspec.lastTsUtc, hspec.lastObservedUtc, hspec.historyCount]
  rw [hstatus, hrestored]
  rfl

theorem absorb_other (h : event.action ∉ relationCorrectionActions) : task.absorb event
      = { task.update event with
          status := (statusAfter event.action).getD (task.update event).status } := by
  unfold TrackedTask.absorb
  dsimp only
  rw [if_neg h]

theorem absorb_dated (task : TrackedTask) (event : LogEvent) :
    (task.absorb event).taskKey = task.taskKey
      ∧ (task.absorb event).lastObservedUtc = event.createdUtc := by
  have hspec := update_spec task event
  by_cases hcorrection : event.action ∈ relationCorrectionActions
  · rw [absorb_correction hcorrection]
    exact ⟨rfl, rfl⟩
  · rw [absorb_other hcorrection]
    exact ⟨hspec.taskKey, hspec.lastObservedUtc⟩

theorem absorb_taskId (h : event.taskId ≠ [] → event.taskId = task.taskId) :
    (task.absorb event).taskId = task.taskId := by
  by_cases hcorrection : event.action ∈ relationCorrectionActions
  · rw [absorb_correction hcorrection]
  · rw [absorb_other hcorrection]
    show (task.update event).taskId = task.taskId
    rw [(update_spec task event).taskId]
    split
    · rename_i hne
      exact h hne
    · rfl

theorem absorb_of_not_operational (task : TrackedTask) (h : event.action ∉ taskOperationalActions) :
    (task.absorb event).status = task.status ∧ (task.absorb event).hasStart = task.hasStart := by
  have hspec := update_spec task event
  by_cases hcorrection : event.action ∈ relationCorrectionActions
  · rw [absorb_correction hcorrection]
    exact ⟨rfl, rfl⟩
  · rw [absorb_other hcorrection, statusAfter_of_not_operational h]
    refine ⟨hspec.status, hspec.hasStart.trans ?_⟩
    rw [beq_eq_false_iff_ne.2 (not_start_of_not_operational h), Bool.or_false]

/-! ## Keys -/

theorem taskKey_of_id (h : event.taskId ≠ []) : event.taskKey = str "task:" ++ event.taskId := by
  unfold LogEvent.taskKey
  rw [if_pos h]

theorem taskKey_legacy (h : event.taskId = []) :
    ∃ rest, event.taskKey = str "legacy:" ++ rest := by
  unfold LogEvent.taskKey
  rw [if_neg (by simp [h])]
  exact ⟨_, by rw [List.append_assoc, List.append_assoc]⟩

omit [FloatData] [UnicodeData] [QueryData] in
theorem key_kinds_differ (taskId rest : Str) : str "task:" ++ taskId ≠ str "legacy:" ++ rest := by
  intro h
  have hhead : some (ch 't') = some (ch 'l') := congrArg List.head? h
  exact absurd (Option.some.inj hhead) (by decide)

/-- A record stands under the key of its task id, or under a legacy one. -/
structure Keyed (includeLegacy : Bool) (task : TrackedTask) : Prop where
  byId : task.taskId ≠ [] → task.taskKey = str "task:" ++ task.taskId
  legacy : task.taskId = [] → includeLegacy = true ∧ ∃ rest, task.taskKey = str "legacy:" ++ rest

theorem Keyed.taskId_eq (h : Keyed includeLegacy task)
    (hkey : event.taskKey = task.taskKey) : event.taskId = task.taskId := by
  by_cases hevent : event.taskId = []
  · by_cases htask : task.taskId = []
    · rw [hevent, htask]
    · obtain ⟨rest, hrest⟩ := taskKey_legacy hevent
      rw [hrest, h.byId htask] at hkey
      exact absurd hkey.symm (key_kinds_differ _ _)
  · by_cases htask : task.taskId = []
    · obtain ⟨-, rest, hrest⟩ := h.legacy htask
      rw [hrest, taskKey_of_id hevent] at hkey
      exact absurd hkey (key_kinds_differ _ _)
    · rw [taskKey_of_id hevent, h.byId htask] at hkey
      exact List.append_cancel_left hkey

theorem Keyed.apart (h : Keyed includeLegacy task) (hkey : event.taskKey ≠ task.taskKey) :
    event.taskId = [] ∨ event.taskId ≠ task.taskId := by
  by_cases hevent : event.taskId = []
  · exact .inl hevent
  · refine .inr fun hsame => hkey ?_
    rw [taskKey_of_id hevent, h.byId (by rwa [← hsame]), hsame]

theorem Keyed.absorb (h : Keyed includeLegacy task) (hkey : event.taskKey = task.taskKey) :
    Keyed includeLegacy (task.absorb event) := by
  have hid : (task.absorb event).taskId = task.taskId :=
    absorb_taskId fun _ => h.taskId_eq hkey
  have hsame := (absorb_dated task event).1
  constructor
  · rw [hid, hsame]
    exact h.byId
  · rw [hid, hsame]
    exact h.legacy

theorem keyed_opened
    (h : event.taskId = [] → includeLegacy = true) : Keyed includeLegacy event.opened where
  byId hid := taskKey_of_id hid
  legacy hid := ⟨h hid, taskKey_legacy hid⟩

/-! ## The records -/

structure Filed (includeLegacy : Bool) (tasks : List TrackedTask) : Prop where
  distinct : (tasks.map TrackedTask.taskKey).Nodup
  keyed : ∀ task ∈ tasks, Keyed includeLegacy task

theorem Filed.absorbEvent (h : Filed includeLegacy tasks) (event : LogEvent) :
    Filed includeLegacy (absorbEvent includeLegacy tasks event) := by
  unfold ActionLog.absorbEvent
  split
  · exact h
  · split
    · exact h
    · rename_i hlegacy
      split
      · constructor
        · rw [map_updateKey fun task => (absorb_dated task event).1]
          exact h.distinct
        · intro task htask
          rcases mem_updateKey.1 htask with ⟨prior, hprior, hkey, rfl⟩ | ⟨htask, -⟩
          · exact (h.keyed prior hprior).absorb hkey.symm
          · exact h.keyed task htask
      · rename_i hnew
        split
        · exact h
        · have hkey : (event.opened.absorb event).taskKey = event.taskKey :=
            (absorb_dated event.opened event).1
          constructor
          · rw [List.map_append, List.map_singleton, hkey]
            exact List.nodup_append.2 ⟨h.distinct, List.nodup_singleton _, fun k hk k' hk' heq =>
              hnew (by rwa [← List.mem_singleton.1 hk', ← heq])⟩
          · intro task htask
            rcases List.mem_append.1 htask with htask | htask
            · exact h.keyed task htask
            · rw [List.mem_singleton.1 htask]
              refine (keyed_opened fun hid => ?_).absorb rfl
              by_contra hfalse
              exact hlegacy ⟨hid, Bool.eq_false_iff.2 hfalse⟩

theorem tasksOf_filed (includeLegacy : Bool) (events : List LogEvent) :
    Filed includeLegacy (tasksOf includeLegacy events) := by
  have hrun : ∀ tasks, Filed includeLegacy tasks →
      Filed includeLegacy (events.foldl (absorbEvent includeLegacy) tasks) := by
    induction events with
    | nil =>
      intro tasks h
      exact h
    | cons event events ih =>
      intro tasks h
      exact ih _ (h.absorbEvent event)
  exact hrun [] ⟨List.nodup_nil, by simp⟩

theorem tasksOf_concat (includeLegacy : Bool) (events : List LogEvent) (event : LogEvent) :
    tasksOf includeLegacy (events ++ [event])
      = absorbEvent includeLegacy (tasksOf includeLegacy events) event := by
  unfold tasksOf
  rw [List.foldl_append]
  rfl

/-- The record of a task behind one more event. -/
def TrackedTask.next (task : TrackedTask) (event : LogEvent) : TrackedTask :=
  if event.action ∈ taskLifecycleActions ∧ event.taskKey = task.taskKey then task.absorb event
  else task

theorem Filed.next_mem (h : Filed includeLegacy tasks) (event : LogEvent) (htask : task ∈ tasks) :
    task.next event ∈ ActionLog.absorbEvent includeLegacy tasks event := by
  by_cases hnext : event.action ∈ taskLifecycleActions ∧ event.taskKey = task.taskKey
  · have heq : task.next event = task.absorb event := if_pos hnext
    have hmem : event.taskKey ∈ tasks.map TrackedTask.taskKey := by
      rw [hnext.2]
      exact List.mem_map_of_mem htask
    have hlegacy : ¬(event.taskId = [] ∧ includeLegacy = false) := by
      rintro ⟨hid, hfalse⟩
      have htaskId := (h.keyed task htask).taskId_eq hnext.2
      rw [((h.keyed task htask).legacy (htaskId ▸ hid)).1] at hfalse
      cases hfalse
    unfold ActionLog.absorbEvent
    rw [heq, if_neg (not_not.2 hnext.1), if_neg hlegacy, if_pos hmem]
    exact mem_updateKey.2 (.inl ⟨task, htask, hnext.2.symm, rfl⟩)
  · have heq : task.next event = task := if_neg hnext
    rw [heq]
    unfold ActionLog.absorbEvent
    split
    · exact htask
    · rename_i haction
      split
      · exact htask
      · split
        · refine mem_updateKey.2 (.inr ⟨htask, fun hkey => hnext ⟨?_, hkey.symm⟩⟩)
          exact not_not.1 haction
        · split
          · exact htask
          · exact List.mem_append_left _ htask

/-! ## Cursors -/

theorem latest_concat (counts : LogEvent → Bool) (events : List LogEvent) (event : LogEvent)
    (taskId : Str) :
    latest counts (events ++ [event]) taskId
      = if event.taskId ≠ [] ∧ event.taskId = taskId ∧ counts event then some event.cursor
        else latest counts events taskId := by
  unfold latest
  rw [List.foldl_append]
  rfl

omit [QueryData] in
theorem countOf_concat (counts : LogEvent → Bool) (events : List LogEvent) (event : LogEvent)
    (taskId : Str) :
    countOf counts (events ++ [event]) taskId
      = if event.taskId ≠ [] ∧ event.taskId = taskId ∧ counts event then
          some ((countOf counts events taskId).getD 0 + 1)
        else countOf counts events taskId := by
  unfold countOf
  rw [List.foldl_append]
  rfl

theorem countOf_isSome (counts : LogEvent → Bool) (events : List LogEvent) (taskId : Str) :
    (countOf counts events taskId).isSome = (latest counts events taskId).isSome := by
  induction events using List.reverseRecOn with
  | nil => rfl
  | append_singleton events event ih =>
    rw [latest_concat, countOf_concat]
    split
    · rfl
    · exact ih

omit [UnicodeData] [QueryData] in
theorem isOperational_eq_false (h : event.action ∉ taskOperationalActions) :
    isOperational event = false := by
  unfold isOperational
  simpa using h

theorem latest_operational (h : event.action ∉ taskOperationalActions)
    (events : List LogEvent) (taskId : Str) :
    latest isOperational (events ++ [event]) taskId = latest isOperational events taskId := by
  rw [latest_concat, if_neg]
  rintro ⟨-, -, hoperational⟩
  rw [isOperational_eq_false h] at hoperational
  cases hoperational

omit [QueryData] in
theorem countOf_operational (h : event.action ∉ taskOperationalActions)
    (events : List LogEvent) (taskId : Str) :
    countOf isOperational (events ++ [event]) taskId = countOf isOperational events taskId := by
  rw [countOf_concat, if_neg]
  rintro ⟨-, -, hoperational⟩
  rw [isOperational_eq_false h] at hoperational
  cases hoperational

variable [AgeData]

/-! ## Rows -/

variable {includeLegacy : Bool} {now : Int} {events : List LogEvent} {event : LogEvent}
  {row : TaskRow} {task : TrackedTask}

theorem mem_taskRows : row ∈ taskRows includeLegacy events now
      ↔ ∃ task ∈ tasksOf includeLegacy events, rowOf events now task = row :=
  List.mem_map

theorem mem_taskRows_of_buildTasks {params : Params} (h : row ∈ buildTasks params events now) :
    row ∈ taskRows (parseBool (first params "include_legacy") true) events now := by
  have hsorted := List.mem_of_mem_take h
  exact (List.mem_filter.1 ((List.mem_insertionSort _).1 hsorted)).1

theorem row_eq_of_taskKey {row' : TaskRow} (h : row ∈ taskRows includeLegacy events now)
    (h' : row' ∈ taskRows includeLegacy events now)
    (hkey : row.task.taskKey = row'.task.taskKey) : row = row' := by
  obtain ⟨task, htask, rfl⟩ := mem_taskRows.1 h
  obtain ⟨task', htask', rfl⟩ := mem_taskRows.1 h'
  have hdistinct := (tasksOf_filed includeLegacy events).distinct
  rw [List.inj_on_of_nodup_map hdistinct htask htask' hkey]

/-- What the row of a task says behind an event that is not operational. -/
structure Kept (event : LogEvent) (now : Int) (row row' : TaskRow) : Prop where
  taskKey : row'.task.taskKey = row.task.taskKey
  status : row'.task.status = row.task.status
  lease : row.operationalCursor ≠ none ∨ event.action ∉ taskLifecycleActions →
    row'.lease = row.lease
  dated : row.operationalCursor = none → event.action ∈ taskLifecycleActions →
    event.taskKey = row.task.taskKey →
      row'.lease = leaseOf row.task.status row.task.hasStart event.createdUtc now
  other : event.taskKey ≠ row.task.taskKey → row' = row

/-- What the row of a task says behind a correction of its relations. -/
structure Corrected (event : LogEvent) (row row' : TaskRow) : Prop where
  task : row'.task = { row.task with
    lists := row'.task.lists
    lastId := event.id
    lastTsUtc := event.tsUtc
    lastObservedUtc := event.createdUtc
    historyCount := row.task.historyCount + 1 }
  operationalCursor : row'.operationalCursor = row.operationalCursor
  subsystemText : row'.subsystemText = row.subsystemText
  whole : ∀ cursor, row.operationalCursor = some cursor → cursor.eventId ≠ 0 → cursor.tsUtc ≠ [] →
    row' = { row with
      task := row'.task
      lastRelatedEvent := row'.lastRelatedEvent
      relatedEventCount := row'.relatedEventCount
      attentionReason := row'.attentionReason }
  attentionReason : row.operationalCursor ≠ none → row.task.status ≠ .pending →
    row'.attentionReason = row.attentionReason

theorem rowOf_concat_apart (h : event.taskId = [] ∨ event.taskId ≠ task.taskId) (now : Int) :
    rowOf (events ++ [event]) now task = rowOf events now task := by
  have hapart (counts : LogEvent → Bool) :
      ¬(event.taskId ≠ [] ∧ event.taskId = task.taskId ∧ counts event) := by
    rintro ⟨hid, hsame, -⟩
    exact h.elim hid fun hne => hne hsame
  unfold rowOf
  simp only [latest_concat, countOf_concat, if_neg (hapart _)]

theorem kept_next (events : List LogEvent) (h : event.action ∉ taskOperationalActions) (now : Int)
    (hkeyed : Keyed includeLegacy task) :
    Kept event now (rowOf events now task) (rowOf (events ++ [event]) now (task.next event)) := by
  by_cases hnext : event.action ∈ taskLifecycleActions ∧ event.taskKey = task.taskKey
  · have heq : task.next event = task.absorb event := if_pos hnext
    have hid : (task.absorb event).taskId = task.taskId :=
      absorb_taskId fun _ => hkeyed.taskId_eq hnext.2
    obtain ⟨hkey, hobserved⟩ := absorb_dated task event
    obtain ⟨hstatus, hstart⟩ := absorb_of_not_operational task h
    have hlease : (rowOf (events ++ [event]) now (task.absorb event)).lease
        = leaseOf task.status task.hasStart
            (observedUtc (latest isOperational events task.taskId) (task.absorb event)) now := by
      show leaseOf _ _ (observedUtc (latest isOperational _ _) _) now = _
      rw [latest_operational h, hid, hstatus, hstart]
    rw [heq]
    refine ⟨hkey, hstatus, ?_, ?_, fun hother => absurd hnext.2 hother⟩
    · rintro (hcursor | hnot)
      · obtain ⟨cursor, hcursor⟩ := Option.ne_none_iff_exists'.1 hcursor
        have hlatest : latest isOperational events task.taskId = some cursor := hcursor
        rw [hlease, hlatest]
        show _ = leaseOf _ _ (observedUtc (latest isOperational _ _) _) now
        rw [hlatest]
        rfl
      · exact absurd hnext.1 hnot
    · intro hnone _ _
      have hlatest : latest isOperational events task.taskId = none := hnone
      rw [hlease, hlatest]
      show leaseOf _ _ (task.absorb event).lastObservedUtc now = _
      rw [hobserved]
      rfl
  · have heq : task.next event = task := if_neg hnext
    rw [heq]
    refine ⟨rfl, rfl, ?_, fun _ haction hkey => absurd ⟨haction, hkey⟩ hnext, ?_⟩
    · intro _
      show leaseOf _ _ (observedUtc (latest isOperational _ _) _) now = _
      rw [latest_operational h]
      rfl
    · intro hother
      exact rowOf_concat_apart (hkeyed.apart hother) now

omit [FloatData] [UnicodeData] [QueryData] in
theorem attentionOf_preempts (status : Status) (lease : Lease) (preempts preempts' : Bool) :
    (attentionOf status lease preempts).2 = (attentionOf status lease preempts').2
      ∧ (status ≠ .pending →
        (attentionOf status lease preempts).1 = (attentionOf status lease preempts').1) := by
  unfold attentionOf
  split
  · exact ⟨rfl, fun _ => rfl⟩
  · cases status with
    | pending => exact ⟨rfl, fun h => absurd rfl h⟩
    | _ => exact ⟨rfl, fun _ => rfl⟩

theorem corrected_next (h : event.action ∈ relationCorrectionActions) (now : Int)
    (hkey : event.taskKey = task.taskKey) : Corrected event (rowOf events now task)
      (rowOf (events ++ [event]) now (task.next event)) := by
  have hnot : event.action ∉ taskOperationalActions := by
    rw [List.mem_singleton.1 h]
    decide
  have heq : task.next event = task.absorb event := if_pos ⟨correction_isLifecycle h, hkey⟩
  rw [heq, absorb_correction h]
  generalize (task.update event).lists = lists
  refine ⟨rfl, latest_operational hnot _ _, rfl, ?_, ?_⟩
  · intro cursor hcursor hid hts
    have hlatest : latest isOperational events task.taskId = some cursor := hcursor
    have hcounted : (countOf isOperational events task.taskId).isSome = true := by
      rw [countOf_isSome, hlatest]
      rfl
    obtain ⟨count, hcount⟩ := Option.isSome_iff_exists.1 hcounted
    unfold rowOf
    simp only [latest_operational hnot, countOf_operational hnot, hlatest, hcount, observedUtc,
      Option.map_some, Option.filter_some, Option.getD_some, hid, hts, decide_not, decide_false,
      Bool.not_false, if_true, ne_eq]
    rw [(attentionOf_preempts _ _ (lists .preemptsTaskIds != [])
      (task.lists .preemptsTaskIds != [])).1]
  · intro hcursor hpending
    obtain ⟨cursor, hcursor⟩ := Option.ne_none_iff_exists'.1 hcursor
    have hlatest : latest isOperational events task.taskId = some cursor := hcursor
    unfold rowOf
    simp only [latest_operational hnot, hlatest, observedUtc]
    exact (attentionOf_preempts _ _ _ _).2 hpending

/-! ## The guarantee -/

/-- An event that is not operational leaves every task its status, and its lease where the
task has an operational event; a correction leaves all but what it is for. -/
theorem lease_moves_by_operational_events {params : Params} {events : List LogEvent}
    {event : LogEvent} (h : event.action ∉ taskOperationalActions) {now : Int} {row : TaskRow}
    (hrow : row ∈ buildTasks params events now) :
    ∃ row' ∈ taskRows (parseBool (first params "include_legacy") true) (events ++ [event]) now,
      Kept event now row row'
        ∧ (event.action ∈ relationCorrectionActions → event.taskKey = row.task.taskKey →
          Corrected event row row')
        ∧ ∀ listed ∈ buildTasks params (events ++ [event]) now,
          listed.task.taskKey = row.task.taskKey → listed = row' := by
  obtain ⟨task, htask, rfl⟩ := mem_taskRows.1 (mem_taskRows_of_buildTasks hrow)
  have hfiled := tasksOf_filed (parseBool (first params "include_legacy") true) events
  have hkept := kept_next events h now (hfiled.keyed task htask)
  have hmem : rowOf (events ++ [event]) now (task.next event)
      ∈ taskRows (parseBool (first params "include_legacy") true) (events ++ [event]) now := by
    rw [mem_taskRows, tasksOf_concat]
    exact ⟨_, hfiled.next_mem event htask, rfl⟩
  refine ⟨_, hmem, hkept, fun hcorrection hkey => corrected_next hcorrection now hkey, ?_⟩
  intro listed hlisted hkey
  exact row_eq_of_taskKey (mem_taskRows_of_buildTasks hlisted) hmem (hkey.trans hkept.taskKey.symm)

end

/-! ## A session that is admitted again -/

section

/-- Hours in thousandths. -/
@[reducible] def thousandths : AgeData where
  Hours := Int
  hours micros := (micros + 1800000) / 3600000
  isStale hours := 12000 ≤ hours
  text hours :=
    let tenths (n : Int) : Str :=
      Json.decimal (n / 10).toNat ++ ch '.' :: Json.decimal (n % 10).toNat
    if 24000 ≤ hours then tenths ((hours + 1200) / 2400) ++ [ch 'd']
    else if 1000 ≤ hours then tenths ((hours + 50) / 100) ++ [ch 'h']
    else Json.decimal ((hours * 60 + 500) / 1000).toNat ++ [ch 'm']

attribute [local instance] zeroFloatData asciiUnicodeData asciiQueryData thousandths

def logged (id : Int) (createdUtc action : String) (taskId : Str) : LogEvent where
  id := id
  tsUtc := str createdUtc
  createdUtc := str createdUtc
  action := str action
  actor := str "codex"
  sessionId := [115]
  summary := []
  details := .obj [(str "task_id", .str taskId)]
  tags := .arr []

/-- The session is admitted twenty hours after a task was started. -/
def started (taskId : Str) : LogEvent :=
  logged 1 "2026-01-01T00:00:00Z" "agent_change_start" taskId

def readmitted (taskId : Str) : LogEvent :=
  logged 2 "2026-01-01T20:00:00Z" "agent_session_admission" taskId

/-- One hour later, in microseconds. -/
def anHourLater : Int := (parseEventTime (str "2026-01-01T21:00:00Z")).getD 0

def leaseSeen (row : TaskRow) : Str × Bool × LeaseState × Bool :=
  (row.task.taskKey, row.lease.stale, row.lease.leaseState, row.operationalCursor.isSome)

theorem leases_seen :
    (buildTasks [] [started []] anHourLater).map leaseSeen
        = [((started []).taskKey, true, .expired, false)]
      ∧ (buildTasks [] ([started []] ++ [readmitted []]) anHourLater).map leaseSeen
        = [((started []).taskKey, false, .live, false)]
      ∧ (buildTasks [] [started [116]] anHourLater).map leaseSeen
        = [((started [116]).taskKey, true, .expired, true)] := by
  decide +kernel

/-- A task with an id stays stale when its session is admitted again. -/
theorem readmission_leaves_lease :
    ∃ row ∈ buildTasks [] [started [116]] anHourLater,
      ∃ row' ∈ taskRows true ([started [116]] ++ [readmitted [116]]) anHourLater,
        row.lease.stale = true ∧ row'.lease = row.lease := by
  obtain ⟨row, hrow, hseen⟩ := List.mem_map.1 (leases_seen.2.2 ▸ List.mem_singleton_self _)
  have hcursor : row.operationalCursor ≠ none := by
    have hsome : row.operationalCursor.isSome = true := congrArg (·.2.2.2) hseen
    exact Option.isSome_iff_ne_none.1 hsome
  have haction : (readmitted [116]).action ∉ taskOperationalActions := by decide +kernel
  obtain ⟨row', hrow', hkept, -, -⟩ := lease_moves_by_operational_events haction hrow
  exact ⟨row, hrow, row', hrow', congrArg (·.2.1) hseen, hkept.lease (.inl hcursor)⟩

/-- The lease of a task without an id is renewed by an admission. -/
theorem readmission_renews_legacy_lease :
    ¬∀ (params : Params) (events : List LogEvent) (now : Int) (event : LogEvent),
      event.action ∉ taskOperationalActions →
        ∀ row ∈ buildTasks params events now, ∀ row' ∈ buildTasks params (events ++ [event]) now,
          row'.task.taskKey = row.task.taskKey →
            row'.task.status = row.task.status ∧ row'.lease.stale = row.lease.stale
              ∧ row'.lease.leaseState = row.lease.leaseState
              ∧ row'.lease.queueState = row.lease.queueState
              ∧ row'.lease.coordinationActive = row.lease.coordinationActive := by
  intro hclaim
  obtain ⟨row, hrow, hseen⟩ := List.mem_map.1 (leases_seen.1 ▸ List.mem_singleton_self _)
  obtain ⟨row', hrow', hseen'⟩ := List.mem_map.1 (leases_seen.2.1 ▸ List.mem_singleton_self _)
  have hkey : row'.task.taskKey = row.task.taskKey :=
    (congrArg Prod.fst hseen').trans (congrArg Prod.fst hseen).symm
  have hstale := (hclaim [] [started []] anHourLater (readmitted []) (by decide +kernel) row hrow
    row' hrow' hkey).2.1
  have hbefore : row.lease.stale = true := congrArg (·.2.1) hseen
  have hafter : row'.lease.stale = false := congrArg (·.2.1) hseen'
  rw [hbefore, hafter] at hstale
  cases hstale

end

end IntegrityGuardian.ActionLog
