import IntegrityGuardian.Python.JsonObject
import Mathlib.Data.List.Nodup

/-!
# Pointers for a running thread

`codex_steer.py` keeps the pointers of one thread in one file, read and replaced
under the lock of the thread.  Every save cuts the file to its newest entries,
whatever became of the others.
-/

namespace IntegrityGuardian.LlmBus.CodexSteer

open Python

/-! ## The file -/

/-- `entry["state"]`. -/
inductive EntryState where
  | staged
  | steered
  | queued
  deriving DecidableEq

/-- An entry; `done_at` and `turn_id` are there once it has moved. -/
structure Entry where
  key : Str
  ids : List Str
  text : Str
  state : EntryState
  stagedAt : Int
  doneAt : Option Int
  turnId : Option (Option Str)
  deriving DecidableEq

/-- The texts of an entry. -/
def Entry.texts (entry : Entry) : List Str :=
  entry.key :: entry.text :: entry.ids ++ (entry.turnId.bind id).toList

/-- Whether `write_text` can encode the entry. -/
def Entry.encodable (entry : Entry) : Bool :=
  entry.texts.all fun text => (Json.str text).encodable

/-- The entries of the file, or no file. -/
abbrev File := Option (List Entry)

/-- `MAX_ENTRIES`. -/
def maxEntries : Nat := 50

/-- `_load`. -/
def load (file : File) : List Entry := file.getD []

/-- `data["entries"][-MAX_ENTRIES:]`. -/
def newest (entries : List Entry) : List Entry := entries.drop (entries.length - maxEntries)

/-- `_save`: nothing is replaced when the text cannot be encoded. -/
def save (entries : List Entry) : Except Exc File :=
  if (newest entries).all Entry.encodable then .ok (some (newest entries))
  else .error .unicodeEncodeError

/-! ## Calls -/

/-- The entry that `stage` appends. -/
def newEntry (key : Str) (ids : List Str) (text : Str) (now : Int) : Entry :=
  ⟨key, ids, text, .staged, now, none, none⟩

/-- `stage`. -/
def stage (key : Str) (ids : List Str) (text : Str) (now : Int) (file : File) :
    Except Exc (Bool × File) :=
  if key ∈ (load file).map Entry.key then .ok (false, file)
  else do
    let saved ← save (load file ++ [newEntry key ids text now])
    .ok (true, saved)

/-- The entries that are still staged. -/
def waiting (entries : List Entry) : List Entry := entries.filter fun entry => entry.state = .staged

/-- The update of a pass of `take_for_hook`. -/
def steer (turnId : Option Str) (now : Int) (entry : Entry) : Entry :=
  if entry.state = .staged then
    { entry with state := .steered, doneAt := some now, turnId := some turnId }
  else entry

/-- `take_for_hook`. -/
def takeForHook (turnId : Option Str) (now : Int) (file : File) :
    Except Exc (List Str × File) :=
  let texts := (waiting (load file)).map Entry.text
  if texts = [] then .ok ([], file)
  else do
    let saved ← save ((load file).map (steer turnId now))
    .ok (texts, saved)

/-- Whether `take_for_queue` takes an entry. -/
def takes (key : Str) (entry : Entry) : Bool := entry.key = key ∧ entry.state = .staged

/-- The entries after `take_for_queue`. -/
def queueFirst (key : Str) (now : Int) : List Entry → List Entry
  | [] => []
  | entry :: rest =>
    if takes key entry then { entry with state := .queued, doneAt := some now } :: rest
    else entry :: queueFirst key now rest

/-- `take_for_queue`. -/
def takeForQueue (key : Str) (now : Int) (file : File) : Except Exc (Option Str × File) :=
  match (load file).find? (takes key) with
  | none => .ok (none, file)
  | some entry => do
    let saved ← save (queueFirst key now (load file))
    .ok (some entry.text, saved)

/-! ## Histories -/

/-- A call of any process; one that is interrupted raises before its rename. -/
inductive Call where
  | stage (key : Str) (ids : List Str) (text : Str) (now : Int)
  | takeForHook (turnId : Option Str) (now : Int)
  | takeForQueue (key : Str) (now : Int)
  | interrupted

/-- The file, the pointers that `stage` has answered `True`, and the keys of the
entries whose texts have been handed out. -/
structure World where
  file : File
  accepted : List (Str × Str)
  handed : List Str

def World.entries (w : World) : List Entry := load w.file

def World.start : World := ⟨none, [], []⟩

def World.step (w : World) : Call → World
  | .stage key ids text now =>
    match CodexSteer.stage key ids text now w.file with
    | .ok (true, file) => { w with file, accepted := w.accepted ++ [(key, text)] }
    | .ok (false, file) => { w with file }
    | .error _ => w
  | .takeForHook turnId now =>
    match CodexSteer.takeForHook turnId now w.file with
    | .ok (_, file) => { w with file, handed := w.handed ++ (waiting w.entries).map Entry.key }
    | .error _ => w
  | .takeForQueue key now =>
    match CodexSteer.takeForQueue key now w.file with
    | .ok (some _, file) => { w with file, handed := w.handed ++ [key] }
    | .ok (none, file) => { w with file }
    | .error _ => w
  | .interrupted => w

def World.run (calls : List Call) : World := calls.foldl World.step World.start

/-! ## What a call does -/

/-- The ways a call can change the world. -/
inductive Change (w : World) : Call → World → Prop
  | none (call : Call) : Change w call w
  | staged {key : Str} {ids : List Str} {text : Str} {now : Int}
      (hnew : key ∉ w.entries.map Entry.key)
      (hencodable : ∀ entry ∈ newest (w.entries ++ [newEntry key ids text now]),
        entry.encodable = true) :
      Change w (.stage key ids text now)
        ⟨some (newest (w.entries ++ [newEntry key ids text now])), w.accepted ++ [(key, text)],
          w.handed⟩
  | steered {turnId : Option Str} {now : Int}
      (hencodable : ∀ entry ∈ newest (w.entries.map (steer turnId now)), entry.encodable = true) :
      Change w (.takeForHook turnId now)
        ⟨some (newest (w.entries.map (steer turnId now))), w.accepted,
          w.handed ++ (waiting w.entries).map Entry.key⟩
  | queued {key : Str} {now : Int} {entry : Entry} (hentry : w.entries.find? (takes key) = some entry)
      (hencodable : ∀ entry ∈ newest (queueFirst key now w.entries), entry.encodable = true) :
      Change w (.takeForQueue key now)
        ⟨some (newest (queueFirst key now w.entries)), w.accepted, w.handed ++ [key]⟩

theorem save_eq_ok {entries : List Entry} {file : File} (h : save entries = .ok file) :
    file = some (newest entries) ∧ ∀ entry ∈ newest entries, entry.encodable = true := by
  unfold save at h
  split at h
  · rename_i hall
    cases h
    exact ⟨rfl, List.all_eq_true.1 hall⟩
  · cases h

theorem change_step (w : World) (call : Call) : Change w call (w.step call) := by
  cases call with
  | interrupted => exact .none _
  | stage key ids text now =>
    unfold World.step stage
    by_cases hknown : key ∈ (load w.file).map Entry.key
    · simp only [if_pos hknown]
      exact .none _
    · simp only [if_neg hknown]
      cases hsave : save (load w.file ++ [newEntry key ids text now]) with
      | error e => exact .none _
      | ok file =>
        obtain ⟨rfl, hencodable⟩ := save_eq_ok hsave
        exact .staged hknown hencodable
  | takeForHook turnId now =>
    unfold World.step takeForHook
    by_cases hnone : (waiting (load w.file)).map Entry.text = []
    · have hwaiting : waiting w.entries = [] := List.map_eq_nil_iff.1 hnone
      simp only [if_pos hnone, hwaiting, List.map_nil, List.append_nil]
      exact .none _
    · simp only [if_neg hnone]
      cases hsave : save ((load w.file).map (steer turnId now)) with
      | error e => exact .none _
      | ok file =>
        obtain ⟨rfl, hencodable⟩ := save_eq_ok hsave
        exact .steered hencodable
  | takeForQueue key now =>
    cases hfind : (load w.file).find? (takes key) with
    | none =>
      have hcall : CodexSteer.takeForQueue key now w.file = .ok (none, w.file) := by
        simp only [CodexSteer.takeForQueue, hfind]
      simp only [World.step, hcall]
      exact .none _
    | some entry =>
      cases hsave : save (queueFirst key now (load w.file)) with
      | error e =>
        have hcall : CodexSteer.takeForQueue key now w.file = .error e := by
          simp only [CodexSteer.takeForQueue, hfind, hsave]
          rfl
        simp only [World.step, hcall]
        exact .none _
      | ok file =>
        have hcall : CodexSteer.takeForQueue key now w.file =
            .ok (some entry.text, file) := by
          simp only [CodexSteer.takeForQueue, hfind, hsave]
          rfl
        obtain ⟨rfl, hencodable⟩ := save_eq_ok hsave
        simp only [World.step, hcall]
        exact .queued hfind hencodable

end IntegrityGuardian.LlmBus.CodexSteer
