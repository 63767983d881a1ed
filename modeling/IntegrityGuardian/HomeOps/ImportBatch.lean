import IntegrityGuardian.Library.Interleaving
import IntegrityGuardian.Python.Text
import Mathlib.Data.List.Sort

/-!
# Archive imports of one home root

`import_batch` looks whether its generation exists, runs one block under the lock
of the scope registry, and, when the block raises, writes the old registry back
and removes the generation directory after the lock is released.

The block is one step here; the check before it and the two halves of the cleanup
are steps of their own, so that calls of any number of processes interleave.
-/

namespace IntegrityGuardian.HomeOps

open Python

/-! ## The root -/

/-- A scope of `memory-scopes.json`, with the generations its paths lie in. -/
structure Scope where
  scopeId : Str
  displayName : Str
  projectId : Option Str
  index : Str
  sidecar : Option Str
  logicalScopeId : Option Str
  everywhereBaseAccess : Bool
  deriving DecidableEq

/-- The scopes of the registry file, or that there is none. -/
abbrev Registry := Option (List Scope)

/-- A generation directory, by the call that built it; the first ones have none. -/
structure Generation where
  builder : Option Nat
  deriving DecidableEq

/-- The arguments of a call that has passed its checks. -/
structure Request where
  /-- `generation_name`. -/
  output : Str
  /-- `project_id`, or that the scope is the personal one. -/
  projectId : Option Str
  deriving DecidableEq

def Request.scopeId (request : Request) : Str :=
  match request.projectId with
  | none => str "personal:core"
  | some project => str "project:" ++ project

/-- The scope a call adds. -/
def Request.scope (request : Request) : Scope where
  scopeId := request.scopeId
  displayName := request.projectId.getD (str "Personal")
  projectId := request.projectId
  index := request.output
  sidecar := none
  logicalScopeId := none
  everywhereBaseAccess := false

/-- Every scope is read from the new generation. -/
def Scope.repoint (output : Str) (scope : Scope) : Scope :=
  { scope with
    index := output
    sidecar := some output
    logicalScopeId := some scope.scopeId
    everywhereBaseAccess := true }

/-- `_registry_payload`. -/
def registryPayload (request : Request) (registry : Registry) : List Scope :=
  let kept := (registry.getD []).filter fun scope => scope.scopeId ≠ request.scopeId
  ((kept ++ [request.scope]).map (Scope.repoint request.output)).insertionSort
    fun a b => a.scopeId ≤ b.scopeId

/-! ## Calls -/

/-- Where the block under the lock raises what its parts do not raise by themselves. -/
inductive Stage where
  /-- The lock is not taken, or the registry cannot be read. -/
  | lock
  /-- Before anything is built. -/
  | prepare
  /-- The intake fails; it removes its own stage directory. -/
  | intake
  /-- The generation is verified, its sidecar built, the payload made or written. -/
  | publish
  /-- The registry has been replaced; the old one is back if `restored`. -/
  | append (restored : Bool)
  deriving DecidableEq

/-- An exception out of the block; `handled` if it is of the classes `import_batch` catches. -/
structure Fault where
  stage : Stage
  handled : Bool
  deriving DecidableEq

/-- Where a call is. -/
inductive Phase where
  /-- `reused` is decided. -/
  | checked (request : Request) (reused : Bool)
  /-- The block raised: the registry read in it, if it was, how many calls had
  returned then, and whether the block has left a registry of its own. -/
  | failed (request : Request) (reused : Bool) (snapshot : Option Registry) (seen : Nat)
      (dirty : Bool)
  /-- `_restore_registry` is done with. -/
  | restored (request : Request) (reused : Bool)
  | returned (request : Request) (reused : Bool)
  | raised
  deriving DecidableEq

structure World where
  registry : Registry
  dirs : Str → Option Generation
  calls : Nat → Option Phase
  /-- What the calls that returned have written, in their order. -/
  published : List (List Scope)

def World.setCall (w : World) (p : Nat) (phase : Phase) : World :=
  { w with calls := Function.update w.calls p (some phase) }

def World.setDir (w : World) (name : Str) (dir : Option Generation) : World :=
  { w with dirs := Function.update w.dirs name dir }

@[simp] theorem World.setDir_dirs (w : World) (name : Str) (dir : Option Generation) :
    (w.setDir name dir).dirs = Function.update w.dirs name dir := rfl

/-- `_active_generation`: without a result it raises. -/
def World.active (w : World) : Option (Option Str) :=
  match w.registry with
  | none | some [] => some none
  | some (scope :: scopes) =>
    if (scope :: scopes).all (fun other =>
        other.index = scope.index ∧ other.sidecar = some scope.index)
        ∧ (w.dirs scope.index).isSome then
      some (some scope.index)
    else none

/-- `_registry_has_scope`. -/
def World.hasScope (w : World) (scopeId : Str) : Bool :=
  (w.registry.getD []).any fun scope => scope.scopeId = scopeId

/-- The block raises. -/
def World.fail (w : World) (p : Nat) (request : Request) (reused : Bool)
    (snapshot : Option Registry) (dirty handled : Bool) : World :=
  w.setCall p (if handled then .failed request reused snapshot w.published.length dirty else .raised)

/-- From `_registry_payload` to the end of the block. -/
def World.publish (w : World) (p : Nat) (request : Request) (reused : Bool) (before : Registry)
    (fault : Option Fault) : World :=
  let payload := registryPayload request before
  match fault with
  | some ⟨.append true, handled⟩ => w.fail p request reused (some before) false handled
  | some ⟨.append false, handled⟩ =>
    { w with registry := some payload }.fail p request reused (some before) true handled
  | some ⟨_, handled⟩ => w.fail p request reused (some before) false handled
  | none =>
    { w with registry := some payload, published := w.published ++ [payload] }.setCall p
      (.returned request reused)

/-- The block from its look at the generation on. -/
def World.proceed (w : World) (p : Nat) (request : Request) (reused : Bool)
    (fault : Option Fault) : World :=
  if reused then
    if (w.dirs request.output).isSome ∧ w.active = some (some request.output)
        ∧ w.hasScope request.scopeId then
      w.publish p request reused w.registry fault
    else w.fail p request reused (some w.registry) false true
  else
    match w.active, w.dirs request.output, fault with
    | none, _, _ => w.fail p request reused (some w.registry) false true
    -- "output generation already exists"
    | some _, some _, _ => w.fail p request reused (some w.registry) false true
    | some _, none, some ⟨.intake, handled⟩ =>
      w.fail p request reused (some w.registry) false handled
    | some _, none, fault =>
      (w.setDir request.output (some ⟨some p⟩)).publish p request reused w.registry fault

/-- The block under the lock, for a call that found its generation or did not. -/
def World.block (w : World) (p : Nat) (request : Request) (reused : Bool) (fault : Option Fault) :
    World :=
  match fault with
  | some ⟨.lock, handled⟩ => w.fail p request reused none false handled
  | some ⟨.prepare, handled⟩ => w.fail p request reused (some w.registry) false handled
  | fault => w.proceed p request reused fault

/-- How a part of the cleanup ends. -/
inductive Undo where
  | done
  /-- Its exception is ignored. -/
  | ignored
  /-- Its exception leaves `import_batch`. -/
  | escaped
  deriving DecidableEq

inductive Step where
  | begin (p : Nat) (request : Request)
  | block (p : Nat) (fault : Option Fault)
  /-- `_restore_registry(previous_registry)`. -/
  | restore (p : Nat) (undo : Undo)
  /-- `shutil.rmtree(output, ignore_errors=True)`. -/
  | remove (p : Nat) (undo : Undo)
  deriving DecidableEq

/-- What a step does, where it is possible. -/
def perform (w : World) : Step → Option World
  | .begin p request =>
    match w.calls p with
    | none => some (w.setCall p (.checked request (w.dirs request.output).isSome))
    | some _ => none
  | .block p fault =>
    match w.calls p with
    | some (.checked request reused) => some (w.block p request reused fault)
    | _ => none
  | .restore p undo =>
    match w.calls p with
    | some (.failed request reused none _ _) => some (w.setCall p (.restored request reused))
    | some (.failed request reused (some before) _ _) =>
      match undo with
      | .done => some ({ w with registry := before }.setCall p (.restored request reused))
      | .ignored => some (w.setCall p (.restored request reused))
      | .escaped => some (w.setCall p .raised)
    | _ => none
  | .remove p undo =>
    match w.calls p with
    | some (.restored request reused) =>
      if reused = false ∧ undo = .done then
        some ((w.setDir request.output none).setCall p .raised)
      else some (w.setCall p .raised)
    | _ => none

/-- A possible step. -/
def Performs (w : World) (step : Step) (w' : World) : Prop := perform w step = some w'

/-- The registry the last call that returned has written, or the first one. -/
def World.official (w first : World) : Registry :=
  (w.published.getLast?.map some).getD first.registry

/-- A root before the calls: what the registry names is there. -/
structure Initial (w : World) : Prop where
  calls : ∀ p, w.calls p = none
  published : w.published = []
  builders : ∀ name dir, w.dirs name = some dir → dir.builder = none
  named : ∀ scope ∈ w.registry.getD [], ∃ dir, w.dirs scope.index = some dir

end IntegrityGuardian.HomeOps
