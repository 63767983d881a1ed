import IntegrityGuardian.Library.RoundRobin
import IntegrityGuardian.Library.Transaction
import IntegrityGuardian.Python.Json

/-!
# Federated search

`FederatedSearch.search` of `federated_search.py`.  The readers are a parameter: each
answers a limit and an offset for the query of the request.  Paths are held as
`os.path.normcase(os.path.normpath(...))` leaves them.
-/

namespace IntegrityGuardian.Chronicle

open Python Library

/-- A `FederatedSearchError` with its message, or an error that `search` lets through. -/
inductive SearchError where
  | request (message : String)
  | unavailable
  | raised
  deriving DecidableEq

def maxFederatedResults : Nat := 50
def maxFederatedOffset : Nat := 1000000
def maxFederatedContextRadius : Nat := 2
def maxFederatedQueryChars : Nat := 4096
def maxFederatedFetchBatch : Nat := 8
def maxScopes : Nat := 64

/-! ## Scopes -/

/-- `_ScopeEntry`. -/
structure ScopeEntry where
  scopeId : Str
  displayName : Str
  scopeKind : Str
  realm : Str
  enabled : Bool
  indexPath : Str
  projectId : Option Str
  historySidecarPath : Option Str
  logicalScopeId : Option Str
  everywhereBaseAccess : Bool
  deriving DecidableEq

/-- The registered scopes in the order of their ids. -/
structure ScopeRegistry where
  scopes : List ScopeEntry
  ascending : scopes.Pairwise fun a b => a.scopeId < b.scopeId

/-- `scope.public()`. -/
def ScopeEntry.publicMembers (scope : ScopeEntry) : List (Str × Json) :=
  [(str "scope_id", .str scope.scopeId), (str "display_name", .str scope.displayName),
    (str "scope_kind", .str scope.scopeKind), (str "realm", .str scope.realm),
    (str "enabled", .bool scope.enabled)]
    ++ (scope.projectId.map fun id => (str "project_id", Json.str id)).toList
    ++ match scope.historySidecarPath with
      | none => [(str "storage_mode", .str (str "physical"))]
      | some _ => [(str "storage_mode", .str (str "history_view")),
          (str "everywhere_base_access", .bool scope.everywhereBaseAccess)]

/-- `_backend_key`. -/
def backendKey (scope : ScopeEntry) : Str :=
  scope.indexPath ++ ⟨0, by decide⟩ :: scope.historySidecarPath.getD []

/-- The scopes of one backend. -/
structure Group where
  scope : ScopeEntry
  others : List ScopeEntry
  deriving DecidableEq

def Group.items (group : Group) : List ScopeEntry := group.scope :: group.others

def Group.key (group : Group) : Str := backendKey group.scope

/-- `grouped.setdefault(key, []).append(scope)`. -/
def addToGroups : List Group → ScopeEntry → List Group
  | [], scope => [⟨scope, []⟩]
  | group :: groups, scope =>
    if group.key = backendKey scope then ⟨group.scope, group.others ++ [scope]⟩ :: groups
    else group :: addToGroups groups scope

/-- `_groups`. -/
def groupsOf (selected : List ScopeEntry) : List Group := selected.foldl addToGroups []

/-! ## Requests -/

structure Request where
  query : Str
  scopeIds : Option (List Str)
  everywhere : Bool
  limit : Int
  offset : Int
  matchMode : Str
  contextRadius : Int

/-- `_bounded_string`. -/
def boundedString (value : Str) (field : String) (maximum : Nat) : Except SearchError Unit :=
  ensure (value ≠ [] ∧ value.length ≤ maximum ∧ (⟨0, by decide⟩ : CodePoint) ∉ value)
    (.request (field ++ " must be a bounded non-empty string"))

/-- The checks of `search`. -/
def validate (request : Request) : Except SearchError Unit := do
  boundedString request.query "query" maxFederatedQueryChars
  ensure (request.query.strip ≠ []) (.request "query must contain a search term")
  ensure (request.matchMode = str "fts") (.request "federated search v1 supports only fts")
  ensure (1 ≤ request.limit ∧ request.limit ≤ maxFederatedResults)
    (.request "limit must be between 1 and 50")
  ensure (0 ≤ request.offset ∧ request.offset ≤ maxFederatedOffset)
    (.request "offset must be between 0 and 1000000")
  ensure (0 ≤ request.contextRadius ∧ request.contextRadius ≤ maxFederatedContextRadius)
    (.request "context_radius must be between 0 and 2")

/-- `_scope_ids`. -/
def scopeIdsOf (value : List Str) : Except SearchError (List Str) := do
  ensure (1 ≤ value.length ∧ value.length ≤ maxScopes)
    (.request "scope_ids must be a non-empty bounded collection")
  value.forM fun id => boundedString id "scope_id" 128
  ensure value.Nodup (.request "scope_ids must not contain duplicates")
  .ok (value.insertionSort (· ≤ ·))

/-- `_resolve` of one id. -/
def resolve (registry : ScopeRegistry) (id : Str) : Except SearchError ScopeEntry :=
  match registry.scopes.find? fun entry => entry.scopeId = id with
  | none => .error .unavailable
  | some entry => do
    ensure (entry.enabled = true) .unavailable
    .ok entry

/-- `_resolve` of the scopes that are asked for, one way or the other. -/
def resolveAll (registry : ScopeRegistry) (request : Request) :
    Except SearchError (List ScopeEntry) :=
  match request.scopeIds, request.everywhere with
  | none, true => .ok (registry.scopes.filter ScopeEntry.enabled)
  | some ids, false => do
    let ids ← scopeIdsOf ids
    ids.mapM (resolve registry)
  | _, _ => .error (.request "choose exactly one of scope_ids or everywhere")

/-- `_selection`. -/
def selection (registry : ScopeRegistry) (request : Request) :
    Except SearchError (List ScopeEntry) := do
  let selected ← resolveAll registry request
  ensure (selected ≠ []) .unavailable
  .ok selected

/-! ## Pages of one backend -/

/-- A search result, a `dict`. -/
abbrev Record := List (Str × Json)

/-- What a reader returns; a generation or id that is no text or empty is missing. -/
structure Payload where
  results : List Record
  indexGeneration : Option Str
  corpusId : Option Str
  sidecarGeneration : Option Str

/-- The scope as it is published with the generation of its index. -/
structure PublicScope where
  members : List (Str × Json)
  indexGeneration : Str
  corpusId : Str
  sidecarGeneration : Option Str
  deriving DecidableEq

/-- `text.encode("ascii")`. -/
def ascii (text : Str) : Except SearchError Bytes := do
  ensure (∀ c ∈ text, c.val < 128) .raised
  .ok (text.map fun c => UInt8.ofNat c.val)

/-- `_scope_with_generation`. -/
def scopeWithGeneration (scope : ScopeEntry) (payload : Payload) :
    Except SearchError PublicScope :=
  match payload.indexGeneration, payload.corpusId with
  | some generation, some corpusId =>
    match scope.historySidecarPath with
    | none => .ok ⟨scope.publicMembers, generation, corpusId, none⟩
    | some _ =>
      match payload.sidecarGeneration with
      | none => .error .unavailable
      | some sidecar => do
        let raw ← ascii (generation ++ ⟨0, by decide⟩ :: sidecar)
        .ok ⟨scope.publicMembers, hex (sha256 raw), corpusId, some sidecar⟩
  | _, _ => .error .unavailable

/-- Where a result is opened again. -/
structure Locator where
  scopeId : Str
  sourceId : Str
  conversationId : Str
  messageId : Str
  logicalScopeIds : Option (List (Option Str))
  viewEverywhere : Option Bool
  deriving DecidableEq

structure Hit where
  scope : PublicScope
  coveredScopeIds : List Str
  localRank : Nat
  globalRank : Nat
  locator : Option Locator
  record : Record
  deriving DecidableEq

/-- `backend_everywhere`. -/
def backendEverywhere (everywhere : Bool) (group : Group) : Bool :=
  everywhere && group.scope.everywhereBaseAccess

/-- A member that is a non-empty text. -/
def textOf (record : Record) (key : String) : Option Str :=
  match record.lookup (str key) with
  | some (.str []) => none
  | some (.str text) => some text
  | _ => none

def locatorOf (everywhere : Bool) (group : Group) (record : Record) : Option Locator :=
  match textOf record "source_id", textOf record "conversation_id", textOf record "message_id" with
  | some source, some conversation, some message =>
    match group.scope.historySidecarPath with
    | none => some ⟨group.scope.scopeId, source, conversation, message, none, none⟩
    | some _ => some ⟨group.scope.scopeId, source, conversation, message,
        some (group.items.map ScopeEntry.logicalScopeId),
        some (backendEverywhere everywhere group)⟩
  | _, _, _ => none

/-- What is held of one backend. -/
structure BackendState where
  localResults : List Record
  nextOffset : Nat
  exhausted : Bool

structure SearchState where
  backends : Str → BackendState
  publicScopes : Str → Option PublicScope
  merged : List Hit
  skipped : Nat

def SearchState.setBackend (st : SearchState) (key : Str) (backend : BackendState) : SearchState :=
  { st with backends := Function.update st.backends key backend }

/-- The publication of one scope of a page. -/
def announce (payload : Payload) (publicScopes : Str → Option PublicScope) (item : ScopeEntry) :
    Except SearchError (Str → Option PublicScope) := do
  let publicScope ← scopeWithGeneration item payload
  ensure (∀ previous ∈ publicScopes item.scopeId,
    previous.indexGeneration = publicScope.indexGeneration
      ∧ previous.corpusId = publicScope.corpusId) .unavailable
  .ok (Function.update publicScopes item.scopeId (some publicScope))

section
/- The reader of a group, for the query and context radius of the request: whether it is asked
everywhere, the limit and the offset. -/
variable (reader : Group → Bool → Nat → Nat → Except SearchError Payload)
  (everywhere : Bool) (limit offset : Nat)

def fetchPage (group : Group) (pageLimit : Nat) (st : SearchState) :
    Except SearchError SearchState := do
  let backend := st.backends group.key
  let payload ← reader group (backendEverywhere everywhere group) pageLimit backend.nextOffset
  ensure (payload.results.length ≤ pageLimit) .unavailable
  let publicScopes ← group.items.foldlM (announce payload) st.publicScopes
  .ok (({ st with publicScopes := publicScopes } : SearchState).setBackend group.key
    ⟨backend.localResults ++ payload.results, backend.nextOffset + payload.results.length,
      payload.results.length < pageLimit⟩)

/-- The size of the next page of an open backend. -/
def pageLimitOf (groups : List Group) (st : SearchState) : Nat :=
  let active := groups.countP fun group => !(st.backends group.key).exhausted
  let remaining := limit - st.merged.length
  min maxFederatedFetchBatch (max 1 ((remaining + active - 1) / active))

/-- The page that is fetched when nothing of the backend is left. -/
def refill (groups : List Group) (group : Group) (st : SearchState) :
    Except SearchError SearchState :=
  let backend := st.backends group.key
  if backend.localResults = [] ∧ backend.exhausted = false then
    fetchPage reader everywhere group (pageLimitOf limit groups st) st
  else .ok st

/-- The round over the groups; it returns also whether a record was taken. -/
def visitGroups (groups : List Group) (localRank : Nat) :
    List Group → Bool → SearchState → Except SearchError (SearchState × Bool)
  | [], added, st => .ok (st, added)
  | group :: rest, added, st => do
    let st ← refill reader everywhere limit groups group st
    let backend := st.backends group.key
    match backend.localResults with
    | [] => visitGroups groups localRank rest added st
    | record :: later => do
      let st := st.setBackend group.key { backend with localResults := later }
      if st.skipped < offset then
        visitGroups groups localRank rest true { st with skipped := st.skipped + 1 }
      else
        match st.publicScopes group.scope.scopeId with
        | none => .error .unavailable
        | some publicScope =>
          let hit : Hit := ⟨publicScope, group.items.map ScopeEntry.scopeId, localRank,
            offset + st.merged.length + 1, locatorOf everywhere group record, record⟩
          let st := { st with merged := st.merged ++ [hit] }
          if limit ≤ st.merged.length then .ok (st, true)
          else visitGroups groups localRank rest true st

/-- `while len(merged) < limit`; `none` when the fuel ends before the loop. -/
def mergeRounds (groups : List Group) :
    Nat → Nat → SearchState → Except SearchError (Option SearchState)
  | 0, _, _ => .ok none
  | fuel + 1, localRank, st =>
    if limit ≤ st.merged.length then .ok (some st)
    else do
      let (st, added) ← visitGroups reader everywhere limit offset groups (localRank + 1) groups
        false st
      if added then mergeRounds groups fuel (localRank + 1) st else .ok (some st)

def initialState : SearchState := ⟨fun _ => ⟨[], 0, false⟩, fun _ => none, [], 0⟩

/-- The members of the result that depend on the readers. -/
structure SearchResult where
  searchedScopeIds : List Str
  scopes : List (Option PublicScope)
  results : List Hit

/-- `search` behind the selection. -/
def searchGroups (selected : List ScopeEntry) (fuel : Nat) :
    Except SearchError (Option SearchResult) := do
  let groups := groupsOf selected
  -- every selected scope is probed before anything is merged
  let st ← groups.foldlM (fun st group => fetchPage reader everywhere group 1 st) initialState
  let st ← mergeRounds reader everywhere limit offset groups fuel 0 st
  .ok (st.map fun st => ⟨selected.map ScopeEntry.scopeId,
    selected.map fun scope => st.publicScopes scope.scopeId, st.merged⟩)

end

/-- `FederatedSearch.search`. -/
def search (registry : ScopeRegistry)
    (reader : Group → Bool → Nat → Nat → Except SearchError Payload) (request : Request)
    (fuel : Nat) : Except SearchError (Option SearchResult) := do
  validate request
  let selected ← selection registry request
  searchGroups reader request.everywhere request.limit.toNat request.offset.toNat selected fuel

end IntegrityGuardian.Chronicle
