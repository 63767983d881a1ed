import IntegrityGuardian.Python.JsonObject

/-!
# Unified memory search

`UnifiedKnowledgeProjection.search_memory` of `unified_projection.py`: one search over
two sources, each with its own continuation.  The sources are a parameter: a source
answers a query and a cursor of its own, and may change as it does so.
-/

namespace IntegrityGuardian.UnifiedProjection

open Python Library
open Python.Json (ch isDigit)

/-- `UnifiedProjectionError`. -/
structure Error where
  message : String
  deriving DecidableEq

def maxResults : Nat := 20
def maxUnifiedCursors : Nat := 256

/-- `_UnifiedSearchCursor`. -/
structure UnifiedSearchCursor where
  query : Str
  actionCursor : Option Str
  homeCursor : Option Str
  actionExhausted : Bool
  homeExhausted : Bool
  deriving DecidableEq

/-! ## Replies -/

/-- What comes of asking a source. -/
inductive Reply where
  /-- What `_payload` reads from the answer. -/
  | payload (value : Json)
  /-- `_payload` raises. -/
  | invalid (e : Error)
  /-- The source raises the exception of its own. -/
  | failed

/-- One element of the results. -/
structure MemoryItem where
  id : Str
  title : Str
  url : Str
  deriving DecidableEq

/-- One pass of the loop of `_results`. -/
def itemOf (item : Json) : Except Error MemoryItem :=
  match item with
  | .obj members =>
    if (∀ m ∈ members, m.1 ∈ [str "id", str "title", str "url"]) then
      match item.get? (str "id"), item.get? (str "title"), item.get? (str "url") with
      | some (.str id), some (.str title), some (.str url) => .ok ⟨id, title, url⟩
      | _, _, _ => .error ⟨"memory source returned an invalid result"⟩
    else .error ⟨"memory source returned an invalid result"⟩
  | _ => .error ⟨"memory source returned an invalid result"⟩

/-- `_results`. -/
def resultsOf (payload : Json) : Except Error (List MemoryItem) :=
  match payload.get? (str "results") with
  | some (.arr raw) => raw.mapM itemOf
  | _ => .error ⟨"memory source returned invalid results"⟩

/-- The cursor a source continues with, if it has more. -/
def continuationOf (invalid : String) (payload : Json) : Except Error (Option Str) :=
  match payload.get? (str "has_more") with
  | some (.bool false) => .ok none
  | some (.bool true) =>
    match payload.get? (str "next_cursor") with
    | some (.str cursor) => .ok (some cursor)
    | _ => .error ⟨invalid⟩
  | _ => .error ⟨invalid⟩

/-! ## Merging -/

/-- The loop of `_balanced_merge`, for a number of rounds from the given index on. -/
def mergeLoop (actionLog home : List MemoryItem) : Nat → Nat → List MemoryItem → List MemoryItem
  | 0, _, merged => merged
  | rounds + 1, index, merged =>
    if merged.length < maxResults ∧ (index < actionLog.length ∨ index < home.length) then
      let merged := merged ++ actionLog[index]?.toList
      if index < actionLog.length ∧ merged.length = maxResults then merged
      else mergeLoop actionLog home rounds (index + 1) (merged ++ home[index]?.toList)
    else merged

/-- `_balanced_merge`; the longer list bounds the rounds. -/
def balancedMerge (actionLog home : List MemoryItem) : List MemoryItem :=
  (mergeLoop actionLog home (max actionLog.length home.length) 0 []).take maxResults

/-! ## Sources -/

/-- What one source adds to a page. -/
structure Turn where
  results : List MemoryItem
  cursor : Option Str
  exhausted : Bool
  degraded : Bool

/-- The block of `search_memory` for one source. -/
def askSource {σ : Type} (searchPage : Str → Option Str → σ → Reply × σ) (invalid : String)
    (query : Str) (cursor : Option Str) (exhausted : Bool) (source : σ) : Except Error Turn × σ :=
  if exhausted then (.ok ⟨[], cursor, true, false⟩, source)
  else
    match searchPage query cursor source with
    | (.failed, source) => (.ok ⟨[], cursor, false, true⟩, source)
    | (.invalid e, source) => (.error e, source)
    | (.payload payload, source) =>
      let turn := do
        let results ← resultsOf payload
        let next ← continuationOf invalid payload
        .ok ⟨results, next, next.isNone, false⟩
      (turn, source)

/-- `search_page` of the two sources, with a limit of ten. -/
structure Sources (α η : Type) where
  actionLog : Str → Option Str → α → Reply × α
  home : Str → Option Str → η → Reply × η

/-! ## Cursors -/

/-- `[A-Za-z0-9_-]`. -/
def isUrlSafe (c : CodePoint) : Bool :=
  (65 ≤ c.val && c.val ≤ 90) || (97 ≤ c.val && c.val ≤ 122) || isDigit c
    || c == ch '_' || c == ch '-'

/-- `ium_[A-Za-z0-9_-]{24,64}`, matched in full. -/
def isCursor (s : Str) : Bool :=
  (str "ium_").isPrefixOf s && 24 ≤ (s.drop 4).length && (s.drop 4).length ≤ 64
    && (s.drop 4).all isUrlSafe

/-- What `secrets.token_urlsafe(24)` can return. -/
abbrev Token := { s : Str // s.length = 32 ∧ s.all isUrlSafe = true }

/-- The projection with its sources and its cursors, the oldest first. -/
structure UnifiedKnowledgeProjection (α η : Type) where
  actionLog : α
  home : η
  searchCursors : List (Str × UnifiedSearchCursor)

/-- The state a search starts or continues from. -/
def openSearch (searchCursors : List (Str × UnifiedSearchCursor)) (query : Str)
    (cursor : Option Str) : Except Error UnifiedSearchCursor := do
  ensure (query.strip ≠ [] ∧ query.length ≤ 4096) ⟨"query must be a non-empty bounded string"⟩
  match cursor with
  | none => .ok ⟨query, none, none, false, false⟩
  | some cursor => do
    ensure (isCursor cursor = true) ⟨"search cursor is invalid or expired"⟩
    match searchCursors.lookup cursor with
    | none => .error ⟨"search cursor is invalid or expired"⟩
    | some state => do
      ensure (state.query = query) ⟨"search cursor is invalid or expired"⟩
      .ok state

/-- `self._search_cursors.pop(cursor, None)`. -/
def popCursor (cursor : Str) (searchCursors : List (Str × UnifiedSearchCursor)) :
    List (Str × UnifiedSearchCursor) :=
  searchCursors.filter fun entry => entry.1 ≠ cursor

/-- A new cursor is stored last, and the oldest ones beyond the limit are dropped. -/
def storeCursor (cursor : Str) (state : UnifiedSearchCursor)
    (searchCursors : List (Str × UnifiedSearchCursor)) : List (Str × UnifiedSearchCursor) :=
  let stored := popCursor cursor searchCursors ++ [(cursor, state)]
  stored.drop (stored.length - maxUnifiedCursors)

/-! ## Search -/

/-- The members of a result that depend on the search. -/
structure Page where
  results : List MemoryItem
  hasMore : Bool
  nextCursor : Option Str
  degradedSources : List String
  actionResultCount : Nat
  homeResultCount : Nat
  returnedResultCount : Nat

def degradedSources (action home : Turn) : List String :=
  (if action.degraded then ["action_log"] else []) ++ if home.degraded then ["home"] else []

/-- Neither source could be asked, or had anything left to be asked for. -/
def Unavailable (action home : Turn) : Prop :=
  (action.degraded = true ∨ action.exhausted = true) ∧
    (home.degraded = true ∨ home.exhausted = true) ∧
    action.results = [] ∧ home.results = [] ∧ (degradedSources action home).length = 2

instance (action home : Turn) : Decidable (Unavailable action home) :=
  inferInstanceAs (Decidable (_ ∧ _))

/-- The end of `search_memory`: the page, and the cursors after it. -/
def finishSearch (query : Str) (cursor : Option Str) (token : Token) (action home : Turn)
    (searchCursors : List (Str × UnifiedSearchCursor)) :
    Page × List (Str × UnifiedSearchCursor) :=
  let results := balancedMerge action.results home.results
  let hasMore := !action.exhausted || !home.exhausted
  let searchCursors := match cursor with
    | none => searchCursors
    | some cursor => popCursor cursor searchCursors
  let page (nextCursor : Option Str) : Page :=
    ⟨results, hasMore, nextCursor, degradedSources action home, action.results.length,
      home.results.length, results.length⟩
  if hasMore then
    let next := str "ium_" ++ token.val
    (page (some next), storeCursor next
      ⟨query, action.cursor, home.cursor, action.exhausted, home.exhausted⟩ searchCursors)
  else (page none, searchCursors)

/-- `search_memory`, with the token it draws for the next cursor. -/
def searchMemory {α η : Type} (sources : Sources α η) (query : Str) (cursor : Option Str)
    (token : Token) (projection : UnifiedKnowledgeProjection α η) :
    Except Error Page × UnifiedKnowledgeProjection α η :=
  match openSearch projection.searchCursors query cursor with
  | .error e => (.error e, projection)
  | .ok state =>
    match askSource sources.actionLog "Action Log returned invalid continuation" query
        state.actionCursor state.actionExhausted projection.actionLog with
    | (.error e, actionLog) => (.error e, { projection with actionLog := actionLog })
    | (.ok action, actionLog) =>
      let projection := { projection with actionLog := actionLog }
      match askSource sources.home "Home returned invalid continuation" query state.homeCursor
          state.homeExhausted projection.home with
      | (.error e, home) => (.error e, { projection with home := home })
      | (.ok turn, home) =>
        let projection := { projection with home := home }
        if Unavailable action turn then
          (.error ⟨"Integrity memory sources are unavailable"⟩, projection)
        else
          let (page, searchCursors) :=
            finishSearch query cursor token action turn projection.searchCursors
          (.ok page, { projection with searchCursors := searchCursors })

end IntegrityGuardian.UnifiedProjection
