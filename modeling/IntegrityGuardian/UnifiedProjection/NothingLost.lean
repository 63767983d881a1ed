import IntegrityGuardian.Library.Merges
import IntegrityGuardian.UnifiedProjection.SearchMemory

/-!
# Nothing lost in a unified search

Each page advances the cursors of both sources, and a page of ten and a page of ten fit
the twenty that the merge keeps.  A source that fails keeps its cursor.
-/

namespace IntegrityGuardian.UnifiedProjection

open Python Library
open Python.Json (ch)

/-! ## Merging drops nothing -/

theorem mergeLoop_merges (actionLog home : List MemoryItem) (rounds index : Nat)
    (merged : List MemoryItem) (ha : actionLog.length ≤ index + rounds)
    (hh : home.length ≤ index + rounds)
    (hfit : merged.length + (actionLog.drop index).length + (home.drop index).length
      ≤ maxResults) :
    ∃ rest, mergeLoop actionLog home rounds index merged = merged ++ rest ∧
      Merges (actionLog.drop index) (home.drop index) rest := by
  induction rounds generalizing index merged with
  | zero =>
    refine ⟨[], (List.append_nil _).symm, ?_⟩
    rw [List.drop_eq_nil_of_le (by omega), List.drop_eq_nil_of_le (by omega)]
    exact .nil
  | succ rounds ih =>
    have haction : actionLog.drop index = actionLog[index]?.toList ++ actionLog.drop (index + 1) :=
      List.drop_eq_getElem?_toList_append
    have hhome : home.drop index = home[index]?.toList ++ home.drop (index + 1) :=
      List.drop_eq_getElem?_toList_append
    have hround : ∀ {rest}, Merges (actionLog.drop (index + 1)) (home.drop (index + 1)) rest →
        Merges (actionLog.drop index) (home.drop index)
          (actionLog[index]?.toList ++ home[index]?.toList ++ rest) := by
      intro rest h
      rw [haction, hhome]
      simpa using ((Merges.left_only _).append (Merges.right_only _)).append h
    simp only [List.length_drop] at hfit
    rw [mergeLoop]
    split
    case isTrue =>
      dsimp only
      split
      case isTrue hfull =>
        -- The list of the action log fills the page, and nothing is left of either source.
        have hone : actionLog[index]?.toList.length = 1 := by simp [hfull.1]
        have hlength := hfull.2
        rw [List.length_append, hone] at hlength
        have hactionNil : actionLog.drop (index + 1) = [] := List.drop_eq_nil_of_le (by omega)
        have hhomeNil : home.drop index = [] := List.drop_eq_nil_of_le (by omega)
        refine ⟨actionLog[index]?.toList, rfl, ?_⟩
        rw [haction, hactionNil, hhomeNil, List.append_nil]
        exact .left_only _
      case isFalse =>
        have hactionLength : actionLog[index]?.toList.length + (actionLog.length - (index + 1))
            = actionLog.length - index := by
          by_cases h : index < actionLog.length <;> simp [h] <;> omega
        have hhomeLength : home[index]?.toList.length + (home.length - (index + 1))
            = home.length - index := by
          by_cases h : index < home.length <;> simp [h] <;> omega
        obtain ⟨rest, heq, hrest⟩ := ih (index + 1)
          (merged ++ actionLog[index]?.toList ++ home[index]?.toList) (by omega) (by omega)
          (by simp only [List.length_append, List.length_drop]; omega)
        exact ⟨_, by rw [heq]; simp only [List.append_assoc], hround hrest⟩
    case isFalse hstop =>
      have hend : actionLog.length ≤ index ∧ home.length ≤ index := by omega
      refine ⟨[], (List.append_nil _).symm, ?_⟩
      rw [List.drop_eq_nil_of_le hend.1, List.drop_eq_nil_of_le hend.2]
      exact .nil

theorem balancedMerge_merges {actionLog home : List MemoryItem}
    (h : actionLog.length + home.length ≤ maxResults) :
    Merges actionLog home (balancedMerge actionLog home) := by
  obtain ⟨rest, heq, hmerges⟩ := mergeLoop_merges actionLog home
    (max actionLog.length home.length) 0 [] (by omega) (by omega) (by simpa using h)
  rw [balancedMerge, heq, List.nil_append, List.take_of_length_le]
  · exact hmerges
  · have hlength := hmerges.length
    simp only [List.drop_zero] at hlength
    omega

/-! ## Sources in pages -/

/-- A source that follows its own cursors through one list, in pages of at most ten:
asked with a cursor that stands before some results it fails, and the cursor still
stands there, or it returns the first of them and goes on to the others. -/
def FollowsCursors {σ : Type} (searchPage : Str → Option Str → σ → Reply × σ) (query : Str)
    (Before : Option Str → List MemoryItem → σ → Prop) : Prop :=
  ∀ cursor results source, Before cursor results source →
    match searchPage query cursor source with
    | (.failed, source) => Before cursor results source
    | (.invalid _, _) => False
    | (.payload payload, source) =>
      ∃ page next rest, resultsOf payload = .ok page ∧
        (∀ invalid, continuationOf invalid payload = .ok next) ∧
        page.length ≤ 10 ∧ results = page ++ rest ∧
        match next with
        | none => rest = []
        | some cursor => Before (some cursor) rest source

/-- What is left of a source at a cursor of its own, or when it is exhausted. -/
def Remains {σ : Type} (Before : Option Str → List MemoryItem → σ → Prop)
    (cursor : Option Str) (exhausted : Bool) (results : List MemoryItem) (source : σ) : Prop :=
  if exhausted then results = [] else Before cursor results source

theorem askSource_remains {σ : Type} {searchPage : Str → Option Str → σ → Reply × σ}
    (invalid : String) {query : Str} {Before : Option Str → List MemoryItem → σ → Prop}
    (hfollows : FollowsCursors searchPage query Before) {cursor : Option Str}
    {exhausted : Bool} {results : List MemoryItem} {source : σ}
    (h : Remains Before cursor exhausted results source) :
    ∃ turn source', askSource searchPage invalid query cursor exhausted source =
        (.ok turn, source') ∧
      turn.results.length ≤ 10 ∧
      (∃ rest, results = turn.results ++ rest ∧
        Remains Before turn.cursor turn.exhausted rest source') ∧
      (turn.degraded = true → Remains Before cursor exhausted results source') := by
  rw [askSource]
  split
  case isTrue hexhausted =>
    refine ⟨_, _, rfl, Nat.zero_le _, ⟨results, rfl, ?_⟩, nofun⟩
    simpa [Remains, hexhausted] using h
  case isFalse hexhausted =>
    have hbefore : Before cursor results source := by simpa [Remains, hexhausted] using h
    have hcall := hfollows cursor results source hbefore
    split
    · next source' hreply =>
      rw [hreply] at hcall
      have hstays : Before cursor results source' := hcall
      refine ⟨_, _, rfl, Nat.zero_le _, ⟨results, rfl, ?_⟩, fun _ => ?_⟩
      · simpa [Remains] using hstays
      · simpa [Remains, hexhausted] using hstays
    · next hreply =>
      rw [hreply] at hcall
      exact hcall.elim
    · next payload source' hreply =>
      rw [hreply] at hcall
      obtain ⟨page, next, rest, hpage, hnext, hten, rfl, hrest⟩ := hcall
      refine ⟨⟨page, next, next.isNone, false⟩, source', ?_, hten, ⟨rest, rfl, ?_⟩, nofun⟩
      · simp only [hpage, hnext, Library.ok_bind]
      · cases next with
        | none => exact hrest
        | some cursor => exact hrest

/-! ## One call -/

theorem lookup_popCursor (cursor : Str) (searchCursors : List (Str × UnifiedSearchCursor)) :
    (popCursor cursor searchCursors).lookup cursor = none := by
  rw [List.lookup_eq_none_iff]
  intro entry hentry
  have hne : entry.1 ≠ cursor := of_decide_eq_true (List.mem_filter.1 hentry).2
  exact bne_iff_ne.2 hne.symm

theorem lookup_storeCursor (cursor : Str) (state : UnifiedSearchCursor)
    (searchCursors : List (Str × UnifiedSearchCursor)) :
    (storeCursor cursor state searchCursors).lookup cursor = some state := by
  have hkeep : storeCursor cursor state searchCursors =
      (popCursor cursor searchCursors).drop
        ((popCursor cursor searchCursors).length + 1 - maxUnifiedCursors) ++ [(cursor, state)] := by
    rw [storeCursor, List.length_append, List.length_singleton, List.drop_append_of_le_length]
    simp only [maxUnifiedCursors]
    omega
  have hnone : ((popCursor cursor searchCursors).drop
      ((popCursor cursor searchCursors).length + 1 - maxUnifiedCursors)).lookup cursor = none := by
    rw [List.lookup_eq_none_iff]
    intro entry hentry
    exact List.lookup_eq_none_iff.1 (lookup_popCursor cursor searchCursors) entry
      (List.mem_of_mem_drop hentry)
  rw [hkeep, List.lookup_append, hnone]
  simp

section

variable {α η : Type} {sources : Sources α η} {query : Str}
  {ActionBefore : Option Str → List MemoryItem → α → Prop}
  {HomeBefore : Option Str → List MemoryItem → η → Prop}

/-- What is left of the two sources at a state of a search. -/
def BothRemain (ActionBefore : Option Str → List MemoryItem → α → Prop)
    (HomeBefore : Option Str → List MemoryItem → η → Prop) (state : UnifiedSearchCursor)
    (actionResults homeResults : List MemoryItem)
    (projection : UnifiedKnowledgeProjection α η) : Prop :=
  Remains ActionBefore state.actionCursor state.actionExhausted actionResults
      projection.actionLog ∧
    Remains HomeBefore state.homeCursor state.homeExhausted homeResults projection.home

/-- What is left of the two sources at a cursor, if the cursor opens. -/
def Pending (query : Str) (ActionBefore : Option Str → List MemoryItem → α → Prop)
    (HomeBefore : Option Str → List MemoryItem → η → Prop) (cursor : Option Str)
    (actionResults homeResults : List MemoryItem)
    (projection : UnifiedKnowledgeProjection α η) : Prop :=
  ∀ state, openSearch projection.searchCursors query cursor = .ok state →
    BothRemain ActionBefore HomeBefore state actionResults homeResults projection

theorem degradedSources_length (action home : Turn) :
    (degradedSources action home).length = 2 ↔ action.degraded = true ∧ home.degraded = true := by
  cases ha : action.degraded <;> cases hh : home.degraded <;> simp [degradedSources, ha, hh]

variable {cursor : Option Str} {token : Token}
  {projection projection' : UnifiedKnowledgeProjection α η}

theorem finishSearch_pending {action home : Turn}
    {searchCursors : List (Str × UnifiedSearchCursor)} {actionRest homeRest : List MemoryItem}
    (haction : Remains ActionBefore action.cursor action.exhausted actionRest
      projection.actionLog)
    (hhome : Remains HomeBefore home.cursor home.exhausted homeRest projection.home)
    (hactionTen : action.results.length ≤ 10) (hhomeTen : home.results.length ≤ 10)
    (hstored : projection.searchCursors =
      (finishSearch query cursor token action home searchCursors).2) :
    let page := (finishSearch query cursor token action home searchCursors).1
    Merges action.results home.results page.results ∧
      (page.hasMore = false → actionRest = [] ∧ homeRest = []) ∧
      ∀ next, page.nextCursor = some next →
        Pending query ActionBefore HomeBefore (some next) actionRest homeRest projection := by
  have hmerges : Merges action.results home.results
      (balancedMerge action.results home.results) :=
    balancedMerge_merges (by simp only [maxResults]; omega)
  simp only [finishSearch] at hstored ⊢
  split at hstored
  case isTrue hmore =>
    rw [if_pos hmore]
    refine ⟨hmerges, ?_, ?_⟩
    · intro hnone
      rw [hmore] at hnone
      cases hnone
    · intro next hnext state hopened
      cases hnext
      have hstate : state =
          ⟨query, action.cursor, home.cursor, action.exhausted, home.exhausted⟩ := by
        simp only [openSearch, hstored, lookup_storeCursor, ensure_bind_eq_ok] at hopened
        obtain ⟨_, _, _, hopened⟩ := hopened
        exact (Except.ok.inj hopened).symm
      rw [hstate]
      exact ⟨haction, hhome⟩
  case isFalse hmore =>
    rw [if_neg hmore]
    refine ⟨hmerges, fun _ => ?_, nofun⟩
    have hexhausted : action.exhausted = true ∧ home.exhausted = true := by
      simpa [not_or] using hmore
    rw [Remains, if_pos hexhausted.1] at haction
    rw [Remains, if_pos hexhausted.2] at hhome
    exact ⟨haction, hhome⟩

theorem searchMemory_error {e : Error}
    (h : searchMemory sources query cursor token projection = (.error e, projection')) :
    projection'.searchCursors = projection.searchCursors := by
  rw [searchMemory] at h
  split at h
  · rw [← (Prod.mk.inj h).2]
  · split at h
    · rw [← (Prod.mk.inj h).2]
    · dsimp only at h
      split at h
      · rw [← (Prod.mk.inj h).2]
      · split at h
        · rw [← (Prod.mk.inj h).2]
        · cases (Prod.mk.inj h).1

/-- A call returns a page of the results left and leaves the others at its cursor, or
raises and leaves everything at the cursor it was given. -/
theorem searchMemory_pending (haction : FollowsCursors sources.actionLog query ActionBefore)
    (hhome : FollowsCursors sources.home query HomeBefore) {cursor : Option Str} (token : Token)
    {actionResults homeResults : List MemoryItem} {projection : UnifiedKnowledgeProjection α η}
    (h : Pending query ActionBefore HomeBefore cursor actionResults homeResults projection) :
    match searchMemory sources query cursor token projection with
    | (.error _, projection') =>
      Pending query ActionBefore HomeBefore cursor actionResults homeResults projection'
    | (.ok page, projection') =>
      ∃ actionPage actionRest homePage homeRest, actionResults = actionPage ++ actionRest ∧
        homeResults = homePage ++ homeRest ∧ Merges actionPage homePage page.results ∧
        (page.hasMore = false → actionRest = [] ∧ homeRest = []) ∧
        ∀ next, page.nextCursor = some next →
          Pending query ActionBefore HomeBefore (some next) actionRest homeRest projection' := by
  rw [searchMemory]
  cases hopened : openSearch projection.searchCursors query cursor with
  | error e => exact h
  | ok state =>
    obtain ⟨hactionRemains, hhomeRemains⟩ := h state hopened
    obtain ⟨action, actionLog, hactionTurn, hactionTen, ⟨actionRest, hactionSplit,
      hactionRest⟩, hactionStays⟩ := askSource_remains
        "Action Log returned invalid continuation" haction hactionRemains
    obtain ⟨turn, home, hhomeTurn, hhomeTen, ⟨homeRest, hhomeSplit, hhomeRest⟩, hhomeStays⟩ :=
      askSource_remains "Home returned invalid continuation" hhome hhomeRemains
    simp only [hactionTurn, hhomeTurn]
    by_cases hunavailable : Unavailable action turn
    · rw [if_pos hunavailable]
      intro state' hopened'
      have hboth := (degradedSources_length action turn).1 hunavailable.2.2.2.2
      have hsame : state' = state := Except.ok.inj (hopened'.symm.trans hopened)
      rw [hsame]
      exact ⟨hactionStays hboth.1, hhomeStays hboth.2⟩
    · rw [if_neg hunavailable]
      refine ⟨action.results, actionRest, turn.results, homeRest, hactionSplit, hhomeSplit, ?_⟩
      exact finishSearch_pending hactionRest hhomeRest hactionTen hhomeTen rfl

/-! ## Following the cursors -/

/-- What else happens between two calls: the sources may change, but not what stands
before their cursors, and the cursor may be evicted. -/
def Undisturbed (ActionBefore : Option Str → List MemoryItem → α → Prop)
    (HomeBefore : Option Str → List MemoryItem → η → Prop) (cursor : Option Str)
    (projection projection' : UnifiedKnowledgeProjection α η) : Prop :=
  (∀ cursor results, ActionBefore cursor results projection.actionLog →
      ActionBefore cursor results projection'.actionLog) ∧
    (∀ cursor results, HomeBefore cursor results projection.home →
      HomeBefore cursor results projection'.home) ∧
    ∀ key, cursor = some key →
      projection'.searchCursors.lookup key = projection.searchCursors.lookup key ∨
        projection'.searchCursors.lookup key = none

/-- A search followed from a cursor until there is no more, with all it collects.  A call
that raises is made again with the cursor it was given. -/
inductive Followed (sources : Sources α η) (query : Str)
    (ActionBefore : Option Str → List MemoryItem → α → Prop)
    (HomeBefore : Option Str → List MemoryItem → η → Prop) :
    Option Str → UnifiedKnowledgeProjection α η → List MemoryItem → Prop
  | last {cursor token projection page projection'}
      (call : searchMemory sources query cursor token projection = (.ok page, projection'))
      (hlast : page.hasMore = false) :
      Followed sources query ActionBefore HomeBefore cursor projection page.results
  | more {cursor token projection page projection' next projection'' collected}
      (call : searchMemory sources query cursor token projection = (.ok page, projection'))
      (hnext : page.nextCursor = some next)
      (between : Undisturbed ActionBefore HomeBefore (some next) projection' projection'')
      (rest : Followed sources query ActionBefore HomeBefore (some next) projection'' collected) :
      Followed sources query ActionBefore HomeBefore cursor projection (page.results ++ collected)
  | again {cursor token projection e projection' projection'' collected}
      (call : searchMemory sources query cursor token projection = (.error e, projection'))
      (between : Undisturbed ActionBefore HomeBefore cursor projection' projection'')
      (rest : Followed sources query ActionBefore HomeBefore cursor projection'' collected) :
      Followed sources query ActionBefore HomeBefore cursor projection collected

theorem Remains.undisturbed {σ : Type} {Before : Option Str → List MemoryItem → σ → Prop}
    {exhausted : Bool} {results : List MemoryItem} {source source' : σ}
    (hbefore : ∀ cursor results, Before cursor results source → Before cursor results source')
    (h : Remains Before cursor exhausted results source) :
    Remains Before cursor exhausted results source' := by
  cases exhausted with
  | true => exact h
  | false => exact hbefore cursor results h

theorem Pending.undisturbed {actionResults homeResults : List MemoryItem}
    (hbetween : Undisturbed ActionBefore HomeBefore cursor projection projection')
    (h : Pending query ActionBefore HomeBefore cursor actionResults homeResults projection) :
    Pending query ActionBefore HomeBefore cursor actionResults homeResults projection' := by
  obtain ⟨haction, hhome, hcursor⟩ := hbetween
  intro state hopened
  have hopened' : openSearch projection.searchCursors query cursor = .ok state := by
    cases cursor with
    | none => exact hopened
    | some key =>
      obtain hsame | hgone := hcursor key rfl
      · simpa only [openSearch, hsame] using hopened
      · simp [openSearch, hgone, ensure_bind_eq_ok] at hopened
  obtain ⟨hactionRemains, hhomeRemains⟩ := h state hopened'
  exact ⟨hactionRemains.undisturbed haction, hhomeRemains.undisturbed hhome⟩

theorem Followed.merges (haction : FollowsCursors sources.actionLog query ActionBefore)
    (hhome : FollowsCursors sources.home query HomeBefore) {cursor : Option Str}
    {projection : UnifiedKnowledgeProjection α η} {collected : List MemoryItem}
    (h : Followed sources query ActionBefore HomeBefore cursor projection collected)
    {actionResults homeResults : List MemoryItem}
    (hpending : Pending query ActionBefore HomeBefore cursor actionResults homeResults
      projection) :
    Merges actionResults homeResults collected := by
  induction h generalizing actionResults homeResults with
  | @last _ token _ _ _ call hlast =>
    have hcall := searchMemory_pending haction hhome token hpending
    rw [call] at hcall
    obtain ⟨actionPage, actionRest, homePage, homeRest, rfl, rfl, hmerges, hend, _⟩ := hcall
    obtain ⟨rfl, rfl⟩ := hend hlast
    simpa using hmerges
  | @more _ token _ _ _ _ _ _ call hnext between _ ih =>
    have hcall := searchMemory_pending haction hhome token hpending
    rw [call] at hcall
    obtain ⟨actionPage, actionRest, homePage, homeRest, rfl, rfl, hmerges, _, hrest⟩ := hcall
    exact hmerges.append (ih ((hrest _ hnext).undisturbed between))
  | @again _ token _ _ _ _ _ call between _ ih =>
    have hcall := searchMemory_pending haction hhome token hpending
    rw [call] at hcall
    exact ih (Pending.undisturbed between hcall)

end

/-- Between sources that follow their own cursors, a search followed from no cursor to its
end collects every result of both sources once and in the order of its source, whatever
calls fail or raise on the way; and a call that raises leaves the cursor it was given as it
was, with the same results to come. -/
theorem search_loses_nothing {α η : Type} (sources : Sources α η) (query : Str)
    (ActionBefore : Option Str → List MemoryItem → α → Prop)
    (HomeBefore : Option Str → List MemoryItem → η → Prop)
    (haction : FollowsCursors sources.actionLog query ActionBefore)
    (hhome : FollowsCursors sources.home query HomeBefore) :
    (∀ projection actionResults homeResults collected,
      ActionBefore none actionResults projection.actionLog →
      HomeBefore none homeResults projection.home →
      Followed sources query ActionBefore HomeBefore none projection collected →
      Merges actionResults homeResults collected) ∧
    ∀ cursor token projection e projection',
      searchMemory sources query cursor token projection = (.error e, projection') →
      openSearch projection'.searchCursors query cursor =
          openSearch projection.searchCursors query cursor ∧
        ∀ actionResults homeResults,
          Pending query ActionBefore HomeBefore cursor actionResults homeResults projection →
          Pending query ActionBefore HomeBefore cursor actionResults homeResults
            projection' := by
  refine ⟨?_, ?_⟩
  · intro projection actionResults homeResults collected hactionAll hhomeAll hfollowed
    apply hfollowed.merges haction hhome
    intro state hopened
    simp only [openSearch, ensure_bind_eq_ok] at hopened
    rw [← Except.ok.inj hopened.2]
    exact ⟨hactionAll, hhomeAll⟩
  · intro cursor token projection e projection' hcall
    refine ⟨by rw [searchMemory_error hcall], ?_⟩
    intro actionResults homeResults hpending
    have hstays := searchMemory_pending haction hhome token hpending
    rw [hcall] at hstays
    exact hstays

/-! ### A source that fails once -/

def item (id : String) : MemoryItem := ⟨str id, str "T", str "U"⟩

/-- An answer with one result and no more. -/
def onlyPage (id : String) : Json :=
  .obj [(str "results", .arr [.obj [(str "id", .str (str id)), (str "title", .str (str "T")),
    (str "url", .str (str "U"))]]), (str "has_more", .bool false)]

/-- The action log fails the first time it is asked. -/
def oneFailure : Sources Bool Unit where
  actionLog _ _ failed := if failed then (.payload (onlyPage "A"), true) else (.failed, true)
  home _ _ source := (.payload (onlyPage "H"), source)

def sampleToken : Token := ⟨List.replicate 32 (ch 'x'), by decide⟩

def secondCall : UnifiedKnowledgeProjection Bool Unit where
  actionLog := true
  home := ()
  searchCursors := [(str "ium_" ++ sampleToken.val, ⟨str "q", none, none, false, true⟩)]

theorem oneFailure_first :
    (searchMemory oneFailure (str "q") none sampleToken ⟨false, (), []⟩) =
      (.ok ⟨[item "H"], true, some (str "ium_" ++ sampleToken.val), ["action_log"], 0, 1, 1⟩,
        secondCall) := by
  rfl

theorem oneFailure_second :
    (searchMemory oneFailure (str "q") (some (str "ium_" ++ sampleToken.val)) sampleToken
        secondCall) =
      (.ok ⟨[item "A"], false, none, [], 1, 0, 1⟩, ⟨true, (), []⟩) := by
  rfl

theorem oneFailure_followed :
    Followed oneFailure (str "q") (fun _ results _ => results = [item "A"])
      (fun _ results _ => results = [item "H"]) none ⟨false, (), []⟩ [item "H", item "A"] :=
  .more oneFailure_first rfl ⟨fun _ _ h => h, fun _ _ h => h, fun _ _ => .inl rfl⟩
    (.last oneFailure_second rfl)

theorem onlyPage_follows (id : String) :
    resultsOf (onlyPage id) = .ok [item id] ∧
      ∀ invalid, continuationOf invalid (onlyPage id) = .ok none :=
  ⟨rfl, fun _ => rfl⟩

/-- The failed source is asked again with the cursor of the next page. -/
theorem failure_loses_nothing : Merges [item "A"] [item "H"] [item "H", item "A"] := by
  refine (search_loses_nothing oneFailure (str "q") (fun _ results _ => results = [item "A"])
    (fun _ results _ => results = [item "H"]) ?_ ?_).1 ⟨false, (), []⟩ _ _ _ rfl rfl
    oneFailure_followed
  · rintro cursor results failed rfl
    cases failed with
    | false => exact rfl
    | true => exact ⟨_, none, [], (onlyPage_follows "A").1, (onlyPage_follows "A").2,
        by decide, rfl, rfl⟩
  · rintro cursor results source rfl
    exact ⟨_, none, [], (onlyPage_follows "H").1, (onlyPage_follows "H").2, by decide, rfl, rfl⟩

end IntegrityGuardian.UnifiedProjection
