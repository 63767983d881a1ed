import IntegrityGuardian.Chronicle.FederatedSearch

/-!
# Pages of a federated search

Over backends that answer slices of fixed lists, a search returns the slice of the round
robin over these lists, whatever batches it fetches.
-/

namespace IntegrityGuardian.Chronicle

open Python Library

/-! ## Groups -/

theorem mem_addToGroups {groups : List Group} {scope item : ScopeEntry} :
    (∃ group ∈ addToGroups groups scope, item ∈ group.items)
      ↔ (∃ group ∈ groups, item ∈ group.items) ∨ item = scope := by
  induction groups with
  | nil => simp [addToGroups, Group.items]
  | cons group groups ih =>
    unfold addToGroups
    split
    · rw [List.exists_mem_cons_iff, List.exists_mem_cons_iff]
      simp only [Group.items, List.mem_cons, List.mem_append, List.not_mem_nil, false_or,
        or_assoc, or_comm, or_left_comm]
    · rw [List.exists_mem_cons_iff, ih, List.exists_mem_cons_iff, or_assoc]

theorem mem_foldl_addToGroups {selected : List ScopeEntry} {groups : List Group}
    {item : ScopeEntry} :
    (∃ group ∈ selected.foldl addToGroups groups, item ∈ group.items)
      ↔ (∃ group ∈ groups, item ∈ group.items) ∨ item ∈ selected := by
  induction selected generalizing groups with
  | nil => simp
  | cons scope selected ih =>
    rw [List.foldl_cons, ih, mem_addToGroups, List.mem_cons, or_assoc]

theorem mem_groupsOf {selected : List ScopeEntry} {item : ScopeEntry} :
    (∃ group ∈ groupsOf selected, item ∈ group.items) ↔ item ∈ selected := by
  unfold groupsOf
  rw [mem_foldl_addToGroups]
  simp

theorem keys_addToGroups {groups : List Group} {scope : ScopeEntry} :
    (addToGroups groups scope).map Group.key
      = if backendKey scope ∈ groups.map Group.key then groups.map Group.key
        else groups.map Group.key ++ [backendKey scope] := by
  induction groups with
  | nil => rfl
  | cons group groups ih =>
    unfold addToGroups
    by_cases h : group.key = backendKey scope
    · rw [if_pos h, if_pos (List.mem_map.2 ⟨group, List.mem_cons_self, h⟩)]
      rfl
    · rw [if_neg h, List.map_cons, ih, List.map_cons]
      have hmem : backendKey scope ∈ group.key :: groups.map Group.key
          ↔ backendKey scope ∈ groups.map Group.key := by
        rw [List.mem_cons]
        exact or_iff_right fun heq => h heq.symm
      by_cases hrest : backendKey scope ∈ groups.map Group.key
      · rw [if_pos hrest, if_pos (hmem.2 hrest)]
      · rw [if_neg hrest, if_neg fun hm => hrest (hmem.1 hm), List.cons_append]

theorem nodup_foldl_addToGroups {selected : List ScopeEntry} {groups : List Group}
    (h : (groups.map Group.key).Nodup) :
    ((selected.foldl addToGroups groups).map Group.key).Nodup := by
  induction selected generalizing groups with
  | nil => exact h
  | cons scope selected ih =>
    apply ih
    rw [keys_addToGroups]
    split
    · exact h
    · next hnew =>
        rw [List.nodup_append]
        refine ⟨h, List.nodup_singleton _, ?_⟩
        intro a ha b hb heq
        rw [List.mem_singleton.1 hb] at heq
        exact hnew (heq ▸ ha)

theorem nodup_groupsOf (selected : List ScopeEntry) : ((groupsOf selected).map Group.key).Nodup :=
  nodup_foldl_addToGroups List.nodup_nil

/-! ## One backend -/

/-- The backend has handed out the first `n` rows. -/
structure Holds (rows : List Record) (n : Nat) (backend : BackendState) : Prop where
  rest : backend.localResults ++ rows.drop backend.nextOffset = rows.drop n
  done : backend.exhausted = true → rows.drop backend.nextOffset = []

theorem holds_initial (rows : List Record) : Holds rows 0 ⟨[], 0, false⟩ where
  rest := rfl
  done h := by cases h

/-- The backend behind the next slice of its rows. -/
def BackendState.fetch (backend : BackendState) (rows : List Record) (pageLimit : Nat) :
    BackendState :=
  let slice := (rows.drop backend.nextOffset).take pageLimit
  ⟨backend.localResults ++ slice, backend.nextOffset + slice.length, slice.length < pageLimit⟩

theorem Holds.fetch {rows : List Record} {n : Nat} {backend : BackendState}
    (h : Holds rows n backend) (pageLimit : Nat) :
    Holds rows n (backend.fetch rows pageLimit) := by
  unfold BackendState.fetch
  set slice := (rows.drop backend.nextOffset).take pageLimit with hslice
  have hdrop : slice ++ rows.drop (backend.nextOffset + slice.length)
      = rows.drop backend.nextOffset := by
    rw [← List.drop_drop]
    exact List.prefix_iff_eq_append.1 (List.take_prefix pageLimit _)
  constructor
  · rw [List.append_assoc, hdrop]
    exact h.rest
  · intro hshort
    have hlen : slice.length < pageLimit := of_decide_eq_true hshort
    have hlength : slice.length = min pageLimit (rows.length - backend.nextOffset) := by
      rw [hslice, List.length_take, List.length_drop]
    apply List.drop_of_length_le
    show rows.length ≤ backend.nextOffset + slice.length
    omega

theorem Holds.take {rows : List Record} {n : Nat} {backend : BackendState} {record : Record}
    {later : List Record} (h : Holds rows n backend)
    (hresults : backend.localResults = record :: later) :
    rows[n]? = some record ∧ Holds rows (n + 1) { backend with localResults := later } := by
  have hrest := h.rest
  rw [hresults, List.cons_append] at hrest
  refine ⟨?_, ?_, h.done⟩
  · rw [← List.head?_drop, ← hrest]
    rfl
  · rw [← List.tail_drop, ← hrest]
    rfl

theorem Holds.ended {rows : List Record} {n : Nat} {backend : BackendState}
    (h : Holds rows n backend) (hresults : backend.localResults = [])
    (hexhausted : backend.exhausted = true) :
    rows[n]? = none ∧ Holds rows (n + 1) backend := by
  have hrest := h.rest
  rw [hresults, List.nil_append, h.done hexhausted] at hrest
  refine ⟨?_, ?_, h.done⟩
  · rw [← List.head?_drop, ← hrest]
    rfl
  · rw [hresults, List.nil_append, h.done hexhausted, ← List.tail_drop, ← hrest]
    rfl

/-! ## What is published -/

/-- The reader of a group answers slices of one list, always under the same generation. -/
def Serves (reader : Group → Bool → Nat → Nat → Except SearchError Payload) (everywhere : Bool)
    (rows : Group → List Record) (view : ScopeEntry → PublicScope) (group : Group) : Prop :=
  ∃ generation corpusId sidecar,
    (∀ item ∈ group.items,
      scopeWithGeneration item ⟨[], generation, corpusId, sidecar⟩ = .ok (view item))
    ∧ ∀ limit offset, reader group (backendEverywhere everywhere group) limit offset
      = .ok ⟨((rows group).drop offset).take limit, generation, corpusId, sidecar⟩

theorem scopeWithGeneration_results (item : ScopeEntry) (results : List Record)
    (generation corpusId sidecar : Option Str) :
    scopeWithGeneration item ⟨results, generation, corpusId, sidecar⟩
      = scopeWithGeneration item ⟨[], generation, corpusId, sidecar⟩ := rfl

section
variable {reader : Group → Bool → Nat → Nat → Except SearchError Payload} {everywhere : Bool}
  {rows : Group → List Record} {view : ScopeEntry → PublicScope} {selected : List ScopeEntry}

/-- Every published scope is a selected one, as its backend describes it. -/
def Published (view : ScopeEntry → PublicScope) (selected : List ScopeEntry)
    (publicScopes : Str → Option PublicScope) : Prop :=
  ∀ id p, publicScopes id = some p → ∃ item ∈ selected, item.scopeId = id ∧ p = view item

theorem announce_eq_ok (hids : (selected.map ScopeEntry.scopeId).Nodup) {item : ScopeEntry}
    (hitem : item ∈ selected) {payload : Payload}
    (hview : scopeWithGeneration item payload = .ok (view item))
    {publicScopes : Str → Option PublicScope} (h : Published view selected publicScopes) :
    ∃ publicScopes', announce payload publicScopes item = .ok publicScopes'
      ∧ Published view selected publicScopes'
      ∧ publicScopes' item.scopeId = some (view item)
      ∧ ∀ other, publicScopes other.scopeId = some (view other) → other ∈ selected →
        publicScopes' other.scopeId = some (view other) := by
  have hsame (other : ScopeEntry) (hother : other ∈ selected)
      (hid : other.scopeId = item.scopeId) : other = item :=
    List.inj_on_of_nodup_map hids hother hitem hid
  have hfirst : ∀ previous ∈ publicScopes item.scopeId,
      previous.indexGeneration = (view item).indexGeneration
        ∧ previous.corpusId = (view item).corpusId := by
    intro previous hprevious
    obtain ⟨other, hother, hid, rfl⟩ := h _ _ hprevious
    rw [hsame other hother hid]
    exact ⟨rfl, rfl⟩
  refine ⟨Function.update publicScopes item.scopeId (some (view item)), ?_, ?_, ?_, ?_⟩
  · unfold announce
    rw [hview, ok_bind, ensure_of hfirst, ok_bind]
  · intro id p hp
    by_cases hid : id = item.scopeId
    · rw [hid, Function.update_self] at hp
      exact ⟨item, hitem, hid.symm, (Option.some.inj hp).symm⟩
    · rw [Function.update_of_ne hid] at hp
      exact h id p hp
  · exact Function.update_self _ _ _
  · intro other hshown hother
    by_cases hid : other.scopeId = item.scopeId
    · rw [hid, Function.update_self, hsame other hother hid]
    · rw [Function.update_of_ne hid, hshown]

theorem announceAll_eq_ok (hids : (selected.map ScopeEntry.scopeId).Nodup) {payload : Payload} :
    ∀ {items : List ScopeEntry}, (∀ item ∈ items, item ∈ selected) →
      (∀ item ∈ items, scopeWithGeneration item payload = .ok (view item)) →
      ∀ {publicScopes : Str → Option PublicScope}, Published view selected publicScopes →
      ∃ publicScopes', items.foldlM (announce payload) publicScopes = .ok publicScopes'
        ∧ Published view selected publicScopes'
        ∧ (∀ item ∈ items, publicScopes' item.scopeId = some (view item))
        ∧ ∀ other, publicScopes other.scopeId = some (view other) → other ∈ selected →
          publicScopes' other.scopeId = some (view other)
  | [], _, _, publicScopes, h => ⟨publicScopes, rfl, h, by simp, fun _ hshown _ => hshown⟩
  | item :: items, hsub, hview, publicScopes, h => by
    have hitem := hsub item List.mem_cons_self
    obtain ⟨first, hfirst, hpublished, hshown, hkept⟩ :=
      announce_eq_ok hids hitem (hview item List.mem_cons_self) h
    obtain ⟨last, hlast, hpublished', hshown', hkept'⟩ :=
      announceAll_eq_ok hids (fun i hi => hsub i (List.mem_cons_of_mem _ hi))
        (fun i hi => hview i (List.mem_cons_of_mem _ hi)) hpublished
    refine ⟨last, ?_, hpublished', ?_, ?_⟩
    · rw [List.foldlM_cons, hfirst, ok_bind, hlast]
    · intro i hi
      rcases List.mem_cons.1 hi with rfl | hi
      · exact hkept' i hshown hitem
      · exact hshown' i hi
    · intro other hother hmem
      exact hkept' other (hkept other hother hmem) hmem

/-- A step that touches one backend and what is published. -/
structure Touches (key : Str) (backend : BackendState) (st st' : SearchState) : Prop where
  backends : st'.backends = Function.update st.backends key backend
  merged : st'.merged = st.merged
  skipped : st'.skipped = st.skipped

theorem fetchPage_eq_ok (hids : (selected.map ScopeEntry.scopeId).Nodup) {group : Group}
    (hserves : Serves reader everywhere rows view group)
    (hsub : ∀ item ∈ group.items, item ∈ selected) (pageLimit : Nat) {st : SearchState}
    (h : Published view selected st.publicScopes) :
    ∃ st', fetchPage reader everywhere group pageLimit st = .ok st'
      ∧ Touches group.key ((st.backends group.key).fetch (rows group) pageLimit) st st'
      ∧ Published view selected st'.publicScopes
      ∧ (∀ item ∈ group.items, st'.publicScopes item.scopeId = some (view item))
      ∧ ∀ other, st.publicScopes other.scopeId = some (view other) → other ∈ selected →
        st'.publicScopes other.scopeId = some (view other) := by
  obtain ⟨generation, corpusId, sidecar, hview, hanswer⟩ := hserves
  obtain ⟨publicScopes, hfold, hpublished, hshown, hkept⟩ := announceAll_eq_ok hids hsub
    (fun item hitem => (scopeWithGeneration_results item
      (((rows group).drop (st.backends group.key).nextOffset).take pageLimit) generation corpusId
      sidecar).trans (hview item hitem)) h
  have hfetch : fetchPage reader everywhere group pageLimit st
      = .ok (({ st with publicScopes := publicScopes } : SearchState).setBackend group.key
        ((st.backends group.key).fetch (rows group) pageLimit)) := by
    unfold fetchPage
    dsimp only
    rw [hanswer, ok_bind, ensure_of (List.length_take_le _ _), ok_bind, hfold, ok_bind]
    rfl
  exact ⟨_, hfetch, ⟨rfl, rfl, rfl⟩, hpublished, hshown, hkept⟩

/-! ## The rounds -/

/-- A record with its places as a search result. -/
def hitOf (everywhere : Bool) (view : ScopeEntry → PublicScope)
    (entry : (Group × Nat × Record) × Nat) : Hit :=
  let ((group, localRank, record), globalRank) := entry
  ⟨view group.scope, group.items.map ScopeEntry.scopeId, localRank, globalRank,
    locatorOf everywhere group record, record⟩

variable {limit offset : Nat} {groups : List Group}

/-- All selected scopes are published. -/
structure Ready (view : ScopeEntry → PublicScope) (selected : List ScopeEntry) (st : SearchState) :
    Prop where
  published : Published view selected st.publicScopes
  shown : ∀ item ∈ selected, st.publicScopes item.scopeId = some (view item)

/-- The records `taken` so far have been skipped or merged. -/
structure Merged (everywhere : Bool) (view : ScopeEntry → PublicScope) (limit offset : Nat)
    (taken : List (Group × Nat × Record)) (st : SearchState) : Prop where
  merged : st.merged = (pageOf offset limit taken).map (hitOf everywhere view)
  skipped : st.merged.length < limit → st.skipped = min offset taken.length

theorem Merged.length {taken : List (Group × Nat × Record)} {st : SearchState}
    (h : Merged everywhere view limit offset taken st) :
    st.merged.length = (pageOf offset limit taken).length := by
  rw [h.merged, List.length_map]

theorem pageLimitOf_pos (limit : Nat) (groups : List Group) (st : SearchState) :
    0 < pageLimitOf limit groups st := by
  simp [pageLimitOf, maxFederatedFetchBatch]

theorem refill_eq_ok (limit : Nat) (groups : List Group)
    (hids : (selected.map ScopeEntry.scopeId).Nodup) {group : Group}
    (hserves : Serves reader everywhere rows view group)
    (hsub : ∀ item ∈ group.items, item ∈ selected) {st : SearchState} {n : Nat}
    (hready : Ready view selected st) (hholds : Holds (rows group) n (st.backends group.key)) :
    ∃ st' backend, refill reader everywhere limit groups group st = .ok st'
      ∧ Touches group.key backend st st' ∧ Ready view selected st' ∧ Holds (rows group) n backend
      ∧ (backend.localResults = [] → backend.exhausted = true) := by
  unfold refill
  dsimp only
  split
  · obtain ⟨st', hfetch, htouches, hpublished, -, hkept⟩ := fetchPage_eq_ok hids hserves hsub
      (pageLimitOf limit groups st) hready.published
    refine ⟨st', _, hfetch, htouches, ⟨hpublished, fun item hitem =>
      hkept item (hready.shown item hitem) hitem⟩, hholds.fetch _, ?_⟩
    intro hempty
    have hslice := (List.append_eq_nil_iff.1 hempty).2
    unfold BackendState.fetch
    rw [hslice]
    exact decide_eq_true (pageLimitOf_pos limit groups st)
  · next hfilled =>
      refine ⟨st, st.backends group.key, rfl, ⟨?_, rfl, rfl⟩, hready, hholds, ?_⟩
      · rw [Function.update_eq_self]
      · intro hempty
        by_contra hopen
        exact hfilled ⟨hempty, by simpa using hopen⟩

theorem Merged.skip {taken : List (Group × Nat × Record)} {st st' : SearchState}
    (h : Merged everywhere view limit offset taken st) (hroom : st.merged.length < limit)
    (hskip : st.skipped < offset) (hmerged : st'.merged = st.merged)
    (hskipped : st'.skipped = st.skipped + 1) (entry : Group × Nat × Record) :
    Merged everywhere view limit offset (taken ++ [entry]) st' := by
  have htaken := h.skipped hroom
  have hlen : (taken ++ [entry]).length = taken.length + 1 := by simp
  constructor
  · rw [hmerged, h.merged, pageOf_of_le (by omega), pageOf_of_le (by omega)]
  · intro _
    omega

theorem Merged.append {taken : List (Group × Nat × Record)} {st st' : SearchState}
    (h : Merged everywhere view limit offset taken st) (hroom : st.merged.length < limit)
    (hskip : ¬st.skipped < offset) {entry : Group × Nat × Record}
    (hmerged : st'.merged
      = st.merged ++ [hitOf everywhere view (entry, offset + st.merged.length + 1)])
    (hskipped : st'.skipped = st.skipped) :
    Merged everywhere view limit offset (taken ++ [entry]) st' := by
  have htaken := h.skipped hroom
  have hlen : (taken ++ [entry]).length = taken.length + 1 := by simp
  have hlength := h.length
  constructor
  · rw [hmerged, pageOf_append_singleton (by omega) (by omega), List.map_append, ← h.merged,
      ← hlength]
    rfl
  · intro _
    omega

theorem Merged.full {taken : List (Group × Nat × Record)} {st : SearchState}
    (h : Merged everywhere view limit offset taken st) (hfull : limit ≤ st.merged.length)
    (more : List (Group × Nat × Record)) :
    Merged everywhere view limit offset (taken ++ more) st := by
  have hlength := h.length
  have hbound := length_pageOf offset limit taken
  constructor
  · rw [h.merged, pageOf_append (by omega)]
  · intro hroom
    omega

/-- What one round does to the backends it visits, and that it leaves the others alone. -/
structure Visited (rows : Group → List Record) (n : Nat) (todo : List Group)
    (st st' : SearchState) : Prop where
  holds : ∀ group ∈ todo, Holds (rows group) (n + 1) (st'.backends group.key)
  frame : ∀ key ∉ todo.map Group.key, st'.backends key = st.backends key

theorem Visited.cons {n : Nat} {group : Group} {todo : List Group} {st st₁ st' : SearchState}
    (h : Visited rows n todo st₁ st') (hkey : group.key ∉ todo.map Group.key)
    (hholds : Holds (rows group) (n + 1) (st₁.backends group.key))
    (hframe : ∀ key, key ≠ group.key → st₁.backends key = st.backends key) :
    Visited rows n (group :: todo) st st' := by
  constructor
  · intro g hg
    rcases List.mem_cons.1 hg with rfl | hg
    · rw [h.frame _ hkey]
      exact hholds
    · exact h.holds g hg
  · intro key hnot
    rw [List.map_cons, List.mem_cons, not_or] at hnot
    rw [h.frame key hnot.2, hframe key hnot.1]

/-- One round hands out the next record of every backend that has one. -/
theorem visitGroups_eq_ok (hids : (selected.map ScopeEntry.scopeId).Nodup) {n : Nat} :
    ∀ {todo : List Group}, (∀ group ∈ todo, Serves reader everywhere rows view group) →
      (∀ group ∈ todo, ∀ item ∈ group.items, item ∈ selected) → (todo.map Group.key).Nodup →
      ∀ {taken : List (Group × Nat × Record)} (added : Bool) {st : SearchState},
      Ready view selected st → Merged everywhere view limit offset taken st →
      st.merged.length < limit →
      (∀ group ∈ todo, Holds (rows group) n (st.backends group.key)) →
      ∃ st' added', visitGroups reader everywhere limit offset groups (n + 1) todo added st
          = .ok (st', added')
        ∧ Ready view selected st'
        ∧ Merged everywhere view limit offset (taken ++ oneRound rows todo n) st'
        ∧ (added' = true ↔ added = true ∨ oneRound rows todo n ≠ [])
        ∧ (st'.merged.length < limit → Visited rows n todo st st')
  | [], _, _, _, taken, added, st, hready, hmerged, _, _ => by
    refine ⟨st, added, rfl, hready, ?_, ?_, fun _ => ⟨by simp, fun _ _ => rfl⟩⟩
    · rw [oneRound, List.filterMap_nil, List.append_nil]
      exact hmerged
    · simp [oneRound]
  | group :: todo, hserves, hsub, hkeys, taken, added, st, hready, hmerged, hroom, hholds => by
    rw [List.map_cons, List.nodup_cons] at hkeys
    have hgroup : group ∈ group :: todo := List.mem_cons_self
    have htodo (g : Group) (hg : g ∈ todo) : g ∈ group :: todo := List.mem_cons_of_mem group hg
    have hne (g : Group) (hg : g ∈ todo) : g.key ≠ group.key := fun heq =>
      hkeys.1 (heq ▸ List.mem_map_of_mem hg)
    obtain ⟨st₁, backend, hrefill, htouches, hready₁, hholds₁, hopen⟩ :=
      refill_eq_ok limit groups hids (hserves group hgroup) (hsub group hgroup) hready
        (hholds group hgroup)
    -- the rest of the round, from any state that differs in this backend alone
    have hrest (taken₁ : List (Group × Nat × Record)) (added₁ : Bool) (st₁ : SearchState)
        (backend₁ : BackendState)
        (hmerged₁ : Merged everywhere view limit offset taken₁ st₁)
        (hbackends : st₁.backends = Function.update st.backends group.key backend₁)
        (hready₁ : Ready view selected st₁)
        (hroom₁ : st₁.merged.length < limit) (hholds₁ : Holds (rows group) (n + 1) backend₁) :
        ∃ st' added', visitGroups reader everywhere limit offset groups (n + 1) todo added₁ st₁
            = .ok (st', added')
          ∧ Ready view selected st'
          ∧ Merged everywhere view limit offset (taken₁ ++ oneRound rows todo n) st'
          ∧ (added' = true ↔ added₁ = true ∨ oneRound rows todo n ≠ [])
          ∧ (st'.merged.length < limit → Visited rows n (group :: todo) st st') := by
      have hother (key : Str) (hk : key ≠ group.key) : st₁.backends key = st.backends key := by
        rw [hbackends, Function.update_of_ne hk]
      obtain ⟨st', added', hvisit, hready', hmerged', hadded', hvisited⟩ :=
        visitGroups_eq_ok hids (fun g hg => hserves g (htodo g hg))
          (fun g hg => hsub g (htodo g hg)) hkeys.2 added₁ hready₁ hmerged₁ hroom₁
          (fun g hg => by
            rw [hother _ (hne g hg)]
            exact hholds g (htodo g hg))
      refine ⟨st', added', hvisit, hready', hmerged', hadded', fun hroom' => ?_⟩
      apply (hvisited hroom').cons hkeys.1 _ hother
      rw [hbackends, Function.update_self]
      exact hholds₁
    have hbackend : st₁.backends group.key = backend := by
      rw [htouches.backends, Function.update_self]
    have hmerged₁ : Merged everywhere view limit offset taken st₁ := by
      refine ⟨htouches.merged.trans hmerged.merged, fun _ => ?_⟩
      rw [htouches.skipped]
      exact hmerged.skipped hroom
    have hroom₁ : st₁.merged.length < limit := by
      rw [htouches.merged]
      exact hroom
    rw [oneRound_cons, visitGroups, hrefill, ok_bind]
    dsimp only
    rw [hbackend]
    cases hresults : backend.localResults with
    | nil =>
      obtain ⟨hnone, hholds₂⟩ := hholds₁.ended hresults (hopen hresults)
      rw [hnone]
      exact hrest taken added st₁ backend hmerged₁ htouches.backends hready₁ hroom₁ hholds₂
    | cons record later =>
      obtain ⟨hsome, hholds₂⟩ := hholds₁.take hresults
      rw [hsome]
      have htaken : taken ++ ((some record).map fun a => (group, n + 1, a)).toList
          = taken ++ [(group, n + 1, record)] := rfl
      rw [← List.append_assoc, htaken]
      have hsomething : added = true ∨ ((some record).map fun a => (group, n + 1, a)).toList
          ++ oneRound rows todo n ≠ [] := Or.inr (List.cons_ne_nil _ _)
      have hshown : st₁.publicScopes group.scope.scopeId = some (view group.scope) :=
        hready₁.shown _ (hsub group hgroup group.scope List.mem_cons_self)
      have hbackends :
          (st₁.setBackend group.key { backend with localResults := later }).backends
          = Function.update st.backends group.key { backend with localResults := later } := by
        rw [SearchState.setBackend, htouches.backends, Function.update_idem]
      dsimp only
      split
      · next hskip =>
          have hskipped : Merged everywhere view limit offset
              (taken ++ [(group, n + 1, record)])
              { st₁.setBackend group.key { backend with localResults := later } with
                skipped := st₁.skipped + 1 } :=
            hmerged₁.skip hroom₁ hskip (by rfl) (by rfl) _
          obtain ⟨st', added', hvisit, hready', hmerged', hadded', hvisited⟩ :=
            hrest _ true _ _ hskipped hbackends ⟨hready₁.published, hready₁.shown⟩ hroom₁
              hholds₂
          exact ⟨st', added', hvisit, hready', hmerged',
            iff_of_true (hadded'.2 (Or.inl rfl)) hsomething, hvisited⟩
      · next hskip =>
          rw [SearchState.setBackend] at hbackends ⊢
          rw [hshown]
          dsimp only
          have happend : Merged everywhere view limit offset (taken ++ [(group, n + 1, record)])
              { st₁.setBackend group.key { backend with localResults := later } with
                merged := st₁.merged ++ [hitOf everywhere view
                  ((group, n + 1, record), offset + st₁.merged.length + 1)] } :=
            hmerged₁.append hroom₁ hskip (by rfl) (by rfl)
          split
          · next hfull =>
              refine ⟨_, true, rfl, ⟨hready₁.published, hready₁.shown⟩, happend.full hfull _,
                iff_of_true rfl hsomething, fun hroom' => ?_⟩
              exact absurd hroom' (not_lt.2 hfull)
          · next hopen =>
              obtain ⟨st', added', hvisit, hready', hmerged', hadded', hvisited⟩ :=
                hrest _ true _ _ happend hbackends ⟨hready₁.published, hready₁.shown⟩
                  (not_le.1 hopen) hholds₂
              exact ⟨st', added', hvisit, hready', hmerged',
                iff_of_true (hadded'.2 (Or.inl rfl)) hsomething, hvisited⟩

theorem mergeRounds_eq_ok (hids : (selected.map ScopeEntry.scopeId).Nodup)
    (hserves : ∀ group ∈ groups, Serves reader everywhere rows view group)
    (hsub : ∀ group ∈ groups, ∀ item ∈ group.items, item ∈ selected)
    (hkeys : (groups.map Group.key).Nodup) :
    ∀ {fuel n : Nat} {st : SearchState}, n ≤ longest rows groups →
      longest rows groups + 1 ≤ n + fuel → Ready view selected st →
      Merged everywhere view limit offset (firstRounds rows groups n) st →
      (st.merged.length < limit →
        ∀ group ∈ groups, Holds (rows group) n (st.backends group.key)) →
      ∃ st', mergeRounds reader everywhere limit offset groups fuel n st = .ok (some st')
        ∧ Ready view selected st'
        ∧ st'.merged = (pageOf offset limit (roundRobin rows groups)).map (hitOf everywhere view)
  | 0, n, st, hn, hfuel, _, _, _ => by omega
  | fuel + 1, n, st, hn, hfuel, hready, hmerged, hholds => by
    unfold mergeRounds
    split
    · next hfull =>
        refine ⟨st, rfl, hready, ?_⟩
        obtain ⟨rest, hrest⟩ : firstRounds rows groups n <+: roundRobin rows groups :=
          firstRounds_front n
        rw [← hrest]
        exact (hmerged.full hfull rest).merged
    · next hopen =>
        obtain ⟨st', added, hvisit, hready', hmerged', hadded, hvisited⟩ :=
          visitGroups_eq_ok hids hserves hsub hkeys false hready hmerged (not_le.1 hopen)
            (hholds (not_le.1 hopen))
        rw [hvisit, ok_bind]
        rw [← firstRounds_succ] at hmerged'
        dsimp only
        cases added with
        | false =>
          have hnil : oneRound rows groups n = [] := by simpa using hadded
          refine ⟨st', rfl, hready', ?_⟩
          rw [firstRounds_succ, hnil, List.append_nil, roundRobin_of_nil hnil] at hmerged'
          exact hmerged'.merged
        | true =>
          have hcons : oneRound rows groups n ≠ [] := by simpa using hadded
          have hlt : n < longest rows groups := by
            by_contra hge
            exact hcons (oneRound_of_longest_le (not_lt.1 hge))
          exact mergeRounds_eq_ok hids hserves hsub hkeys hlt (by omega) hready' hmerged'
            fun hroom => (hvisited hroom).holds

/-- After the probes every selected scope is published. -/
theorem probe_eq_ok (hids : (selected.map ScopeEntry.scopeId).Nodup) :
    ∀ {todo : List Group}, (∀ group ∈ todo, Serves reader everywhere rows view group) →
      (∀ group ∈ todo, ∀ item ∈ group.items, item ∈ selected) → (todo.map Group.key).Nodup →
      ∀ (st : SearchState), Published view selected st.publicScopes → st.merged = [] →
      st.skipped = 0 → (∀ group ∈ todo, Holds (rows group) 0 (st.backends group.key)) →
      ∃ st', todo.foldlM (fun st group => fetchPage reader everywhere group 1 st) st = .ok st'
        ∧ Published view selected st'.publicScopes ∧ st'.merged = [] ∧ st'.skipped = 0
        ∧ (∀ group ∈ todo, Holds (rows group) 0 (st'.backends group.key))
        ∧ (∀ key ∉ todo.map Group.key, st'.backends key = st.backends key)
        ∧ (∀ group ∈ todo, ∀ item ∈ group.items,
          st'.publicScopes item.scopeId = some (view item))
        ∧ ∀ other ∈ selected, st.publicScopes other.scopeId = some (view other) →
          st'.publicScopes other.scopeId = some (view other)
  | [], _, _, _, st, hpublished, hmerged, hskipped, _ =>
    ⟨st, rfl, hpublished, hmerged, hskipped, by simp, fun _ _ => rfl, by simp,
      fun _ _ hshown => hshown⟩
  | group :: todo, hserves, hsub, hkeys, st, hpublished, hmerged, hskipped, hholds => by
    rw [List.map_cons, List.nodup_cons] at hkeys
    have hgroup : group ∈ group :: todo := List.mem_cons_self
    have htodo (g : Group) (hg : g ∈ todo) : g ∈ group :: todo := List.mem_cons_of_mem group hg
    have hne (g : Group) (hg : g ∈ todo) : g.key ≠ group.key := fun heq =>
      hkeys.1 (heq ▸ List.mem_map_of_mem hg)
    obtain ⟨st₁, hfetch, htouches, hpublished₁, hshown₁, hkept₁⟩ :=
      fetchPage_eq_ok hids (hserves group hgroup) (hsub group hgroup) 1 hpublished
    have hother (key : Str) (hk : key ≠ group.key) : st₁.backends key = st.backends key := by
      rw [htouches.backends, Function.update_of_ne hk]
    rw [List.foldlM_cons, hfetch, ok_bind]
    obtain ⟨st', hfold, hpublished', hmerged', hskipped', hholds', hframe, hshown', hkept'⟩ :=
      probe_eq_ok hids (fun g hg => hserves g (htodo g hg)) (fun g hg => hsub g (htodo g hg))
        hkeys.2 st₁ hpublished₁ (htouches.merged.trans hmerged) (htouches.skipped.trans hskipped)
        (fun g hg => by
          rw [hother _ (hne g hg)]
          exact hholds g (htodo g hg))
    refine ⟨st', hfold, hpublished', hmerged', hskipped', ?_, ?_, ?_, ?_⟩
    · intro g hg
      rcases List.mem_cons.1 hg with rfl | hg
      · rw [hframe _ hkeys.1, htouches.backends, Function.update_self]
        exact (hholds _ hgroup).fetch 1
      · exact hholds' g hg
    · intro key hnot
      rw [List.map_cons, List.mem_cons, not_or] at hnot
      rw [hframe key hnot.2, hother key hnot.1]
    · intro g hg item hitem
      rcases List.mem_cons.1 hg with rfl | hg
      · exact hkept' item (hsub _ hgroup item hitem) (hshown₁ item hitem)
      · exact hshown' g hg item hitem
    · intro other hother hshown
      exact hkept' other hother (hkept₁ other hshown hother)

/-! ## The whole search -/

theorem scopeId_of_resolve {registry : ScopeRegistry} {id : Str} {entry : ScopeEntry}
    (h : resolve registry id = .ok entry) : entry.scopeId = id := by
  unfold resolve at h
  split at h
  · cases h
  · next found hfound =>
      obtain ⟨-, h⟩ := ensure_bind_eq_ok.1 h
      cases h
      simpa using List.find?_some hfound

theorem map_scopeId_of_mapM {registry : ScopeRegistry} {ids : List Str}
    {entries : List ScopeEntry} (h : ids.mapM (resolve registry) = .ok entries) :
    entries.map ScopeEntry.scopeId = ids := by
  have hresolved := mapM_eq_ok.1 h
  clear h
  induction hresolved with
  | nil => rfl
  | cons hfirst _ ih => rw [List.map_cons, scopeId_of_resolve hfirst, ih]

theorem nodup_of_scopeIdsOf {value ids : List Str} (h : scopeIdsOf value = .ok ids) :
    ids.Nodup := by
  unfold scopeIdsOf at h
  obtain ⟨-, h⟩ := ensure_bind_eq_ok.1 h
  obtain ⟨-, -, h⟩ := bind_eq_ok.1 h
  obtain ⟨hdistinct, h⟩ := ensure_bind_eq_ok.1 h
  cases h
  exact (List.perm_insertionSort _ _).nodup_iff.2 hdistinct

theorem nodup_selection {registry : ScopeRegistry} {request : Request}
    (h : selection registry request = .ok selected) :
    (selected.map ScopeEntry.scopeId).Nodup := by
  unfold selection at h
  obtain ⟨found, hfound, h⟩ := bind_eq_ok.1 h
  obtain ⟨-, h⟩ := ensure_bind_eq_ok.1 h
  cases h
  unfold resolveAll at hfound
  split at hfound
  · cases hfound
    have hids : (registry.scopes.map ScopeEntry.scopeId).Nodup :=
      List.pairwise_map.2 (registry.ascending.imp fun hlt => hlt.ne)
    exact hids.sublist (List.filter_sublist.map _)
  · obtain ⟨ids, hids, hfound⟩ := bind_eq_ok.1 hfound
    rw [map_scopeId_of_mapM hfound]
    exact nodup_of_scopeIdsOf hids
  · cases hfound

/-- A search over backends that serve fixed lists ends, with the slice of their round robin. -/
theorem search_exact {registry : ScopeRegistry} {request : Request}
    (hvalid : validate request = .ok ()) (hselection : selection registry request = .ok selected)
    (hserves : ∀ group ∈ groupsOf selected, Serves reader request.everywhere rows view group) :
    ∃ enough, ∀ fuel, enough ≤ fuel →
      search registry reader request fuel = .ok (some ⟨selected.map ScopeEntry.scopeId,
        selected.map fun scope => some (view scope),
        (pageOf request.offset.toNat request.limit.toNat (roundRobin rows (groupsOf selected))).map
          (hitOf request.everywhere view)⟩) := by
  have hids := nodup_selection hselection
  have hsub (group : Group) (hgroup : group ∈ groupsOf selected) (item : ScopeEntry)
      (hitem : item ∈ group.items) : item ∈ selected := mem_groupsOf.1 ⟨group, hgroup, hitem⟩
  have hkeys := nodup_groupsOf selected
  obtain ⟨st, hprobe, hpublished, hmerged, hskipped, hholds, -, hshown, -⟩ :=
    probe_eq_ok hids hserves hsub hkeys initialState (by simp [Published, initialState]) rfl rfl
      (fun group _ => holds_initial (rows group))
  have hready : Ready view selected st := by
    refine ⟨hpublished, fun item hitem => ?_⟩
    obtain ⟨group, hgroup, hmem⟩ := mem_groupsOf.2 hitem
    exact hshown group hgroup item hmem
  have hstart : Merged request.everywhere view request.limit.toNat request.offset.toNat
      (firstRounds rows (groupsOf selected) 0) st := by
    have hnone : firstRounds rows (groupsOf selected) 0 = [] := rfl
    rw [hnone]
    exact ⟨by simp [hmerged, pageOf], fun _ => by simp [hskipped]⟩
  refine ⟨longest rows (groupsOf selected) + 1, fun fuel hfuel => ?_⟩
  obtain ⟨st', hrounds, hready', hresults⟩ := mergeRounds_eq_ok hids hserves hsub hkeys
    (Nat.zero_le _) (by omega : _ ≤ 0 + fuel) hready hstart fun _ => hholds
  have hscopes : (selected.map fun scope => st'.publicScopes scope.scopeId)
      = selected.map fun scope => some (view scope) :=
    List.map_congr_left hready'.shown
  unfold search searchGroups
  rw [hvalid, ok_bind, hselection, ok_bind]
  dsimp only
  rw [hprobe, ok_bind, hrounds, ok_bind, Option.map_some, hresults, hscopes]

end

namespace Sample

def scope (id : Char) : ScopeEntry :=
  ⟨[Json.ch id], str "n", str "k", str "r", true, [Json.ch id], none, none, none, false⟩

def registry : ScopeRegistry := ⟨[scope 'a', scope 'b'], by decide⟩

def request : Request := ⟨str "q", none, true, 2, 1, str "fts", 0⟩

/-- Two records under the first backend, one under the second. -/
def rows (group : Group) : List Record :=
  if group.scope = scope 'a' then [[(str "n", .int 1)], [(str "n", .int 2)]]
  else [[(str "n", .int 3)]]

def reader (group : Group) (_ : Bool) (limit offset : Nat) : Except SearchError Payload :=
  .ok ⟨((rows group).drop offset).take limit, some (str "g"), some (str "c"), none⟩

def view (item : ScopeEntry) : PublicScope := ⟨item.publicMembers, str "g", str "c", none⟩

theorem serves (group : Group) (h : group ∈ groupsOf [scope 'a', scope 'b']) :
    Serves reader true rows view group := by
  refine ⟨some (str "g"), some (str "c"), none, ?_, fun _ _ => rfl⟩
  have hgroups : groupsOf [scope 'a', scope 'b'] = [⟨scope 'a', []⟩, ⟨scope 'b', []⟩] := by
    decide +kernel
  rw [hgroups] at h
  intro item hitem
  rcases List.mem_cons.1 h with rfl | h
  · rw [List.mem_singleton.1 hitem]
    rfl
  · rw [List.mem_singleton.1 h] at hitem
    rw [List.mem_singleton.1 hitem]
    rfl

/-- The second and the third result of both backends. -/
theorem second_page : ∃ enough result,
    (∀ fuel, enough ≤ fuel → search registry reader request fuel = .ok (some result))
      ∧ result.results.map (fun hit => (hit.coveredScopeIds, hit.localRank, hit.globalRank))
        = [([[Json.ch 'b']], 1, 2), ([[Json.ch 'a']], 2, 3)] := by
  obtain ⟨enough, h⟩ := search_exact (by decide +kernel : validate request = .ok ())
    (by decide +kernel : selection registry request = .ok [scope 'a', scope 'b']) serves
  exact ⟨enough, _, h, by decide +kernel⟩

end Sample

end IntegrityGuardian.Chronicle
