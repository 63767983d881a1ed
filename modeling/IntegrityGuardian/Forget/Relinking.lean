import IntegrityGuardian.Forget.Validation
import IntegrityGuardian.Python.JsonFields

/-!
# Links of the survivors

The two loops over the survivors write five keys of a claim, each a function of the links
and timestamps of the claims that survive.
-/

namespace IntegrityGuardian.Forget

open Python Library

section
variable [FloatData]

theorem get_insert_self (o : Object) (key : Str) (value : Value) :
    (o.insert key value)[key]? = some value := by
  rw [Dict.get_insert, if_pos rfl]

theorem get_insert_ne (o : Object) {key key' : String} (h : key ≠ key') (value : Value) :
    (o.insert (str key) value)[str key']? = o[str key']? := by
  rw [Dict.get_insert, if_neg (fun heq => h (str_injective heq))]

@[simp] theorem linksAt_insert_self (o : Object) (field : String) (links : List Str) :
    linksAt (o.insert (str field) (textList links)) field = links := by
  rw [linksAt, get_insert_self]
  exact filterMap_text?_map links

variable {field : String}

theorem linksAt_insert_ne (o : Object) {key : String} (h : key ≠ field) (value : Value) :
    linksAt (o.insert (str key) value) field = linksAt o field := by
  rw [linksAt, get_insert_ne o h, linksAt]

/-- The links of a claim to claims that survive. -/
def liveLinks (survivorIds : List Str) (claim : Object) (field : String) : List Str :=
  sortedLinks ((linksAt claim field).filter (· ∈ survivorIds))

theorem mem_liveLinks {survivorIds : List Str} {claim : Object} {link : Str} :
    link ∈ liveLinks survivorIds claim field ↔
      link ∈ linksAt claim field ∧ link ∈ survivorIds := by
  simp [liveLinks, sortedLinks]

omit [FloatData] in
theorem sortedLinks_congr {xs ys : List Str} (h : ∀ link, link ∈ xs ↔ link ∈ ys) :
    sortedLinks xs = sortedLinks ys := by
  have hset : xs.toFinset = ys.toFinset := by
    ext link
    rw [List.mem_toFinset, List.mem_toFinset, h]
  rw [sortedLinks, sortedLinks, hset]

/-- The claim with the five keys that the loops write. -/
def written (claim : Object) (supersedes supersededBy contradicts : List Str)
    (validTo : Value) : Object :=
  ((((claim.insert (str "supersedes") (textList supersedes)).insert (str "superseded_by")
    (textList supersededBy)).insert (str "contradicts") (textList contradicts)).insert
      (str "valid_to") validTo).insert (str "temporal_state")
        (.str (temporalState supersededBy contradicts))

theorem pruneLinks_eq (survivorIds : List Str) (claim : Object) :
    pruneLinks survivorIds claim =
      ((claim.insert (str "supersedes")
        (textList (liveLinks survivorIds claim "supersedes"))).insert
        (str "superseded_by") (textList (liveLinks survivorIds claim "superseded_by"))).insert
        (str "contradicts") (textList (liveLinks survivorIds claim "contradicts")) := by
  simp only [pruneLinks, requiredListFields, List.foldl_cons, List.foldl_nil, pruneField]
  rw [linksAt_insert_ne _ (by decide), linksAt_insert_ne _ (by decide),
    linksAt_insert_ne _ (by decide)]
  rfl

theorem rebuildTemporal_pruneLinks (survivorIds : List Str) (timestamps : List (Str × Str))
    (claim : Object) :
    rebuildTemporal survivorIds timestamps (pruneLinks survivorIds claim) =
      written claim (liveLinks survivorIds claim "supersedes")
        (liveLinks survivorIds claim "superseded_by")
        (liveLinks survivorIds claim "contradicts")
        (earliest timestamps (liveLinks survivorIds claim "superseded_by")) := by
  have hagain : sortedLinks ((liveLinks survivorIds claim "contradicts").filter
      (· ∈ survivorIds)) = liveLinks survivorIds claim "contradicts" := by
    apply sortedLinks_congr
    intro link
    simp [mem_liveLinks]
  have hsupersededBy : linksAt (pruneLinks survivorIds claim) "superseded_by" =
      liveLinks survivorIds claim "superseded_by" := by
    rw [pruneLinks_eq, linksAt_insert_ne _ (by decide), linksAt_insert_self]
  have hcontradicts : linksAt (pruneLinks survivorIds claim) "contradicts" =
      liveLinks survivorIds claim "contradicts" := by
    rw [pruneLinks_eq, linksAt_insert_self]
  simp only [rebuildTemporal, hsupersededBy, hcontradicts, pruneField]
  rw [linksAt_insert_ne _ (by decide), linksAt_insert_ne _ (by decide), hcontradicts, hagain,
    pruneLinks_eq, written]
  apply Dict.ext
  intro key
  split
  · simp only [Dict.get_insert]
    split_ifs <;> subst_vars <;> simp_all [str_inj]
  · simp only [Dict.get_insert]
    split_ifs <;> subst_vars <;> simp_all [str_inj]

/-- The keys that the loops write. -/
def writtenKeys : List String :=
  ["supersedes", "superseded_by", "contradicts", "valid_to", "temporal_state"]

section

variable (claim : Object) (supersedes supersededBy contradicts : List Str) (validTo : Value)

variable {key : String}

theorem get_written (h : key ∉ writtenKeys) :
    (written claim supersedes supersededBy contradicts validTo)[str key]? = claim[str key]? := by
  simp only [writtenKeys, List.mem_cons, List.not_mem_nil, or_false, not_or] at h
  obtain ⟨hs, hb, hc, hv, ht⟩ := h
  rw [written, get_insert_ne _ (Ne.symm ht), get_insert_ne _ (Ne.symm hv),
    get_insert_ne _ (Ne.symm hc), get_insert_ne _ (Ne.symm hb), get_insert_ne _ (Ne.symm hs)]

theorem textAt_written (h : key ∉ writtenKeys) :
    textAt (written claim supersedes supersededBy contradicts validTo) key = textAt claim key := by
  rw [textAt, get_written _ _ _ _ _ h, textAt]

@[simp] theorem claimId_written :
    claimId (written claim supersedes supersededBy contradicts validTo) = claimId claim :=
  textAt_written _ _ _ _ _ (by decide)

@[simp] theorem conversationId_written :
    conversationId (written claim supersedes supersededBy contradicts validTo) =
      conversationId claim :=
  textAt_written _ _ _ _ _ (by decide)

@[simp] theorem createdAt_written :
    createdAt (written claim supersedes supersededBy contradicts validTo) = createdAt claim := by
  rw [createdAt, get_written _ _ _ _ _ (by decide), createdAt]

theorem linksAt_written :
    linksAt (written claim supersedes supersededBy contradicts validTo) "supersedes" = supersedes ∧
    linksAt (written claim supersedes supersededBy contradicts validTo) "superseded_by" =
      supersededBy ∧
    linksAt (written claim supersedes supersededBy contradicts validTo) "contradicts" =
      contradicts := by
  refine ⟨?_, ?_, ?_⟩
  · rw [written, linksAt_insert_ne _ (by decide), linksAt_insert_ne _ (by decide),
      linksAt_insert_ne _ (by decide), linksAt_insert_ne _ (by decide), linksAt_insert_self]
  · rw [written, linksAt_insert_ne _ (by decide), linksAt_insert_ne _ (by decide),
      linksAt_insert_ne _ (by decide), linksAt_insert_self]
  · rw [written, linksAt_insert_ne _ (by decide), linksAt_insert_ne _ (by decide),
      linksAt_insert_self]

theorem validTo_written :
    (written claim supersedes supersededBy contradicts validTo)[str "valid_to"]? =
      some validTo := by
  rw [written, get_insert_ne _ (by decide), get_insert_self]

theorem temporalState_written :
    (written claim supersedes supersededBy contradicts validTo)[str "temporal_state"]? =
      some (.str (temporalState supersededBy contradicts)) := by
  rw [written, get_insert_self]

end

/-- The survivor with its links to the others. -/
def relinked (survivors : List Object) (claim : Object) : Object :=
  written claim (liveLinks (survivors.map claimId) claim "supersedes")
    (liveLinks (survivors.map claimId) claim "superseded_by")
    (liveLinks (survivors.map claimId) claim "contradicts")
    (earliest (idToTimestamp survivors)
      (liveLinks (survivors.map claimId) claim "superseded_by"))

theorem relink_eq (survivors : List Object) :
    relink survivors = survivors.map (relinked survivors) := by
  rw [relink]
  apply List.map_congr_left
  intro claim _
  exact rebuildTemporal_pruneLinks _ _ claim

@[simp] theorem map_claimId_relink (survivors : List Object) :
    (relink survivors).map claimId = survivors.map claimId := by
  rw [relink_eq, List.map_map]
  apply List.map_congr_left
  intro claim _
  exact claimId_written _ _ _ _ _

theorem linksAt_relinked (survivors : List Object) (claim : Object) {field : String}
    (h : field ∈ requiredListFields) :
    linksAt (relinked survivors claim) field =
      liveLinks (survivors.map claimId) claim field := by
  simp only [requiredListFields, List.mem_cons, List.not_mem_nil, or_false] at h
  obtain rfl | rfl | rfl := h
  · exact (linksAt_written _ _ _ _ _).1
  · exact (linksAt_written _ _ _ _ _).2.1
  · exact (linksAt_written _ _ _ _ _).2.2

/-! ## Timestamps -/

theorem map_fst_idToTimestamp (survivors : List Object) :
    ((idToTimestamp survivors).map Prod.fst).Sublist (survivors.map claimId) := by
  induction survivors with
  | nil => exact .slnil
  | cons claim survivors ih =>
    rw [idToTimestamp, List.filterMap_cons]
    cases h : createdAt claim with
    | none => exact ih.cons _
    | some timestamp => exact ih.cons_cons _

theorem lookup_idToTimestamp {survivors : List Object} (hnodup : (survivors.map claimId).Nodup)
    {link timestamp : Str} :
    (idToTimestamp survivors).lookup link = some timestamp ↔
      ∃ claim ∈ survivors, claimId claim = link ∧ createdAt claim = some timestamp := by
  rw [Json.lookup_eq_some_iff_mem ((map_fst_idToTimestamp survivors).nodup hnodup),
    idToTimestamp, List.mem_filterMap]
  simp only [Option.map_eq_some_iff, Prod.mk.injEq]
  constructor
  · rintro ⟨claim, hclaim, _, htime, hlink, rfl⟩
    exact ⟨claim, hclaim, hlink, htime⟩
  · rintro ⟨claim, hclaim, hlink, htime⟩
    exact ⟨claim, hclaim, timestamp, htime, hlink, rfl⟩

theorem idToTimestamp_relink (survivors : List Object) :
    idToTimestamp (relink survivors) = idToTimestamp survivors := by
  rw [relink_eq, idToTimestamp, List.filterMap_map, idToTimestamp]
  apply List.filterMap_congr
  intro claim _
  simp [relinked]

/-- The value of `valid_to` is the first time at which a superseding claim was made. -/
def ValidTo (claims : List Object) (supersededBy : List Str) : Value → Prop
  | .null => ∀ claim ∈ claims, claimId claim ∈ supersededBy → createdAt claim = none
  | .str timestamp =>
    (∃ claim ∈ claims, claimId claim ∈ supersededBy ∧ createdAt claim = some timestamp) ∧
      ∀ claim ∈ claims, claimId claim ∈ supersededBy → ∀ other, createdAt claim = some other →
        timestamp ≤ other
  | _ => False

theorem validTo_earliest {claims : List Object} (hnodup : (claims.map claimId).Nodup)
    (supersededBy : List Str) :
    ValidTo claims supersededBy (earliest (idToTimestamp claims) supersededBy) := by
  have hmem : ∀ timestamp,
      timestamp ∈ supersededBy.filterMap (fun link => (idToTimestamp claims).lookup link) ↔
        ∃ claim ∈ claims, claimId claim ∈ supersededBy ∧ createdAt claim = some timestamp := by
    intro timestamp
    simp only [List.mem_filterMap, lookup_idToTimestamp hnodup]
    constructor
    · rintro ⟨link, hlink, claim, hclaim, rfl, htime⟩
      exact ⟨claim, hclaim, hlink, htime⟩
    · rintro ⟨claim, hclaim, hlink, htime⟩
      exact ⟨_, hlink, claim, hclaim, rfl, htime⟩
  rw [earliest]
  split
  · next hnone =>
    rw [List.min?_eq_none_iff] at hnone
    intro claim hclaim hlink
    cases htime : createdAt claim with
    | none => rfl
    | some timestamp =>
      have hin := (hmem timestamp).2 ⟨claim, hclaim, hlink, htime⟩
      rw [hnone] at hin
      cases hin
  · next timestamp hsome =>
    rw [List.min?_eq_some_iff] at hsome
    refine ⟨(hmem timestamp).1 hsome.1, ?_⟩
    intro claim hclaim hlink other htime
    exact hsome.2 other ((hmem other).2 ⟨claim, hclaim, hlink, htime⟩)

end

end IntegrityGuardian.Forget
