import IntegrityGuardian.Forget.Projection

/-!
# Valid projections

What validation accepts, apart from where it stands in the list, and the claims and
conversations of a projection.
-/

namespace IntegrityGuardian.Forget

open Python Library

section
variable [FloatData]

/-! ## Objects -/

def object? : Value → Option Object
  | .obj members => some (objectOf members)
  | _ => none

theorem objectOf_toList (o : Object) : objectOf o.toList = o := Dict.ofList_toList o

@[simp] theorem object?_valueOf (o : Object) : object? (valueOf o) = some o :=
  congrArg some (objectOf_toList o)

theorem map_object?_valueOf (objects : List Object) :
    (objects.map valueOf).map object? = objects.map some := by
  rw [List.map_map]
  exact List.map_congr_left fun o _ => object?_valueOf o

theorem filterMap_object? {values : List Value} {objects : List Object}
    (h : values.map object? = objects.map some) : values.filterMap object? = objects := by
  have hid : values.filterMap object? = (values.map object?).filterMap id := by
    rw [List.filterMap_map]
    rfl
  rw [hid, h, List.filterMap_map]
  exact List.filterMap_some

/-- The objects of a list of the projection. -/
def objectsAt (projection : Object) (key : String) : List Object :=
  match projection[str key]? with
  | some (.arr values) => values.filterMap object?
  | _ => []

def claimsOf (projection : Object) : List Object := objectsAt projection "claims"

def conversationsOf (projection : Object) : List Object := objectsAt projection "conversations"

@[simp] theorem all_isText_map (xs : List Str) : (xs.map Value.str).all isText = true := by
  simp [isText]

@[simp] theorem filterMap_text?_map (xs : List Str) : (xs.map Value.str).filterMap text? = xs := by
  rw [List.filterMap_map]
  exact List.filterMap_some

/-! ## Lists of objects -/

/-- The values are objects, each valid, with ids that are distinct and not seen before. -/
def Reads (Valid : Object → Prop) (idOf : Object → Str) (seen : List Str) (values : List Value)
    (objects : List Object) : Prop :=
  values.map object? = objects.map some ∧ (∀ o ∈ objects, Valid o) ∧
    (objects.map idOf).Nodup ∧ ∀ o ∈ objects, idOf o ∉ seen

variable {Valid : Object → Prop} {idOf : Object → Str} {seen : List Str}

variable {claims objects : List Object} {seen : List Str} {values : List Value} {index : Nat}
  {claim payload : Object} {key : String}

theorem reads_nil : Reads Valid idOf seen [] objects ↔ objects = [] := by
  constructor
  · intro h
    exact List.map_eq_nil_iff.1 h.1.symm
  · rintro rfl
    exact ⟨rfl, nofun, List.nodup_nil, nofun⟩

theorem reads_cons {members : List (Str × Value)} :
    Reads Valid idOf seen (.obj members :: values) objects ↔
      ∃ rest, objects = objectOf members :: rest ∧ Valid (objectOf members) ∧
        idOf (objectOf members) ∉ seen ∧
        Reads Valid idOf (seen ++ [idOf (objectOf members)]) values rest := by
  constructor
  · rintro ⟨hmap, hvalid, hnodup, hseen⟩
    cases objects with
    | nil => cases hmap
    | cons o rest =>
      simp only [List.map_cons, List.cons.injEq, object?, Option.some.injEq] at hmap
      obtain ⟨rfl, hmap⟩ := hmap
      rw [List.map_cons, List.nodup_cons] at hnodup
      refine ⟨rest, rfl, hvalid _ (by simp), hseen _ (by simp), hmap,
        fun o ho => hvalid o (by simp [ho]), hnodup.2, ?_⟩
      intro o ho hmem
      rw [List.mem_append, List.mem_singleton] at hmem
      obtain hmem | heq := hmem
      · exact hseen o (by simp [ho]) hmem
      · exact hnodup.1 (heq ▸ List.mem_map_of_mem ho)
  · rintro ⟨rest, rfl, ho, hfresh, hmap, hvalid, hnodup, hseen⟩
    refine ⟨by simp [object?, hmap], by simpa using ⟨ho, hvalid⟩, ?_, ?_⟩
    · rw [List.map_cons, List.nodup_cons]
      refine ⟨?_, hnodup⟩
      intro hmem
      obtain ⟨o, ho, heq⟩ := List.mem_map.1 hmem
      exact hseen o ho (by simp [heq])
    · simp only [List.mem_cons, forall_eq_or_imp]
      exact ⟨hfresh, fun o ho hmem => hseen o ho (List.mem_append_left _ hmem)⟩

theorem not_reads_cons {value : Value} (h : object? value = none) : ¬Reads Valid idOf seen (value :: values) objects := by
  rintro ⟨hmap, _⟩
  cases objects with
  | nil => cases hmap
  | cons o rest =>
    rw [List.map_cons, h] at hmap
    cases hmap

theorem reads_unseen : Reads Valid idOf [] values objects ↔ values.map object? = objects.map some ∧
      (∀ o ∈ objects, Valid o) ∧ (objects.map idOf).Nodup := by
  simp [Reads]

/-! ## Claims -/

/-- What `_coerce_label_list` accepts. -/
def ValidLabels : Option Value → Prop
  | none | some .null => True
  | some (.arr items) => ∀ item ∈ items, ∃ label, item = .str label ∧ label.strip ≠ []
  | some _ => False

/-- What `_coerce_claims_for_forget` asks of each claim. -/
structure ValidClaim (claim : Object) : Prop where
  texts : ∀ key ∈ requiredStringFields, ∃ value, claim[str key]? = some (.str value) ∧
    (key = "claim_id" → value ≠ [])
  claimType : textAt claim "claim_type" ∈ allowedClaimTypes
  temporalState : textAt claim "temporal_state" ∈ allowedTemporalStates
  isUserAssertion : isBool claim[str "is_user_assertion"]? = true
  provenance : isDict claim[str "provenance"]? = true
  hasCreatedAt : claim[str "created_at"]?.isSome = true
  createdAt : isOptionalText claim[str "created_at"]? = true
  model : isOptionalText claim[str "model"]? = true
  contentType : isOptionalText claim[str "content_type"]? = true
  links : ∀ key ∈ requiredListFields, ∃ items, claim[str key]? = some (.arr items) ∧
    items.all isText = true
  sensitivityLabels : ValidLabels claim[str "sensitivity_labels"]?
  scopeLabels : ValidLabels claim[str "scope_labels"]?

theorem checkStringField_eq_ok : checkStringField index claim key = .ok () ↔
      ∃ value, claim[str key]? = some (.str value) ∧ (key = "claim_id" → value ≠ []) := by
  rw [checkStringField]
  split
  · next value hvalue => simp [hvalue]
  · next hno =>
    constructor
    · intro h
      cases h
    · rintro ⟨value, hvalue, _⟩
      exact absurd hvalue (hno value)

theorem checkLinks_eq_ok : checkLinks index claim key = .ok () ↔
      ∃ items, claim[str key]? = some (.arr items) ∧ items.all isText = true := by
  rw [checkLinks]
  split
  · next items hitems => simp [hitems]
  · next hno =>
    constructor
    · intro h
      cases h
    · rintro ⟨items, hitems, _⟩
      exact absurd hitems (hno items)

theorem checkLabels_eq_ok :
    checkLabels index claim key = .ok () ↔ ValidLabels claim[str key]? := by
  rw [checkLabels]
  split
  case h_1 h => simp [h, ValidLabels]
  case h_2 h => simp [h, ValidLabels]
  case h_3 items h =>
    rw [h, forM_eq_ok, ValidLabels]
    apply forall₂_congr
    intro item _
    cases item <;> simp
  case h_4 hnone hnull harr h =>
    rw [h]
    refine iff_of_false (by simp) ?_
    intro hvalid
    cases hnone with
    | null => exact hnull rfl
    | arr items => exact harr items rfl
    | _ => exact hvalid

theorem checkClaim_eq_ok :
    checkClaim index seen claim = .ok () ↔ ValidClaim claim ∧ claimId claim ∉ seen := by
  simp only [checkClaim, bind_eq_ok]
  constructor
  · rintro ⟨⟨⟩, htexts, ⟨⟩, hseen, ⟨⟩, htype, ⟨⟩, hstate, ⟨⟩, hassertion, ⟨⟩, hprovenance, ⟨⟩,
      hhas, ⟨⟩, hcreated, ⟨⟩, hmodel, ⟨⟩, hcontent, ⟨⟩, hlinks, ⟨⟩, hsensitivity, hscope⟩
    refine ⟨?_, ensure_eq_ok.1 hseen⟩
    exact {
      texts := fun key hkey => checkStringField_eq_ok.1 (forM_eq_ok.1 htexts key hkey)
      claimType := ensure_eq_ok.1 htype
      temporalState := ensure_eq_ok.1 hstate
      isUserAssertion := ensure_eq_ok.1 hassertion
      provenance := ensure_eq_ok.1 hprovenance
      hasCreatedAt := ensure_eq_ok.1 hhas
      createdAt := ensure_eq_ok.1 hcreated
      model := ensure_eq_ok.1 hmodel
      contentType := ensure_eq_ok.1 hcontent
      links := fun key hkey => checkLinks_eq_ok.1 (forM_eq_ok.1 hlinks key hkey)
      sensitivityLabels := checkLabels_eq_ok.1 hsensitivity
      scopeLabels := checkLabels_eq_ok.1 hscope }
  · rintro ⟨hvalid, hseen⟩
    exact ⟨(), forM_eq_ok.2 fun key hkey => checkStringField_eq_ok.2 (hvalid.texts key hkey),
      (), ensure_eq_ok.2 hseen, (), ensure_eq_ok.2 hvalid.claimType,
      (), ensure_eq_ok.2 hvalid.temporalState, (), ensure_eq_ok.2 hvalid.isUserAssertion,
      (), ensure_eq_ok.2 hvalid.provenance, (), ensure_eq_ok.2 hvalid.hasCreatedAt,
      (), ensure_eq_ok.2 hvalid.createdAt, (), ensure_eq_ok.2 hvalid.model,
      (), ensure_eq_ok.2 hvalid.contentType,
      (), forM_eq_ok.2 fun key hkey => checkLinks_eq_ok.2 (hvalid.links key hkey),
      (), checkLabels_eq_ok.2 hvalid.sensitivityLabels,
      checkLabels_eq_ok.2 hvalid.scopeLabels⟩

theorem coerceClaims_eq_ok : coerceClaims index seen values = .ok claims ↔
      Reads ValidClaim claimId seen values claims := by
  induction values generalizing index seen claims with
  | nil =>
    rw [reads_nil, coerceClaims, Except.ok.injEq, eq_comm]
  | cons value values ih =>
    cases value with
    | obj members =>
      simp only [coerceClaims, bind_eq_ok, ih, reads_cons]
      constructor
      · rintro ⟨⟨⟩, hcheck, rest, hrest, h⟩
        obtain ⟨hvalid, hfresh⟩ := checkClaim_eq_ok.1 hcheck
        exact ⟨rest, (Except.ok.inj h).symm, hvalid, hfresh, hrest⟩
      · rintro ⟨rest, rfl, hvalid, hfresh, hrest⟩
        exact ⟨(), checkClaim_eq_ok.2 ⟨hvalid, hfresh⟩, rest, hrest, rfl⟩
    | foreign isDict encoded =>
      refine iff_of_false ?_ (not_reads_cons rfl)
      cases isDict <;> exact nofun
    | _ => exact iff_of_false nofun (not_reads_cons rfl)

theorem coerceClaimsForForget_eq_ok : coerceClaimsForForget payload = .ok claims ↔
      ∃ values, payload[str "claims"]? = some (.arr values) ∧
        Reads ValidClaim claimId [] values claims := by
  rw [coerceClaimsForForget]
  split
  case h_1 values hvalues =>
    rw [hvalues, coerceClaims_eq_ok]
    simp
  case h_2 hno =>
    refine iff_of_false nofun ?_
    rintro ⟨values, hvalues, _⟩
    exact hno values hvalues

theorem objectsAt_eq (hvalues : payload[str key]? = some (.arr values))
    (h : Reads Valid idOf seen values objects) : objectsAt payload key = objects := by
  rw [objectsAt, hvalues]
  exact filterMap_object? h.1

/-! ## Conversations -/

/-- What the loop over the conversations asks of each. -/
structure ValidConversation (conversation : Object) : Prop where
  conversationId : conversationId conversation ≠ []
  messages : ∀ value, conversation[str "messages"]? = some value → ∃ items, value = .arr items

theorem checkConversation_eq_ok {conversation : Object} :
    checkConversation index seen conversation = .ok () ↔
      ValidConversation conversation ∧ conversationId conversation ∉ seen := by
  rw [checkConversation, ensure_bind_eq_ok, ensure_bind_eq_ok]
  constructor
  · rintro ⟨hid, hseen, hmessages⟩
    refine ⟨⟨hid, ?_⟩, hseen⟩
    intro value hvalue
    rw [hvalue] at hmessages
    cases value with
    | arr items => exact ⟨items, rfl⟩
    | _ => cases hmessages
  · rintro ⟨⟨hid, hmessages⟩, hseen⟩
    refine ⟨hid, hseen, ?_⟩
    split
    · rfl
    · rfl
    · next value harr hvalue =>
      obtain ⟨items, heq⟩ := hmessages value hvalue
      exact absurd heq (harr items)

/-- What the loop over the conversations makes of valid ones. -/
def separatedConversations (conversationFilters : Finset Str) (conversations : List Object) :
    SeparatedConversations where
  surviving := conversations.filter (conversationId · ∉ conversationFilters)
  removedIds := (conversations.filter (conversationId · ∈ conversationFilters)).map conversationId
  removedMessageCount :=
    ((conversations.filter (conversationId · ∈ conversationFilters)).map messageCount).sum

theorem separateConversations_eq_ok {conversationFilters : Finset Str}
    {result : SeparatedConversations} :
    separateConversations conversationFilters index seen values = .ok result ↔
      ∃ conversations, Reads ValidConversation conversationId seen values conversations ∧
        result = separatedConversations conversationFilters conversations := by
  induction values generalizing index seen result with
  | nil =>
    simp only [separateConversations, Except.ok.injEq, reads_nil, exists_eq_left, eq_comm]
    rfl
  | cons value values ih =>
    cases value with
    | obj members =>
      simp only [separateConversations, bind_eq_ok, ih, reads_cons]
      constructor
      · rintro ⟨⟨⟩, hcheck, _, ⟨rest, hrest, rfl⟩, h⟩
        obtain ⟨hvalid, hfresh⟩ := checkConversation_eq_ok.1 hcheck
        refine ⟨_, ⟨rest, rfl, hvalid, hfresh, hrest⟩, ?_⟩
        split at h
        · next hmem =>
          rw [← Except.ok.inj h]
          simp [separatedConversations, hmem]
        · next hmem =>
          rw [← Except.ok.inj h]
          simp [separatedConversations, hmem]
      · rintro ⟨_, ⟨rest, rfl, hvalid, hfresh, hrest⟩, rfl⟩
        refine ⟨(), checkConversation_eq_ok.2 ⟨hvalid, hfresh⟩, _, ⟨rest, hrest, rfl⟩, ?_⟩
        split
        · next hmem => simp [separatedConversations, hmem]
        · next hmem => simp [separatedConversations, hmem]
    | foreign isDict encoded =>
      refine iff_of_false ?_ ?_
      · cases isDict <;> exact nofun
      · rintro ⟨_, h, _⟩
        exact not_reads_cons rfl h
    | _ =>
      refine iff_of_false nofun ?_
      rintro ⟨_, h, _⟩
      exact not_reads_cons rfl h

end

end IntegrityGuardian.Forget
