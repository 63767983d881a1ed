import IntegrityGuardian.Forget.Rebuilding

/-!
# One call after others

What a call returns is a function of the projection before the first call, of all that was
selected so far and of the conversations that the last call to revoke any revoked.
-/

namespace IntegrityGuardian.Forget

open Python Library

section
variable [FloatData]

/-! ## Requests -/

/-- The two sets of selectors of a call. -/
structure Selectors where
  forgetClaimIds : Option (Finset Str)
  forgetConversationIds : Option (Finset Str)

def Selectors.claimFilters (s : Selectors) : Finset Str := strippedSelectors s.forgetClaimIds

def Selectors.conversationFilters (s : Selectors) : Finset Str :=
  strippedSelectors s.forgetConversationIds

/-- The union of both sets. -/
def Selectors.union (s t : Selectors) : Selectors where
  forgetClaimIds := some (s.forgetClaimIds.getD ∅ ∪ t.forgetClaimIds.getD ∅)
  forgetConversationIds :=
    some (s.forgetConversationIds.getD ∅ ∪ t.forgetConversationIds.getD ∅)

/-- The arguments of `apply_forget` beside the projection. -/
structure Request extends Selectors where
  reason : Str
  issuedAt : Option Str
  now : Str

/-- The projection that `apply_forget` returns. -/
def forget (projection : Object) (r : Request) : Except ForgetError Object :=
  (applyForget projection r.forgetClaimIds r.forgetConversationIds r.reason r.issuedAt r.now).map
    Prod.fst

/-- Several calls, each on the projection that the one before returned. -/
def forgetAll : Object → List Request → Except ForgetError Object
  | projection, [] => .ok projection
  | projection, r :: rest => do
    let rebuilt ← forget projection r
    forgetAll rebuilt rest

/-- What every projection asks of the selectors of a call. -/
structure Selectors.Usable (s : Selectors) : Prop where
  claimIds : [] ∉ s.claimFilters
  conversationIds : [] ∉ s.conversationFilters
  any : s.claimFilters ≠ ∅ ∨ s.conversationFilters ≠ ∅
  claimTexts : ∀ id ∈ s.claimFilters, id.any CodePoint.isSurrogate = false

/-! ## What a call asks of a projection -/

def conversations? (projection : Object) : Option (List Object) :=
  projection[str "conversations"]?.map fun _ => conversationsOf projection

variable {claimFilters conversationFilters : Finset Str} {o projection : Object}
  {digest sourceId : Str} {key : String}

theorem HoldsConversations.eq {conversations : Option (List Object)}
    (h : HoldsConversations projection conversations) :
    conversations = conversations? projection := by
  cases conversations with
  | none =>
    have hnone : projection[str "conversations"]? = none := h
    rw [conversations?, hnone]
    rfl
  | some conversations =>
    obtain ⟨values, hvalues, hreads⟩ := h
    rw [conversations?, hvalues, conversationsOf, objectsAt_eq hvalues hreads]
    rfl

/-- What every call asks of a projection. -/
structure Valid (projection : Object) : Prop where
  sourceId : ∃ sourceId, projection[str "source_id"]? = some (.str sourceId) ∧ sourceId ≠ []
  claims : ∃ values, projection[str "claims"]? = some (.arr values) ∧
    Reads ValidClaim claimId [] values (claimsOf projection)
  conversations : HoldsConversations projection (conversations? projection)

/-- The projection, apart from its digest, after all that was selected in some calls, the
last of which to revoke conversations revoked `last`. -/
def result (projection : Object) (claimFilters conversationFilters last : Finset Str) : Object :=
  let rebuilt := rebuild projection
    (relink ((claimsOf projection).filter (¬Selected claimFilters conversationFilters ·)))
    ((conversations? projection).map (·.filter (conversationId · ∉ conversationFilters)))
  if conversationFilters = ∅ then rebuilt
  else revokedWith (revocationsOf projection) conversationFilters last rebuilt

/-- The projection with its digest. -/
def withDigest (o : Object) (digest : Str) : Object :=
  o.insert (str "projection_sha256") (.str digest)

theorem exists_operationIdOf {before after : Str} :
    (∃ id, operationIdOf sourceId before after claimFilters conversationFilters = .ok id) ↔
      sourceId.any CodePoint.isSurrogate = false ∧ before.any CodePoint.isSurrogate = false ∧
        after.any CodePoint.isSurrogate = false ∧
        (∀ id ∈ claimFilters, id.any CodePoint.isSurrogate = false) ∧
        ∀ id ∈ conversationFilters, id.any CodePoint.isSurrogate = false := by
  have hstable : (∃ id, operationIdOf sourceId before after claimFilters conversationFilters =
      .ok id) ↔ Value.Stable (.obj [
        (str "source_id", .str sourceId),
        (str "source_projection_sha256_before", .str before),
        (str "source_projection_sha256_after", .str after),
        (str "forget_claim_ids", textList (ascending claimFilters)),
        (str "forget_conversation_ids", textList (ascending conversationFilters))]) := by
    rw [Value.stable_iff, operationIdOf]
    constructor
    · rintro ⟨id, h⟩
      split at h
      · cases h
      · next bytes hbytes => exact ⟨bytes, hbytes⟩
    · rintro ⟨bytes, hbytes⟩
      simp only [hbytes]
      exact ⟨_, rfl⟩
  rw [hstable, Value.stable_obj]
  simp only [List.forall_mem_cons, List.not_mem_nil, false_imp_iff, implies_true, and_true,
    any_isSurrogate_str, true_and, Value.stable_str, stable_textList, mem_ascending]

omit [FloatData] in
theorem any_hex (bytes : Bytes) : (hex bytes).any CodePoint.isSurrogate = false := by
  apply Json.any_isSurrogate_ascii
  rw [List.all_eq_true]
  intro c hc
  have hlower := isLowerHex_of_mem_hex hc
  simp only [CodePoint.isLowerHex, Bool.or_eq_true, Bool.and_eq_true, decide_eq_true_eq] at hlower
  simp only [decide_eq_true_eq]
  omega

theorem any_of_projectionDigest
    (h : projectionDigest o = .ok digest) : digest.any CodePoint.isSurrogate = false := by
  rw [projectionDigest] at h
  split at h
  · cases h
  · rw [← Except.ok.inj h]
    exact any_hex _

theorem any_of_canonical (h : canonicalProjectionSha256 o = .ok digest) :
    digest.any CodePoint.isSurrogate = false := by
  rw [canonicalProjectionSha256] at h
  obtain ⟨computed, hcomputed, h⟩ := bind_eq_ok.1 h
  obtain ⟨bytes, _, rfl⟩ := stableDigest_eq_ok.1 hcomputed
  have hdigest : hex (sha256 bytes) = digest := by
    split at h
    · exact Except.ok.inj h
    · exact Except.ok.inj h
    · exact Except.ok.inj (ensure_bind_eq_ok.1 (ensure_bind_eq_ok.1 h).2).2
    · cases h
  rw [← hdigest]
  exact any_hex _

theorem coerceProjectionId_eq_ok : coerceProjectionId projection = .ok sourceId ↔
      projection[str "source_id"]? = some (.str sourceId) ∧ sourceId ≠ [] := by
  rw [coerceProjectionId]
  split
  · next other hother =>
    rw [ensure_bind_eq_ok, Except.ok.injEq, hother, Option.some.injEq, Value.str.injEq]
    constructor
    · rintro ⟨hne, rfl⟩
      exact ⟨rfl, hne⟩
    · rintro ⟨rfl, hne⟩
      exact ⟨hne, rfl⟩
  · next hno =>
    refine iff_of_false nofun ?_
    rintro ⟨h, _⟩
    exact hno sourceId h

/-- The keys of a projection that `rebuild` writes. -/
def rebuiltKeys : List String :=
  ["claims", "claim_count", "conversations", "conversation_count", "message_count"]

theorem get_rebuild_other (projection : Object) (survivors : List Object)
    (conversations : Option (List Object)) (h : key ∉ rebuiltKeys) :
    (rebuild projection survivors conversations)[str key]? = projection[str key]? := by
  simp only [rebuiltKeys, List.mem_cons, List.not_mem_nil, or_false, not_or] at h
  obtain ⟨hclaims, hcount, hconversations, hconversationCount, hmessages⟩ := h
  rw [get_rebuild]
  simp only [str_inj, Ne.symm hclaims, Ne.symm hcount, Ne.symm hconversations,
    Ne.symm hconversationCount, Ne.symm hmessages, ↓reduceIte]
  split <;> rfl

theorem revocable_congr {o' : Object}
    (hrevoked : o[str "revoked_conversation_ids"]? = o'[str "revoked_conversation_ids"]?)
    (hcoverage : o[str "adapter_coverage"]? = o'[str "adapter_coverage"]?) :
    Revocable o ↔ Revocable o' := by
  constructor
  · rintro ⟨hrevocations, hdict⟩
    exact ⟨hrevoked ▸ hrevocations, hcoverage ▸ hdict⟩
  · rintro ⟨hrevocations, hdict⟩
    exact ⟨hrevoked ▸ hrevocations, hcoverage ▸ hdict⟩

theorem revoke_rebuild {revoked : Object} : revoke conversationFilters (rebuild projection
      (relink ((claimsOf projection).filter (¬Selected claimFilters conversationFilters ·)))
      ((conversations? projection).map (·.filter (conversationId · ∉ conversationFilters)))) =
        .ok revoked ↔
      (conversationFilters ≠ ∅ → Revocable projection) ∧
        revoked = result projection claimFilters conversationFilters conversationFilters := by
  by_cases hempty : conversationFilters = ∅
  · rw [result, if_pos hempty, revoke, if_pos hempty, Except.ok.injEq, @eq_comm _ _ revoked]
    exact (and_iff_right fun hne => absurd hempty hne).symm
  · rw [revoke_of_ne hempty, revocable_congr (get_rebuild_other _ _ _ (by decide))
      (get_rebuild_other _ _ _ (by decide)), revocationsOf, linksAt,
      get_rebuild_other _ _ _ (by decide), result, if_neg hempty]
    exact and_congr_left fun _ => ⟨fun h _ => h, fun h => h hempty⟩

theorem any_of_result_digest {last : Finset Str}
    (h : projectionDigest (result projection claimFilters conversationFilters last) = .ok digest)
    {id : Str} (hid : id ∈ conversationFilters) : id.any CodePoint.isSurrogate = false := by
  have hne : conversationFilters ≠ ∅ := Finset.ne_empty_of_mem hid
  have hstable := stable_valueOf.1 (exists_projectionDigest.1 ⟨digest, h⟩)
    (str "revoked_conversation_ids") (textList (ascending
      ((revocationsOf projection).toFinset ∪ conversationFilters)))
  rw [Dict.get_erase, if_neg (by decide), result, if_neg hne, get_revokedWith] at hstable
  have htexts := stable_textList.1 (hstable (by simp only [str_inj, String.reduceEq, ↓reduceIte])).2
  exact htexts id (by simp [hid])

theorem forget_eq_ok {rebuilt : Object} {r : Request} : forget projection r = .ok rebuilt ↔
      Valid projection ∧ (∃ before, canonicalProjectionSha256 projection = .ok before) ∧
        r.Usable ∧ (r.conversationFilters ≠ ∅ → Revocable projection) ∧
        ∃ digest, projectionDigest (result projection r.claimFilters r.conversationFilters
          r.conversationFilters) = .ok digest ∧
          rebuilt = withDigest (result projection r.claimFilters r.conversationFilters
            r.conversationFilters) digest := by
  rw [forget, map_eq_ok]
  constructor
  · rintro ⟨⟨_, receipt⟩, h, rfl⟩
    simp only [applyForget, bind_eq_ok, coerceIds_eq_ok, coerceClaimsForForget_eq_ok,
      forgetConversations_eq_ok, coerceProjectionId_eq_ok] at h
    obtain ⟨sourceId, hsource, before, hbefore, claimFilters, ⟨hclaimIds, rfl⟩,
      conversationFilters, ⟨hconversationIds, rfl⟩, ⟨⟩, hany, claims, ⟨values, hvalues, hreads⟩, _,
      ⟨conversations, hconversations, rfl⟩, revoked, hrevoke, after, hdigest, operationId,
      hoperation, h⟩ := h
    have hclaims : claimsOf projection = claims := objectsAt_eq hvalues hreads
    have hheld := hconversations.eq
    subst hclaims hheld
    rw [separate_eq, Option.map_map] at hrevoke
    obtain ⟨hrevocable, rfl⟩ := revoke_rebuild.1 hrevoke
    obtain ⟨_, _, _, htexts, _⟩ := exists_operationIdOf.1 ⟨operationId, hoperation⟩
    refine ⟨⟨⟨sourceId, hsource⟩, ⟨values, hvalues, hreads⟩, hconversations⟩, ⟨before, hbefore⟩,
      ⟨hclaimIds, hconversationIds, ensure_eq_ok.1 hany, htexts⟩, hrevocable, after, hdigest, ?_⟩
    rw [← (Prod.mk.inj (Except.ok.inj h)).1]
    rfl
  · rintro ⟨hvalid, ⟨before, hbefore⟩, husable, hrevocable, digest, hdigest, rfl⟩
    obtain ⟨sourceId, hsource, hne⟩ := hvalid.sourceId
    have hsourceText := (stable_valueOf.1 (stable_of_canonical hbefore) (str "source_id")
      (.str sourceId) (by rw [Dict.get_erase, if_neg (by decide), hsource])).2
    obtain ⟨operationId, hoperation⟩ := exists_operationIdOf.2 ⟨Value.stable_str.1 hsourceText,
      any_of_canonical hbefore, any_of_projectionDigest hdigest, husable.claimTexts,
      fun id hid => any_of_result_digest hdigest hid⟩
    have hrevoke := revoke_rebuild.2 ⟨hrevocable, Eq.refl (result projection r.claimFilters
      r.conversationFilters r.conversationFilters)⟩
    simp only [applyForget, bind_eq_ok, coerceIds_eq_ok, coerceClaimsForForget_eq_ok,
      forgetConversations_eq_ok, coerceProjectionId_eq_ok, separate_eq]
    refine ⟨_, ⟨sourceId, ⟨hsource, hne⟩, before, hbefore, _, ⟨husable.claimIds, rfl⟩, _,
      ⟨husable.conversationIds, rfl⟩, (), ensure_eq_ok.2 husable.any, _, hvalid.claims, _,
      ⟨_, hvalid.conversations, rfl⟩, _, ?_, digest, hdigest, operationId, hoperation, rfl⟩, rfl⟩
    rw [Option.map_map]
    exact hrevoke

/-! ## The projection after a call -/

theorem get_withDigest_result (projection : Object)
    (claimFilters conversationFilters last : Finset Str) (digest : Str)
    (hkey : key ∉ revokedKeys) (hdigest : "projection_sha256" ≠ key) :
    (withDigest (result projection claimFilters conversationFilters last) digest)[str key]? =
      (rebuild projection
        (relink ((claimsOf projection).filter (¬Selected claimFilters conversationFilters ·)))
        ((conversations? projection).map
          (·.filter (conversationId · ∉ conversationFilters))))[str key]? := by
  simp only [revokedKeys, List.mem_cons, List.not_mem_nil, or_false, not_or] at hkey
  obtain ⟨hduplicates, hrevoked, hrequired, hcoverage⟩ := hkey
  rw [withDigest, get_insert_ne _ hdigest, result]
  split
  · rfl
  · rw [get_revokedWith]
    simp only [str_inj, Ne.symm hduplicates, Ne.symm hrevoked, Ne.symm hrequired,
      Ne.symm hcoverage, ↓reduceIte]

section
variable (projection : Object) (claimFilters conversationFilters last : Finset Str) (digest : Str)

theorem get_claims_result :
    (withDigest (result projection claimFilters conversationFilters last) digest)[str "claims"]? =
      some (.arr ((relink ((claimsOf projection).filter
        (¬Selected claimFilters conversationFilters ·))).map valueOf)) := by
  rw [get_withDigest_result _ _ _ _ _ (by decide) (by decide), get_rebuild_claims]

theorem claimsOf_result :
    claimsOf (withDigest (result projection claimFilters conversationFilters last) digest) =
      relink ((claimsOf projection).filter (¬Selected claimFilters conversationFilters ·)) :=
  objectsAt_valueOf (get_claims_result projection claimFilters conversationFilters last digest)

theorem get_conversations_result :
    (withDigest (result projection claimFilters conversationFilters last)
        digest)[str "conversations"]? =
      ((conversations? projection).map
        (·.filter (conversationId · ∉ conversationFilters))).map
          (fun kept => .arr (kept.map valueOf)) := by
  rw [get_withDigest_result _ _ _ _ _ (by decide) (by decide), get_rebuild]
  simp only [str_inj, String.reduceEq, ↓reduceIte]
  cases h : conversations? projection with
  | none =>
    rw [conversations?, Option.map_eq_none_iff] at h
    simp only [Option.map_none, h]
  | some conversations => rfl

theorem conversations?_result :
    conversations? (withDigest (result projection claimFilters conversationFilters last) digest) =
      (conversations? projection).map (·.filter (conversationId · ∉ conversationFilters)) := by
  have hget := get_conversations_result projection claimFilters conversationFilters last digest
  rw [conversations?, conversationsOf, objectsAt, hget]
  cases conversations? projection with
  | none => rfl
  | some conversations =>
    exact congrArg some (filterMap_object? (map_object?_valueOf _))

theorem result_of_ne {conversationFilters : Finset Str} (h : conversationFilters ≠ ∅) :
    result projection claimFilters conversationFilters last =
      revokedWith (revocationsOf projection) conversationFilters last (rebuild projection
        (relink ((claimsOf projection).filter (¬Selected claimFilters conversationFilters ·)))
        ((conversations? projection).map (·.filter (conversationId · ∉ conversationFilters)))) := by
  rw [result, if_neg h]

theorem rebuild_result {survivors : List Object} {conversations : Option (List Object)}
    (h : (conversations? projection).isSome = conversations.isSome) :
    rebuild (result projection claimFilters conversationFilters last) survivors conversations =
      if conversationFilters = ∅ then rebuild projection survivors conversations
      else revokedWith (revocationsOf projection) conversationFilters last
        (rebuild projection survivors conversations) := by
  have hsome : ((conversations? projection).map
      (·.filter (conversationId · ∉ conversationFilters))).isSome = conversations.isSome := by
    rw [Option.isSome_map, h]
  rw [result]
  split
  · rw [rebuild_rebuild _ _ _ hsome]
  · rw [rebuild_revokedWith, rebuild_rebuild _ _ _ hsome]

theorem revocationsOf_result (h : conversationFilters ≠ ∅) :
    revocationsOf (withDigest (result projection claimFilters conversationFilters last) digest) =
      ascending ((revocationsOf projection).toFinset ∪ conversationFilters) := by
  rw [revocationsOf, linksAt, withDigest, get_insert_ne _ (by decide), result, if_neg h,
    get_revokedWith]
  simp only [str_inj, String.reduceEq, ↓reduceIte]
  exact filterMap_text?_map _

theorem revocationsOf_result_empty :
    revocationsOf (withDigest (result projection claimFilters ∅ last) digest) =
      revocationsOf projection := by
  rw [revocationsOf, linksAt, withDigest, get_insert_ne _ (by decide), result, if_pos rfl,
    get_rebuild_other _ _ _ (by decide), revocationsOf, linksAt]

end

theorem revokedWith_withDigest (previous : List Str) (all last : Finset Str) (o : Object)
    (digest : Str) : revokedWith previous all last (withDigest o digest) =
      withDigest (revokedWith previous all last o) digest :=
  revokedWith_insert previous all last o (.str digest)

omit [FloatData] in
theorem toFinset_ascending (s : Finset Str) : (ascending s).toFinset = s := by
  ext id
  rw [List.mem_toFinset, mem_ascending]

/-- A call on the projection after other calls gives what one call on the projection before
them does, but for the list that the last call overwrites. -/
theorem result_result (projection : Object) (c v last c' v' : Finset Str) (digest : Str) :
    result (withDigest (result projection c v last) digest) c' v' v' =
      withDigest (result projection (c ∪ c') (v ∪ v') (if v' = ∅ then last else v')) digest := by
  have hfilter : (conversations? projection).map
      ((·.filter (conversationId · ∉ v')) ∘ (·.filter (conversationId · ∉ v))) =
        (conversations? projection).map (·.filter (conversationId · ∉ v ∪ v')) := by
    congr 1
    funext conversations
    rw [Function.comp_apply, List.filter_filter]
    apply List.filter_congr
    intro conversation _
    rw [Bool.eq_iff_iff, Bool.and_eq_true, decide_eq_true_eq, decide_eq_true_eq,
      decide_eq_true_eq, Finset.mem_union]
    tauto
  have hrebuild : ∀ survivors conversations,
      (conversations? projection).isSome = conversations.isSome →
      rebuild (withDigest (result projection c v last) digest) survivors conversations =
        withDigest (if v = ∅ then rebuild projection survivors conversations
          else revokedWith (revocationsOf projection) v last
            (rebuild projection survivors conversations)) digest := by
    intro survivors conversations h
    rw [withDigest, rebuild_insert, rebuild_result _ _ _ _ h, withDigest]
  rw [result, claimsOf_result, filter_relink, conversations?_result, Option.map_map, hfilter,
    hrebuild _ _ (by rw [Option.isSome_map])]
  by_cases hv' : v' = ∅
  · subst hv'
    rw [if_pos rfl, if_pos rfl, Finset.union_empty, result]
  · have hunion : v ∪ v' ≠ ∅ := by
      intro h
      exact hv' (Finset.union_eq_empty.1 h).2
    rw [if_neg hv', if_neg hv', revokedWith_withDigest, result_of_ne projection (c ∪ c') v' hunion]
    congr 1
    by_cases hv : v = ∅
    · subst hv
      rw [if_pos rfl, Finset.empty_union, revocationsOf_result_empty]
    · rw [if_neg hv]
      apply revokedWith_revokedWith
      rw [revocationsOf_result _ _ _ _ _ hv, toFinset_ascending]

end

end IntegrityGuardian.Forget
