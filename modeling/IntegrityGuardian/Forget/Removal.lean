import IntegrityGuardian.Forget.Relinking

/-!
# What is forgotten

The claims and conversations that `apply_forget` removes are those whose ids are among the
selectors without the blanks around them.
-/

namespace IntegrityGuardian.Forget

open Python Library

section
variable [FloatData]

/-! ## Claims -/

/-- The claim is selected by its own id or by that of its conversation. -/
def Selected (claimFilters conversationFilters : Finset Str) (claim : Object) : Prop :=
  claimId claim ∈ claimFilters ∨ conversationId claim ∈ conversationFilters

instance (claimFilters conversationFilters : Finset Str) (claim : Object) :
    Decidable (Selected claimFilters conversationFilters claim) :=
  inferInstanceAs (Decidable (_ ∨ _))

theorem separate_eq (claimFilters conversationFilters : Finset Str) (claims : List Object) :
    separate claimFilters conversationFilters claims = {
      survivors := claims.filter (¬Selected claimFilters conversationFilters ·)
      removedClaimIds :=
        (claims.filter (Selected claimFilters conversationFilters ·)).map claimId
      removedByClaim := (claims.filter (claimId · ∈ claimFilters)).map claimId
      removedByConversation := (claims.filter fun claim => claimId claim ∉ claimFilters ∧
        conversationId claim ∈ conversationFilters).map conversationId } := by
  induction claims with
  | nil => rfl
  | cons claim claims ih =>
    rw [separate, ih]
    by_cases hclaim : claimId claim ∈ claimFilters
    · simp [Selected, hclaim]
    · by_cases hconversation : conversationId claim ∈ conversationFilters
      · simp [Selected, hclaim, hconversation]
      · simp [Selected, hclaim, hconversation]

/-! ## Conversations -/

/-- The conversations that a projection holds, if it holds any list of them. -/
def HoldsConversations (projection : Object) : Option (List Object) → Prop
  | none => projection[str "conversations"]? = none
  | some conversations => ∃ values, projection[str "conversations"]? = some (.arr values) ∧
    Reads ValidConversation conversationId [] values conversations

variable {conversationFilters : Finset Str} {result : Object} {key : String}

theorem forgetConversations_eq_ok {projection : Object} {result : Option SeparatedConversations} :
    forgetConversations conversationFilters projection = .ok result ↔
      ∃ conversations, HoldsConversations projection conversations ∧
        result = conversations.map (separatedConversations conversationFilters) := by
  rw [forgetConversations]
  constructor
  · intro h
    split at h
    · next hnone => exact ⟨none, hnone, (Except.ok.inj h).symm⟩
    · next values hvalues =>
      obtain ⟨_, hseparated, h⟩ := bind_eq_ok.1 h
      obtain ⟨conversations, hreads, rfl⟩ := separateConversations_eq_ok.1 hseparated
      exact ⟨some conversations, ⟨values, hvalues, hreads⟩, (Except.ok.inj h).symm⟩
    · cases h
  · rintro ⟨conversations, hholds, rfl⟩
    cases conversations with
    | none =>
      have hnone : projection[str "conversations"]? = none := hholds
      rw [hnone]
      rfl
    | some conversations =>
      obtain ⟨values, hvalues, hreads⟩ := hholds
      rw [hvalues]
      exact bind_eq_ok.2 ⟨_, separateConversations_eq_ok.2 ⟨conversations, hreads, rfl⟩, rfl⟩

/-! ## The rebuilt projection -/

/-- The keys of a projection that `revoke` writes. -/
def revokedKeys : List String :=
  ["message_duplicate_candidates", "revoked_conversation_ids", "corpus_rebuild_required",
    "adapter_coverage"]

theorem get_revokeCoverage {rebuilt : Object}
    (h : revokeCoverage conversationFilters rebuilt = .ok result)
    (hkey : "adapter_coverage" ≠ key) : result[str key]? = rebuilt[str key]? := by
  rw [revokeCoverage] at h
  split at h
  · rw [← Except.ok.inj h, get_insert_ne _ hkey]
  · cases h
  · rw [Except.ok.inj h]

theorem get_revoke {rebuilt : Object} (h : revoke conversationFilters rebuilt = .ok result)
    (hkey : key ∉ revokedKeys) : result[str key]? = rebuilt[str key]? := by
  simp only [revokedKeys, List.mem_cons, List.not_mem_nil, or_false, not_or] at hkey
  obtain ⟨hduplicates, hrevoked, hrequired, hcoverage⟩ := hkey
  rw [revoke] at h
  split at h
  · rw [Except.ok.inj h]
  · obtain ⟨previous, _, h⟩ := bind_eq_ok.1 h
    rw [get_revokeCoverage h (Ne.symm hcoverage), get_insert_ne _ (Ne.symm hrequired),
      get_insert_ne _ (Ne.symm hrevoked)]
    split
    · rw [get_insert_ne _ (Ne.symm hduplicates)]
    · rfl

section
variable (projection : Object) (survivors : List Object) (conversations : Option (List Object))

theorem get_rebuild_claims : (rebuild projection survivors conversations)[str "claims"]? =
    some (.arr (survivors.map valueOf)) := by
  cases conversations with
  | none => rw [rebuild, get_insert_ne _ (by decide), get_insert_self]
  | some surviving =>
    rw [rebuild, get_insert_ne _ (by decide), get_insert_ne _ (by decide),
      get_insert_ne _ (by decide), get_insert_ne _ (by decide), get_insert_self]

theorem get_rebuild_claim_count :
    (rebuild projection survivors conversations)[str "claim_count"]? =
      some (.int survivors.length) := by
  cases conversations with
  | none => rw [rebuild, get_insert_self]
  | some surviving =>
    rw [rebuild, get_insert_ne _ (by decide), get_insert_ne _ (by decide),
      get_insert_ne _ (by decide), get_insert_self]

theorem get_rebuild_conversations (surviving : List Object) :
    let rebuilt := rebuild projection survivors (some surviving)
    rebuilt[str "conversations"]? = some (.arr (surviving.map valueOf)) ∧
      rebuilt[str "conversation_count"]? = some (.int surviving.length) ∧
      rebuilt[str "message_count"]? = some (.int (surviving.map messageCount).sum) := by
  refine ⟨?_, ?_, ?_⟩
  · rw [rebuild, get_insert_ne _ (by decide), get_insert_ne _ (by decide), get_insert_self]
  · rw [rebuild, get_insert_ne _ (by decide), get_insert_self]
  · rw [rebuild, get_insert_self]

theorem get_rebuild_none {key : String} (hclaims : key ≠ "claims")
    (hcount : key ≠ "claim_count") :
    (rebuild projection survivors none)[str key]? = projection[str key]? := by
  rw [rebuild, get_insert_ne _ (Ne.symm hcount), get_insert_ne _ (Ne.symm hclaims)]

end

/-! ## Main result -/

/-- A claim that is kept: only its links, and what follows from them, may differ. -/
structure Kept (survivors : List Object) (claim claim' : Object) : Prop where
  unchanged : ∀ key ∉ writtenKeys, claim'[str key]? = claim[str key]?
  links : ∀ field ∈ requiredListFields, ∀ link, link ∈ linksAt claim' field ↔
    link ∈ linksAt claim field ∧ ∃ other ∈ survivors, claimId other = link

/-- What `apply_forget` did to a projection. -/
structure Forgotten (claimFilters conversationFilters : Finset Str)
    (projection rebuilt : Object) (receipt : Receipt) : Prop where
  no_claim : ∀ claim ∈ claimsOf rebuilt, claimId claim ∉ claimFilters ∧
    conversationId claim ∉ conversationFilters
  no_conversation : ∀ conversation ∈ conversationsOf rebuilt,
    conversationId conversation ∉ conversationFilters
  claims_kept : List.Forall₂ (Kept (claimsOf rebuilt))
    ((claimsOf projection).filter (¬Selected claimFilters conversationFilters ·))
    (claimsOf rebuilt)
  conversations_kept : conversationsOf rebuilt =
    (conversationsOf projection).filter (conversationId · ∉ conversationFilters)
  links_live : ∀ claim ∈ claimsOf rebuilt, ∀ field ∈ requiredListFields,
    ∀ link ∈ linksAt claim field, ∃ other ∈ claimsOf rebuilt, claimId other = link
  temporal_state : ∀ claim ∈ claimsOf rebuilt, claim[str "temporal_state"]? =
    some (.str (temporalState (linksAt claim "superseded_by") (linksAt claim "contradicts")))
  valid_to : ∀ claim ∈ claimsOf rebuilt, ∃ value, claim[str "valid_to"]? = some value ∧
    ValidTo (claimsOf rebuilt) (linksAt claim "superseded_by") value
  claim_count : rebuilt[str "claim_count"]? = some (.int (claimsOf rebuilt).length)
  conversation_counts : projection[str "conversations"]?.isSome →
    rebuilt[str "conversation_count"]? = some (.int (conversationsOf rebuilt).length) ∧
      rebuilt[str "message_count"]? =
        some (.int ((conversationsOf rebuilt).map messageCount).sum)
  removed_claims : ∀ id, id ∈ receipt.removedClaimIds ↔ ∃ claim ∈ claimsOf projection,
    Selected claimFilters conversationFilters claim ∧ claimId claim = id
  removed_count : receipt.removedClaimIds.length = receipt.removedCount ∧
    receipt.removedCount + (claimsOf rebuilt).length = (claimsOf projection).length
  removed_conversations : ∀ id, id ∈ receipt.removedConversationIds ↔
    id ∈ conversationFilters ∧
      ((∃ conversation ∈ conversationsOf projection, conversationId conversation = id) ∨
        ∃ claim ∈ claimsOf projection, claimId claim ∉ claimFilters ∧ conversationId claim = id)
  removed_messages : receipt.removedMessageCount +
    ((conversationsOf rebuilt).map messageCount).sum =
      ((conversationsOf projection).map messageCount).sum

/-- The selectors without the blanks around them. -/
def strippedSelectors (values : Option (Finset Str)) : Finset Str :=
  (values.getD ∅).image Str.strip

omit [FloatData] in
theorem coerceIds_eq_ok {values : Option (Finset Str)} {result : Finset Str} :
    coerceIds values = .ok result ↔ [] ∉ strippedSelectors values ∧
      result = strippedSelectors values := by
  cases values with
  | none =>
    rw [coerceIds, Except.ok.injEq, eq_comm]
    simp [strippedSelectors]
  | some values =>
    rw [coerceIds, ensure_bind_eq_ok, Except.ok.injEq, eq_comm (a := values.image _)]
    rfl

/-- The parts of a call that returns. -/
structure Call (projection : Object) (claimFilters conversationFilters : Finset Str)
    (rebuilt : Object) where
  claims : List Object
  claimsHeld : ∃ values, projection[str "claims"]? = some (.arr values) ∧
    Reads ValidClaim claimId [] values claims
  conversations : Option (List Object)
  conversationsHeld : HoldsConversations projection conversations
  revoked : Object
  revoke_eq : revoke conversationFilters
    (rebuild projection
      (relink (claims.filter (¬Selected claimFilters conversationFilters ·)))
      (conversations.map (·.filter (conversationId · ∉ conversationFilters)))) = .ok revoked
  after : Str
  digest_eq : projectionDigest revoked = .ok after
  rebuilt_eq : rebuilt = revoked.insert (str "projection_sha256") (.str after)

variable {projection : Object}

theorem applyForget_eq_ok {forgetClaimIds forgetConversationIds :
    Option (Finset Str)} {reason : Str} {issuedAt : Option Str} {now : Str} {rebuilt : Object}
    {receipt : Receipt}
    (h : applyForget projection forgetClaimIds forgetConversationIds reason issuedAt now =
      .ok (rebuilt, receipt)) : ∃ call : Call projection (strippedSelectors forgetClaimIds)
        (strippedSelectors forgetConversationIds) rebuilt,
      let claimFilters := strippedSelectors forgetClaimIds
      let conversationFilters := strippedSelectors forgetConversationIds
      let removed := call.claims.filter (Selected claimFilters conversationFilters ·)
      let removedConversations := (call.conversations.getD []).filter
        (conversationId · ∈ conversationFilters)
      receipt.removedClaimIds = sortedLinks (removed.map claimId) ∧
        receipt.removedCount = removed.length ∧
        receipt.removedConversationIds = ascending (
          ((call.claims.filter fun claim => claimId claim ∉ claimFilters ∧
            conversationId claim ∈ conversationFilters).map conversationId).toFinset ∪
          (removedConversations.map conversationId).toFinset) ∧
        receipt.removedMessageCount = (removedConversations.map messageCount).sum := by
  simp only [applyForget, bind_eq_ok, coerceIds_eq_ok, coerceClaimsForForget_eq_ok,
    forgetConversations_eq_ok] at h
  obtain ⟨sourceId, _, before, _, claimFilters, ⟨_, rfl⟩, conversationFilters, ⟨_, rfl⟩, ⟨⟩, _,
    claims, hclaims, _, ⟨conversations, hconversations, rfl⟩, revoked, hrevoke, after, hdigest,
    operationId, _, h⟩ := h
  obtain ⟨rfl, rfl⟩ := Prod.mk.inj (Except.ok.inj h)
  simp only [separate_eq] at hrevoke ⊢
  refine ⟨⟨claims, hclaims, conversations, hconversations, revoked, ?_, after, hdigest, rfl⟩, ?_⟩
  · rw [← hrevoke, Option.map_map]
    rfl
  · refine ⟨rfl, List.length_map _, ?_, ?_⟩
    · cases conversations <;> rfl
    · cases conversations <;> rfl

theorem conversationsOf_eq {conversations : Option (List Object)}
    (h : HoldsConversations projection conversations) :
    conversationsOf projection = conversations.getD [] := by
  cases conversations with
  | none =>
    have hnone : projection[str "conversations"]? = none := h
    rw [conversationsOf, objectsAt, hnone]
    rfl
  | some conversations =>
    obtain ⟨values, hvalues, hreads⟩ := h
    exact objectsAt_eq hvalues hreads

theorem objectsAt_valueOf {key : String} {objects : List Object}
    (h : projection[str key]? = some (.arr (objects.map valueOf))) :
    objectsAt projection key = objects := by
  rw [objectsAt, h]
  exact filterMap_object? (map_object?_valueOf objects)

namespace Call

variable {projection rebuilt : Object} {claimFilters conversationFilters : Finset Str}
  (call : Call projection claimFilters conversationFilters rebuilt)

/-- The claims that are not selected. -/
def survivors : List Object := call.claims.filter (¬Selected claimFilters conversationFilters ·)

theorem claimsOf_projection : claimsOf projection = call.claims := by
  obtain ⟨values, hvalues, hreads⟩ := call.claimsHeld
  exact objectsAt_eq hvalues hreads

theorem nodup_survivors : (call.survivors.map claimId).Nodup := by
  obtain ⟨values, hvalues, hreads⟩ := call.claimsHeld
  exact (List.filter_sublist.map claimId).nodup (reads_unseen.1 hreads).2.2

theorem get_rebuilt {key : String} (hkey : key ∉ revokedKeys)
    (hdigest : "projection_sha256" ≠ key) :
    rebuilt[str key]? = (rebuild projection (relink call.survivors)
      (call.conversations.map (·.filter (conversationId · ∉ conversationFilters))))[str key]? := by
  have hrebuilt : rebuilt[str key]? = call.revoked[str key]? := by
    conv_lhs => rw [call.rebuilt_eq]
    exact get_insert_ne _ hdigest _
  exact hrebuilt.trans (get_revoke call.revoke_eq hkey)

include call

theorem claimsOf_rebuilt : claimsOf rebuilt = relink call.survivors := by
  apply objectsAt_valueOf
  rw [call.get_rebuilt (by decide) (by decide), get_rebuild_claims]

theorem conversationsOf_rebuilt : conversationsOf rebuilt =
    (conversationsOf projection).filter (conversationId · ∉ conversationFilters) := by
  rw [conversationsOf_eq call.conversationsHeld]
  have hget : rebuilt[str "conversations"]? = _ := call.get_rebuilt (by decide) (by decide)
  cases hconversations : call.conversations with
  | none =>
    have hheld := call.conversationsHeld
    rw [hconversations] at hget hheld
    rw [conversationsOf, objectsAt, hget, Option.map_none, get_rebuild_none _ _ (by decide)
      (by decide)]
    have hnone : projection[str "conversations"]? = none := hheld
    rw [hnone]
    rfl
  | some conversations =>
    rw [hconversations, Option.map_some, (get_rebuild_conversations _ _ _).1] at hget
    exact objectsAt_valueOf hget

end Call

theorem mem_map_claimId_relink {survivors : List Object} {link : Str} :
    link ∈ survivors.map claimId ↔ ∃ other ∈ relink survivors, claimId other = link := by
  rw [← map_claimId_relink, List.mem_map]

theorem kept_relinked (survivors : List Object) (claim : Object) :
    Kept (relink survivors) claim (relinked survivors claim) where
  unchanged _ hkey := get_written _ _ _ _ _ hkey
  links _ hfield _ := by
    rw [linksAt_relinked _ _ hfield, mem_liveLinks, mem_map_claimId_relink]

omit [FloatData] in
theorem filter_parts {α : Type} (p : α → Prop) [DecidablePred p] (xs : List α) :
    (xs.filter (p ·) ++ xs.filter (¬p ·)).Perm xs := by
  simpa using List.filter_append_perm (p ·) xs

theorem Call.forgotten {projection rebuilt : Object} {claimFilters conversationFilters : Finset Str}
    (call : Call projection claimFilters conversationFilters rebuilt) {receipt : Receipt}
    (hids : receipt.removedClaimIds =
      sortedLinks ((call.claims.filter (Selected claimFilters conversationFilters ·)).map claimId))
    (hcount : receipt.removedCount =
      (call.claims.filter (Selected claimFilters conversationFilters ·)).length)
    (hconversations : receipt.removedConversationIds = ascending (
      ((call.claims.filter fun claim => claimId claim ∉ claimFilters ∧
        conversationId claim ∈ conversationFilters).map conversationId).toFinset ∪
      (((call.conversations.getD []).filter
        (conversationId · ∈ conversationFilters)).map conversationId).toFinset))
    (hmessages : receipt.removedMessageCount =
      (((call.conversations.getD []).filter
        (conversationId · ∈ conversationFilters)).map messageCount).sum) :
    Forgotten claimFilters conversationFilters projection rebuilt receipt := by
  have hclaims := call.claimsOf_rebuilt
  have hmem : ∀ {claim}, claim ∈ claimsOf rebuilt ↔
      ∃ survivor ∈ call.survivors, relinked call.survivors survivor = claim := by
    intro claim
    rw [hclaims, relink_eq, List.mem_map]
  have hold := conversationsOf_eq call.conversationsHeld
  have hkept := call.conversationsOf_rebuilt
  constructor
  case conversations_kept => exact hkept
  case no_claim =>
    intro claim hclaim
    obtain ⟨survivor, hsurvivor, rfl⟩ := hmem.1 hclaim
    have hselected := of_decide_eq_true (List.mem_filter.1 hsurvivor).2
    rw [Selected, not_or] at hselected
    simpa [relinked] using hselected
  case no_conversation =>
    intro conversation hconversation
    rw [hkept] at hconversation
    exact of_decide_eq_true (List.mem_filter.1 hconversation).2
  case claims_kept =>
    rw [call.claimsOf_projection, hclaims]
    conv =>
      arg 3
      rw [relink_eq]
    rw [List.forall₂_map_right_iff]
    exact List.forall₂_same.2 fun claim _ => kept_relinked call.survivors claim
  case links_live =>
    intro claim hclaim field hfield link hlink
    obtain ⟨survivor, _, rfl⟩ := hmem.1 hclaim
    rw [linksAt_relinked _ _ hfield, mem_liveLinks, mem_map_claimId_relink] at hlink
    rw [hclaims]
    exact hlink.2
  case temporal_state =>
    intro claim hclaim
    obtain ⟨survivor, _, rfl⟩ := hmem.1 hclaim
    rw [linksAt_relinked _ _ (by decide), linksAt_relinked _ _ (by decide)]
    exact temporalState_written _ _ _ _ _
  case valid_to =>
    intro claim hclaim
    obtain ⟨survivor, _, rfl⟩ := hmem.1 hclaim
    refine ⟨_, validTo_written _ _ _ _ _, ?_⟩
    rw [linksAt_relinked _ _ (by decide), hclaims, ← idToTimestamp_relink]
    apply validTo_earliest
    rw [map_claimId_relink]
    exact call.nodup_survivors
  case claim_count =>
    rw [call.get_rebuilt (by decide) (by decide), get_rebuild_claim_count, hclaims]
  case conversation_counts =>
    intro hsome
    have hcount : rebuilt[str "conversation_count"]? = _ :=
      call.get_rebuilt (by decide) (by decide)
    have hsum : rebuilt[str "message_count"]? = _ := call.get_rebuilt (by decide) (by decide)
    have hheld := call.conversationsHeld
    rw [hkept, hold, hcount, hsum]
    cases hconversations : call.conversations with
    | none =>
      rw [hconversations] at hheld
      have hnone : projection[str "conversations"]? = none := hheld
      rw [hnone] at hsome
      cases hsome
    | some conversations => exact (get_rebuild_conversations _ _ _).2
  case removed_claims =>
    intro id
    simp only [hids, sortedLinks, mem_ascending, List.mem_toFinset, List.mem_map,
      List.mem_filter, decide_eq_true_eq, call.claimsOf_projection, and_assoc]
  case removed_count =>
    have hdistinct : ((call.claims.filter
        (Selected claimFilters conversationFilters ·)).map claimId).Nodup := by
      obtain ⟨values, _, hreads⟩ := call.claimsHeld
      exact (List.filter_sublist.map claimId).nodup (reads_unseen.1 hreads).2.2
    have hparts := (filter_parts (Selected claimFilters conversationFilters)
      call.claims).length_eq
    rw [List.length_append] at hparts
    have hsurvivors : (claimsOf rebuilt).length = call.survivors.length := by
      rw [hclaims, relink_eq, List.length_map]
    rw [hids, sortedLinks, length_ascending, List.toFinset_card_of_nodup hdistinct,
      List.length_map, hcount, hsurvivors, call.claimsOf_projection]
    exact ⟨rfl, hparts⟩
  case removed_conversations =>
    intro id
    simp only [hconversations, mem_ascending, Finset.mem_union, List.mem_toFinset, List.mem_map,
      List.mem_filter, decide_eq_true_eq, hold, call.claimsOf_projection]
    constructor
    · rintro (⟨claim, ⟨hclaim, hnot, hin⟩, rfl⟩ | ⟨conversation, ⟨hconversation, hin⟩, rfl⟩)
      · exact ⟨hin, .inr ⟨claim, hclaim, hnot, rfl⟩⟩
      · exact ⟨hin, .inl ⟨conversation, hconversation, rfl⟩⟩
    · rintro ⟨hin, ⟨conversation, hconversation, rfl⟩ | ⟨claim, hclaim, hnot, rfl⟩⟩
      · exact .inr ⟨conversation, ⟨hconversation, hin⟩, rfl⟩
      · exact .inl ⟨claim, ⟨hclaim, hnot, hin⟩, rfl⟩
  case removed_messages =>
    rw [hmessages, hkept, hold, ← List.sum_append, ← List.map_append]
    exact ((filter_parts _ _).map messageCount).sum_nat

/-- `apply_forget` removes what the selectors name once the blanks around them are gone, and
keeps all else in order with the links, states, counts and receipt that follow. -/
theorem forget_exact (projection : Object) (forgetClaimIds forgetConversationIds :
    Option (Finset Str)) (reason : Str) (issuedAt : Option Str) (now : Str) :
    match applyForget projection forgetClaimIds forgetConversationIds reason issuedAt now with
    | .error _ => True
    | .ok (rebuilt, receipt) => Forgotten (strippedSelectors forgetClaimIds)
        (strippedSelectors forgetConversationIds) projection rebuilt receipt := by
  split
  · trivial
  · next rebuilt receipt hcall =>
    obtain ⟨call, hids, hcount, hconversations, hmessages⟩ := applyForget_eq_ok hcall
    exact call.forgotten hids hcount hconversations hmessages

end

/-! ### An id with blanks around it -/

namespace Sample

/-- One float. -/
@[reducible] def unitFloatData : FloatData where
  Float := Unit
  isfinite _ := true
  repr _ := str "0.0"
  ofText _ := ()
  nan := ()
  infinity := ()
  negInfinity := ()
  eq _ _ := true
  eqInt _ n := n = 0

attribute [local instance] unitFloatData

/-- A claim with nothing but what is required. -/
def claim (claimId conversationId : String) : Value := .obj [
  (str "claim_id", .str (str claimId)), (str "claim_type", .str (str "user_assertion")),
  (str "claim_text", .str (str "tea")), (str "temporal_state", .str (str "active")),
  (str "conversation_id", .str (str conversationId)), (str "is_user_assertion", .bool true),
  (str "provenance", .obj []), (str "created_at", .null), (str "supersedes", .arr []),
  (str "superseded_by", .arr []), (str "contradicts", .arr [])]

def projection : Object := objectOf [(str "source_id", .str (str "s")),
  (str "claims", .arr [claim " a " "v"])]

/-- The claim is selected by the very id it has, and stays. -/
theorem blank_id_survives :
    (applyForget projection (some {str " a "}) none [] none []).map
      (fun result => (claimsOf result.1).map claimId) = .ok [str " a "] := by
  decide +kernel

end Sample

end IntegrityGuardian.Forget
