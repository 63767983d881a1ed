import IntegrityGuardian.Forget.Calls

/-!
# Forgetting in several calls

Everything that a call rebuilds is determined by the projection and by all that was
selected so far, except the list of revoked conversations inside the adapter coverage:
the last call that revokes any overwrites it.
-/

namespace IntegrityGuardian.Forget

open Python Library

section
variable [FloatData]

/-! ## The next call -/

theorem get_relinked_field (survivors : List Object) (claim : Object) {field : String}
    (h : field ∈ requiredListFields) :
    ∃ links, (relinked survivors claim)[str field]? = some (textList links) := by
  simp only [requiredListFields, List.mem_cons, List.not_mem_nil, or_false] at h
  simp only [relinked, written, Dict.get_insert]
  obtain rfl | rfl | rfl := h <;> simp only [str_inj, String.reduceEq, ↓reduceIte] <;>
    exact ⟨_, rfl⟩

theorem validClaim_relinked {claim : Object} (h : ValidClaim claim) (survivors : List Object) :
    ValidClaim (relinked survivors claim) := by
  have hget : ∀ {key : String}, key ∉ writtenKeys →
      (relinked survivors claim)[str key]? = claim[str key]? :=
    fun hkey => get_written _ _ _ _ _ hkey
  have hstate : ∀ supersededBy contradicts : List Str,
      temporalState supersededBy contradicts ∈ allowedTemporalStates := by
    intro supersededBy contradicts
    rw [temporalState]
    split_ifs <;> decide
  constructor
  case texts =>
    intro key hkey
    by_cases hwritten : key ∈ writtenKeys
    · have hkeyState : key = "temporal_state" := by
        revert hkey hwritten
        simp only [requiredStringFields, writtenKeys, List.mem_cons, List.not_mem_nil, or_false]
        rintro (rfl | rfl | rfl | rfl | rfl) <;> decide
      subst hkeyState
      exact ⟨_, temporalState_written _ _ _ _ _, fun heq => absurd heq (by decide)⟩
    · rw [hget hwritten]
      exact h.texts key hkey
  case claimType =>
    rw [textAt, hget (by decide)]
    exact h.claimType
  case temporalState =>
    rw [textAt, relinked, temporalState_written]
    exact hstate _ _
  case isUserAssertion =>
    rw [hget (by decide)]
    exact h.isUserAssertion
  case provenance =>
    rw [hget (by decide)]
    exact h.provenance
  case hasCreatedAt =>
    rw [hget (by decide)]
    exact h.hasCreatedAt
  case createdAt =>
    rw [hget (by decide)]
    exact h.createdAt
  case model =>
    rw [hget (by decide)]
    exact h.model
  case contentType =>
    rw [hget (by decide)]
    exact h.contentType
  case links =>
    intro field hfield
    obtain ⟨links, hlinks⟩ := get_relinked_field survivors claim hfield
    exact ⟨_, hlinks, all_isText_map links⟩
  case sensitivityLabels =>
    rw [hget (by decide)]
    exact h.sensitivityLabels
  case scopeLabels =>
    rw [hget (by decide)]
    exact h.scopeLabels

section
variable {projection : Object} {claimFilters conversationFilters last : Finset Str} {digest : Str}

theorem Valid.result (h : Valid projection) :
    Valid (withDigest (result projection claimFilters conversationFilters last) digest) := by
  constructor
  case sourceId =>
    rw [get_withDigest_result _ _ _ _ _ (by decide) (by decide),
      get_rebuild_other _ _ _ (by decide)]
    exact h.sourceId
  case claims =>
    obtain ⟨values, _, hreads⟩ := h.claims
    obtain ⟨_, hvalid, hnodup⟩ := reads_unseen.1 hreads
    refine ⟨_, get_claims_result _ _ _ _ _, ?_⟩
    rw [claimsOf_result]
    refine reads_unseen.2 ⟨map_object?_valueOf _, ?_, ?_⟩
    · intro claim hclaim
      rw [relink_eq] at hclaim
      obtain ⟨survivor, hsurvivor, rfl⟩ := List.mem_map.1 hclaim
      exact validClaim_relinked (hvalid _ (List.mem_of_mem_filter hsurvivor)) _
    · rw [map_claimId_relink]
      exact (List.filter_sublist.map claimId).nodup hnodup
  case conversations =>
    have hget := get_conversations_result projection claimFilters conversationFilters last digest
    have hheld := h.conversations
    rw [conversations?_result]
    cases hconversations : conversations? projection with
    | none =>
      rw [hconversations] at hget
      exact hget
    | some conversations =>
      rw [hconversations] at hget hheld
      obtain ⟨values, _, hreads⟩ := hheld
      obtain ⟨_, hvalid, hnodup⟩ := reads_unseen.1 hreads
      refine ⟨_, hget, reads_unseen.2 ⟨map_object?_valueOf _, ?_, ?_⟩⟩
      · intro conversation hconversation
        exact hvalid _ (List.mem_of_mem_filter hconversation)
      · exact (List.filter_sublist.map conversationId).nodup hnodup

theorem Revocable.result (h : Revocable projection) :
    Revocable (withDigest (result projection claimFilters conversationFilters last) digest) := by
  by_cases hempty : conversationFilters = ∅
  · subst hempty
    refine (revocable_congr ?_ ?_).2 h
    · rw [withDigest, get_insert_ne _ (by decide), Forget.result, if_pos rfl,
        get_rebuild_other _ _ _ (by decide)]
    · rw [withDigest, get_insert_ne _ (by decide), Forget.result, if_pos rfl,
        get_rebuild_other _ _ _ (by decide)]
  · rw [withDigest, result_of_ne _ _ _ hempty]
    constructor
    · intro value hvalue
      rw [get_insert_ne _ (by decide), get_revokedWith] at hvalue
      simp only [str_inj, String.reduceEq, ↓reduceIte, Option.some.injEq] at hvalue
      exact ⟨_, hvalue.symm, all_isText_map _⟩
    · intro encoded hcoverage
      rw [get_insert_ne _ (by decide), get_revokedWith, if_pos rfl,
        get_rebuild_other _ _ _ (by decide)] at hcoverage
      obtain ⟨value, hvalue, hafter⟩ := Option.map_eq_some_iff.1 hcoverage
      cases value with
      | obj members => cases hafter
      | _ =>
        rw [coverageAfter] at hafter
        · rw [hafter] at hvalue
          exact h.coverage encoded hvalue
        · simp

theorem covered_result (claimFilters : Finset Str) (h : Covered projection)
    (hconversations : ∀ id ∈ conversationFilters, id.any CodePoint.isSurrogate = false)
    (hlast : ∀ id ∈ last, id.any CodePoint.isSurrogate = false) :
    Covered (result projection claimFilters conversationFilters last) := by
  have hrebuild : Covered (rebuild projection
      (relink ((claimsOf projection).filter (¬Selected claimFilters conversationFilters ·)))
      ((conversations? projection).map (·.filter (conversationId · ∉ conversationFilters)))) := by
    apply h.rebuild
    · intro claim hclaim
      rw [relink_eq] at hclaim
      obtain ⟨survivor, hsurvivor, rfl⟩ := List.mem_map.1 hclaim
      apply stable_relinked _ hsurvivor
      intro other hother
      exact h.objects (by decide) (List.mem_of_mem_filter hother)
    · intro kept hkept conversation hconversation
      obtain ⟨conversations, hconversations, rfl⟩ := Option.map_eq_some_iff.1 hkept
      obtain ⟨_, _, rfl⟩ := Option.map_eq_some_iff.1 hconversations
      exact h.objects (by decide) (List.mem_of_mem_filter hconversation)
  rw [Forget.result]
  split
  · exact hrebuild
  · apply hrebuild.revokedWith _ hconversations hlast
    intro id hid
    exact any_of_mem_linksAt (fun value hvalue => h.at (by decide) hvalue) hid

end

/-- The projection after calls that selected these in total. -/
def After (projection : Object) (claimFilters conversationFilters last : Finset Str)
    (rebuilt : Object) : Prop :=
  ∃ digest, projectionDigest (result projection claimFilters conversationFilters last) =
      .ok digest ∧
    rebuilt = withDigest (result projection claimFilters conversationFilters last) digest

/-- What a projection that accepts selectors asks of them. -/
structure Accepts (projection : Object) (s : Selectors) : Prop where
  usable : s.Usable
  conversationTexts : ∀ id ∈ s.conversationFilters, id.any CodePoint.isSurrogate = false
  revocable : s.conversationFilters ≠ ∅ → Revocable projection

variable {c last last' v : Finset Str} {members : List (Str × Value)} {requests : List Request}
  {projection rebuilt : Object} {r : Request} {before id : Str}

theorem forget_of_accepts (hvalid : Valid projection)
    (hbefore : canonicalProjectionSha256 projection = .ok before)
    (h : Accepts projection r.toSelectors) : ∃ rebuilt, forget projection r = .ok rebuilt ∧
      After projection r.claimFilters r.conversationFilters r.conversationFilters rebuilt := by
  have hcovered := covered_iff.2 (stable_of_canonical hbefore)
  obtain ⟨digest, hdigest⟩ := exists_projectionDigest.2 (covered_iff.1
    (covered_result r.claimFilters hcovered h.conversationTexts h.conversationTexts))
  exact ⟨_, forget_eq_ok.2 ⟨hvalid, ⟨before, hbefore⟩, h.usable, h.revocable, digest, hdigest, rfl⟩,
    digest, hdigest, rfl⟩

/-- The conversations that the last call to revoke any revoked. -/
def lastRevoked (last : Finset Str) (r : Request) : Finset Str :=
  if r.conversationFilters = ∅ then last else r.conversationFilters

theorem forget_after (hvalid : Valid projection) (hcovered : Covered projection)
    (hv : ∀ id ∈ v, id.any CodePoint.isSurrogate = false)
    (hlast : ∀ id ∈ last, id.any CodePoint.isSurrogate = false)
    (hr : Accepts projection r.toSelectors) (h : After projection c v last rebuilt) :
    ∃ next, forget rebuilt r = .ok next ∧
      After projection (c ∪ r.claimFilters) (v ∪ r.conversationFilters) (lastRevoked last r)
        next := by
  obtain ⟨digest, hdigest, rfl⟩ := h
  have hlast' : ∀ id ∈ lastRevoked last r, id.any CodePoint.isSurrogate = false := by
    rw [lastRevoked]
    split
    · exact hlast
    · exact hr.conversationTexts
  have hboth : ∀ id ∈ v ∪ r.conversationFilters, id.any CodePoint.isSurrogate = false :=
    fun id hid => (Finset.mem_union.1 hid).elim (hv id) (hr.conversationTexts id)
  obtain ⟨digest', hdigest'⟩ := exists_projectionDigest.2 (covered_iff.1
    (covered_result (c ∪ r.claimFilters) hcovered hboth hlast'))
  have hresult := result_result projection c v last r.claimFilters r.conversationFilters digest
  refine ⟨_, forget_eq_ok.2 ⟨hvalid.result, ⟨digest, canonical_insert hdigest⟩, hr.usable,
    fun hne => (hr.revocable hne).result, digest', ?_, rfl⟩, digest', hdigest', ?_⟩
  · rw [hresult, ← hdigest']
    exact projectionDigest_congr (erase_insert _ _ _)
  · rw [hresult]
    exact insert_congr (erase_insert _ _ _) _

/-- The claim ids that several calls select. -/
def claimFiltersOf (requests : List Request) : Finset Str :=
  requests.foldr (fun r selected => r.claimFilters ∪ selected) ∅

/-- The conversation ids that several calls select. -/
def conversationFiltersOf (requests : List Request) : Finset Str :=
  requests.foldr (fun r selected => r.conversationFilters ∪ selected) ∅

theorem forgetAll_after (hvalid : Valid projection) (hcovered : Covered projection)
    (hr : ∀ r ∈ requests, Accepts projection r.toSelectors)
    (hv : ∀ id ∈ v, id.any CodePoint.isSurrogate = false)
    (hlast : ∀ id ∈ last, id.any CodePoint.isSurrogate = false)
    (h : After projection c v last rebuilt) : ∃ final, forgetAll rebuilt requests = .ok final ∧
      After projection (c ∪ claimFiltersOf requests) (v ∪ conversationFiltersOf requests)
        (requests.foldl lastRevoked last) final := by
  induction requests generalizing rebuilt c v last with
  | nil =>
    refine ⟨rebuilt, rfl, ?_⟩
    rw [claimFiltersOf, conversationFiltersOf, List.foldr_nil, List.foldr_nil,
      Finset.union_empty, Finset.union_empty]
    exact h
  | cons r requests ih =>
    rw [List.forall_mem_cons] at hr
    obtain ⟨next, hforget, hnext⟩ := forget_after hvalid hcovered hv hlast hr.1 h
    obtain ⟨final, hfinal, hafter⟩ := ih hr.2 (fun id hid => (Finset.mem_union.1 hid).elim (hv id)
      (hr.1.conversationTexts id)) (by
        intro id hid
        rw [lastRevoked] at hid
        split at hid
        · exact hlast id hid
        · exact hr.1.conversationTexts id hid) hnext
    refine ⟨final, bind_eq_ok.2 ⟨next, hforget, hfinal⟩, ?_⟩
    rw [Finset.union_assoc, Finset.union_assoc] at hafter
    exact hafter

/-! ## Main result -/

/-- Calls with two pairs of selectors, in any order and repeated as one likes, end where one
call with the union of both ends. -/
def Composes (projection : Object) (a b : Selectors) : Prop :=
  ∀ (requests : List Request) (once : Request), once.toSelectors = a.union b →
    (∀ r ∈ requests, r.toSelectors = a ∨ r.toSelectors = b ∨ r.toSelectors = a.union b) →
    ((∃ r ∈ requests, r.toSelectors = a.union b) ∨
      (∃ r ∈ requests, r.toSelectors = a) ∧ ∃ r ∈ requests, r.toSelectors = b) →
    ∃ rebuilt, forgetAll projection requests = .ok rebuilt ∧ forget projection once = .ok rebuilt

/-- The last call that revokes conversations does not matter. -/
def LastIrrelevant (projection : Object) (a b : Selectors) : Prop :=
  (∀ members, projection[str "adapter_coverage"]? ≠ some (.obj members)) ∨
    a.conversationFilters = ∅ ∨ b.conversationFilters = ∅ ∨
    a.conversationFilters = b.conversationFilters

omit [FloatData] in
theorem claimFilters_union (a b : Selectors) :
    (a.union b).claimFilters = a.claimFilters ∪ b.claimFilters := by
  rw [Selectors.claimFilters, Selectors.union, strippedSelectors, Option.getD_some,
    Finset.image_union]
  rfl

omit [FloatData] in
theorem conversationFilters_union (a b : Selectors) :
    (a.union b).conversationFilters = a.conversationFilters ∪ b.conversationFilters := by
  rw [Selectors.conversationFilters, Selectors.union, strippedSelectors, Option.getD_some,
    Finset.image_union]
  rfl

theorem Accepts.union {a b : Selectors} (ha : Accepts projection a)
    (hb : Accepts projection b) : Accepts projection (a.union b) := by
  have hmem : ∀ {s t : Finset Str} {p : Str → Prop}, (∀ id ∈ s, p id) → (∀ id ∈ t, p id) →
      ∀ id ∈ s ∪ t, p id :=
    fun hs ht id hid => (Finset.mem_union.1 hid).elim (hs id) (ht id)
  constructor
  case usable =>
    constructor
    case claimIds =>
      rw [claimFilters_union, Finset.mem_union, not_or]
      exact ⟨ha.usable.claimIds, hb.usable.claimIds⟩
    case conversationIds =>
      rw [conversationFilters_union, Finset.mem_union, not_or]
      exact ⟨ha.usable.conversationIds, hb.usable.conversationIds⟩
    case any =>
      rw [claimFilters_union, conversationFilters_union, Ne, Ne, Finset.union_eq_empty,
        Finset.union_eq_empty]
      have hany := ha.usable.any
      tauto
    case claimTexts =>
      rw [claimFilters_union]
      exact hmem ha.usable.claimTexts hb.usable.claimTexts
  case conversationTexts =>
    rw [conversationFilters_union]
    exact hmem ha.conversationTexts hb.conversationTexts
  case revocable =>
    rw [conversationFilters_union, Ne, Finset.union_eq_empty, not_and_or]
    rintro (h | h)
    · exact ha.revocable h
    · exact hb.revocable h

/-- The results after all was selected differ at most by the list that the last call
overwrites. -/
theorem result_last (projection : Object) (c v : Finset Str)
    (h : (∀ members, projection[str "adapter_coverage"]? ≠ some (.obj members)) ∨ v = ∅ ∨
      last = last') : result projection c v last = result projection c v last' := by
  obtain h | h | h := h
  · by_cases hv : v = ∅
    · rw [result, result, if_pos hv, if_pos hv]
    · rw [result_of_ne _ _ _ hv, result_of_ne _ _ _ hv]
      apply Dict.ext
      intro key
      rw [get_revokedWith, get_revokedWith]
      rw [get_rebuild_other _ _ _ (by decide)]
      have hsame : projection[str "adapter_coverage"]?.map (coverageAfter last) =
          projection[str "adapter_coverage"]?.map (coverageAfter last') := by
        cases hcoverage : projection[str "adapter_coverage"]? with
        | none => rfl
        | some value =>
          cases value with
          | obj members => exact absurd hcoverage (h members)
          | _ => rfl
      rw [hsame]
  · rw [result, result, if_pos h, if_pos h]
  · rw [h]

omit [FloatData] in
theorem mem_claimFiltersOf :
    id ∈ claimFiltersOf requests ↔ ∃ r ∈ requests, id ∈ r.claimFilters := by
  induction requests with
  | nil => simp [claimFiltersOf]
  | cons r requests ih =>
    rw [List.exists_mem_cons_iff, ← ih, ← Finset.mem_union]
    rfl

omit [FloatData] in
theorem mem_conversationFiltersOf :
    id ∈ conversationFiltersOf requests ↔ ∃ r ∈ requests, id ∈ r.conversationFilters := by
  induction requests with
  | nil => simp [conversationFiltersOf]
  | cons r requests ih =>
    rw [List.exists_mem_cons_iff, ← ih, ← Finset.mem_union]
    rfl

omit [FloatData] in
theorem foldl_lastRevoked {all : Finset Str} (hlast : last = ∅ ∨ last = all)
    (h : ∀ r ∈ requests, r.conversationFilters = ∅ ∨ r.conversationFilters = all) :
    requests.foldl lastRevoked last = last ∪ conversationFiltersOf requests := by
  induction requests generalizing last with
  | nil => rw [List.foldl_nil, conversationFiltersOf, List.foldr_nil, Finset.union_empty]
  | cons r requests ih =>
    rw [List.forall_mem_cons] at h
    have hstep : lastRevoked last r = last ∪ r.conversationFilters := by
      rw [lastRevoked]
      obtain hr | hr := h.1
      · rw [hr, if_pos rfl, Finset.union_empty]
      · obtain rfl | rfl := hlast
        · rw [Finset.empty_union]
          split
          · next hempty => rw [hempty]
          · rfl
        · rw [hr, Finset.union_self]
          split
          · rfl
          · rfl
    have hnext : lastRevoked last r = ∅ ∨ lastRevoked last r = all := by
      rw [lastRevoked]
      split
      · exact hlast
      · exact h.1
    rw [List.foldl_cons, ih hnext h.2, hstep, Finset.union_assoc]
    rfl

theorem forgetAll_accepts (hvalid : Valid projection)
    (hbefore : canonicalProjectionSha256 projection = .ok before)
    (hne : requests ≠ []) (hr : ∀ r ∈ requests, Accepts projection r.toSelectors) :
    ∃ final, forgetAll projection requests = .ok final ∧
      After projection (claimFiltersOf requests) (conversationFiltersOf requests)
        (requests.foldl lastRevoked ∅) final := by
  cases requests with
  | nil => exact absurd rfl hne
  | cons r requests =>
    rw [List.forall_mem_cons] at hr
    obtain ⟨next, hforget, hnext⟩ := forget_of_accepts hvalid hbefore hr.1
    obtain ⟨final, hfinal, hafter⟩ := forgetAll_after hvalid
      (covered_iff.2 (stable_of_canonical hbefore)) hr.2 hr.1.conversationTexts
      hr.1.conversationTexts hnext
    have hfirst : lastRevoked ∅ r = r.conversationFilters := by
      rw [lastRevoked]
      split
      · next hempty => rw [hempty]
      · rfl
    refine ⟨final, bind_eq_ok.2 ⟨next, hforget, hfinal⟩, ?_⟩
    rw [List.foldl_cons, hfirst]
    exact hafter

theorem After.unique {rebuilt' : Object}
    (h : After projection c v last rebuilt) (h' : After projection c v last' rebuilt')
    (hsame : result projection c v last = result projection c v last') : rebuilt = rebuilt' := by
  obtain ⟨digest, hdigest, rfl⟩ := h
  obtain ⟨digest', hdigest', rfl⟩ := h'
  rw [hsame] at hdigest ⊢
  rw [Except.ok.inj (hdigest.symm.trans hdigest')]

theorem After.coverage (h : After projection c v last rebuilt) (hv : v ≠ ∅)
    (hcoverage : projection[str "adapter_coverage"]? = some (.obj members)) :
    rebuilt[str "adapter_coverage"]? = some (coverageAfter last (.obj members)) := by
  obtain ⟨digest, _, rfl⟩ := h
  rw [withDigest, get_insert_ne _ (by decide), result_of_ne _ _ _ hv, get_revokedWith, if_pos rfl,
    get_rebuild_other _ _ _ (by decide), hcoverage]
  rfl

theorem coverageAfter_inj
    (h : coverageAfter last (.obj members) = coverageAfter last' (.obj members)) :
    last = last' := by
  have hobjects := congrArg object? h
  rw [coverageAfter, coverageAfter, object?_valueOf, object?_valueOf] at hobjects
  have hlinks := congrArg (linksAt · "revoked_conversation_ids") (Option.some.inj hobjects)
  simp only [linksAt_insert_self] at hlinks
  rw [← toFinset_ascending last, hlinks, toFinset_ascending]

theorem accepts_of_forget (h : forget projection r = .ok rebuilt) :
    Valid projection ∧ (∃ before, canonicalProjectionSha256 projection = .ok before) ∧
      Accepts projection r.toSelectors := by
  obtain ⟨hvalid, hbefore, husable, hrevocable, digest, hdigest, _⟩ := forget_eq_ok.1 h
  exact ⟨hvalid, hbefore, husable, fun id hid => any_of_result_digest hdigest hid, hrevocable⟩

omit [FloatData] in
theorem exists_selects {a b : Selectors} (hrequests : ∀ r ∈ requests,
      r.toSelectors = a ∨ r.toSelectors = b ∨ r.toSelectors = a.union b)
    (hcover : (∃ r ∈ requests, r.toSelectors = a.union b) ∨
      (∃ r ∈ requests, r.toSelectors = a) ∧ ∃ r ∈ requests, r.toSelectors = b)
    {f : Selectors → Finset Str} (hf : f (a.union b) = f a ∪ f b) :
    (∃ r ∈ requests, id ∈ f r.toSelectors) ↔ id ∈ f (a.union b) := by
  rw [hf, Finset.mem_union]
  constructor
  · rintro ⟨r, hr, hid⟩
    obtain h | h | h := hrequests r hr
    · exact .inl (h ▸ hid)
    · exact .inr (h ▸ hid)
    · rw [h, hf, Finset.mem_union] at hid
      exact hid
  · intro hid
    obtain ⟨r, hr, h⟩ | ⟨⟨r, hr, h⟩, r', hr', h'⟩ := hcover
    · refine ⟨r, hr, ?_⟩
      rw [h, hf, Finset.mem_union]
      exact hid
    · obtain hid | hid := hid
      · exact ⟨r, hr, h ▸ hid⟩
      · exact ⟨r', hr', h' ▸ hid⟩

section
variable {projection : Object} {a b : Selectors} (hvalid : Valid projection) {before : Str}
  (hbefore : canonicalProjectionSha256 projection = .ok before) (ha : Accepts projection a)
  (hb : Accepts projection b)

include hvalid hbefore ha hb

theorem forgetAll_covering {requests : List Request}
    (hrequests : ∀ r ∈ requests,
      r.toSelectors = a ∨ r.toSelectors = b ∨ r.toSelectors = a.union b)
    (hcover : (∃ r ∈ requests, r.toSelectors = a.union b) ∨
      (∃ r ∈ requests, r.toSelectors = a) ∧ ∃ r ∈ requests, r.toSelectors = b) :
    conversationFiltersOf requests = (a.union b).conversationFilters ∧
      ∃ final, forgetAll projection requests = .ok final ∧
        After projection (a.union b).claimFilters (a.union b).conversationFilters
          (requests.foldl lastRevoked ∅) final := by
  have hclaims : claimFiltersOf requests = (a.union b).claimFilters := by
    ext id
    rw [mem_claimFiltersOf]
    exact exists_selects hrequests hcover (claimFilters_union a b)
  have hconversations : conversationFiltersOf requests = (a.union b).conversationFilters := by
    ext id
    rw [mem_conversationFiltersOf]
    exact exists_selects hrequests hcover (conversationFilters_union a b)
  have hne : requests ≠ [] := by
    rintro rfl
    simp at hcover
  have hr : ∀ r ∈ requests, Accepts projection r.toSelectors := by
    intro r hr
    obtain h | h | h := hrequests r hr
    · rw [h]
      exact ha
    · rw [h]
      exact hb
    · rw [h]
      exact ha.union hb
  have hall := forgetAll_accepts hvalid hbefore hne hr
  rw [hclaims, hconversations] at hall
  exact ⟨hconversations, hall⟩

theorem composes_of_lastIrrelevant (h : LastIrrelevant projection a b) :
    Composes projection a b := by
  intro requests once honce hrequests hcover
  obtain ⟨hconversations, final, hfinal, hafter⟩ :=
    forgetAll_covering hvalid hbefore ha hb hrequests hcover
  obtain ⟨rebuilt, hrebuilt, honceAfter⟩ := forget_of_accepts hvalid hbefore
    (honce ▸ ha.union hb : Accepts projection once.toSelectors)
  have hsame : result projection (a.union b).claimFilters (a.union b).conversationFilters
      (requests.foldl lastRevoked ∅) = result projection (a.union b).claimFilters
        (a.union b).conversationFilters (a.union b).conversationFilters := by
    apply result_last
    obtain h | h := h
    · exact .inl h
    · right
      right
      have hall : ∀ r ∈ requests, r.conversationFilters = ∅ ∨
          r.conversationFilters = (a.union b).conversationFilters := by
        intro r hr
        rw [conversationFilters_union]
        obtain hselectors | hselectors | hselectors := hrequests r hr
        · rw [hselectors]
          obtain hempty | hempty | heq := h
          · exact .inl hempty
          · exact .inr (by rw [hempty, Finset.union_empty])
          · exact .inr (by rw [← heq, Finset.union_self])
        · rw [hselectors]
          obtain hempty | hempty | heq := h
          · exact .inr (by rw [hempty, Finset.empty_union])
          · exact .inl hempty
          · exact .inr (by rw [heq, Finset.union_self])
        · exact .inr (by rw [hselectors, conversationFilters_union])
      rw [foldl_lastRevoked (.inl rfl) hall, Finset.empty_union, hconversations]
  rw [honce] at honceAfter
  refine ⟨final, hfinal, ?_⟩
  rw [hrebuilt, hafter.unique honceAfter hsame]

theorem lastIrrelevant_of_composes (h : Composes projection a b) :
    LastIrrelevant projection a b := by
  by_contra hnot
  simp only [LastIrrelevant, not_or, not_forall, not_not] at hnot
  obtain ⟨⟨members, hcoverage⟩, hneA, hneB, hne⟩ := hnot
  have hunion : (a.union b).conversationFilters ≠ ∅ := by
    rw [conversationFilters_union, Ne, Finset.union_eq_empty]
    exact fun hempty => hneA hempty.1
  let once : Request := ⟨a.union b, [], none, []⟩
  obtain ⟨rebuilt, hrebuilt, honce⟩ := forget_of_accepts (r := once) hvalid hbefore (ha.union hb)
  -- The second of the two calls leaves its own conversations, the one call leaves all.
  have hlast : ∀ {s t : Selectors}, (s = a ∧ t = b ∨ s = b ∧ t = a) →
      t.conversationFilters = (a.union b).conversationFilters := by
    intro s t hst
    have hrequests : ∀ r ∈ [(⟨s, [], none, []⟩ : Request), ⟨t, [], none, []⟩],
        r.toSelectors = a ∨ r.toSelectors = b ∨ r.toSelectors = a.union b := by
      obtain ⟨rfl, rfl⟩ | ⟨rfl, rfl⟩ := hst <;> simp
    have hcover : (∃ r ∈ [(⟨s, [], none, []⟩ : Request), ⟨t, [], none, []⟩],
          r.toSelectors = a.union b) ∨
        (∃ r ∈ [(⟨s, [], none, []⟩ : Request), ⟨t, [], none, []⟩], r.toSelectors = a) ∧
          ∃ r ∈ [(⟨s, [], none, []⟩ : Request), ⟨t, [], none, []⟩], r.toSelectors = b := by
      obtain ⟨rfl, rfl⟩ | ⟨rfl, rfl⟩ := hst <;> simp
    obtain ⟨_, final, hfinal, hafter⟩ :=
      forgetAll_covering hvalid hbefore ha hb hrequests hcover
    obtain ⟨rebuilt', hall, honly⟩ := h _ once rfl hrequests hcover
    have heq : final = rebuilt := by
      rw [Except.ok.inj (hfinal.symm.trans hall), Except.ok.inj (hrebuilt.symm.trans honly)]
    have hcoverages := (hafter.coverage hunion hcoverage).symm.trans
      (heq ▸ honce.coverage hunion hcoverage)
    have hlists := coverageAfter_inj (Option.some.inj hcoverages)
    have hneT : t.conversationFilters ≠ ∅ := by
      obtain ⟨rfl, rfl⟩ | ⟨rfl, rfl⟩ := hst
      · exact hneB
      · exact hneA
    rw [List.foldl_cons, List.foldl_cons, List.foldl_nil, lastRevoked, if_neg hneT] at hlists
    exact hlists
  exact hne ((hlast (.inr ⟨rfl, rfl⟩)).trans (hlast (.inl ⟨rfl, rfl⟩)).symm)

end

/-- Forgetting composes exactly where the coverage of the adapters does not tell which call
revoked conversations last. -/
theorem forgetting_composes_iff (projection : Object) (a b : Request) :
    match forget projection a, forget projection b with
    | .ok _, .ok _ => Composes projection a.toSelectors b.toSelectors ↔
        LastIrrelevant projection a.toSelectors b.toSelectors
    | _, _ => True := by
  split
  · next hforgetA hforgetB =>
    obtain ⟨hvalid, ⟨before, hbefore⟩, ha⟩ := accepts_of_forget hforgetA
    obtain ⟨_, _, hb⟩ := accepts_of_forget hforgetB
    exact ⟨lastIrrelevant_of_composes hvalid hbefore ha hb,
      composes_of_lastIrrelevant hvalid hbefore ha hb⟩
  · trivial

end

/-! ### Two calls in either order -/

namespace Sample

attribute [local instance] unitFloatData

/-- A projection without claims and with a coverage. -/
def covered : Object := objectOf [(str "source_id", .str (str "s")), (str "claims", .arr []),
  (str "adapter_coverage", .obj [])]

def revoking (id : String) : Request := ⟨⟨none, some {str id}⟩, [], none, []⟩

theorem covered_valid : Valid covered where
  sourceId := ⟨str "s", rfl, by decide⟩
  claims := ⟨[], rfl, reads_nil.2 rfl⟩
  conversations := rfl

theorem covered_canonical : ∃ before, canonicalProjectionSha256 covered = .ok before := by
  have hcovered : Covered covered := by
    intro key value _ hget
    have hmem := mem_of_get_objectOf hget
    simp only [List.mem_cons, List.not_mem_nil, or_false, Prod.mk.injEq] at hmem
    obtain ⟨rfl, rfl⟩ | ⟨rfl, rfl⟩ | ⟨rfl, rfl⟩ := hmem
    · exact ⟨any_isSurrogate_str _, Value.stable_str.2 (any_isSurrogate_str _)⟩
    · exact ⟨any_isSurrogate_str _, Value.stable_arr.2 (by simp)⟩
    · exact ⟨any_isSurrogate_str _, Value.stable_obj.2 (by simp)⟩
  obtain ⟨bytes, hbytes⟩ := Value.stable_iff.1 (covered_iff.1 hcovered)
  have hdigest : covered[str "projection_sha256"]? = none := rfl
  rw [canonicalProjectionSha256, stableDigest_eq_ok.2 ⟨bytes, hbytes, rfl⟩, ok_bind, hdigest]
  exact ⟨_, rfl⟩

theorem covered_accepts {id : String} (h : id = "u" ∨ id = "v") :
    Accepts covered (revoking id).toSelectors := by
  constructor
  case usable => obtain rfl | rfl := h <;> constructor <;> decide
  case conversationTexts => obtain rfl | rfl := h <;> decide
  case revocable =>
    intro _
    constructor
    · exact nofun
    · exact nofun

/-- The coverage tells which of the two calls came last. -/
theorem order_shows : ∃ first second,
    forgetAll covered [revoking "u", revoking "v"] = .ok first ∧
      forgetAll covered [revoking "v", revoking "u"] = .ok second ∧ first ≠ second := by
  obtain ⟨before, hbefore⟩ := covered_canonical
  have hrun : ∀ s t : String, (s = "u" ∨ s = "v") → (t = "u" ∨ t = "v") →
      ∃ final, forgetAll covered [revoking s, revoking t] = .ok final ∧
        After covered (claimFiltersOf [revoking s, revoking t])
          (conversationFiltersOf [revoking s, revoking t])
          ([revoking s, revoking t].foldl lastRevoked ∅) final := by
    intro s t hs ht
    apply forgetAll_accepts covered_valid hbefore (by simp)
    simp only [List.mem_cons, List.not_mem_nil, or_false, forall_eq_or_imp, forall_eq]
    exact ⟨covered_accepts hs, covered_accepts ht⟩
  obtain ⟨first, hfirst, hfirstAfter⟩ := hrun "u" "v" (.inl rfl) (.inr rfl)
  obtain ⟨second, hsecond, hsecondAfter⟩ := hrun "v" "u" (.inr rfl) (.inl rfl)
  refine ⟨first, second, hfirst, hsecond, ?_⟩
  rintro rfl
  have hcoverages := (hfirstAfter.coverage (by decide) rfl).symm.trans
    (hsecondAfter.coverage (by decide) rfl)
  have hlast := coverageAfter_inj (Option.some.inj hcoverages)
  revert hlast
  decide

end Sample

end IntegrityGuardian.Forget
