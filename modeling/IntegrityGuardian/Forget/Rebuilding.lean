import IntegrityGuardian.Forget.Removal
import IntegrityGuardian.Python.StableValues

/-!
# Rebuilding twice

How the steps of `apply_forget` compose: links relinked twice, keys written twice, and a
digest over what was written.
-/

namespace IntegrityGuardian.Forget

open Python Library

section
variable [FloatData]

/-! ## Links after several calls -/

theorem written_written (claim : Object) (s b c s' b' c' : List Str) (v v' : Value) :
    written (written claim s b c v) s' b' c' v' = written claim s' b' c' v' := by
  apply Dict.ext
  intro key
  simp only [written, Dict.get_insert]
  split_ifs <;> rfl

@[simp] theorem claimId_relinked (survivors : List Object) (claim : Object) :
    claimId (relinked survivors claim) = claimId claim := claimId_written _ _ _ _ _

@[simp] theorem conversationId_relinked (survivors : List Object) (claim : Object) :
    conversationId (relinked survivors claim) = conversationId claim :=
  conversationId_written _ _ _ _ _

@[simp] theorem createdAt_relinked (survivors : List Object) (claim : Object) :
    createdAt (relinked survivors claim) = createdAt claim := createdAt_written _ _ _ _ _

theorem map_claimId_relinked (first survivors : List Object) :
    (survivors.map (relinked first)).map claimId = survivors.map claimId := by
  rw [List.map_map]
  exact List.map_congr_left fun claim _ => claimId_relinked first claim

theorem idToTimestamp_map_relinked (first survivors : List Object) :
    idToTimestamp (survivors.map (relinked first)) = idToTimestamp survivors := by
  rw [idToTimestamp, List.filterMap_map, idToTimestamp]
  apply List.filterMap_congr
  intro claim _
  simp

variable {first survivors : List Object} {o : Object} {digest : Str}

theorem liveLinks_relinked (h : ∀ claim ∈ survivors, claim ∈ first)
    (claim : Object) {field : String} (hfield : field ∈ requiredListFields) :
    liveLinks (survivors.map claimId) (relinked first claim) field =
      liveLinks (survivors.map claimId) claim field := by
  apply sortedLinks_congr
  intro link
  rw [linksAt_relinked _ _ hfield, List.mem_filter, mem_liveLinks, List.mem_filter]
  have hids : link ∈ survivors.map claimId → link ∈ first.map claimId := by
    intro hlink
    obtain ⟨other, hother, rfl⟩ := List.mem_map.1 hlink
    exact List.mem_map_of_mem (h other hother)
  simp only [decide_eq_true_eq]
  tauto

theorem relink_map_relinked (h : ∀ claim ∈ survivors, claim ∈ first) :
    relink (survivors.map (relinked first)) = relink survivors := by
  rw [relink_eq, relink_eq, List.map_map]
  apply List.map_congr_left
  intro claim _
  rw [Function.comp_apply, relinked, map_claimId_relinked, idToTimestamp_map_relinked,
    liveLinks_relinked h claim (by decide), liveLinks_relinked h claim (by decide),
    liveLinks_relinked h claim (by decide), relinked, written_written]
  rfl

theorem selected_relinked (claimFilters conversationFilters : Finset Str)
    (survivors : List Object) (claim : Object) :
    Selected claimFilters conversationFilters (relinked survivors claim) ↔
      Selected claimFilters conversationFilters claim := by
  rw [Selected, Selected, claimId_relinked, conversationId_relinked]

theorem filter_relink (claims : List Object) (c v c' v' : Finset Str) :
    relink ((relink (claims.filter (¬Selected c v ·))).filter (¬Selected c' v' ·)) =
      relink (claims.filter (¬Selected (c ∪ c') (v ∪ v') ·)) := by
  have hboth : (claims.filter (¬Selected c v ·)).filter (¬Selected c' v' ·) =
      claims.filter (¬Selected (c ∪ c') (v ∪ v') ·) := by
    rw [List.filter_filter]
    apply List.filter_congr
    intro claim _
    rw [Bool.eq_iff_iff, Bool.and_eq_true, decide_eq_true_eq, decide_eq_true_eq,
      decide_eq_true_eq]
    simp only [Selected, Finset.mem_union]
    tauto
  rw [relink_eq (claims.filter _), List.filter_map, ← hboth, ← relink_map_relinked
    (fun claim hclaim => List.mem_of_mem_filter hclaim)]
  congr 2
  apply List.filter_congr
  intro claim _
  simp only [Function.comp_apply, selected_relinked]

/-! ## Digests -/

theorem erase_insert (o : Object) (key : Str) (value : Value) :
    (o.insert key value).erase key = o.erase key := by
  apply Dict.ext
  intro other
  rw [Dict.get_erase, Dict.get_erase]
  split
  · rfl
  · next hne => rw [Dict.get_insert, if_neg hne]

theorem insert_congr {o' : Object} {key : Str} (h : o.erase key = o'.erase key)
    (value : Value) : o.insert key value = o'.insert key value := by
  apply Dict.ext
  intro other
  rw [Dict.get_insert, Dict.get_insert]
  split
  · rfl
  · next hne =>
    have hget := congrArg (·[other]?) h
    simpa only [Dict.get_erase, if_neg hne] using hget

theorem stable_valueOf : (valueOf o).Stable ↔ ∀ (key : Str) (value : Value), o[key]? = some value →
      key.any CodePoint.isSurrogate = false ∧ value.Stable := by
  rw [valueOf, Value.stable_obj]
  constructor
  · intro h key value hget
    exact h (key, value) (Dict.mem_toList.2 hget)
  · rintro h ⟨key, value⟩ hmem
    exact h key value (Dict.mem_toList.1 hmem)

theorem projectionDigest_congr {o' : Object}
    (h : o.erase (str "projection_sha256") = o'.erase (str "projection_sha256")) :
    projectionDigest o = projectionDigest o' := by
  rw [projectionDigest, h, projectionDigest]

theorem exists_projectionDigest : (∃ digest, projectionDigest o = .ok digest) ↔
    (valueOf (o.erase (str "projection_sha256"))).Stable := by
  rw [Value.stable_iff, projectionDigest]
  constructor
  · rintro ⟨digest, h⟩
    split at h
    · cases h
    · next bytes hbytes => exact ⟨bytes, hbytes⟩
  · rintro ⟨bytes, hbytes⟩
    rw [hbytes]
    exact ⟨_, rfl⟩

theorem stableDigest_eq_ok : stableDigest o = .ok digest ↔
    ∃ bytes, (valueOf o).dumpsBytes = .ok bytes ∧ hex (sha256 bytes) = digest := by
  rw [stableDigest, Value.dumpsBytes]
  cases (valueOf o).dumps with
  | error cause => simp [bind, Except.bind]
  | ok text =>
    simp only [ok_bind]
    cases encodeUtf8 text with
    | none => simp
    | some bytes => simp

theorem stable_of_canonical (h : canonicalProjectionSha256 o = .ok digest) :
    (valueOf (o.erase (str "projection_sha256"))).Stable := by
  rw [canonicalProjectionSha256] at h
  obtain ⟨computed, hcomputed, _⟩ := bind_eq_ok.1 h
  obtain ⟨bytes, hbytes, _⟩ := stableDigest_eq_ok.1 hcomputed
  exact Value.stable_iff.2 ⟨bytes, hbytes⟩

omit [FloatData] in
theorem hex_sha256_ne_nil (bytes : Bytes) : hex (sha256 bytes) ≠ [] := by
  intro h
  have hlength := congrArg List.length h
  rw [length_hex, length_sha256] at hlength
  cases hlength

theorem canonical_insert (h : projectionDigest o = .ok digest) :
    canonicalProjectionSha256 (o.insert (str "projection_sha256") (.str digest)) =
      .ok digest := by
  rw [projectionDigest] at h
  split at h
  · cases h
  · next bytes hbytes =>
    have hdigest : hex (sha256 bytes) = digest := Except.ok.inj h
    have hne : digest ≠ [] := hdigest ▸ hex_sha256_ne_nil bytes
    rw [canonicalProjectionSha256, erase_insert, stableDigest_eq_ok.2 ⟨bytes, hbytes, hdigest⟩,
      ok_bind, get_insert_self]
    exact ensure_bind_eq_ok.2 ⟨hne, ensure_bind_eq_ok.2 ⟨rfl, rfl⟩⟩

/-! ## Revocation -/

/-- The coverage after some call has revoked conversations. -/
def coverageAfter (last : Finset Str) : Value → Value
  | .obj members => valueOf (((objectOf members).insert (str "status")
      (.str (str "post_forget_rebuild_required"))).insert (str "revoked_conversation_ids")
        (textList (ascending last)))
  | value => value

theorem coverageAfter_coverageAfter (last last' : Finset Str) (value : Value) :
    coverageAfter last' (coverageAfter last value) = coverageAfter last' value := by
  cases value with
  | obj members =>
    simp only [coverageAfter, valueOf, objectOf_toList]
    congr 2
    apply Dict.ext
    intro key
    simp only [Dict.get_insert]
    split_ifs <;> rfl
  | _ => rfl

/-- The rebuilt projection with all conversations revoked so far, the last ones apart. -/
def revokedWith (previous : List Str) (all last : Finset Str) (rebuilt : Object) : Object :=
  let duplicates := if rebuilt[str "message_duplicate_candidates"]?.isSome then
      rebuilt.insert (str "message_duplicate_candidates") (.arr []) else rebuilt
  let revoked := (duplicates.insert (str "revoked_conversation_ids")
    (textList (ascending (previous.toFinset ∪ all)))).insert (str "corpus_rebuild_required")
      (.bool true)
  match rebuilt[str "adapter_coverage"]? with
  | none => revoked
  | some coverage => revoked.insert (str "adapter_coverage") (coverageAfter last coverage)

theorem get_overwrite (o : Object) (key other : Str) (value : Value) :
    (if o[key]?.isSome then o.insert key value else o)[other]? =
      if key = other then o[key]?.map fun _ => value else o[other]? := by
  cases h : o[key]? with
  | none =>
    rw [if_neg (by simp)]
    split
    · next heq => rw [← heq, h, Option.map_none]
    · rfl
  | some w =>
    rw [if_pos (by simp), Dict.get_insert, Option.map_some]
    split <;> rfl

section
variable (previous : List Str) (all last : Finset Str) (rebuilt : Object)

theorem get_revokedWith (key : Str) :
    (revokedWith previous all last rebuilt)[key]? =
      if str "adapter_coverage" = key then
        rebuilt[str "adapter_coverage"]?.map (coverageAfter last)
      else if str "corpus_rebuild_required" = key then some (.bool true)
      else if str "revoked_conversation_ids" = key then
        some (textList (ascending (previous.toFinset ∪ all)))
      else if str "message_duplicate_candidates" = key then
        rebuilt[str "message_duplicate_candidates"]?.map fun _ => .arr []
      else rebuilt[key]? := by
  rw [revokedWith]
  split
  · next h =>
    simp only [Dict.get_insert, get_overwrite, h, Option.map_none]
    by_cases hkey : str "adapter_coverage" = key
    · subst hkey
      simp only [str_inj, String.reduceEq, ↓reduceIte, h]
    · rw [if_neg hkey]
  · next coverage h => simp only [Dict.get_insert, get_overwrite, h, Option.map_some]


theorem revokedWith_insert (o : Object) (value : Value) :
    revokedWith previous all last (o.insert (str "projection_sha256") value) =
      (revokedWith previous all last o).insert (str "projection_sha256") value := by
  apply Dict.ext
  intro key
  simp only [Dict.get_insert, get_revokedWith, str_inj, String.reduceEq, ↓reduceIte]
  by_cases hkey : str "projection_sha256" = key
  · subst hkey
    simp only [str_inj, String.reduceEq, ↓reduceIte]
  · simp only [if_neg hkey]

theorem revokedWith_revokedWith {previous' : List Str} (all' last' : Finset Str)
    (h : previous'.toFinset = previous.toFinset ∪ all) :
    revokedWith previous' all' last' (revokedWith previous all last rebuilt) =
      revokedWith previous (all ∪ all') last' rebuilt := by
  apply Dict.ext
  intro key
  have hcoverage : coverageAfter last' ∘ coverageAfter last = coverageAfter last' :=
    funext (coverageAfter_coverageAfter last last')
  simp only [get_revokedWith, str_inj, String.reduceEq, ↓reduceIte, Option.map_map, h,
    Finset.union_assoc, hcoverage]
  split_ifs <;> rfl

end

theorem get_rebuild (projection : Object) (survivors : List Object)
    (conversations : Option (List Object)) (key : Str) :
    (rebuild projection survivors conversations)[key]? =
      if str "claim_count" = key then some (.int survivors.length)
      else if str "claims" = key then some (.arr (survivors.map valueOf))
      else
        match conversations with
        | none => projection[key]?
        | some surviving =>
          if str "message_count" = key then some (.int (surviving.map messageCount).sum)
          else if str "conversation_count" = key then some (.int surviving.length)
          else if str "conversations" = key then some (.arr (surviving.map valueOf))
          else projection[key]? := by
  cases conversations with
  | none =>
    simp only [rebuild, Dict.get_insert]
    split_ifs <;> rfl
  | some surviving =>
    simp only [rebuild, Dict.get_insert]
    split_ifs <;> subst_vars <;> simp_all [str_inj]

section
variable (projection : Object) (survivors survivors' : List Object)

theorem rebuild_rebuild {conversations conversations' : Option (List Object)}
    (h : conversations.isSome = conversations'.isSome) :
    rebuild (rebuild projection survivors conversations) survivors' conversations' =
      rebuild projection survivors' conversations' := by
  apply Dict.ext
  intro key
  simp only [get_rebuild]
  cases conversations <;> cases conversations' <;> simp only [Option.isSome] at h ⊢
  · split_ifs <;> rfl
  · cases h
  · cases h
  · split_ifs <;> rfl

theorem rebuild_revokedWith (previous : List Str) (all last : Finset Str)
    (conversations : Option (List Object)) :
    rebuild (revokedWith previous all last projection) survivors conversations =
      revokedWith previous all last (rebuild projection survivors conversations) := by
  apply Dict.ext
  intro key
  by_cases hkey : key ∈ revokedKeys.map str
  · simp only [revokedKeys, List.map_cons, List.map_nil, List.mem_cons, List.not_mem_nil,
      or_false] at hkey
    obtain rfl | rfl | rfl | rfl := hkey <;> cases conversations <;>
      simp only [get_rebuild, get_revokedWith, str_inj, String.reduceEq, ↓reduceIte]
  · have hother : ∀ o : Object, (revokedWith previous all last o)[key]? = o[key]? := by
      simp only [revokedKeys, List.map_cons, List.map_nil, List.mem_cons, List.not_mem_nil,
        or_false, not_or] at hkey
      intro o
      rw [get_revokedWith, if_neg (Ne.symm hkey.2.2.2), if_neg (Ne.symm hkey.2.2.1),
        if_neg (Ne.symm hkey.2.1), if_neg (Ne.symm hkey.1)]
    simp only [get_rebuild, hother]

theorem rebuild_insert (conversations : Option (List Object)) (value : Value) :
    rebuild (projection.insert (str "projection_sha256") value) survivors conversations =
      (rebuild projection survivors conversations).insert (str "projection_sha256") value := by
  apply Dict.ext
  intro key
  simp only [Dict.get_insert, get_rebuild]
  by_cases hkey : str "projection_sha256" = key
  · subst hkey
    cases conversations <;> simp only [str_inj, String.reduceEq, ↓reduceIte]
  · simp only [if_neg hkey]

end


/-- The texts of `revoked_conversation_ids`, if they are texts. -/
def revocationsOf (projection : Object) : List Str := linksAt projection "revoked_conversation_ids"

/-- What a call that revokes conversations asks of a projection. -/
structure Revocable (projection : Object) : Prop where
  revocations : ∀ value, projection[str "revoked_conversation_ids"]? = some value →
    ∃ items, value = .arr items ∧ items.all isText = true
  coverage : ∀ encoded, projection[str "adapter_coverage"]? ≠ some (.foreign true encoded)

variable {conversationFilters last : Finset Str} {survivors : List Object} {previous : List Str}
  {claim o rebuilt result : Object} {key : String} {value : Value}

theorem previousRevocations_eq_ok : previousRevocations rebuilt = .ok previous ↔
      (∀ value, rebuilt[str "revoked_conversation_ids"]? = some value →
        ∃ items, value = .arr items ∧ items.all isText = true) ∧
      previous = revocationsOf rebuilt := by
  rw [previousRevocations, revocationsOf, linksAt]
  cases h : rebuilt[str "revoked_conversation_ids"]? with
  | none => simp
  | some value =>
    cases value with
    | arr items =>
      rw [ensure_bind_eq_ok, Except.ok.injEq, @eq_comm _ _ previous]
      simp
    | _ => simp

theorem revokeCoverage_eq_ok : revokeCoverage conversationFilters rebuilt = .ok result ↔
      (∀ encoded, rebuilt[str "adapter_coverage"]? ≠ some (.foreign true encoded)) ∧
        result = match rebuilt[str "adapter_coverage"]? with
          | none => rebuilt
          | some coverage => rebuilt.insert (str "adapter_coverage")
              (coverageAfter conversationFilters coverage) := by
  have hsame : ∀ value, rebuilt[str "adapter_coverage"]? = some value →
      rebuilt.insert (str "adapter_coverage") value = rebuilt := by
    intro value h
    apply Dict.ext
    intro key
    rw [Dict.get_insert]
    split
    · next heq => rw [← heq, h]
    · rfl
  rw [revokeCoverage]
  cases h : rebuilt[str "adapter_coverage"]? with
  | none => simp [eq_comm]
  | some value =>
    cases value with
    | obj members => simp [coverageAfter, eq_comm]
    | foreign isDict encoded => cases isDict <;> simp [coverageAfter, hsame _ h, eq_comm]
    | _ => simp [coverageAfter, hsame _ h, eq_comm]

theorem revoke_of_ne (hne : conversationFilters ≠ ∅) :
    revoke conversationFilters rebuilt = .ok result ↔ Revocable rebuilt ∧
      result = revokedWith (revocationsOf rebuilt) conversationFilters conversationFilters
        rebuilt := by
  have hduplicates : ∀ key, str "message_duplicate_candidates" ≠ key →
      (if rebuilt[str "message_duplicate_candidates"]?.isSome then
        rebuilt.insert (str "message_duplicate_candidates") (.arr []) else rebuilt)[key]? =
          rebuilt[key]? := by
    intro key hkey
    rw [get_overwrite, if_neg hkey]
  have hcoverage : ∀ revoked : Value,
      (((if rebuilt[str "message_duplicate_candidates"]?.isSome then
        rebuilt.insert (str "message_duplicate_candidates") (.arr []) else rebuilt).insert
          (str "revoked_conversation_ids") revoked).insert (str "corpus_rebuild_required")
            (.bool true))[str "adapter_coverage"]? = rebuilt[str "adapter_coverage"]? := by
    intro revoked
    rw [get_insert_ne _ (by decide), get_insert_ne _ (by decide), hduplicates _ (by decide)]
  rw [revoke, if_neg hne]
  simp only [bind_eq_ok, previousRevocations_eq_ok, revokeCoverage_eq_ok, hcoverage,
    hduplicates _ (by decide : str "message_duplicate_candidates" ≠
      str "revoked_conversation_ids"), revocationsOf, linksAt]
  constructor
  · rintro ⟨_, ⟨hrevocations, rfl⟩, hdict, rfl⟩
    exact ⟨⟨hrevocations, hdict⟩, rfl⟩
  · rintro ⟨⟨hrevocations, hdict⟩, rfl⟩
    exact ⟨_, ⟨hrevocations, rfl⟩, hdict, rfl⟩

/-! ## Stable parts -/

theorem mem_of_get_objectOf {members : List (Str × Value)} {key : Str}
    (h : (objectOf members)[key]? = some value) : (key, value) ∈ members := by
  induction members using List.reverseRecOn with
  | nil => simp [objectOf] at h
  | append_singleton members member ih =>
    rw [objectOf, Std.ExtTreeMap.ofList_eq_foldl, List.foldl_append, List.foldl_cons,
      List.foldl_nil, Dict.get_insert] at h
    rw [List.mem_append, List.mem_singleton]
    split at h
    · next hkey =>
      right
      rw [← hkey, ← Option.some.inj h]
    · left
      apply ih
      rw [objectOf, Std.ExtTreeMap.ofList_eq_foldl]
      exact h

/-- The encoder accepts every part of the object that its digest covers. -/
def Covered (o : Object) : Prop := ∀ (key : Str) (value : Value),
  str "projection_sha256" ≠ key → o[key]? = some value →
    key.any CodePoint.isSurrogate = false ∧ value.Stable

theorem covered_iff : Covered o ↔ (valueOf (o.erase (str "projection_sha256"))).Stable := by
  rw [stable_valueOf]
  constructor
  · intro h key value hget
    rw [Dict.get_erase] at hget
    split at hget
    · cases hget
    · next hne => exact h key value hne hget
  · intro h key value hne hget
    apply h key value
    rw [Dict.get_erase, if_neg hne, hget]

theorem Covered.at (h : Covered o) (hne : "projection_sha256" ≠ key)
    (hget : o[str key]? = some value) : value.Stable :=
  (h (str key) value (fun heq => hne (str_inj.1 heq)) hget).2

theorem Covered.insert (h : Covered o) (key : String)
    (hvalue : value.Stable) : Covered (o.insert (str key) value) := by
  intro other w hne hget
  rw [Dict.get_insert] at hget
  split at hget
  · next heq =>
    rw [← heq, ← Option.some.inj hget]
    exact ⟨any_isSurrogate_str key, hvalue⟩
  · exact h other w hne hget

theorem stable_textList {xs : List Str} :
    (textList xs).Stable ↔ ∀ s ∈ xs, s.any CodePoint.isSurrogate = false := by
  rw [textList, Value.stable_arr, List.forall_mem_map]
  simp only [Value.stable_str]

theorem stable_objects {objects : List Object} (h : ∀ o ∈ objects, (valueOf o).Stable) :
    Value.Stable (.arr (objects.map valueOf)) := by
  rw [Value.stable_arr, List.forall_mem_map]
  exact h

theorem Covered.objects (h : Covered o)
    (hne : "projection_sha256" ≠ key) {part : Object} (hpart : part ∈ objectsAt o key) :
    (valueOf part).Stable := by
  rw [objectsAt] at hpart
  split at hpart
  · next values hvalues =>
    obtain ⟨value, hvalue, hobject⟩ := List.mem_filterMap.1 hpart
    have hstable := Value.stable_arr.1 (h.at hne hvalues) value hvalue
    cases value with
    | obj members =>
      rw [← Option.some.inj hobject]
      rw [stable_valueOf]
      intro key' value' hget
      exact Value.stable_obj.1 hstable _ (mem_of_get_objectOf hget)
    | _ => cases hobject
  · cases hpart

theorem any_of_mem_linksAt (h : ∀ value, o[str key]? = some value → value.Stable) {link : Str}
    (hlink : link ∈ linksAt o key) : link.any CodePoint.isSurrogate = false := by
  rw [linksAt] at hlink
  split at hlink
  · next items hitems =>
    obtain ⟨item, hitem, htext⟩ := List.mem_filterMap.1 hlink
    have hstable := Value.stable_arr.1 (h _ hitems) item hitem
    cases item with
    | str s =>
      rw [← Option.some.inj htext]
      exact Value.stable_str.1 hstable
    | _ => cases htext
  · cases hlink

theorem stable_insert (h : (valueOf o).Stable) (key : String)
    (hvalue : value.Stable) : (valueOf (o.insert (str key) value)).Stable := by
  rw [stable_valueOf] at h ⊢
  intro other w hget
  rw [Dict.get_insert] at hget
  split at hget
  · next heq =>
    rw [← heq, ← Option.some.inj hget]
    exact ⟨any_isSurrogate_str key, hvalue⟩
  · exact h other w hget

theorem stable_liveLinks (survivorIds : List Str) (h : (valueOf claim).Stable)
    (field : String) : (textList (liveLinks survivorIds claim field)).Stable := by
  rw [stable_textList]
  intro link hlink
  apply any_of_mem_linksAt (fun value hvalue => (stable_valueOf.1 h _ value hvalue).2)
  exact (mem_liveLinks.1 hlink).1

theorem stable_earliest (h : ∀ claim ∈ survivors, (valueOf claim).Stable)
    (supersededBy : List Str) : (earliest (idToTimestamp survivors) supersededBy).Stable := by
  rw [earliest]
  split
  · exact Value.stable_null
  · next timestamp hmin =>
    have hmem := List.min?_mem hmin
    obtain ⟨link, _, hlookup⟩ := List.mem_filterMap.1 hmem
    obtain ⟨before, after, hsplit, _⟩ := List.lookup_eq_some_iff.1 hlookup
    have hpair : (link, timestamp) ∈ idToTimestamp survivors := by
      rw [hsplit]
      exact List.mem_append_right _ List.mem_cons_self
    obtain ⟨claim, hclaim, htime⟩ := List.mem_filterMap.1 hpair
    obtain ⟨time, hcreated, heq⟩ := Option.map_eq_some_iff.1 htime
    obtain ⟨value, hvalue, htext⟩ := Option.bind_eq_some_iff.1 hcreated
    have hstable := (stable_valueOf.1 (h claim hclaim) _ _ hvalue).2
    cases value with
    | str s =>
      rw [← (Prod.mk.inj heq).2, ← Option.some.inj htext]
      exact hstable
    | _ => cases htext

theorem stable_relinked (h : ∀ claim ∈ survivors, (valueOf claim).Stable)
    (hclaim : claim ∈ survivors) : (valueOf (relinked survivors claim)).Stable := by
  have hstate : ∀ supersededBy contradicts : List Str,
      Value.Stable (.str (temporalState supersededBy contradicts)) := by
    intro supersededBy contradicts
    rw [temporalState]
    split_ifs <;> exact Value.stable_str.2 (any_isSurrogate_str _)
  have hlinks := stable_liveLinks (survivors.map claimId) (h claim hclaim)
  exact stable_insert (stable_insert (stable_insert (stable_insert (stable_insert (h claim hclaim)
    _ (hlinks _)) _ (hlinks _)) _ (hlinks _)) _ (stable_earliest h _)) _ (hstate _ _)

theorem Covered.rebuild (h : Covered o) (hsurvivors : ∀ claim ∈ survivors, (valueOf claim).Stable)
    {conversations : Option (List Object)} (hconversations : ∀ kept, conversations = some kept →
      ∀ conversation ∈ kept, (valueOf conversation).Stable) :
    Covered (rebuild o survivors conversations) := by
  have hclaims := (h.insert "claims" (stable_objects hsurvivors)).insert "claim_count"
    (Value.stable_int survivors.length)
  cases conversations with
  | none => exact hclaims
  | some kept =>
    exact ((hclaims.insert "conversations" (stable_objects (hconversations kept rfl))).insert
      "conversation_count" (Value.stable_int kept.length)).insert "message_count"
        (Value.stable_int _)

theorem stable_coverageAfter (hlast : ∀ id ∈ last, id.any CodePoint.isSurrogate = false)
    (h : value.Stable) : (coverageAfter last value).Stable := by
  cases value with
  | obj members =>
    have hcoverage : (valueOf (objectOf members)).Stable := by
      rw [stable_valueOf]
      intro key value hget
      exact Value.stable_obj.1 h _ (mem_of_get_objectOf hget)
    exact stable_insert (stable_insert hcoverage _ (Value.stable_str.2 (any_isSurrogate_str _))) _
      (stable_textList.2 fun id hid => hlast id (mem_ascending.1 hid))
  | _ => exact h

theorem Covered.revokedWith (h : Covered o)
    (hprevious : ∀ id ∈ previous, id.any CodePoint.isSurrogate = false) {all : Finset Str}
    (hall : ∀ id ∈ all, id.any CodePoint.isSurrogate = false)
    (hlast : ∀ id ∈ last, id.any CodePoint.isSurrogate = false) :
    Covered (revokedWith previous all last o) := by
  have htexts : (textList (ascending (previous.toFinset ∪ all))).Stable := by
    rw [stable_textList]
    intro id hid
    rw [mem_ascending, Finset.mem_union, List.mem_toFinset] at hid
    exact hid.elim (hprevious id) (hall id)
  have hduplicates : Covered (if o[str "message_duplicate_candidates"]?.isSome then
      o.insert (str "message_duplicate_candidates") (.arr []) else o) := by
    split
    · exact h.insert _ (Value.stable_arr.2 nofun)
    · exact h
  have hrevoked := (hduplicates.insert "revoked_conversation_ids" htexts).insert
    "corpus_rebuild_required" (Value.stable_bool true)
  rw [Forget.revokedWith]
  split
  · exact hrevoked
  · next coverage hcoverage =>
    exact hrevoked.insert _ (stable_coverageAfter hlast (h.at (by decide) hcoverage))

end

end IntegrityGuardian.Forget
