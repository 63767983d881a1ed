import IntegrityGuardian.ActionLog.Idempotence
import IntegrityGuardian.ActionLog.Pairs
import Mathlib.Data.List.Infix
import Mathlib.Data.List.SplitBy

/-!
# Stored events do not depend on secrets

Two raw events that differ in one secret, the value of a sensitive pair of a text
or the value under a sensitive key of the details, are normalised to one event.
-/

namespace IntegrityGuardian.ActionLog

open Python Library
open Json (ch)

section
variable [FloatData] [WordData]

/-! ## Details -/

theorem redactValue_of_sensitive {key : Str} (h : isSensitiveKey key = true) (v : Value) :
    redactValue key v = .str placeholder := by
  cases v <;> (unfold redactValue; rw [if_pos h, placeholder])

theorem redactMembers_append (ms ns : List (Str × Value)) :
    redactMembers (ms ++ ns) = redactMembers ms ++ redactMembers ns := by
  induction ms with
  | nil => rfl
  | cons m ms ih =>
    obtain ⟨key, v⟩ := m
    rw [List.cons_append, redactMembers, redactMembers, ih, List.cons_append]

theorem redactItems_append (key : Str) (vs ws : List Value) :
    redactItems key (vs ++ ws) = redactItems key vs ++ redactItems key ws := by
  induction vs with
  | nil => rfl
  | cons v vs ih => rw [List.cons_append, redactItems, redactItems, ih, List.cons_append]

/-- The second value is the first with one secret replaced, at any depth. -/
inductive ValueReplaced : Value → Value → Prop
  | secret (pre post : List (Str × Value)) {key : Str} (v w : Value)
      (h : isSensitiveKey key = true) :
      ValueReplaced (.obj (pre ++ (key, v) :: post)) (.obj (pre ++ (key, w) :: post))
  | member (pre post : List (Str × Value)) (key : Str) {v w : Value} (h : ValueReplaced v w) :
      ValueReplaced (.obj (pre ++ (key, v) :: post)) (.obj (pre ++ (key, w) :: post))
  | item (pre post : List Value) {v w : Value} (h : ValueReplaced v w) :
      ValueReplaced (.arr (pre ++ v :: post)) (.arr (pre ++ w :: post))
  | text {old new s s' : Str} (h : Replaced old new false s s') :
      ValueReplaced (.str s) (.str s')

theorem ValueReplaced.redactValue_eq {v w : Value} (h : ValueReplaced v w) (key : Str) :
    redactValue key v = redactValue key w := by
  by_cases hkey : isSensitiveKey key = true
  · rw [redactValue_of_sensitive hkey, redactValue_of_sensitive hkey]
  · induction h generalizing key with
    | secret pre post v w h =>
      unfold redactValue
      rw [if_neg hkey, if_neg hkey, redactMembers_append, redactMembers_append, redactMembers,
        redactMembers, redactValue_of_sensitive h, redactValue_of_sensitive h]
    | @member pre post name v w h ih =>
      have hname : redactValue name v = redactValue name w := by
        by_cases hname : isSensitiveKey name = true
        · rw [redactValue_of_sensitive hname, redactValue_of_sensitive hname]
        · exact ih name hname
      unfold redactValue
      rw [if_neg hkey, if_neg hkey, redactMembers_append, redactMembers_append, redactMembers,
        redactMembers, hname]
    | item pre post h ih =>
      unfold redactValue
      rw [if_neg hkey, if_neg hkey, redactItems_append, redactItems_append, redactItems,
        redactItems, ih key hkey]
    | text h =>
      unfold redactValue
      rw [if_neg hkey, if_neg hkey, h.redactText_eq]

mutual
theorem redactValue_redactValue (key : Str) :
    ∀ v : Value, redactValue key (redactValue key v) = redactValue key v := by
  intro v
  by_cases hkey : isSensitiveKey key = true
  · rw [redactValue_of_sensitive hkey, redactValue_of_sensitive hkey]
  · cases v with
    | arr items =>
      simp only [redactValue, if_neg hkey]
      rw [redactItems_redactItems]
    | obj members =>
      simp only [redactValue, if_neg hkey]
      rw [redactMembers_redactMembers]
    | str s =>
      simp only [redactValue, if_neg hkey]
      rw [redactText_redactText]
    | _ => simp only [redactValue, if_neg hkey]

theorem redactItems_redactItems (key : Str) :
    ∀ vs : List Value, redactItems key (redactItems key vs) = redactItems key vs
  | [] => rfl
  | v :: vs => by
    simp only [redactItems]
    rw [redactValue_redactValue key v, redactItems_redactItems key vs]

theorem redactMembers_redactMembers :
    ∀ ms : List (Str × Value), redactMembers (redactMembers ms) = redactMembers ms
  | [] => rfl
  | (key, v) :: ms => by
    simp only [redactMembers]
    rw [redactValue_redactValue key v, redactMembers_redactMembers ms]
end

/-- One secret of the details is replaced.  A text that `json.loads` reads is what it reads. -/
inductive DetailsReplaced : Value → Value → Prop
  | given {v w : Value} (hv : ∀ s, v ≠ .str s) (h : ValueReplaced v w) : DetailsReplaced v w
  | loaded {s s' : Str} {v w : Value} (hs : Value.loads s.strip = .ok v)
      (hs' : Value.loads s'.strip = .ok w) (h : ValueReplaced v w) :
      DetailsReplaced (.str s) (.str s')
  | text {old new s s' : Str} (hs : ∀ v, Value.loads s.strip ≠ .ok v)
      (hs' : ∀ v, Value.loads s'.strip ≠ .ok v) (h : Replaced old new false s.strip s'.strip) :
      DetailsReplaced (.str s) (.str s')

theorem DetailsReplaced.normalizeDetails_eq {v w : Value} (h : DetailsReplaced v w) :
    normalizeDetails (some v) = normalizeDetails (some w) := by
  cases h with
  | given hv h =>
    have hredacted := h.redactValue_eq []
    cases h with
    | secret | member | item => exact hredacted
    | text => exact absurd rfl (hv _)
  | @loaded s s' v w hs hs' h =>
    have hread : ∀ {s : Str} {v : Value}, Value.loads s.strip = .ok v →
        normalizeDetails (some (.str s)) = redactValue [] v := by
      intro s v hs
      have hne : s.strip ≠ [] := by
        intro hnil
        rw [hnil] at hs
        cases hs
      simp only [normalizeDetails, if_neg hne, hs]
    rw [hread hs, hread hs', h.redactValue_eq]
  | @text old new s s' hs hs' h =>
    have hread : ∀ {s : Str}, (∀ v, Value.loads s.strip ≠ .ok v) → s.strip ≠ [] →
        normalizeDetails (some (.str s)) = .obj [(str "text", .str (redactText s.strip))] := by
      intro s hs hne
      simp only [normalizeDetails, if_neg hne]
      cases hloads : Value.loads s.strip with
      | ok v => exact absurd hloads (hs v)
      | error e => rfl
    rw [hread hs h.ne_nil, hread hs' h.symm.ne_nil, h.redactText_eq]

/-! ## Tags -/

section
omit [FloatData]

/-- One round of the loop of `normalize_tags`. -/
def addTag (result : List Str) (item : Str) : List Str :=
  if item.strip ≠ [] ∧ item.strip ∉ result then result ++ [redactText item.strip] else result

theorem collectTags_eq (items : List Str) : collectTags items = items.foldl addTag [] := rfl

theorem redactText_of_mem_collectTags (items : List Str) :
    ∀ tag ∈ collectTags items, redactText tag = tag := by
  have hloop : ∀ (items result : List Str), (∀ tag ∈ result, redactText tag = tag) →
      ∀ tag ∈ items.foldl addTag result, redactText tag = tag := by
    intro items
    induction items with
    | nil => exact fun result h => h
    | cons item items ih =>
      intro result h
      apply ih
      unfold addTag
      split_ifs
      · intro tag htag
        rcases List.mem_append.1 htag with htag | htag
        · exact h tag htag
        · rw [List.mem_singleton.1 htag, redactText_redactText]
      · exact h
  rw [collectTags_eq]
  exact hloop items [] (fun _ h => absurd h List.not_mem_nil)

theorem addTag_of_ne {pre : List Str} {item : Str} (hne : item.strip ≠ [])
    (hraw : redactText item.strip ≠ item.strip) :
    addTag (collectTags pre) item = collectTags pre ++ [redactText item.strip] := by
  unfold addTag
  rw [if_pos]
  exact ⟨hne, fun hmem => hraw (redactText_of_mem_collectTags pre _ hmem)⟩

theorem collectTags_replaced {old new t t' : Str} (pre post : List Str)
    (h : Replaced old new false t.strip t'.strip) (hold : old ≠ placeholder)
    (hnew : new ≠ placeholder) :
    collectTags (pre ++ t :: post) = collectTags (pre ++ t' :: post) := by
  have hraw : redactText t.strip ≠ t.strip := by
    rw [redactText_eq]
    exact h.redacted_ne hold
  have hraw' : redactText t'.strip ≠ t'.strip := by
    rw [redactText_eq]
    exact h.symm.redacted_ne hnew
  rw [collectTags_eq, collectTags_eq, List.foldl_append, List.foldl_append, List.foldl_cons,
    List.foldl_cons, ← collectTags_eq, addTag_of_ne h.ne_nil hraw,
    addTag_of_ne h.symm.ne_nil hraw', h.redactText_eq]

omit [WordData] in
theorem splitTags_append {a t b : Str} (ha : ∀ c ∈ a.getLast?, inside c = false)
    (ht : IsRun t) (hb : Ends b) :
    splitTags (a ++ (t ++ b)) = splitTags a ++ t :: splitTags b := by
  have hinside : ∀ c : CodePoint, (c == ch ',' || c == ch ';' || c.isspace) = !inside c := by
    intro c
    unfold inside
    rw [Bool.not_not, Bool.or_comm, Bool.or_assoc]
  obtain ⟨hne, hall⟩ := ht
  unfold splitTags
  simp only [hinside]
  have hhead : ∀ c ∈ (t ++ b).head?, inside c = true := IsRun.head ⟨hne, hall⟩ b
  rw [List.splitBy_append, List.splitBy_append, List.splitBy_of_isChain hne]
  · rw [List.filter_append, List.filter_append, List.filter_cons, if_pos]
    · rfl
    · rw [Bool.not_eq_true', List.any_eq_false]
      intro c hc
      rw [hall c hc]
      decide
  · -- within the tag no two neighbours are of different kinds
    rw [List.isChain_iff_getElem]
    intro i hi
    rw [hall _ (List.getElem_mem _), hall _ (List.getElem_mem _)]
    rfl
  · intro x hx y hy
    rw [hall x (List.mem_of_getLast? hx), hb y hy]
    rfl
  · intro x hx y hy
    rw [ha x hx, hhead y hy]
    rfl

end

/-- One secret of the tags is replaced: in an item of a list, or within one of the parts a text
is split into.  Neither value is the placeholder. -/
inductive TagsReplaced : Value → Value → Prop
  | item {old new t t' : Str} (pre post : List Value)
      (h : Replaced old new false t.strip t'.strip) (hold : old ≠ placeholder)
      (hnew : new ≠ placeholder) :
      TagsReplaced (.arr (pre ++ .str t :: post)) (.arr (pre ++ .str t' :: post))
  | part {old new t t' : Str} (a b : Str) (ha : ∀ c ∈ a.getLast?, inside c = false)
      (ht : ∀ c ∈ t, inside c = true) (hb : Ends b) (h : Replaced old new false t t')
      (hold : old ≠ placeholder) (hnew : new ≠ placeholder) :
      TagsReplaced (.str (a ++ (t ++ b))) (.str (a ++ (t' ++ b)))

omit [FloatData] [WordData] in
theorem strip_of_isRun {t : Str} (ht : IsRun t) : t.strip = t := by
  have hkeep : ∀ {s : Str}, (∀ c ∈ s, inside c = true) → s.dropWhile CodePoint.isspace = s := by
    intro s hs
    cases s with
    | nil => rfl
    | cons c s =>
      rw [List.dropWhile_cons_of_neg]
      rw [not_isspace_of_inside (hs c List.mem_cons_self)]
      exact Bool.false_ne_true
  unfold Str.strip
  rw [hkeep ht.2, hkeep (fun c hc => ht.2 c (List.mem_reverse.1 hc)), List.reverse_reverse]

theorem TagsReplaced.normalizeTags_eq {v w : Value} [UnicodeData] (h : TagsReplaced v w) :
    normalizeTags (some v) = normalizeTags (some w) := by
  cases h with
  | item pre post h hold hnew =>
    simp only [normalizeTags, List.map_append, List.map_cons]
    exact collectTags_replaced _ _ h hold hnew
  | @part old new t t' a b ha ht hb h hold hnew =>
    have hrun : IsRun t := ⟨h.ne_nil, ht⟩
    have hrun' : IsRun t' := ⟨h.symm.ne_nil, h.forall_inside ht⟩
    simp only [normalizeTags]
    rw [splitTags_append ha hrun hb, splitTags_append ha hrun' hb]
    apply @collectTags_replaced _ old new _ _ _ _ _ hold hnew
    rw [strip_of_isRun hrun, strip_of_isRun hrun']
    exact h

/-! ## Identities -/

/-- The prefix that makes an identity one of a recovered fact. -/
def recoveryPrefix : Str := str "client:recovery-v1-"

/-- The items fail within this text, whatever follows it. -/
def fails : List Item → Str → Bool
  | .letter l :: items, c :: s => !matchesLetter l c || fails items s
  | .dash :: items, c :: s =>
    if c = ch '_' ∨ c = ch '-' then fails items s else fails items (c :: s)
  | _, _ => false

omit [FloatData] [WordData] in
theorem matchItems_of_fails : ∀ {items : List Item} {s : Str}, fails items s = true →
    ∀ rest, matchItems items (s ++ rest) = none
  | .letter l :: items, c :: s, h, rest => by
    rw [fails, Bool.or_eq_true, Bool.not_eq_true'] at h
    rw [List.cons_append, matchItems]
    cases hl : matchesLetter l c with
    | false => rfl
    | true =>
      rw [if_pos rfl, matchItems_of_fails (h.resolve_left (by simp [hl])) rest]
      rfl
  | .dash :: items, c :: s, h, rest => by
    rw [fails] at h
    rw [List.cons_append, matchItems]
    split_ifs at h ⊢ with hdash
    · rw [matchItems_of_fails h rest]
      rfl
    · exact matchItems_of_fails h rest
  | [], _, h, _ => by cases h
  | .letter _ :: _, [], h, _ => by cases h
  | .dash :: _, [], h, _ => by cases h

omit [FloatData] [WordData] in
theorem matchPair_recoveryPrefix : ∀ t ∈ recoveryPrefix.tails, t ≠ [] →
    ∀ rest, matchPair (t ++ rest) = none := by
  have hfails : (recoveryPrefix.tails.all fun t => t = [] ∨
      sensitiveWords.all fun word => fails word t) = true := by decide
  intro t ht hne rest
  have hall := (of_decide_eq_true (List.all_eq_true.1 hfails t ht)).resolve_left hne
  rw [matchPair_eq, List.findSome?_eq_none_iff]
  intro word hword
  unfold matchWord
  rw [matchItems_of_fails (List.all_eq_true.1 hall word hword) rest]
  rfl

variable {new old : Str}

omit [FloatData] in
theorem Replaced.keeps_front : ∀ {front : Str} {before : Bool} {rest s' : Str},
    (∀ t ∈ front.tails, t ≠ [] → ∀ rest, matchPair (t ++ rest) = none) →
    Replaced old new before (front ++ rest) s' →
    ∃ before' rest', s' = front ++ rest' ∧ Replaced old new before' rest rest'
  | [], before, _, s', _, h => ⟨before, s', rfl, h⟩
  | c :: front, before, rest, s', hnone, h => by
    have hhere : pairAt before (c :: (front ++ rest)) = none := by
      rw [pairAt_cons]
      split_ifs
      · exact hnone (c :: front) ((List.mem_tails _ _).2 (List.suffix_refl _))
          (List.cons_ne_nil _ _) rest
      · rfl
    cases h with
    | here h | later h =>
      rw [List.cons_append, hhere] at h
      cases h
    | skip _ hs =>
      have hfront : ∀ t ∈ front.tails, t ≠ [] → ∀ rest, matchPair (t ++ rest) = none := by
        intro t ht
        apply hnone t
        exact (List.mem_tails _ _).2 (((List.mem_tails _ _).1 ht).trans (List.suffix_cons c front))
      obtain ⟨before', rest', hs', hreplaced⟩ := Replaced.keeps_front hfront hs
      exact ⟨before', rest', by rw [hs']; rfl, hreplaced⟩

omit [FloatData] in
theorem Replaced.recoveryPrefix_imp {s s' : Str} (h : Replaced old new false s s')
    (hs : recoveryPrefix.isPrefixOf s = true) : recoveryPrefix.isPrefixOf s' = true := by
  obtain ⟨rest, rfl⟩ := List.isPrefixOf_iff_prefix.1 hs
  obtain ⟨_, rest', rfl, _⟩ := h.keeps_front matchPair_recoveryPrefix
  exact List.isPrefixOf_iff_prefix.2 (List.prefix_append _ _)

omit [FloatData] in
theorem not_replaced_recovery {s' digest : Str} (hdigest : ∀ c ∈ digest, c.isLowerHex = true) :
    ¬Replaced old new false (recoveryPrefix ++ digest) s' := by
  intro h
  obtain ⟨_, rest', -, hrest⟩ := h.keeps_front matchPair_recoveryPrefix
  obtain ⟨q, x, a, v, v', hx, -, -, -⟩ := hrest.differs
  have hhex := hdigest x (by simp)
  rcases hx with rfl | rfl
  · exact absurd hhex (by decide)
  · exact absurd hhex (by decide)

omit [WordData] in
theorem recoveryDigest_isLowerHex {v : Value} {digest : Str} (h : recoveryDigest v = .ok digest) :
    ∀ c ∈ digest, c.isLowerHex = true := by
  unfold recoveryDigest at h
  split at h
  · cases h
    exact fun c hc => isLowerHex_of_mem_hex hc
  · cases h

omit [WordData] in
theorem checkAnnotation_uid {uid factKey : Str} {recovery : Value}
    (h : checkAnnotation uid recovery = .ok factKey) :
    ∃ digest, uid = recoveryPrefix ++ digest ∧ ∀ c ∈ digest, c.isLowerHex = true := by
  unfold checkAnnotation at h
  obtain ⟨_, _, h⟩ := bind_eq_ok.1 h
  obtain ⟨_, _, h⟩ := bind_eq_ok.1 h
  simp only at h
  split at h
  · obtain ⟨_, _, h⟩ := bind_eq_ok.1 h
    split at h
    · obtain ⟨_, _, h⟩ := bind_eq_ok.1 h
      obtain ⟨_, _, h⟩ := bind_eq_ok.1 h
      split at h
      · obtain ⟨_, _, h⟩ := bind_eq_ok.1 h
        obtain ⟨_, _, h⟩ := bind_eq_ok.1 h
        obtain ⟨_, _, h⟩ := bind_eq_ok.1 h
        obtain ⟨_, _, h⟩ := bind_eq_ok.1 h
        obtain ⟨digest, hdigest, h⟩ := bind_eq_ok.1 h
        obtain ⟨_, huid, -⟩ := bind_eq_ok.1 h
        exact ⟨digest, ensure_eq_ok.1 huid, recoveryDigest_isLowerHex hdigest⟩
      · obtain ⟨_, hrefused, _⟩ := bind_eq_ok.1 h
        cases hrefused
    · obtain ⟨_, hrefused, _⟩ := bind_eq_ok.1 h
      cases hrefused
  · obtain ⟨_, hrefused, _⟩ := bind_eq_ok.1 h
    cases hrefused

theorem Replaced.validateRecovery_imp {uid uid' : Str} {details : Value}
    (h : Replaced old new false uid uid') (haccept : validateRecovery uid details = .ok ()) :
    validateRecovery uid' details = .ok () := by
  have hkept : ¬recoveryPrefix.isPrefixOf uid = true → ¬recoveryPrefix.isPrefixOf uid' = true :=
    fun hfree hbad => hfree (h.symm.recoveryPrefix_imp hbad)
  unfold validateRecovery at haccept ⊢
  split at haccept
  · split at haccept
    · exact ensure_eq_ok.2 (hkept (ensure_eq_ok.1 haccept))
    · obtain ⟨factKey, hannotation, -⟩ := bind_eq_ok.1 haccept
      obtain ⟨digest, rfl, hhex⟩ := checkAnnotation_uid hannotation
      exact absurd h (not_replaced_recovery hhex)
  · exact ensure_eq_ok.2 (hkept (ensure_eq_ok.1 haccept))

/-! ## Events -/

/-- The texts that `normalize_event` redacts. -/
def redactedKeys : List String := ["actor", "session_id", "action", "summary", "event_uid"]

/-- The second raw event is the first with one secret replaced. -/
inductive SecretReplaced : Value → Value → Prop
  | text (pre post : List (Str × Value)) {key : String} {old new s s' : Str}
      (hkey : key ∈ redactedKeys) (h : Replaced old new false s s') :
      SecretReplaced (.obj (pre ++ (str key, .str s) :: post))
        (.obj (pre ++ (str key, .str s') :: post))
  | details (pre post : List (Str × Value)) {v w : Value} (h : DetailsReplaced v w) :
      SecretReplaced (.obj (pre ++ (str "details", v) :: post))
        (.obj (pre ++ (str "details", w) :: post))
  | tags (pre post : List (Str × Value)) {v w : Value} (h : TagsReplaced v w) :
      SecretReplaced (.obj (pre ++ (str "tags", v) :: post))
        (.obj (pre ++ (str "tags", w) :: post))

omit [WordData] in
theorem get?_other (pre post : List (Str × Value)) {key other : Str} (v w : Value)
    (h : other ≠ key) : (Value.obj (pre ++ (key, v) :: post)).get? other =
      (Value.obj (pre ++ (key, w) :: post)).get? other := by
  have hne : (other == key) = false := beq_eq_false_iff_ne.2 h
  simp only [Value.get?, List.lookup_append, List.lookup_cons, hne]

omit [WordData] in
theorem get?_edited (pre post : List (Str × Value)) (key : Str) (v w : Value) :
    ((Value.obj (pre ++ (key, v) :: post)).get? key = some v ∧
      (Value.obj (pre ++ (key, w) :: post)).get? key = some w) ∨
      (Value.obj (pre ++ (key, v) :: post)).get? key =
        (Value.obj (pre ++ (key, w) :: post)).get? key ∧
      ((Value.obj (pre ++ (key, v) :: post)).get? key).isSome = true := by
  simp only [Value.get?, List.lookup_append, List.lookup_cons, beq_self_eq_true]
  cases pre.lookup key with
  | none => exact .inl ⟨rfl, rfl⟩
  | some u => exact .inr ⟨rfl, rfl⟩

/-- What `normalize_event` makes of two raw events with one outcome. -/
structure Alike [UnicodeData] (raw raw' : Value) : Prop where
  keys : ∀ key, (raw.get? key).isNone = (raw'.get? key).isNone
  fixed : ∀ key ∈ ["ts_utc", "level"], raw.get? (str key) = raw'.get? (str key)
  texts : ∀ key ∈ redactedKeys, ∀ default,
    redactText (textOr raw key default) = redactText (textOr raw' key default)
  uid : rawUid raw = rawUid raw' ∨ ∃ old new, Replaced old new false (rawUid raw) (rawUid raw')
  details : detailsOf raw = detailsOf raw'
  tags : normalizeTags (raw.get? (str "tags")) = normalizeTags (raw'.get? (str "tags"))

omit [FloatData] [WordData] in
theorem keys_distinct : (("details" :: "tags" :: redactedKeys).all fun key =>
    ("ts_utc" :: "level" :: "details" :: "tags" :: redactedKeys).all fun other =>
      key = other ∨ str other ≠ str key) = true := by
  decide

omit [FloatData] [WordData] in
theorem str_ne {key other : String} (hkey : key ∈ "details" :: "tags" :: redactedKeys)
    (hother : other ∈ "ts_utc" :: "level" :: "details" :: "tags" :: redactedKeys)
    (h : key ≠ other) : str other ≠ str key := by
  have hall := List.all_eq_true.1 keys_distinct key hkey
  exact (of_decide_eq_true (List.all_eq_true.1 hall other hother)).resolve_left h

variable [UnicodeData]

variable {key : String} {raw raw' : Value}

omit [WordData] in
theorem textOr_congr (h : raw.get? (str key) = raw'.get? (str key)) (default : Str) :
    textOr raw key default = textOr raw' key default := by
  unfold textOr
  rw [h]

omit [WordData] in
theorem textOr_text {s : Str}
    (h : raw.get? (str key) = some (.str s)) (hne : s ≠ []) (default : Str) :
    textOr raw key default = s := by
  have htruthy : (Value.str s).truthy = true := bne_iff_ne.2 hne
  unfold textOr
  rw [h]
  simp only [htruthy, if_true]
  rfl

/-- An edit under one key leaves what is read under the others. -/
theorem alike_of_edit (pre post : List (Str × Value)) {v w : Value}
    (hkey : key ∈ "details" :: "tags" :: redactedKeys) (htexts : key ∈ redactedKeys → ∀ default,
      textOr (.obj (pre ++ (str key, v) :: post)) key default =
        textOr (.obj (pre ++ (str key, w) :: post)) key default ∨
      ∃ old new, Replaced old new false (textOr (.obj (pre ++ (str key, v) :: post)) key default)
        (textOr (.obj (pre ++ (str key, w) :: post)) key default))
    (hdetails : key = "details" → normalizeDetails (some v) = normalizeDetails (some w))
    (htags : key = "tags" → normalizeTags (some v) = normalizeTags (some w)) :
    Alike (.obj (pre ++ (str key, v) :: post)) (.obj (pre ++ (str key, w) :: post)) where
  keys other := by
    by_cases hother : other = str key
    · subst hother
      rcases get?_edited pre post (str key) v w with ⟨hv, hw⟩ | ⟨hsame, _⟩
      · rw [hv, hw]
        rfl
      · rw [hsame]
    · rw [get?_other pre post v w hother]
  fixed other hother := by
    apply get?_other
    apply str_ne hkey
    · simp only [List.mem_cons, List.not_mem_nil, or_false] at hother ⊢
      rcases hother with rfl | rfl <;> simp
    · rintro rfl
      revert hkey hother
      simp only [redactedKeys, List.mem_cons, List.not_mem_nil, or_false]
      rintro (rfl | rfl | rfl | rfl | rfl | rfl | rfl) <;> decide
  texts other hother default := by
    by_cases hsame : key = other
    · subst hsame
      rcases htexts hother default with heq | ⟨old, new, hreplaced⟩
      · rw [heq]
      · exact hreplaced.redactText_eq
    · rw [textOr_congr (get?_other pre post v w (str_ne hkey (by simp [hother]) hsame))]
  uid := by
    by_cases hsame : key = "event_uid"
    · subst hsame
      exact htexts (by decide) []
    · left
      exact textOr_congr (get?_other pre post v w (str_ne hkey (by decide) hsame)) []
  details := by
    unfold detailsOf
    by_cases hsame : key = "details"
    · subst hsame
      rcases get?_edited pre post (str "details") v w with ⟨hv, hw⟩ | ⟨heq, _⟩
      · rw [hv, hw, hdetails rfl]
      · rw [heq]
    · rw [get?_other pre post v w (str_ne hkey (by decide) hsame)]
  tags := by
    by_cases hsame : key = "tags"
    · subst hsame
      rcases get?_edited pre post (str "tags") v w with ⟨hv, hw⟩ | ⟨heq, _⟩
      · rw [hv, hw, htags rfl]
      · rw [heq]
    · rw [get?_other pre post v w (str_ne hkey (by decide) hsame)]

theorem SecretReplaced.alike (h : SecretReplaced raw raw') : Alike raw raw' := by
  cases h with
  | @text pre post key old new s s' hkey h =>
    apply alike_of_edit pre post (by simp [hkey])
    · intro _ default
      rcases get?_edited pre post (str key) (.str s) (.str s') with ⟨hs, hs'⟩ | ⟨heq, _⟩
      · right
        rw [textOr_text hs h.ne_nil, textOr_text hs' h.symm.ne_nil]
        exact ⟨old, new, h⟩
      · exact .inl (textOr_congr heq default)
    · rintro rfl
      exact absurd hkey (by decide)
    · rintro rfl
      exact absurd hkey (by decide)
  | details pre post h =>
    apply alike_of_edit pre post (by decide)
    · intro hmem
      exact absurd hmem (by decide)
    · exact fun _ => h.normalizeDetails_eq
    · intro heq
      exact absurd heq (by decide)
  | tags pre post h =>
    apply alike_of_edit pre post (by decide)
    · intro hmem
      exact absurd hmem (by decide)
    · intro heq
      exact absurd heq (by decide)
    · exact fun _ => h.normalizeTags_eq

theorem Alike.eventOf_eq (h : Alike raw raw') (now created created' : Str) :
    eventOf now created' raw' = { eventOf now created raw with createdUtc := created' } := by
  have hts := textOr_congr (h.fixed "ts_utc" (by decide)) now
  have hlevel := textOr_congr (h.fixed "level" (by decide)) (str "info")
  have hactor := h.texts "actor" (by decide) (str "codex")
  have hsession := h.texts "session_id" (by decide) []
  have haction := h.texts "action" (by decide) (str "note")
  have hsummary := h.texts "summary" (by decide) []
  have huid : redactText (rawUid raw) = redactText (rawUid raw') :=
    h.texts "event_uid" (by decide) []
  simp only [eventOf, summaryOf, storedUid, hts, hlevel, hactor, hsession, haction, hsummary, huid,
    h.details, h.tags]

/-- The normalised event does not depend on the secret; and redaction is idempotent. -/
theorem normalizeEvent_hides_secrets :
    (∀ (raw raw' : Value) (now created created' : Str) (event : Event),
      SecretReplaced raw raw' → normalizeEvent now created raw = .ok event →
      normalizeEvent now created' raw' = .ok { event with createdUtc := created' }) ∧
    (∀ s : Str, redactText (redactText s) = redactText s) ∧
    ∀ (key : Str) (v : Value), redactValue key (redactValue key v) = redactValue key v := by
  refine ⟨?_, redactText_redactText, redactValue_redactValue⟩
  intro raw raw' now created created' event hsecret haccept
  have halike := hsecret.alike
  unfold normalizeEvent at haccept ⊢
  obtain ⟨hkeys, haccept⟩ := ensure_bind_eq_ok.1 haccept
  obtain ⟨_, hvalid, hevent⟩ := bind_eq_ok.1 haccept
  cases hevent
  refine ensure_bind_eq_ok.2 ⟨?_, bind_eq_ok.2 ⟨(), ?_, ?_⟩⟩
  · intro key hkey
    rw [← halike.keys]
    exact hkeys key hkey
  · rw [← halike.details]
    rcases halike.uid with hsame | ⟨old, new, hreplaced⟩
    · rw [← hsame]
      exact hvalid
    · exact hreplaced.validateRecovery_imp hvalid
  · rw [halike.eventOf_eq now created created']

end

/-! ## Two events with one secret, and five that store theirs -/

namespace Secrets

attribute [local instance] zeroFloatData asciiWordData asciiUnicodeData

/-- A raw event with texts and one other value. -/
def rawEvent (key : String) (v : Value) : Value := .obj ([] ++ (str key, v) :: [])

/-- A column of the normalised event. -/
def storedColumn (column : Event → Str) (key : String) (v : Value) : Option Str :=
  (normalizeEvent (str "n") (str "c") (rawEvent key v)).toOption.map column

/-- The details of a run that holds a credential. -/
def runDetails (credential : Value) : Value :=
  .obj ([] ++ (str "run", .obj ([] ++ (str "api_key", credential) :: [])) :: [])

theorem runDetails_replaced (v w : Value) :
    SecretReplaced (rawEvent "details" (runDetails v)) (rawEvent "details" (runDetails w)) := by
  apply SecretReplaced.details
  apply DetailsReplaced.given
  · intro s heq
    cases heq
  · apply ValueReplaced.member
    apply ValueReplaced.secret
    decide

theorem runDetails_accepted :
    (normalizeEvent (str "n") (str "c") (rawEvent "details" (runDetails (.int 1)))).isOk := by
  decide

/-- The credential of a run is not stored. -/
theorem runDetails_hidden : ∃ event,
    normalizeEvent (str "n") (str "c") (rawEvent "details" (runDetails (.int 1))) = .ok event ∧
    normalizeEvent (str "n") (str "d") (rawEvent "details" (runDetails (.str (str "b")))) =
      .ok { event with createdUtc := str "d" } := by
  cases haccept : normalizeEvent (str "n") (str "c") (rawEvent "details" (runDetails (.int 1))) with
  | error e =>
    have haccepted := runDetails_accepted
    rw [haccept] at haccepted
    cases haccepted
  | ok event =>
    exact ⟨event, rfl, normalizeEvent_hides_secrets.1 _ _ _ _ _ _ (runDetails_replaced _ _) haccept⟩

/-- A time is stored as it is; a text of tags is split before it is redacted; a tag that is
already the redaction of another is taken for it; of two pairs that overlap the scan reaches the
first; and a value can decide whether details are read as JSON. -/
theorem secrets_stored :
    (storedColumn Event.tsUtc "ts_utc" (.str (str "token=a")) = some (str "token=a") ∧
      storedColumn Event.tsUtc "ts_utc" (.str (str "token=b")) = some (str "token=b")) ∧
    (storedColumn Event.tags "tags" (.str (str "token: a")) = some (str "[\"token:\",\"a\"]") ∧
      storedColumn Event.tags "tags" (.str (str "token: b")) =
        some (str "[\"token:\",\"b\"]")) ∧
    (storedColumn Event.tags "tags"
        (.arr [.str (str "token=[REDACTED]"), .str (str "token=[REDACTED]")]) =
        some (str "[\"token=[REDACTED]\"]") ∧
      storedColumn Event.tags "tags"
        (.arr [.str (str "token=[REDACTED]"), .str (str "token=b")]) =
        some (str "[\"token=[REDACTED]\",\"token=[REDACTED]\"]")) ∧
    (storedColumn Event.summary "summary" (.str (str "token: token: a")) =
        some (str "token: [REDACTED] a") ∧
      storedColumn Event.summary "summary" (.str (str "token: token: b")) =
        some (str "token: [REDACTED] b")) ∧
    storedColumn Event.details "details" (.str (str "\"token:a")) =
        some (str "\x7b\"text\":\"\\\"token:[REDACTED]\"\x7d") ∧
      storedColumn Event.details "details" (.str (str "\"token:a\"")) =
        some (str "\"token:[REDACTED]\"") := by
  decide +kernel

end Secrets

end IntegrityGuardian.ActionLog
