import IntegrityGuardian.Python.JsonRoundTrip
import IntegrityGuardian.Python.Runtime

/-!
# Objects as dictionaries

Subscripts and updates of `dict` values, their behaviour under the key order of
the canonical form, and the values the canonical form can encode.
-/

namespace IntegrityGuardian.Python

namespace Json

/-- `value[key]`. -/
def item (v : Json) (key : Str) : Except Exc Json :=
  match v with
  | .obj members =>
    match members.lookup key with
    | some w => .ok w
    | none => .error (.keyError key)
  | _ => .error .typeError

/-- The `dict` after `value.pop(key, None)`. -/
def pop (v : Json) (key : Str) : Json :=
  match v with
  | .obj members => .obj (members.filter fun m => m.1 != key)
  | v => v

/-- The `dict` after `value[key] = w`: a new key goes to the end. -/
def set (v : Json) (key : Str) (w : Json) : Json :=
  match v with
  | .obj members =>
    if key ∈ members.map Prod.fst then
      .obj (members.map fun m => if m.1 = key then (key, w) else m)
    else .obj (members ++ [(key, w)])
  | v => v

/-- `value[key]` where a schema has made it a text. -/
def textItem (v : Json) (key : Str) : Except Exc Str :=
  match v.item key with
  | .ok (.str s) => .ok s
  | .ok _ => .error .typeError
  | .error e => .error e

/-- `value[key]` where a schema has made it an integer. -/
def intItem (v : Json) (key : Str) : Except Exc Int :=
  match v.item key with
  | .ok (.int n) => .ok n
  | .ok _ => .error .typeError
  | .error e => .error e

/-- `value[key]` where a schema has made it a text or `None`. -/
def optionalTextItem (v : Json) (key : Str) : Except Exc (Option Str) :=
  match v.item key with
  | .ok (.str s) => .ok (some s)
  | .ok .null => .ok none
  | .ok _ => .error .typeError
  | .error e => .error e

variable {v w : Json} {key : Str}

theorem item_eq_ok : v.item key = .ok w ↔ v.get? key = some w := by
  cases v with
  | obj members =>
    simp only [item, get?]
    cases members.lookup key with
    | none => simp
    | some u => simp
  | _ => simp [item, get?]

/-- `isinstance(value, dict)`. -/
def IsObj (v : Json) : Prop := ∃ members, v = .obj members

theorem IsObj.pop (h : v.IsObj) (key : Str) : (v.pop key).IsObj := by
  obtain ⟨members, rfl⟩ := h
  exact ⟨_, rfl⟩

theorem IsObj.set (h : v.IsObj) (key : Str) (w : Json) : (v.set key w).IsObj := by
  obtain ⟨members, rfl⟩ := h
  by_cases hkey : key ∈ members.map Prod.fst
  · exact ⟨_, if_pos hkey⟩
  · exact ⟨_, if_neg hkey⟩

theorem IsObj.sortKeys (h : v.IsObj) : v.sortKeys.IsObj := by
  obtain ⟨members, rfl⟩ := h
  exact ⟨_, by rw [Json.sortKeys]⟩

theorem isObj_of_get? (h : v.get? key = some w) : v.IsObj := by
  cases v with
  | obj members => exact ⟨members, rfl⟩
  | _ => cases h

/-! ## Well-formedness -/

theorem wf_obj {members : List (Str × Json)} :
    (obj members).wf = true ↔
      (members.map Prod.fst).Nodup ∧ ∀ m ∈ members, m.2.wf = true := by
  simp only [wf, Bool.and_eq_true, decide_eq_true_eq, wfMembers_iff]

theorem wf_of_get? (hwf : v.wf = true) (h : v.get? key = some w) : w.wf = true := by
  obtain ⟨members, rfl⟩ := isObj_of_get? h
  obtain ⟨hnodup, hmem⟩ := wf_obj.1 hwf
  exact hmem (key, w) ((lookup_eq_some_iff_mem hnodup).1 h)

theorem wf_pop (hwf : v.wf = true) (key : Str) : (v.pop key).wf = true := by
  cases v with
  | obj members =>
    obtain ⟨hnodup, hmem⟩ := wf_obj.1 hwf
    apply wf_obj.2
    constructor
    · exact hnodup.sublist (List.filter_sublist.map Prod.fst)
    · intro m hm
      exact hmem m (List.mem_filter.1 hm).1
  | _ => exact hwf

theorem map_fst_replace (members : List (Str × Json)) (key : Str) (w : Json) :
    (members.map fun m => if m.1 = key then (key, w) else m).map Prod.fst
      = members.map Prod.fst := by
  rw [List.map_map]
  apply List.map_congr_left
  intro m _
  by_cases hm : m.1 = key
  · simp [hm]
  · simp [hm]

theorem wf_set (hwf : v.wf = true) (hw : w.wf = true) (key : Str) : (v.set key w).wf = true := by
  cases v with
  | obj members =>
    obtain ⟨hnodup, hmem⟩ := wf_obj.1 hwf
    simp only [set]
    by_cases hkey : key ∈ members.map Prod.fst
    · rw [if_pos hkey]
      apply wf_obj.2
      constructor
      · rw [map_fst_replace]
        exact hnodup
      · intro m hm
        obtain ⟨m', hm', rfl⟩ := List.mem_map.1 hm
        by_cases hk : m'.1 = key
        · simpa [hk] using hw
        · simpa [hk] using hmem m' hm'
    · rw [if_neg hkey]
      apply wf_obj.2
      constructor
      · rw [List.map_append]
        exact hnodup.append (List.nodup_singleton key) (by simpa using hkey)
      · intro m hm
        rcases List.mem_append.1 hm with hm | hm
        · exact hmem m hm
        · obtain rfl := List.mem_singleton.1 hm
          exact hw
  | _ => exact hwf

/-! ## Lookups after an update -/

theorem get?_pop (hwf : v.wf = true) (key k : Str) :
    (v.pop key).get? k = if k = key then none else v.get? k := by
  cases v with
  | obj members =>
    have hnodup := (wf_obj.1 hwf).1
    have hnodup' := (wf_obj.1 (wf_pop hwf key)).1
    apply Option.ext
    intro w
    have hiff : (pop (.obj members) key).get? k = some w ↔ (k, w) ∈ members ∧ k ≠ key := by
      show (members.filter fun m => m.1 != key).lookup k = some w ↔ _
      rw [lookup_eq_some_iff_mem hnodup', List.mem_filter, bne_iff_ne]
    rw [hiff]
    by_cases hk : k = key
    · simp [hk]
    · rw [if_neg hk, ← lookup_eq_some_iff_mem hnodup]
      simp [hk, get?]
  | _ => simp [pop, get?]

theorem get?_set (hobj : v.IsObj) (hwf : v.wf = true) (hw : w.wf = true)
    (key k : Str) : (v.set key w).get? k = if k = key then some w else v.get? k := by
  obtain ⟨members, rfl⟩ := hobj
  have hnodup := (wf_obj.1 hwf).1
  have hwf' := wf_set hwf hw key
  apply Option.ext
  intro u
  by_cases hkey : key ∈ members.map Prod.fst
  · simp only [set, if_pos hkey] at hwf' ⊢
    simp only [get?]
    rw [lookup_eq_some_iff_mem (wf_obj.1 hwf').1, List.mem_map]
    obtain ⟨⟨key', w'⟩, hmem, rfl⟩ := List.mem_map.1 hkey
    by_cases hk : k = key'
    · subst hk
      rw [if_pos rfl]
      constructor
      · rintro ⟨m, hm, heq⟩
        by_cases hmk : m.1 = k
        · simp [hmk] at heq
          simp [heq]
        · simp [hmk] at heq
          exact absurd (congrArg Prod.fst heq) hmk
      · intro heq
        exact ⟨(k, w'), hmem, by simpa using heq⟩
    · rw [if_neg hk, lookup_eq_some_iff_mem hnodup]
      constructor
      · rintro ⟨m, hm, heq⟩
        by_cases hmk : m.1 = key'
        · simp [hmk] at heq
          exact absurd heq.1.symm hk
        · simp [hmk] at heq
          exact heq ▸ hm
      · intro hm
        exact ⟨(k, u), hm, by simp [hk]⟩
  · simp only [set, if_neg hkey] at hwf' ⊢
    simp only [get?]
    rw [lookup_eq_some_iff_mem (wf_obj.1 hwf').1, List.mem_append, List.mem_singleton]
    by_cases hk : k = key
    · subst hk
      have hfresh : (k, u) ∉ members := fun hmem => hkey (List.mem_map_of_mem hmem)
      simp [hfresh, eq_comm]
    · rw [if_neg hk, lookup_eq_some_iff_mem hnodup]
      simp [hk]

/-! ## Key order -/

theorem sortKeys_eq_of_get? (hvobj : v.IsObj) (hwobj : w.IsObj) (hv : v.wf = true)
    (hw : w.wf = true) (h : ∀ key, (v.get? key).map sortKeys = (w.get? key).map sortKeys) :
    v.sortKeys = w.sortKeys := by
  obtain ⟨ms, rfl⟩ := hvobj
  obtain ⟨ns, rfl⟩ := hwobj
  have hms := (wf_obj.1 (wf_sortKeys hv)).1
  have hns := (wf_obj.1 (wf_sortKeys hw)).1
  have hmem : ∀ m, m ∈ (sortMembers ms).insertionSort (fun a b => a.1 ≤ b.1) ↔
      m ∈ (sortMembers ns).insertionSort (fun a b => a.1 ≤ b.1) := by
    rintro ⟨key, u⟩
    rw [← lookup_eq_some_iff_mem hms, ← lookup_eq_some_iff_mem hns]
    have hget := h key
    rw [← get?_sortKeys hv, ← get?_sortKeys hw] at hget
    simp only [sortKeys, get?] at hget
    rw [hget]
  have hperm := (List.perm_ext_iff_of_nodup hms.of_map hns.of_map).2 hmem
  simp only [sortKeys]
  congr 1
  apply hperm.eq_of_pairwise _ (List.pairwise_insertionSort _ _) (List.pairwise_insertionSort _ _)
  intro a b ha hb hab hba
  exact List.inj_on_of_nodup_map hms ha ((hmem b).2 hb) (le_antisymm hab hba)

theorem map_get?_of_sortKeys_eq (hv : v.wf = true) (hw : w.wf = true)
    (h : v.sortKeys = w.sortKeys) (key : Str) :
    (v.get? key).map sortKeys = (w.get? key).map sortKeys := by
  rw [← get?_sortKeys hv, ← get?_sortKeys hw, h]

theorem item_sortKeys (hwf : v.wf = true) (key : Str) :
    v.sortKeys.item key = (v.item key).map sortKeys := by
  cases v with
  | obj members =>
    have hget := get?_sortKeys hwf key
    simp only [sortKeys, get?] at hget
    simp only [sortKeys, item, hget]
    cases members.lookup key with
    | none => rfl
    | some w => rfl
  | _ => rfl

@[simp] theorem textItem_sortKeys (hwf : v.wf = true) (key : Str) :
    v.sortKeys.textItem key = v.textItem key := by
  unfold textItem
  rw [item_sortKeys hwf]
  rcases v.item key with e | (_ | _ | _ | _ | _ | _) <;> rfl

@[simp] theorem intItem_sortKeys (hwf : v.wf = true) (key : Str) :
    v.sortKeys.intItem key = v.intItem key := by
  unfold intItem
  rw [item_sortKeys hwf]
  rcases v.item key with e | (_ | _ | _ | _ | _ | _) <;> rfl

@[simp] theorem optionalTextItem_sortKeys (hwf : v.wf = true) (key : Str) :
    v.sortKeys.optionalTextItem key = v.optionalTextItem key := by
  unfold optionalTextItem
  rw [item_sortKeys hwf]
  rcases v.item key with e | (_ | _ | _ | _ | _ | _) <;> rfl

theorem sortKeys_pop_congr (hvobj : v.IsObj) (hwobj : w.IsObj) (hv : v.wf = true)
    (hw : w.wf = true) (h : v.sortKeys = w.sortKeys) (key : Str) :
    (v.pop key).sortKeys = (w.pop key).sortKeys := by
  apply sortKeys_eq_of_get? (hvobj.pop key) (hwobj.pop key) (wf_pop hv key) (wf_pop hw key)
  intro k
  rw [get?_pop hv, get?_pop hw]
  by_cases hk : k = key
  · rw [if_pos hk, if_pos hk]
  · rw [if_neg hk, if_neg hk]
    exact map_get?_of_sortKeys_eq hv hw h k

theorem sortKeys_set_congr {u : Json} (hvobj : v.IsObj) (hwobj : w.IsObj) (hv : v.wf = true)
    (hw : w.wf = true) (hu : u.wf = true) (h : v.sortKeys = w.sortKeys) (key : Str) :
    (v.set key u).sortKeys = (w.set key u).sortKeys := by
  apply sortKeys_eq_of_get? (hvobj.set key u) (hwobj.set key u) (wf_set hv hu key)
    (wf_set hw hu key)
  intro k
  rw [get?_set hvobj hv hu, get?_set hwobj hw hu]
  by_cases hk : k = key
  · rw [if_pos hk, if_pos hk]
  · rw [if_neg hk, if_neg hk]
    exact map_get?_of_sortKeys_eq hv hw h k

/-! ## Values without lone surrogates -/

mutual
/-- Every text inside the value can be encoded. -/
def encodable : Json → Bool
  | .str s => !s.any CodePoint.isSurrogate
  | .arr items => encodableItems items
  | .obj members => encodableMembers members
  | _ => true

def encodableItems : List Json → Bool
  | [] => true
  | v :: vs => encodable v && encodableItems vs

def encodableMembers : List (Str × Json) → Bool
  | [] => true
  | (k, v) :: ms => !k.any CodePoint.isSurrogate && encodable v && encodableMembers ms
end

theorem encodableMembers_iff (ms : List (Str × Json)) :
    encodableMembers ms = true ↔
      ∀ m ∈ ms, m.1.any CodePoint.isSurrogate = false ∧ m.2.encodable = true := by
  induction ms with
  | nil => simp [encodableMembers]
  | cons m ms ih =>
    obtain ⟨k, v⟩ := m
    simp only [encodableMembers, Bool.and_eq_true, Bool.not_eq_true', ih, List.forall_mem_cons]

mutual
theorem encodable_sortKeys : ∀ v : Json, v.sortKeys.encodable = v.encodable
  | .null => rfl
  | .bool _ => rfl
  | .int _ => rfl
  | .str _ => rfl
  | .arr items => by
    simp only [sortKeys, encodable]
    exact encodableItems_sortItems items
  | .obj members => by
    simp only [sortKeys, encodable]
    rw [← encodableMembers_sortMembers members]
    have hperm := List.perm_insertionSort (fun a b : Str × Json => a.1 ≤ b.1)
      (sortMembers members)
    apply Bool.eq_iff_iff.2
    rw [encodableMembers_iff, encodableMembers_iff]
    simp only [hperm.mem_iff]

theorem encodableItems_sortItems : ∀ vs : List Json,
    encodableItems (sortItems vs) = encodableItems vs
  | [] => rfl
  | v :: vs => by
    simp only [sortItems, encodableItems, encodable_sortKeys v, encodableItems_sortItems vs]

theorem encodableMembers_sortMembers : ∀ ms : List (Str × Json),
    encodableMembers (sortMembers ms) = encodableMembers ms
  | [] => rfl
  | (k, v) :: ms => by
    simp only [sortMembers, encodableMembers, encodable_sortKeys v,
      encodableMembers_sortMembers ms]
end

theorem encodable_pop {v : Json} (h : v.encodable = true) (key : Str) :
    (v.pop key).encodable = true := by
  cases v with
  | obj members =>
    simp only [pop, encodable, encodableMembers_iff] at h ⊢
    intro m hm
    exact h m (List.mem_filter.1 hm).1
  | _ => exact h

theorem isSurrogate_ascii {c : CodePoint} (h : c.val < 0x80) : c.isSurrogate = false := by
  simp only [CodePoint.isSurrogate, Bool.and_eq_false_iff, decide_eq_false_iff_not]
  omega

theorem any_isSurrogate_ascii {s : Str} (h : s.all (fun c => c.val < 0x80) = true) :
    s.any CodePoint.isSurrogate = false := by
  rw [List.any_eq_false]
  intro c hc
  rw [isSurrogate_ascii (by simpa using List.all_eq_true.1 h c hc)]
  exact Bool.false_ne_true

theorem any_escapeChar (c : CodePoint) :
    (escapeChar c).any CodePoint.isSurrogate = c.isSurrogate := by
  unfold escapeChar
  repeat' split
  all_goals first
    | (subst c; rfl)
    | skip
  · rename_i h
    rw [isSurrogate_ascii (by omega)]
    apply any_isSurrogate_ascii
    have hlow : (hexDigit (c.val / 16)).val < 0x80 := by
      unfold hexDigit
      split <;> simp <;> omega
    have hhigh : (hexDigit (c.val % 16)).val < 0x80 := by
      unfold hexDigit
      split <;> simp <;> omega
    simp only [unicodeEscape, List.all_cons, hlow, hhigh]
    rfl
  · simp

theorem any_renderStr (s : Str) :
    (renderStr s).any CodePoint.isSurrogate = s.any CodePoint.isSurrogate := by
  have hquote : CodePoint.isSurrogate (ch '"') = false := rfl
  have hbody : (s.flatMap escapeChar).any CodePoint.isSurrogate
      = s.any CodePoint.isSurrogate := by
    rw [List.any_flatMap]
    simp only [any_escapeChar]
  simp [renderStr, hquote, hbody]

theorem any_renderInt (n : Int) : (renderInt n).any CodePoint.isSurrogate = false := by
  rw [List.any_eq_false]
  intro c hc
  have hdecimal : ∀ k, c ∈ decimal k → c.isSurrogate = false := by
    intro k hk
    have hdigit : isDigit c = true := isDigit_of_mem_decimalAux _ _ hk
    simp only [isDigit, Bool.and_eq_true, decide_eq_true_eq] at hdigit
    exact isSurrogate_ascii (by omega)
  cases n with
  | ofNat k =>
    rw [hdecimal k hc]
    exact Bool.false_ne_true
  | negSucc k =>
    rcases List.mem_cons.1 hc with rfl | hc
    · exact Bool.false_ne_true
    · rw [hdecimal (k + 1) hc]
      exact Bool.false_ne_true

mutual
theorem any_render : ∀ v : Json, (render v).any CodePoint.isSurrogate = !v.encodable
  | .null => rfl
  | .bool true => rfl
  | .bool false => rfl
  | .int n => by
    simp only [render, encodable, any_renderInt]
    rfl
  | .str s => by simp only [render, encodable, any_renderStr, Bool.not_not]
  | .arr [] => rfl
  | .arr (v :: vs) => by
    have hopen : CodePoint.isSurrogate (ch '[') = false := rfl
    simp only [render, encodable, encodableItems, List.any_cons, List.any_append, hopen,
      any_render v, any_renderItems vs, Bool.false_or, Bool.not_and]
  | .obj [] => rfl
  | .obj ((k, v) :: ms) => by
    have hopen : CodePoint.isSurrogate (ch '{') = false := rfl
    have hcolon : CodePoint.isSurrogate (ch ':') = false := rfl
    simp only [render, encodable, encodableMembers, List.any_cons, List.any_append, hopen,
      hcolon, any_renderStr, any_render v, any_renderMembers ms, Bool.false_or, Bool.not_and,
      Bool.not_not, List.cons_append, List.append_assoc, Bool.or_assoc]

theorem any_renderItems : ∀ vs : List Json,
    (renderItems vs).any CodePoint.isSurrogate = !encodableItems vs
  | [] => rfl
  | v :: vs => by
    have hcomma : CodePoint.isSurrogate (ch ',') = false := rfl
    simp only [renderItems, encodableItems, List.any_cons, List.any_append, hcomma,
      any_render v, any_renderItems vs, Bool.false_or, Bool.not_and]

theorem any_renderMembers : ∀ ms : List (Str × Json),
    (renderMembers ms).any CodePoint.isSurrogate = !encodableMembers ms
  | [] => rfl
  | (k, v) :: ms => by
    have hcomma : CodePoint.isSurrogate (ch ',') = false := rfl
    have hcolon : CodePoint.isSurrogate (ch ':') = false := rfl
    simp only [renderMembers, encodableMembers, List.any_cons, List.any_append, hcomma,
      hcolon, any_renderStr, any_render v, any_renderMembers ms, Bool.false_or, Bool.not_and,
      Bool.not_not, List.cons_append, List.append_assoc, Bool.or_assoc]
end

variable {v : Json}

theorem encodeUtf8_dumps (h : v.encodable = true) :
    encodeUtf8 v.dumps = some (v.dumps.flatMap utf8Octets) := by
  have hany : v.dumps.any CodePoint.isSurrogate = false := by
    unfold dumps
    rw [any_render, encodable_sortKeys, h]
    rfl
  unfold encodeUtf8
  rw [hany]
  rfl

theorem encodable_of_encodeUtf8 {b : Bytes} (h : encodeUtf8 v.dumps = some b) :
    v.encodable = true := by
  unfold encodeUtf8 dumps at h
  rw [any_render, encodable_sortKeys] at h
  cases hv : v.encodable with
  | true => rfl
  | false => simp [hv] at h

end Json

/-- A document in memory: the keys of its objects are distinct. -/
structure Document where
  value : Json
  wf : value.wf = true

end IntegrityGuardian.Python
