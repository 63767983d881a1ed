import IntegrityGuardian.Python.JsonSchema

/-!
# Objects with the keys of the source

The program writes most of its documents as one dictionary display.  Such an
object is given by its keys as string literals, and its lookups, updates and
validity reduce to lookups among the literals.
-/

namespace IntegrityGuardian.Python

open Library (bind_eq_ok)

theorem CodePoint.ofChar_injective : Function.Injective CodePoint.ofChar := by
  intro c d h
  have hval : (ofChar c).val = (ofChar d).val := congrArg Fin.val h
  exact Char.toNat_inj.1 hval

theorem str_injective : Function.Injective str := by
  intro s t h
  exact String.toList_inj.1 (List.map_injective_iff.2 CodePoint.ofChar_injective h)

theorem str_inj {s t : String} : str s = str t ↔ s = t := str_injective.eq_iff

theorem any_isSurrogate_str (s : String) : (str s).any CodePoint.isSurrogate = false := by
  rw [List.any_eq_false]
  intro c hc
  obtain ⟨d, -, rfl⟩ := List.mem_map.1 hc
  have hvalid : d.toNat < 0xd800 ∨ (0xdfff < d.toNat ∧ d.toNat < 0x110000) := d.valid
  have hval : (CodePoint.ofChar d).val = d.toNat := rfl
  simp only [CodePoint.isSurrogate, hval, Bool.and_eq_true, decide_eq_true_eq]
  omega

namespace Json

/-- `value[key]` where a schema has made it an array. -/
def arrayItem (v : Json) (key : Str) : Except Exc (List Json) :=
  match v.item key with
  | .ok (.arr vs) => .ok vs
  | .ok _ => .error .typeError
  | .error e => .error e

variable {n : Int} {v : Json} {fs : List (String × Json)} {vs : List Json} {s : Option Str}
  {key : Str} {k : String}

theorem textItem_eq_ok {s : Str} : v.textItem key = .ok s ↔ v.get? key = some (.str s) := by
  rw [← item_eq_ok, textItem]
  cases v.item key with
  | error e => simp
  | ok w => cases w <;> simp

theorem intItem_eq_ok : v.intItem key = .ok n ↔ v.get? key = some (.int n) := by
  rw [← item_eq_ok, intItem]
  cases v.item key with
  | error e => simp
  | ok w => cases w <;> simp

/-- `value[key]` where a schema has made it a boolean. -/
def boolItem (v : Json) (key : Str) : Except Exc Bool :=
  match v.item key with
  | .ok (.bool b) => .ok b
  | .ok _ => .error .typeError
  | .error e => .error e

/-- `value[key]` where a schema has made it an integer from zero on. -/
def naturalItem (v : Json) (key : Str) : Except Exc Nat :=
  match v.item key with
  | .ok (.int (.ofNat n)) => .ok n
  | .ok _ => .error .typeError
  | .error e => .error e

/-- A text or `None`. -/
def ofOptionalText : Option Str → Json
  | some s => .str s
  | none => .null

theorem arrayItem_eq_ok : v.arrayItem key = .ok vs ↔ v.get? key = some (.arr vs) := by
  rw [← item_eq_ok, arrayItem]
  cases v.item key with
  | error e => simp
  | ok w => cases w <;> simp

theorem boolItem_eq_ok {b : Bool} : v.boolItem key = .ok b ↔ v.get? key = some (.bool b) := by
  rw [← item_eq_ok, boolItem]
  cases v.item key with
  | error e => simp
  | ok w => cases w <;> simp

theorem optionalTextItem_eq_ok :
    v.optionalTextItem key = .ok s ↔ v.get? key = some (ofOptionalText s) := by
  rw [← item_eq_ok, optionalTextItem]
  cases v.item key with
  | error e => simp
  | ok w => cases w <;> cases s <;> simp [ofOptionalText]

/-- A value that a schema has made a text. -/
def asText : Json → Except Exc Str
  | .str s => .ok s
  | _ => .error .typeError

/-- The object of a dictionary display. -/
def fields (fs : List (String × Json)) : Json := .obj (fs.map fun f => (Python.str f.1, f.2))

theorem isObj_fields (fs : List (String × Json)) : (fields fs).IsObj := ⟨_, rfl⟩

@[simp] theorem get?_fields (fs : List (String × Json)) (k : String) :
    (fields fs).get? (Python.str k) = fs.lookup k := by
  show (fs.map fun f => (Python.str f.1, f.2)).lookup (Python.str k) = fs.lookup k
  induction fs with
  | nil => rfl
  | cons f fs ih =>
    obtain ⟨key, w⟩ := f
    rw [List.map_cons, List.lookup_cons, List.lookup_cons, ih]
    have hkeys : (Python.str k == Python.str key) = (k == key) := by
      apply Bool.eq_iff_iff.2
      rw [beq_iff_eq, beq_iff_eq, str_inj]
    simp only [hkeys]

theorem item_fields {w : Json}
    (h : fs.lookup k = some w) : (fields fs).item (Python.str k) = .ok w := by
  rw [item_eq_ok, get?_fields, h]

theorem textItem_fields {s : Str}
    (h : fs.lookup k = some (.str s)) : (fields fs).textItem (Python.str k) = .ok s := by
  rw [textItem, item_fields h]

theorem intItem_fields
    (h : fs.lookup k = some (.int n)) : (fields fs).intItem (Python.str k) = .ok n := by
  rw [intItem, item_fields h]

theorem arrayItem_fields
    (h : fs.lookup k = some (.arr vs)) : (fields fs).arrayItem (Python.str k) = .ok vs := by
  rw [arrayItem, item_fields h]

theorem optionalTextItem_fields (h : fs.lookup k = some (ofOptionalText s)) :
    (fields fs).optionalTextItem (Python.str k) = .ok s := by
  rw [optionalTextItem, item_fields h]
  cases s <;> rfl

theorem map_fst_fields (fs : List (String × Json)) :
    (fs.map fun f => (Python.str f.1, f.2)).map Prod.fst = (fs.map Prod.fst).map Python.str := by
  simp only [List.map_map]
  rfl

theorem set_fields (h : k ∉ fs.map Prod.fst) (w : Json) :
    (fields fs).set (Python.str k) w = fields (fs ++ [(k, w)]) := by
  have hkey : Python.str k ∉ (fs.map fun f => (Python.str f.1, f.2)).map Prod.fst := by
    rw [map_fst_fields, List.mem_map_of_injective str_injective]
    exact h
  simp only [fields, set]
  rw [if_neg hkey, List.map_append]
  rfl

theorem lookup_snoc (h : k ∉ fs.map Prod.fst) (w : Json) :
    (fs ++ [(k, w)]).lookup k = some w := by
  have hnone : fs.lookup k = none := by
    rw [List.lookup_eq_none_iff]
    intro f hf
    exact bne_iff_ne.2 fun heq => h (heq ▸ List.mem_map_of_mem hf)
  rw [List.lookup_append, hnone, List.lookup_cons_self, Option.none_or]

theorem pop_fields (fs : List (String × Json)) (k : String) :
    (fields fs).pop (Python.str k) = fields (fs.filter fun f => f.1 != k) := by
  simp only [fields, pop, List.filter_map]
  congr 2
  apply List.filter_congr
  intro f _
  apply Bool.eq_iff_iff.2
  simp [str_inj]

theorem wf_fields (hnodup : (fs.map Prod.fst).Nodup)
    (hwf : ∀ f ∈ fs, f.2.wf = true) : (fields fs).wf = true := by
  apply wf_obj.2
  constructor
  · rw [map_fst_fields]
    exact hnodup.map Python.str_injective
  · intro m hm
    obtain ⟨f, hf, rfl⟩ := List.mem_map.1 hm
    exact hwf f hf

theorem encodable_fields (h : ∀ f ∈ fs, f.2.encodable = true) : (fields fs).encodable = true := by
  simp only [fields, encodable, encodableMembers_iff]
  intro m hm
  obtain ⟨f, hf, rfl⟩ := List.mem_map.1 hm
  exact ⟨any_isSurrogate_str f.1, h f hf⟩

theorem encodableItems_iff (vs : List Json) :
    encodableItems vs = true ↔ ∀ v ∈ vs, v.encodable = true := by
  induction vs with
  | nil => simp [encodableItems]
  | cons v vs ih => simp only [encodableItems, Bool.and_eq_true, ih, List.forall_mem_cons]

theorem wfItems_iff (vs : List Json) : wfItems vs = true ↔ ∀ v ∈ vs, v.wf = true := by
  induction vs with
  | nil => simp [wfItems]
  | cons v vs ih => simp only [wfItems, Bool.and_eq_true, ih, List.forall_mem_cons]

end Json

/-! ## Enumerations -/

/-- The member of an enumeration under a key, which a schema has made one of its values. -/
def memberItem {α : Type} (all : List α) (value : α → String) (v : Json) (key : Str) :
    Except Exc α := do
  let text ← v.textItem key
  match all.find? fun a => str (value a) == text with
  | some a => .ok a
  | none => .error (.keyError text)

theorem memberItem_eq_ok {α : Type} {all : List α} {value : α → String} {v : Json} {key : Str}
    {a : α} (h : memberItem all value v key = .ok a) :
    v.get? key = some (.str (str (value a))) := by
  unfold memberItem at h
  obtain ⟨text, htext, h⟩ := bind_eq_ok.1 h
  split at h
  · rename_i found hfound
    cases h
    have hvalue : str (value a) = text := by simpa using List.find?_some hfound
    rw [hvalue]
    exact Json.textItem_eq_ok.1 htext
  · cases h

namespace Schema

variable {fs : List (String × Json)}

theorem accepts_closed_fields {required : List String} {properties : List (String × Schema)} :
    (closed required properties).accepts (Json.fields fs) = true ↔
      (∀ f ∈ fs, f.1 ∈ properties.map Prod.fst) ∧ (∀ k ∈ required, (fs.lookup k).isSome = true) ∧
        ∀ p ∈ properties, ∀ w, fs.lookup p.1 = some w → p.2.accepts w = true := by
  show ((fs.map fun f => (str f.1, f.2)).all (fun m => properties.any fun p => str p.1 == m.1)
      && required.all (fun key => ((Json.fields fs).get? (str key)).isSome)
      && propertiesAccept properties (Json.fields fs)) = true ↔ _
  rw [Bool.and_eq_true, Bool.and_eq_true, and_assoc]
  refine and_congr ?_ (and_congr ?_ ?_)
  · simp only [List.all_map, List.all_eq_true, Function.comp, List.any_eq_true, beq_iff_eq,
      str_inj, List.mem_map]
  · simp only [List.all_eq_true, Json.get?_fields]
  · simp only [propertiesAccept, List.all_eq_true, Json.get?_fields]
    apply forall₂_congr
    intro p _
    cases fs.lookup p.1 with
    | none => simp
    | some w => simp

theorem accepts_of_lookup {k : String} {x : Json} {s : Schema}
    (h : fs.lookup k = some x) (hx : s.accepts x = true) :
    ∀ w, fs.lookup k = some w → s.accepts w = true := by
  intro w hw
  rw [h] at hw
  cases hw
  exact hx

end Schema

end IntegrityGuardian.Python
