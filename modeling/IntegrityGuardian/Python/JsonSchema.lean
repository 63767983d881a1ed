import IntegrityGuardian.Python.JsonObject

/-!
# JSON Schema validation

The keywords of Draft 2020-12 the program's schemas use, each as the predicate
the validator checks.  A schema carries the proof that the order of an object's
items never decides, which is what lets a stored document be validated again
after it went through the canonical form.
-/

namespace IntegrityGuardian.Python

structure Schema where
  accepts : Json → Bool
  accepts_sortKeys : ∀ {v : Json}, v.wf = true → accepts v.sortKeys = accepts v

inductive JsonType where
  | null
  | boolean
  | integer
  | string
  | array
  | object
  deriving DecidableEq

/-- The type of a value; `bool` is not an integer here, unlike in the interpreter. -/
def JsonType.of : Json → JsonType
  | .null => .null
  | .bool _ => .boolean
  | .int _ => .integer
  | .str _ => .string
  | .arr _ => .array
  | .obj _ => .object

theorem JsonType.of_sortKeys (v : Json) : JsonType.of v.sortKeys = JsonType.of v := by
  cases v <;> simp only [Json.sortKeys, JsonType.of]

namespace Schema

/-- `"type"`. -/
def ofType (type : JsonType) : Schema where
  accepts v := JsonType.of v == type
  accepts_sortKeys _ := by rw [JsonType.of_sortKeys]

/-- Keywords beside each other. -/
def keywords (schemas : List Schema) : Schema where
  accepts v := schemas.all fun s => s.accepts v
  accepts_sortKeys hwf := by simp only [accepts_sortKeys _ hwf]

/-- A keyword about texts: `"pattern"`, `"format"`, `"minLength"`, `"maxLength"`. -/
def text (check : Str → Bool) : Schema where
  accepts v :=
    match v with
    | .str s => check s
    | _ => true
  accepts_sortKeys {v} _ := by cases v <;> simp only [Json.sortKeys]

/-- `"minimum"`. -/
def minimum (least : Int) : Schema where
  accepts v :=
    match v with
    | .int n => least ≤ n
    | _ => true
  accepts_sortKeys {v} _ := by cases v <;> simp only [Json.sortKeys]

/-- `"maximum"`. -/
def maximum (greatest : Int) : Schema where
  accepts v :=
    match v with
    | .int n => n ≤ greatest
    | _ => true
  accepts_sortKeys {v} _ := by cases v <;> simp only [Json.sortKeys]

/-- `"const"` of a boolean. -/
def constBool (b : Bool) : Schema where
  accepts v :=
    match v with
    | .bool c => c == b
    | _ => false
  accepts_sortKeys {v} _ := by cases v <;> simp only [Json.sortKeys]

/-- `"const"` of an integer. -/
def constInt (n : Int) : Schema where
  accepts v :=
    match v with
    | .int m => m == n
    | _ => false
  accepts_sortKeys {v} _ := by cases v <;> simp only [Json.sortKeys]

/-- `"enum"` of texts. -/
def enum (texts : List String) : Schema where
  accepts v :=
    match v with
    | .str s => texts.any fun t => str t == s
    | _ => false
  accepts_sortKeys {v} _ := by cases v <;> simp only [Json.sortKeys]

/-- `"const"` of a text. -/
def const (text : String) : Schema := enum [text]

/-- `"oneOf"`: exactly one alternative accepts. -/
def oneOf (schemas : List Schema) : Schema where
  accepts v := (schemas.filter fun s => s.accepts v).length == 1
  accepts_sortKeys hwf := by simp only [accepts_sortKeys _ hwf]

theorem sortItems_eq_map (items : List Json) : Json.sortItems items = items.map Json.sortKeys := by
  induction items with
  | nil => rfl
  | cons v vs ih => simp [Json.sortItems, ih]

variable {v : Json}

theorem wf_of_mem_items {items : List Json} (h : Json.wfItems items = true)
    (hv : v ∈ items) : v.wf = true := by
  induction items with
  | nil => simp at hv
  | cons w ws ih =>
    simp only [Json.wfItems, Bool.and_eq_true] at h
    rcases List.mem_cons.1 hv with rfl | hv
    · exact h.1
    · exact ih h.2 hv

/-- `"items"`. -/
def items (item : Schema) : Schema where
  accepts v :=
    match v with
    | .arr vs => vs.all item.accepts
    | _ => true
  accepts_sortKeys {v} hwf := by
    cases v with
    | arr vs =>
      have hitem : ∀ w ∈ vs, item.accepts w.sortKeys = item.accepts w :=
        fun w hw => item.accepts_sortKeys (wf_of_mem_items hwf hw)
      apply Bool.eq_iff_iff.2
      simp only [Json.sortKeys, sortItems_eq_map, List.all_eq_true, List.forall_mem_map]
      exact forall₂_congr fun w hw => by rw [hitem w hw]
    | _ => simp only [Json.sortKeys]

/-- `"minItems"`. -/
def minItems (least : Nat) : Schema where
  accepts v :=
    match v with
    | .arr vs => least ≤ vs.length
    | _ => true
  accepts_sortKeys {v} _ := by
    cases v <;> simp only [Json.sortKeys, sortItems_eq_map, List.length_map]

/-- `"maxItems"`. -/
def maxItems (most : Nat) : Schema where
  accepts v :=
    match v with
    | .arr vs => vs.length ≤ most
    | _ => true
  accepts_sortKeys {v} _ := by
    cases v <;> simp only [Json.sortKeys, sortItems_eq_map, List.length_map]

/-- `"uniqueItems": true`; objects are compared whatever their key order. -/
def uniqueItems : Schema where
  accepts v :=
    match v with
    | .arr vs => decide (vs.map Json.sortKeys).Nodup
    | _ => true
  accepts_sortKeys {v} _ := by
    cases v with
    | arr vs =>
      have hfixed : Json.sortKeys ∘ Json.sortKeys = Json.sortKeys :=
        funext Json.sortKeys_sortKeys
      simp only [Json.sortKeys, sortItems_eq_map, List.map_map, hfixed]
    | _ => simp only [Json.sortKeys]

/-! ## Objects -/

/-- What the properties say about an object, key by key. -/
def propertiesAccept (properties : List (String × Schema)) (v : Json) : Bool :=
  properties.all fun p =>
    match v.get? (str p.1) with
    | some w => p.2.accepts w
    | none => true

/-- `"type": "object"` with `"additionalProperties": false`, `"required"` and `"properties"`. -/
def closed (required : List String) (properties : List (String × Schema)) : Schema where
  accepts v :=
    match v with
    | .obj members =>
      members.all (fun m => properties.any fun p => str p.1 == m.1)
        && required.all (fun key => (v.get? (str key)).isSome)
        && propertiesAccept properties v
    | _ => false
  accepts_sortKeys {v} hwf := by
    cases v with
    | obj members =>
      have hget := Json.get?_sortKeys hwf
      have hprops : propertiesAccept properties (Json.obj members).sortKeys
          = propertiesAccept properties (.obj members) := by
        apply List.all_congr rfl
        intro p
        rw [hget]
        cases hlookup : (Json.obj members).get? (str p.1) with
        | none => rfl
        | some w => exact p.2.accepts_sortKeys (Json.wf_of_get? hwf hlookup)
      have hperm := List.perm_insertionSort (fun a b : Str × Json => a.1 ≤ b.1)
        (Json.sortMembers members)
      have hall : ∀ ms : List (Str × Json),
          ms.all (fun m => properties.any fun p => str p.1 == m.1)
            = (ms.map Prod.fst).all fun key => properties.any fun p => str p.1 == key := by
        intro ms
        rw [List.all_map]
        rfl
      simp only [Json.sortKeys] at hget hprops ⊢
      simp only [hprops, hget, Option.isSome_map]
      rw [hperm.all_eq, hall, hall, Json.map_fst_sortMembers]
    | _ => simp only [Json.sortKeys]

/-- `"type": "object"` with `"additionalProperties"` of one schema and no others. -/
def mapping (value : Schema) : Schema where
  accepts v :=
    match v with
    | .obj members => members.all fun m => value.accepts m.2
    | _ => false
  accepts_sortKeys {v} hwf := by
    cases v with
    | obj members =>
      have hvalue : ∀ m ∈ members, value.accepts m.2.sortKeys = value.accepts m.2 :=
        fun m hm => value.accepts_sortKeys ((Json.wf_obj.1 hwf).2 m hm)
      have hperm := List.perm_insertionSort (fun a b : Str × Json => a.1 ≤ b.1)
        (Json.sortMembers members)
      apply Bool.eq_iff_iff.2
      simp only [Json.sortKeys, hperm.all_eq, List.all_eq_true, Prod.forall,
        Json.mem_sortMembers]
      constructor
      · intro h key w hw
        rw [← hvalue (key, w) hw]
        exact h key _ ⟨w, hw, rfl⟩
      · rintro h key _ ⟨w, hw, rfl⟩
        rw [hvalue (key, w) hw]
        exact h key w hw
    | _ => simp only [Json.sortKeys]

theorem get?_of_closed {required : List String} {properties : List (String × Schema)} {v : Json}
    (h : (closed required properties).accepts v = true) {key : String} {s : Schema}
    (hkey : key ∈ required) (hs : (key, s) ∈ properties) :
    ∃ w, v.get? (str key) = some w ∧ s.accepts w = true := by
  cases v with
  | obj members =>
    simp only [closed, Bool.and_eq_true, List.all_eq_true] at h
    obtain ⟨⟨-, hrequired⟩, hproperties⟩ := h
    obtain ⟨w, hw⟩ := Option.isSome_iff_exists.1 (hrequired key hkey)
    have hw' := List.all_eq_true.1 hproperties (key, s) hs
    rw [hw] at hw'
    exact ⟨w, hw, hw'⟩
  | _ => simp [closed] at h

theorem isObj_of_closed {required : List String} {properties : List (String × Schema)}
    (h : (closed required properties).accepts v = true) : v.IsObj := by
  cases v with
  | obj members => exact ⟨members, rfl⟩
  | _ => simp [closed] at h

theorem accepts_keywords {schemas : List Schema}
    (h : (keywords schemas).accepts v = true) {s : Schema} (hs : s ∈ schemas) :
    s.accepts v = true :=
  List.all_eq_true.1 h s hs

theorem eq_str_of_string (h : (ofType .string).accepts v = true) : ∃ s, v = .str s := by
  cases v with
  | str s => exact ⟨s, rfl⟩
  | _ => cases h

end Schema

end IntegrityGuardian.Python
