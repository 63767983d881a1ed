import IntegrityGuardian.Python.JsonFields

/-!
# Displays and documents

A document that a closed schema accepts has the keys of a display.  It is that display
in another key order when its fields agree.
-/

namespace IntegrityGuardian.Python

/-- A value without inner objects or arrays is itself in key order. -/
def Json.Leaf : Json → Prop
  | .arr _ | .obj _ => False
  | _ => True

variable {v w : Json} {key : Str}

theorem Json.wf_of_leaf (h : v.Leaf) : v.wf = true := by
  cases v with
  | arr vs => exact h.elim
  | obj ms => exact h.elim
  | _ => rfl

theorem Json.eq_of_sortKeys_leaf (hw : w.Leaf) (h : v.sortKeys = w.sortKeys) : v = w := by
  cases w with
  | arr vs => exact hw.elim
  | obj ms => exact hw.elim
  | _ => cases v <;> simp only [Json.sortKeys, reduceCtorEq] at h ⊢ <;> exact h

theorem Json.get?_leaf_of_sortKeys_eq (hv : v.wf = true) (hw : w.wf = true)
    (h : v.sortKeys = w.sortKeys) {x : Json} (hleaf : x.Leaf)
    (hget : w.get? key = some x) : v.get? key = some x := by
  have hsame := Json.map_get?_of_sortKeys_eq hv hw h key
  rw [hget, Option.map_some, Option.map_eq_some_iff] at hsame
  obtain ⟨u, hu, hsort⟩ := hsame
  rw [hu, Json.eq_of_sortKeys_leaf hleaf hsort]

theorem Json.encodable_of_get? (h : v.encodable = true)
    (hget : v.get? key = some w) : w.encodable = true := by
  cases v with
  | obj members =>
    obtain ⟨before, after, hsplit, -⟩ := List.lookup_eq_some_iff.1 hget
    simp only [Json.encodable, Json.encodableMembers_iff] at h
    exact (h (key, w) (by simp [hsplit])).2
  | _ => cases hget

theorem Json.sortKeys_eq_fields {fs : List (String × Json)} (hobj : v.IsObj)
    (hv : v.wf = true) (hfs : (Json.fields fs).wf = true)
    (hkeys : ∀ key w, v.get? key = some w → ∃ f ∈ fs, Python.str f.1 = key)
    (hsame : ∀ f ∈ fs, (v.get? (Python.str f.1)).map Json.sortKeys = some f.2.sortKeys) :
    v.sortKeys = (Json.fields fs).sortKeys := by
  have hnodup := (Json.wf_obj.1 hfs).1
  have hfield : ∀ f ∈ fs, (Json.fields fs).get? (Python.str f.1) = some f.2 := by
    intro f hf
    exact (lookup_eq_some_iff_mem hnodup).2 (List.mem_map.2 ⟨f, hf, rfl⟩)
  apply Json.sortKeys_eq_of_get? hobj (Json.isObj_fields fs) hv hfs
  intro key
  by_cases hkey : ∃ f ∈ fs, Python.str f.1 = key
  · obtain ⟨f, hf, rfl⟩ := hkey
    rw [hsame f hf, hfield f hf, Option.map_some]
  · have hleft : v.get? key = none := by
      rw [Option.eq_none_iff_forall_not_mem]
      exact fun w hw => hkey (hkeys key w hw)
    have hright : (Json.fields fs).get? key = none := by
      rw [Option.eq_none_iff_forall_not_mem]
      intro w hw
      obtain ⟨f, hf, heq⟩ := List.mem_map.1 ((lookup_eq_some_iff_mem hnodup).1 hw)
      exact hkey ⟨f, hf, congrArg Prod.fst heq⟩
    rw [hleft, hright]

/-! ## Closed schemas -/

namespace Schema

variable {v : Json}

theorem mem_properties_of_closed {required : List String} {properties : List (String × Schema)}
    (h : (closed required properties).accepts v = true) {key : Str} {w : Json}
    (hget : v.get? key = some w) : ∃ p ∈ properties, str p.1 = key := by
  cases v with
  | obj members =>
    simp only [closed, Bool.and_eq_true, List.all_eq_true] at h
    obtain ⟨before, after, hsplit, -⟩ := List.lookup_eq_some_iff.1 hget
    have hmem : (key, w) ∈ members := by simp [hsplit]
    obtain ⟨p, hp, hkey⟩ := List.any_eq_true.1 (h.1.1 (key, w) hmem)
    exact ⟨p, hp, beq_iff_eq.1 hkey⟩
  | _ => simp [closed] at h

theorem eq_of_const {text : String} (h : (const text).accepts v = true) :
    v = .str (str text) := by
  cases v with
  | str s =>
    have htext : (str text == s) = true := by simpa only [const, enum, List.any_cons,
      List.any_nil, Bool.or_false] using h
    rw [beq_iff_eq.1 htext]
  | _ => simp [const, enum] at h

theorem eq_str_of_enum {texts : List String} (h : (enum texts).accepts v = true) :
    ∃ s, v = .str s := by
  cases v with
  | str s => exact ⟨s, rfl⟩
  | _ => simp [enum] at h

theorem eq_of_constBool {b : Bool} (h : (constBool b).accepts v = true) : v = .bool b := by
  cases v with
  | bool c => simpa [constBool] using h
  | _ => simp [constBool] at h

end Schema

end IntegrityGuardian.Python
