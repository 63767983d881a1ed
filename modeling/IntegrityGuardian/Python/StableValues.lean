import IntegrityGuardian.Python.JsonObject
import IntegrityGuardian.Python.StrictJson

/-!
# Values with canonical bytes

Whether `json.dumps` and `str.encode` accept a value depends on its parts alone.
-/

namespace IntegrityGuardian.Python.Value

open Library (bind_eq_ok)

section
variable [FloatData]

/-- A text that the encoder returns and UTF-8 can encode. -/
def Clean (rendered : Except Exc Str) : Prop :=
  ∃ text, rendered = .ok text ∧ text.any CodePoint.isSurrogate = false

/-- `json.dumps(value, …).encode("utf-8")` returns. -/
def Stable (v : Value) : Prop := Clean v.sortKeys.render

theorem stable_iff {v : Value} : v.Stable ↔ ∃ bytes, v.dumpsBytes = .ok bytes := by
  rw [dumpsBytes, dumps]
  constructor
  · rintro ⟨text, hrender, htext⟩
    refine ⟨text.flatMap utf8Octets, ?_⟩
    rw [hrender, Library.ok_bind, encodeUtf8, if_neg (by simp [htext])]
  · rintro ⟨bytes, h⟩
    obtain ⟨text, hrender, h⟩ := bind_eq_ok.1 h
    refine ⟨text, hrender, ?_⟩
    by_contra hsurrogate
    rw [encodeUtf8, if_pos (by simpa using hsurrogate)] at h
    cases h

variable {ms : List (Str × Value)} {vs : List Value} {s : Str}

theorem clean_str : Clean (render (.str s)) ↔ s.any CodePoint.isSurrogate = false := by
  constructor
  · rintro ⟨text, h, htext⟩
    cases h
    rw [← Json.any_renderStr]
    exact htext
  · intro h
    exact ⟨_, rfl, (Json.any_renderStr s).trans h⟩

omit [FloatData] in
theorem clean_join (extra : Bool) {x y : Except Exc Str} {join : Str → Str → Str}
    (hjoin : ∀ a b, (join a b).any CodePoint.isSurrogate =
      (extra || (a.any CodePoint.isSurrogate || b.any CodePoint.isSurrogate))) :
    Clean (do
        let a ← x
        let b ← y
        .ok (join a b)) ↔ extra = false ∧ Clean x ∧ Clean y := by
  constructor
  · rintro ⟨text, h, htext⟩
    obtain ⟨a, ha, h⟩ := bind_eq_ok.1 h
    obtain ⟨b, hb, h⟩ := bind_eq_ok.1 h
    cases h
    rw [hjoin, Bool.or_eq_false_iff, Bool.or_eq_false_iff] at htext
    exact ⟨htext.1, ⟨a, ha, htext.2.1⟩, b, hb, htext.2.2⟩
  · rintro ⟨hextra, ⟨a, ha, haText⟩, b, hb, hbText⟩
    refine ⟨_, bind_eq_ok.2 ⟨a, ha, bind_eq_ok.2 ⟨b, hb, rfl⟩⟩, ?_⟩
    rw [hjoin, hextra, haText, hbText]
    rfl

theorem clean_items : Clean (renderItems vs) ↔ ∀ v ∈ vs, Clean v.render := by
  induction vs with
  | nil => exact iff_of_true ⟨_, rfl, by decide⟩ nofun
  | cons v vs ih =>
    rw [List.forall_mem_cons, ← ih, renderItems, clean_join false]
    · simp
    · intro a b
      rw [List.any_cons, List.any_append]
      rfl

theorem clean_arr : Clean (render (.arr vs)) ↔ ∀ v ∈ vs, Clean v.render := by
  cases vs with
  | nil => exact iff_of_true ⟨_, rfl, by decide⟩ nofun
  | cons v vs =>
    rw [List.forall_mem_cons, ← clean_items, render, clean_join false]
    · simp
    · intro a b
      rw [List.any_cons, List.any_append]
      rfl

/-- A key and its value. -/
def CleanMember (m : Str × Value) : Prop :=
  m.1.any CodePoint.isSurrogate = false ∧ Clean m.2.render

omit [FloatData] in
theorem any_member (c : CodePoint) (hc : c.isSurrogate = false) (key a b : Str) :
    (c :: (Json.renderStr key ++ Json.ch ':' :: a ++ b)).any CodePoint.isSurrogate =
      (key.any CodePoint.isSurrogate ||
        (a.any CodePoint.isSurrogate || b.any CodePoint.isSurrogate)) := by
  have hcolon : (Json.ch ':').isSurrogate = false := by decide
  simp only [List.any_cons, List.any_append, hc, hcolon, Json.any_renderStr, Bool.false_or,
    Bool.or_assoc]

theorem clean_members : Clean (renderMembers ms) ↔ ∀ m ∈ ms, CleanMember m := by
  induction ms with
  | nil => exact iff_of_true ⟨_, rfl, by decide⟩ nofun
  | cons m ms ih =>
    rw [List.forall_mem_cons, ← ih, renderMembers, clean_join _ (any_member _ (by decide) m.1),
      CleanMember, and_assoc]

theorem clean_obj : Clean (render (.obj ms)) ↔ ∀ m ∈ ms, CleanMember m := by
  cases ms with
  | nil => exact iff_of_true ⟨_, rfl, by decide⟩ nofun
  | cons m ms =>
    rw [List.forall_mem_cons, ← clean_members, render, clean_join _ (any_member _ (by decide) m.1),
      CleanMember, and_assoc]

theorem sortItems_eq_map (vs : List Value) : sortItems vs = vs.map sortKeys := by
  induction vs with
  | nil => rfl
  | cons v vs ih => rw [sortItems, ih, List.map_cons]

theorem stable_str : Stable (.str s) ↔ s.any CodePoint.isSurrogate = false := clean_str

theorem stable_arr : Stable (.arr vs) ↔ ∀ v ∈ vs, v.Stable := by
  rw [Stable, sortKeys, clean_arr, sortItems_eq_map, List.forall_mem_map]
  rfl

theorem stable_obj : Stable (.obj ms) ↔
    ∀ m ∈ ms, m.1.any CodePoint.isSurrogate = false ∧ m.2.Stable := by
  rw [Stable, sortKeys, clean_obj]
  constructor
  · rintro h ⟨key, v⟩ hm
    exact h (key, v.sortKeys) ((List.mem_insertionSort _).2 (mem_sortMembers.2 ⟨v, hm, rfl⟩))
  · rintro h ⟨key, w⟩ hm
    obtain ⟨v, hv, rfl⟩ := mem_sortMembers.1 ((List.mem_insertionSort _).1 hm)
    exact h (key, v) hv

theorem stable_null : Stable .null := ⟨_, rfl, by decide⟩

theorem stable_bool (b : Bool) : Stable (.bool b) := by
  cases b <;> exact ⟨_, rfl, by decide⟩

theorem stable_int (n : Int) : Stable (.int n) := ⟨_, rfl, Json.any_renderInt n⟩

end

end IntegrityGuardian.Python.Value
