import IntegrityGuardian.Library.SeparatedPaths
import IntegrityGuardian.WorkClaims.Steps

/-!
# Overlap as path containment

`resources_overlap` compares texts.  A normalized value is the text of a path, so the
comparison is one of segments: equal, or one path under the other.
-/

namespace IntegrityGuardian.WorkClaims

open Python Library
open Json (ch)

section
variable [UnicodeData]

/-- What `str.casefold` does with a character: no other folds to a text with a slash, and none
disappears. -/
structure CaseFolding : Prop where
  slash : ∀ c, ch '/' ∈ UnicodeData.casefold c → c = ch '/'
  ne_nil : ∀ c, UnicodeData.casefold c ≠ []

/-- `str.casefold`. -/
def folded (text : Str) : Str := text.flatMap UnicodeData.casefold

/-- The value of a raw resource with its backslashes replaced, trimmed. -/
def trimmed (resource : Str) : Str :=
  Str.strip (resource.afterColon.map fun c => if c = ch '\\' then ch '/' else c)

/-- Its segments, the empty ones other than a leading one dropped. -/
def keptSegments (resource : Str) : List Str :=
  match (trimmed resource).splitOn (ch '/') with
  | [] => []
  | first :: rest => first :: rest.filter (· ≠ [])

/-- The segments that are compared. -/
def segments (resource : Str) : List Str := (keptSegments resource).map folded

/-! ## Normalized values are paths -/

omit [UnicodeData] in
theorem keptSegments_isPath (resource : Str) : IsPath (ch '/') (keptSegments resource) := by
  have hne := List.splitOn_ne_nil (ch '/') (trimmed resource)
  have hfree : ∀ part ∈ (trimmed resource).splitOn (ch '/'), ch '/' ∉ part :=
    fun part hpart => separator_notMem_of_mem_splitOn hpart
  unfold keptSegments
  cases hparts : (trimmed resource).splitOn (ch '/') with
  | nil => exact absurd hparts hne
  | cons first rest =>
    rw [hparts] at hfree
    constructor
    · exact List.cons_ne_nil _ _
    · intro segment hsegment
      apply hfree
      cases List.mem_cons.1 hsegment with
      | inl heq => exact List.mem_cons.2 (.inl heq)
      | inr hmem => exact List.mem_cons_of_mem _ (List.mem_of_mem_filter hmem)
    · intro segment hsegment
      simpa using (List.mem_filter.1 hsegment).2

theorem folded_append (s t : Str) : folded (s ++ t) = folded s ++ folded t :=
  List.flatMap_append

theorem folded_slash : folded [ch '/'] = [ch '/'] := by
  unfold folded
  rw [List.flatMap_singleton, UnicodeData.casefold_ascii _ (by decide)]
  decide

theorem folded_intercalate (parts : List Str) :
    folded ([ch '/'].intercalate parts) = [ch '/'].intercalate (parts.map folded) := by
  induction parts with
  | nil => rfl
  | cons part parts ih =>
    cases parts with
    | nil => simp
    | cons next parts =>
      simp only [List.map_cons] at ih ⊢
      rw [List.intercalate_cons_cons, folded_append, folded_append, ih, folded_slash,
        List.intercalate_cons_cons]

theorem CaseFolding.segments_isPath (h : CaseFolding) (resource : Str) :
    IsPath (ch '/') (segments resource) := by
  have hkept := keptSegments_isPath resource
  constructor
  · rw [segments, ne_eq, List.map_eq_nil_iff]
    exact hkept.ne_nil
  · intro segment hsegment hslash
    obtain ⟨part, hpart, rfl⟩ := List.mem_map.1 hsegment
    obtain ⟨c, hc, hmem⟩ := List.mem_flatMap.1 hslash
    exact hkept.separator_free part hpart (h.slash c hmem ▸ hc)
  · intro segment hsegment
    rw [segments, ← List.map_tail] at hsegment
    obtain ⟨part, hpart, rfl⟩ := List.mem_map.1 hsegment
    have hne := hkept.tail_ne_nil part hpart
    intro hnil
    cases part with
    | nil => exact hne rfl
    | cons c rest =>
      rw [folded, List.flatMap_cons, List.append_eq_nil_iff] at hnil
      exact h.ne_nil c hnil.1

omit [UnicodeData] in
theorem rstrip_intercalate {parts : List Str} (h : IsPath (ch '/') parts) :
    (([ch '/'].intercalate parts).reverse.dropWhile (· == ch '/')).reverse =
      [ch '/'].intercalate parts := by
  have hsuffix := h.not_suffix
  cases hreverse : ([ch '/'].intercalate parts).reverse with
  | nil => simpa using hreverse.symm
  | cons last front =>
    have htext : [ch '/'].intercalate parts = front.reverse ++ [last] := by
      rw [← List.reverse_cons, ← hreverse, List.reverse_reverse]
    have hlast : last ≠ ch '/' := by
      rintro rfl
      exact hsuffix ⟨front.reverse, htext.symm⟩
    rw [List.dropWhile_cons_of_neg (by simpa using hlast), List.reverse_cons, htext]

omit [UnicodeData] in
theorem head_tail_eq_keptSegments (resource : Str) :
    ((trimmed resource).splitOn (ch '/')).head?.toList ++
        ((trimmed resource).splitOn (ch '/')).tail.filter (· ≠ []) = keptSegments resource := by
  unfold keptSegments
  cases (trimmed resource).splitOn (ch '/') <;> rfl

variable {r : Resource} {resource : Str}

theorem normalizeResource_eq_ok (h : normalizeResource resource = .ok r) :
    isKind resource.beforeColon = true ∧
      r.text = resource.beforeColon ++ ch ':' :: [ch '/'].intercalate (segments resource) := by
  unfold normalizeResource at h
  split at h
  · cases h
  · split at h
    · cases h
    · rename_i hkind
      dsimp only at h
      split at h
      · cases h
      · split at h
        · cases h
        · refine ⟨by simpa using hkind, ?_⟩
          rw [← Except.ok.inj h]
          change _ ++ ch ':' :: folded (if _ then _ else _) = _
          have hkept := head_tail_eq_keptSegments resource
          unfold trimmed at hkept
          rw [hkept, rstrip_intercalate (keptSegments_isPath resource), ite_self,
            folded_intercalate]
          rfl

omit [UnicodeData] in
theorem bne_colon_of_isKind {kind : Str} (h : isKind kind = true) :
    ∀ c ∈ kind, (c != ch ':') = true := by
  intro c hc
  rw [bne_iff_ne]
  rintro rfl
  cases kind with
  | nil => cases hc
  | cons first rest =>
    simp only [isKind, Bool.and_eq_true, List.all_eq_true] at h
    cases List.mem_cons.1 hc with
    | inl heq =>
      rw [← heq] at h
      exact absurd h.1.1 (by decide)
    | inr hmem => exact absurd (h.2 _ hmem) (by decide)

theorem normalizeResource_value (h : normalizeResource resource = .ok r) :
    r.kind = resource.beforeColon ∧ r.value = [ch '/'].intercalate (segments resource) := by
  obtain ⟨hkind, htext⟩ := normalizeResource_eq_ok h
  have hcolon := bne_colon_of_isKind hkind
  have hstop : (ch ':' != ch ':') = false := bne_self_eq_false _
  unfold Resource.kind Resource.value
  rw [htext]
  constructor
  · rw [Str.beforeColon, List.takeWhile_append_of_pos hcolon, List.takeWhile_cons, hstop]
    simp
  · rw [Str.afterColon, List.dropWhile_append_of_pos hcolon, List.dropWhile_cons, hstop]
    rfl

end

theorem contains_eq_true {parent child : List Str} (h : IsPath (ch '/') parent) :
    contains ([ch '/'].intercalate parent) ([ch '/'].intercalate child) = true ↔
      [ch '/'].intercalate parent ++ [ch '/'] <+: [ch '/'].intercalate child := by
  unfold contains
  rw [if_neg, List.isPrefixOf_iff_prefix]
  rw [List.isSuffixOf_iff_suffix]
  exact h.not_suffix

section
variable [UnicodeData]

theorem segments_root {resource : Str} (h : trimmed resource = str "/") :
    segments resource = [[]] := by
  have hparts : (str "/").splitOn (ch '/') = [[], []] := by decide
  unfold segments keptSegments
  rw [h, hparts]
  rfl

/-- Two normalized resources overlap exactly when one is at or below the other: they have one
kind, and the segments of one begin the segments of the other.  The root contains every
absolute path. -/
theorem overlap_iff_containment (hfolding : CaseFolding) {a b : Str} {left right : Resource}
    (ha : normalizeResource a = .ok left) (hb : normalizeResource b = .ok right) :
    (resourcesOverlap left right = true ↔
      a.beforeColon = b.beforeColon ∧
        (segments a <+: segments b ∨ segments b <+: segments a)) ∧
    (trimmed a = str "/" → (segments b).head? = some [] → a.beforeColon = b.beforeColon →
      resourcesOverlap left right = true) ∧
    resourcesOverlap left left = true ∧
    resourcesOverlap left right = resourcesOverlap right left := by
  have hleft := hfolding.segments_isPath a
  have hright := hfolding.segments_isPath b
  obtain ⟨hlkind, hlvalue⟩ := normalizeResource_value ha
  obtain ⟨hrkind, hrvalue⟩ := normalizeResource_value hb
  have hiff : resourcesOverlap left right = true ↔
      a.beforeColon = b.beforeColon ∧
        (segments a <+: segments b ∨ segments b <+: segments a) := by
    rw [hleft.prefix_iff hright, hright.prefix_iff hleft, ← contains_eq_true hleft,
      ← contains_eq_true hright]
    unfold resourcesOverlap
    rw [hlkind, hrkind, hlvalue, hrvalue]
    split_ifs with hkind hvalue
    · simp [hkind]
    · simpa [hvalue] using not_not.1 hkind
    · rw [Bool.or_eq_true]
      constructor
      · intro hcontains
        exact ⟨not_not.1 hkind, hcontains.imp .inr .inr⟩
      · rintro ⟨-, (heq | hin) | heq | hin⟩
        · exact absurd heq hvalue
        · exact .inl hin
        · exact absurd heq.symm hvalue
        · exact .inr hin
  refine ⟨hiff, ?_, ?_, resourcesOverlap_comm left right⟩
  · intro hroot habsolute hkind
    rw [hiff, segments_root hroot]
    refine ⟨hkind, .inl ?_⟩
    cases hb : segments b with
    | nil => exact absurd hb hright.ne_nil
    | cons first rest =>
      rw [hb, List.head?_cons, Option.some.injEq] at habsolute
      exact ⟨rest, by rw [habsolute]; rfl⟩
  · unfold resourcesOverlap
    simp

end

theorem asciiUnicodeData_caseFolding : @CaseFolding asciiUnicodeData := by
  have hfold : ∀ c, asciiUnicodeData.casefold c =
      [if 65 ≤ c.val ∧ c.val ≤ 90 then c + 32 else c] := fun _ => rfl
  let _ := asciiUnicodeData
  constructor
  · intro c hmem
    rw [hfold, List.mem_singleton] at hmem
    split at hmem
    · rename_i hc
      have hval : (c + 32).val = c.val + 32 := by
        rw [Fin.val_add]
        exact Nat.mod_eq_of_lt (by change c.val + 32 < 0x110000; omega)
      have hslash : (c + 32).val = 47 := by rw [← hmem]; rfl
      omega
    · exact hmem.symm
  · intro c
    rw [hfold]
    exact List.cons_ne_nil _ _

/-- A repository and a file in it, written with backslashes and capitals. -/
theorem repository_contains_file :
    let folder : Resource := ⟨str "file:c:/repo", by decide⟩
    let file : Resource := ⟨str "file:c:/repo/src", by decide⟩
    resourcesOverlap folder file = true ↔
      (str "file:C:\\Repo\\").beforeColon = (str "file:c:/repo//src").beforeColon ∧
        (@segments asciiUnicodeData (str "file:C:\\Repo\\") <+:
            @segments asciiUnicodeData (str "file:c:/repo//src") ∨
          @segments asciiUnicodeData (str "file:c:/repo//src") <+:
            @segments asciiUnicodeData (str "file:C:\\Repo\\")) :=
  let _ := asciiUnicodeData
  (overlap_iff_containment asciiUnicodeData_caseFolding
    (a := str "file:C:\\Repo\\") (b := str "file:c:/repo//src")
    (by decide +kernel) (by decide +kernel)).1

end IntegrityGuardian.WorkClaims
