import IntegrityGuardian.WorkspacePatch.PatchText

/-!
# What the scanner sees of a patch

The scanner checks the first markers behind each header line.  A section of any other
lines passes unseen.
-/

namespace IntegrityGuardian.WorkspacePatch

open Python Library
open Json (ch)

/-! ## Prefixes -/

theorem startsWith_iff {lead : String} {line : Str} :
    startsWith lead line = true ↔ ∃ rest, line = str lead ++ rest := by
  rw [startsWith, List.isPrefixOf_iff_prefix]
  constructor
  · rintro ⟨rest, h⟩
    exact ⟨rest, h.symm⟩
  · rintro ⟨rest, h⟩
    exact ⟨rest, h.symm⟩

/-- The path of a header line. -/
def declaredPath (piece : Str) : Option Str :=
  match diffHeader piece with
  | none => none
  | some (first, _) => (normalizePath first).toOption

/-- The paths of the lines that start with `diff --git `. -/
def declared (lines : List Str) : List Str :=
  (lines.filter (startsWith "diff --git ")).filterMap declaredPath

/-- The last header line comes after the last old marker. -/
def awaitsMarker : List Str → Bool
  | [] => false
  | piece :: before =>
    startsWith "diff --git " piece || (!startsWith "--- " piece && awaitsMarker before)

/-- What holds of the scan after the pieces `seen`, the last one first. -/
structure Scanned (seen : List Str) (s : Scan) : Prop where
  paths : s.paths = declared seen.reverse
  current : ∀ path, s.currentPath = some path → path ∈ s.paths
  clean : ∀ path ∈ s.paths, ∀ c ∈ path, isPathChar c = true
  order : s.newMarkerSeen = true → s.oldMarkerSeen = true
  awaits : awaitsMarker seen = true → s.currentPath.isSome = true ∧ s.oldMarkerSeen = false
  plain : ∀ piece ∈ seen, ∀ lead ∈ transitionPrefixes, startsWith lead piece = false

/-- What one line does to the scan. -/
inductive Scan.Reads (s : Scan) (line : Str) : Scan → Prop where
  | header {first path : Str} (hlead : startsWith "diff --git " line = true)
      (hgroups : diffHeader line = some (first, first)) (hpath : normalizePath first = .ok path) :
      s.Reads line ⟨s.paths ++ [path], some path, false, false⟩
  | oldMarker {path : Str} (hcurrent : s.currentPath = some path)
      (hunseen : s.oldMarkerSeen = false) (hline : line = str "--- a/" ++ path) :
      s.Reads line { s with oldMarkerSeen := true }
  | newMarker {path : Str} (hcurrent : s.currentPath = some path)
      (hseen : s.oldMarkerSeen = true) (hline : line = str "+++ b/" ++ path) :
      s.Reads line { s with newMarkerSeen := true }
  | other (hheader : startsWith "diff --git " line = false)
      (hold : s.currentPath.isSome = true → s.oldMarkerSeen = false →
        startsWith "--- " line = false)
      (hnew : s.currentPath.isSome = true → s.oldMarkerSeen = true → s.newMarkerSeen = false →
        startsWith "+++ " line = false) : s.Reads line s

theorem reads_of_line {s t : Scan} {line : Str} (h : s.line line = .ok t) :
    s.Reads line t ∧ ∀ lead ∈ transitionPrefixes, startsWith lead line = false := by
  unfold Scan.line at h
  by_cases hforbidden : (forbiddenPatchPrefixes.any fun lead => startsWith lead line) = true
  · rw [if_pos hforbidden] at h
    cases h
  rw [if_neg hforbidden] at h
  by_cases hnull : (startsWith "--- /dev/null" line || startsWith "+++ /dev/null" line) = true
  · rw [if_pos hnull] at h
    cases h
  rw [if_neg hnull] at h
  have hplain : ∀ lead ∈ transitionPrefixes, startsWith lead line = false := by
    intro lead hlead
    have hlisted : lead ∈ forbiddenPatchPrefixes ∨ lead = "--- /dev/null" ∨
        lead = "+++ /dev/null" := by
      revert lead
      decide
    rw [Bool.or_eq_true, not_or] at hnull
    rcases hlisted with hlisted | rfl | rfl
    · rw [← Bool.not_eq_true]
      intro hstarts
      exact hforbidden (List.any_eq_true.2 ⟨lead, hlisted, hstarts⟩)
    · exact Bool.not_eq_true _ ▸ hnull.1
    · exact Bool.not_eq_true _ ▸ hnull.2
  refine ⟨?_, hplain⟩
  by_cases hheader : startsWith "diff --git " line = true
  · rw [if_pos hheader] at h
    obtain ⟨-, h⟩ := ensure_bind_eq_ok.1 h
    cases hgroups : diffHeader line with
    | none =>
      rw [hgroups] at h
      cases h
    | some groups =>
      obtain ⟨first, second⟩ := groups
      rw [hgroups] at h
      obtain ⟨hsame, h⟩ := ensure_bind_eq_ok.1 h
      obtain ⟨path, hpath, h⟩ := bind_eq_ok.1 h
      cases h
      exact .header hheader (hsame ▸ hgroups) hpath
  rw [if_neg hheader] at h
  rw [Bool.not_eq_true] at hheader
  cases hcurrent : s.currentPath with
  | none =>
    rw [hcurrent] at h
    cases h
    exact .other hheader (by rw [hcurrent]; nofun) (by rw [hcurrent]; nofun)
  | some path =>
    rw [hcurrent] at h
    dsimp only at h
    by_cases hold : (!s.oldMarkerSeen && startsWith "--- " line) = true
    · rw [if_pos hold] at h
      obtain ⟨hline, h⟩ := ensure_bind_eq_ok.1 h
      rw [← hcurrent] at h
      cases h
      rw [Bool.and_eq_true, Bool.not_eq_true'] at hold
      exact .oldMarker hcurrent hold.1 hline
    rw [if_neg hold] at h
    by_cases hnew : (s.oldMarkerSeen && !s.newMarkerSeen && startsWith "+++ " line) = true
    · rw [if_pos hnew] at h
      obtain ⟨hline, h⟩ := ensure_bind_eq_ok.1 h
      rw [← hcurrent] at h
      cases h
      rw [Bool.and_eq_true, Bool.and_eq_true] at hnew
      exact .newMarker hcurrent hnew.1.1 hline
    rw [if_neg hnew] at h
    cases h
    refine .other hheader ?_ ?_
    · intro _ hunseen
      rw [hunseen] at hold
      exact Bool.not_eq_true _ ▸ hold
    · intro _ hseen hunseen
      rw [hseen, hunseen] at hnew
      exact Bool.not_eq_true _ ▸ hnew

theorem mem_of_mem_splitOnP {p : CodePoint → Bool} {text part : Str}
    (hpart : part ∈ text.splitOnP p) {c : CodePoint} (hc : c ∈ part) : c ∈ text := by
  induction text generalizing part with
  | nil =>
    rw [List.splitOnP_nil, List.mem_singleton] at hpart
    rw [hpart] at hc
    cases hc
  | cons d text ih =>
    rw [List.splitOnP_cons_eq_if_modifyHead] at hpart
    split_ifs at hpart
    · rcases List.mem_cons.1 hpart with rfl | hpart
      · cases hc
      · exact List.mem_cons_of_mem _ (ih hpart hc)
    · obtain ⟨head, tail, hcons⟩ := List.exists_cons_of_ne_nil (List.splitOnP_ne_nil p text)
      rw [hcons, List.modifyHead_cons] at hpart
      rcases List.mem_cons.1 hpart with rfl | hpart
      · rcases List.mem_cons.1 hc with rfl | hc
        · exact List.mem_cons_self
        · exact List.mem_cons_of_mem _ (ih (hcons ▸ List.mem_cons_self) hc)
      · exact List.mem_cons_of_mem _ (ih (hcons ▸ List.mem_cons_of_mem _ hpart) hc)

theorem mem_intercalate {separator : Str} {parts : List Str} {c : CodePoint}
    (h : c ∈ separator.intercalate parts) : c ∈ separator ∨ ∃ part ∈ parts, c ∈ part := by
  induction parts with
  | nil => cases h
  | cons part parts ih =>
    cases parts with
    | nil =>
      right
      refine ⟨part, List.mem_cons_self, ?_⟩
      simpa [List.intercalate] using h
    | cons next parts =>
      rw [List.intercalate, List.intersperse_cons_cons, List.flatten_cons, List.flatten_cons] at h
      rcases List.mem_append.1 h with h | h
      · exact .inr ⟨part, List.mem_cons_self, h⟩
      · rcases List.mem_append.1 h with h | h
        · exact .inl h
        · rcases ih h with hseparator | ⟨other, hother, hc⟩
          · exact .inl hseparator
          · exact .inr ⟨other, List.mem_cons_of_mem _ hother, hc⟩

theorem isPathChar_of_normalizePath {value path : Str} (h : normalizePath value = .ok path) :
    ∀ c ∈ path, isPathChar c = true := by
  obtain ⟨hsafe, h⟩ := ensure_bind_eq_ok.1 h
  obtain ⟨-, h⟩ := ensure_bind_eq_ok.1 h
  obtain ⟨-, h⟩ := ensure_bind_eq_ok.1 h
  have hvalue : ∀ c ∈ value, isPathChar c = true := by
    intro c hc
    cases value with
    | nil => cases hc
    | cons d rest =>
      have hparts := hsafe.1
      rw [isSafePath, Bool.and_eq_true, Bool.and_eq_true] at hparts
      rcases List.mem_cons.1 hc with rfl | hc
      · simp [isPathChar, hparts.1.1]
      · exact List.all_eq_true.1 hparts.2 c hc
  have hparts : ∀ part ∈ pathParts value, ∀ c ∈ part, isPathChar c = true := by
    intro part hpart c hc
    have hmem : part ∈ value.splitOnP fun c => c == ch '/' := (List.mem_filter.1 hpart).1
    exact hvalue c (mem_of_mem_splitOnP hmem hc)
  rw [← Except.ok.inj h]
  intro c hc
  rcases mem_intercalate hc with hslash | ⟨part, hpart, hc⟩
  · rw [List.mem_singleton.1 hslash]
    decide
  · exact hparts part hpart c hc

theorem declared_append (xs ys : List Str) : declared (xs ++ ys) = declared xs ++ declared ys := by
  rw [declared, List.filter_append, List.filterMap_append, declared, declared]

theorem declared_header {piece first path : Str} (hlead : startsWith "diff --git " piece = true)
    (hgroups : diffHeader piece = some (first, first)) (hpath : normalizePath first = .ok path) :
    declared [piece] = [path] := by
  have hdeclared : declaredPath piece = some path := by
    rw [declaredPath, hgroups]
    dsimp only
    rw [hpath]
    rfl
  rw [declared, List.filter_cons, if_pos hlead, List.filter_nil, List.filterMap_cons, hdeclared]
  rfl

theorem declared_other {piece : Str} (h : startsWith "diff --git " piece = false) :
    declared [piece] = [] := by
  rw [declared, List.filter_cons, h]
  rfl

theorem Scanned.line {seen : List Str} {s t : Scan} (h : Scanned seen s) {line : Str}
    (hline : s.line line = .ok t) : Scanned (line :: seen) t := by
  obtain ⟨hreads, hplain⟩ := reads_of_line hline
  have hall : ∀ piece ∈ line :: seen, ∀ lead ∈ transitionPrefixes,
      startsWith lead piece = false := by
    rw [List.forall_mem_cons]
    exact ⟨hplain, h.plain⟩
  have hdeclared : declared (line :: seen).reverse = s.paths ++ declared [line] := by
    rw [List.reverse_cons, declared_append, h.paths]
  cases hreads with
  | @header first path hlead hgroups hpath =>
    refine ⟨?_, ?_, ?_, nofun, fun _ => ⟨rfl, rfl⟩, hall⟩
    · rw [hdeclared, declared_header hlead hgroups hpath]
    · intro other hother
      rw [← Option.some.inj hother]
      exact List.mem_append_right _ (List.mem_singleton_self _)
    · intro other hother
      rcases List.mem_append.1 hother with hother | hother
      · exact h.clean other hother
      · rw [List.mem_singleton.1 hother]
        exact isPathChar_of_normalizePath hpath
  | @oldMarker path hcurrent hunseen hmarker =>
    have hlead : startsWith "--- " line = true :=
      startsWith_iff.2 ⟨str "a/" ++ path, hmarker⟩
    have hheader : startsWith "diff --git " line = false := by
      rw [hmarker]
      rfl
    refine ⟨?_, h.current, h.clean, fun _ => rfl, ?_, hall⟩
    · rw [hdeclared, declared_other hheader, List.append_nil]
    · intro hawaits
      rw [awaitsMarker, hheader, hlead] at hawaits
      cases hawaits
  | @newMarker path hcurrent hseen hmarker =>
    have hheader : startsWith "diff --git " line = false := by
      rw [hmarker]
      rfl
    have hold : startsWith "--- " line = false := by
      rw [hmarker]
      rfl
    refine ⟨?_, h.current, h.clean, fun _ => hseen, ?_, hall⟩
    · rw [hdeclared, declared_other hheader, List.append_nil]
    · intro hawaits
      rw [awaitsMarker, hheader, hold] at hawaits
      exact h.awaits hawaits
  | other hheader hold hnew =>
    refine ⟨?_, h.current, h.clean, h.order, ?_, hall⟩
    · rw [hdeclared, declared_other hheader, List.append_nil]
    · intro hawaits
      rw [awaitsMarker, hheader, Bool.false_or, Bool.and_eq_true] at hawaits
      exact h.awaits hawaits.2

theorem Scanned.lines {seen lines : List Str} {s t : Scan} (h : Scanned seen s)
    (hlines : scanLines s lines = .ok t) : Scanned (lines.reverse ++ seen) t := by
  induction lines generalizing seen s with
  | nil =>
    rw [← Except.ok.inj hlines]
    exact h
  | cons line lines ih =>
    obtain ⟨next, hline, hrest⟩ := bind_eq_ok.1 hlines
    have hnext := ih (h.line hline) hrest
    rw [List.reverse_cons, List.append_assoc]
    exact hnext

/-- The scanner checks a section when its opening lines have no break but their line feeds,
and it is a header line with a normal path, or its markers are the first behind a header
line. -/
def FileSection.Guarded (s : FileSection) : Prop :=
  (∀ line ∈ s.opening, ∀ c ∈ line, isLineBreak c = false) ∧
    match s.opening with
    | [_] => normalizePath s.old = .ok s.old
    | _ => awaitsMarker (s.before.flatMap pieces).reverse = true

end IntegrityGuardian.WorkspacePatch
