import IntegrityGuardian.ActionLog.Redaction
import Mathlib.Data.List.TakeWhile

/-!
# What redaction hides

Two texts that differ only in the value of a pair which the substitution of
`redact_text` reaches have one redacted text.  The expression is matched at a
position, so the main point is that no other match begins or ends because of
what the value is.
-/

namespace IntegrityGuardian.ActionLog

open Python
open Json (ch)

/-! ## Runs and separators -/

/-- The class `[^\s,;]`. -/
def inside (c : CodePoint) : Bool := !(c.isspace || c == ch ',' || c == ch ';')

/-- What `[^\s,;]+` matches. -/
def IsRun (v : Str) : Prop := v ≠ [] ∧ ∀ c ∈ v, inside c = true

/-- The text in place of a value. -/
def placeholder : Str := str "[REDACTED]"

theorem isRun_placeholder : IsRun placeholder := by
  refine ⟨List.cons_ne_nil _ _, ?_⟩
  have hall : placeholder.all inside = true := by decide
  exact List.all_eq_true.1 hall

/-- A run ends before this text. -/
def Ends (rest : Str) : Prop := ∀ c ∈ rest.head?, inside c = false

/-- What `\s*[:=]\s*` matches. -/
def IsSeparator (separator : Str) : Prop :=
  ∃ a c b, separator = a ++ c :: b ∧ (∀ d ∈ a, d.isspace = true) ∧ (c = ch ':' ∨ c = ch '=') ∧
    ∀ d ∈ b, d.isspace = true

variable {c : CodePoint} {word : List Item} {pair : Pair} {rest s s' v : Str}

theorem not_isspace_of_inside (h : inside c = true) : c.isspace = false := by
  unfold inside at h
  cases hc : c.isspace with
  | false => rfl
  | true => simp [hc] at h

theorem not_isspace_of_colon (h : c = ch ':' ∨ c = ch '=') : c.isspace = false := by
  rcases h with rfl | rfl <;> rfl

theorem takeWhile_inside (hv : ∀ c ∈ v, inside c = true) (hrest : Ends rest) :
    (v ++ rest).takeWhile inside = v ∧ (v ++ rest).dropWhile inside = rest := by
  rw [List.takeWhile_append_of_pos hv, List.dropWhile_append_of_pos hv]
  cases rest with
  | nil => simp
  | cons c rest =>
    have hc : inside c = false := hrest c rfl
    simp [hc]

theorem run_unique {v' rest' : Str} (hv : ∀ c ∈ v, inside c = true)
    (hv' : ∀ c ∈ v', inside c = true) (hrest : Ends rest) (hrest' : Ends rest')
    (h : v ++ rest = v' ++ rest') : v = v' ∧ rest = rest' := by
  have hleft := takeWhile_inside hv hrest
  have hright := takeWhile_inside hv' hrest'
  rw [h] at hleft
  exact ⟨hleft.1.symm.trans hright.1, hleft.2.symm.trans hright.2⟩

theorem dropWhile_isspace_append {a rest : Str} (ha : ∀ c ∈ a, c.isspace = true)
    (hrest : ∀ c ∈ rest.head?, c.isspace = false) :
    (a ++ rest).takeWhile CodePoint.isspace = a ∧
      (a ++ rest).dropWhile CodePoint.isspace = rest := by
  rw [List.takeWhile_append_of_pos ha, List.dropWhile_append_of_pos ha]
  cases rest with
  | nil => simp
  | cons c rest =>
    have hc : c.isspace = false := hrest c rfl
    simp [hc]

theorem IsRun.head (h : IsRun v) (rest : Str) : ∀ c ∈ (v ++ rest).head?, inside c = true := by
  obtain ⟨hne, hall⟩ := h
  cases v with
  | nil => exact absurd rfl hne
  | cons d v =>
    intro c hc
    cases hc
    exact hall _ List.mem_cons_self

theorem matchSeparator_append (word : Str) {separator : Str} (hs : IsSeparator separator)
    (hv : IsRun v) (hrest : Ends rest) :
    matchSeparator word (separator ++ v ++ rest) = some ⟨word, separator, v, rest⟩ := by
  obtain ⟨a, c, b, rfl, ha, hc, hb⟩ := hs
  have hfirst := @dropWhile_isspace_append a (c :: (b ++ (v ++ rest))) ha (by
    intro d hd
    cases hd
    exact not_isspace_of_colon hc)
  have hsecond := @dropWhile_isspace_append b (v ++ rest) hb fun d hd =>
    not_isspace_of_inside (hv.head rest d hd)
  have hrun := takeWhile_inside hv.2 hrest
  have hshape : a ++ c :: b ++ v ++ rest = a ++ c :: (b ++ (v ++ rest)) := by
    simp only [List.append_assoc, List.cons_append]
  unfold matchSeparator
  rw [hshape, hfirst.1, hfirst.2]
  change (if c = ch ':' ∨ c = ch '=' then
      if List.takeWhile inside (List.dropWhile CodePoint.isspace (b ++ (v ++ rest))) = [] then none
      else some (Pair.mk word (a ++ c :: List.takeWhile CodePoint.isspace (b ++ (v ++ rest)))
        (List.takeWhile inside (List.dropWhile CodePoint.isspace (b ++ (v ++ rest))))
        (List.dropWhile inside (List.dropWhile CodePoint.isspace (b ++ (v ++ rest)))))
    else none) = _
  rw [if_pos hc, hsecond.1, hsecond.2, hrun.1, hrun.2, if_neg hv.1]

theorem ends_dropWhile (s : Str) : Ends (s.dropWhile inside) := by
  intro c hc
  have h := List.head?_dropWhile_not inside s
  rw [Option.mem_def.1 hc] at h
  simpa using h

theorem matchSeparator_eq_some {word : Str} (h : matchSeparator word s = some pair) :
    pair.word = word ∧ s = pair.separator ++ pair.value ++ pair.rest ∧
      IsSeparator pair.separator ∧ IsRun pair.value ∧ Ends pair.rest := by
  unfold matchSeparator at h
  have hsplit := List.takeWhile_append_dropWhile (p := CodePoint.isspace) (l := s)
  revert h hsplit
  cases hd : s.dropWhile CodePoint.isspace with
  | nil =>
    intro h
    cases h
  | cons c t =>
    intro h hsplit
    simp only at h
    split_ifs at h with hc hrun
    cases h
    refine ⟨rfl, ?_, ⟨_, c, _, rfl, ?_, hc, ?_⟩, ⟨hrun, ?_⟩, ends_dropWhile _⟩
    · conv_lhs => rw [← hsplit, ← List.takeWhile_append_dropWhile (p := CodePoint.isspace) (l := t),
        ← List.takeWhile_append_dropWhile (p := inside)
          (l := t.dropWhile CodePoint.isspace)]
      simp only [List.append_assoc, List.cons_append]
      rfl
    · intro d hd
      exact List.mem_takeWhile_imp hd
    · intro d hd
      exact List.mem_takeWhile_imp hd
    · intro d hd
      exact List.mem_takeWhile_imp hd

/-! ## Texts with another value after a separator -/

/-- Two texts that agree up to a separator; a run follows it in both. -/
inductive Differs : Str → Str → Prop
  | intro (q : Str) (x : CodePoint) (a v v' : Str) (hx : x = ch ':' ∨ x = ch '=')
      (ha : ∀ c ∈ a, c.isspace = true) (hv : v.head?.any inside = true)
      (hv' : v'.head?.any inside = true) :
      Differs (q ++ x :: (a ++ v)) (q ++ x :: (a ++ v'))

theorem Differs.append (p : Str) (h : Differs s s') : Differs (p ++ s) (p ++ s') := by
  obtain ⟨q, x, a, v, v', hx, ha, hv, hv'⟩ := h
  have h := Differs.intro (p ++ q) x a v v' hx ha hv hv'
  simpa only [List.append_assoc] using h

theorem Differs.cons (c : CodePoint) {s s' : Str} (h : Differs s s') :
    Differs (c :: s) (c :: s') := h.append [c]

theorem Differs.head? (h : Differs s s') : s.head? = s'.head? := by
  obtain ⟨q, x, a, v, v', hx, ha, hv, hv'⟩ := h
  cases q with
  | nil => rfl
  | cons c q => rfl

/-- The letters of the sensitive words are small Latin letters. -/
def Item.latin : Item → Prop
  | .letter l => 97 ≤ l.toNat ∧ l.toNat ≤ 122
  | .dash => True

instance : DecidablePred Item.latin
  | .letter _ => inferInstanceAs (Decidable (_ ∧ _))
  | .dash => inferInstanceAs (Decidable True)

theorem latin_of_mem_sensitiveWords :
    ∀ word ∈ sensitiveWords, ∀ item ∈ word, item.latin := by decide

theorem head_of_mem_sensitiveWords :
    ∀ word ∈ sensitiveWords, ∃ l items, word = .letter l :: items := by
  intro word hword
  simp only [sensitiveWords, List.mem_cons, List.not_mem_nil, or_false] at hword
  rcases hword with rfl | rfl | rfl | rfl | rfl | rfl | rfl | rfl | rfl | rfl <;>
    exact ⟨_, _, rfl⟩

theorem inside_of_matchesLetter {l : Char} (hl : (Item.letter l).latin)
    (h : matchesLetter l c = true) : inside c = true ∧ c ≠ ch ':' ∧ c ≠ ch '=' := by
  obtain ⟨hlow, hhigh⟩ := hl
  unfold matchesLetter at h
  simp only [Bool.or_eq_true, Bool.and_eq_true, beq_iff_eq] at h
  have hval : (65 ≤ c.val ∧ c.val ≤ 90) ∨ (97 ≤ c.val ∧ c.val ≤ 122) ∨ c.val = 0x130 ∨
      c.val = 0x131 ∨ c.val = 0x17f ∨ c.val = 0x212a := by omega
  have hcolon : (ch ':').val = 58 := rfl
  have hequals : (ch '=').val = 61 := rfl
  have hcomma : (ch ',').val = 44 := rfl
  have hsemicolon : (ch ';').val = 59 := rfl
  refine ⟨?_, ?_, ?_⟩
  · simp only [inside, CodePoint.isspace, Bool.not_eq_true', Bool.or_eq_false_iff,
      Bool.and_eq_false_iff, beq_eq_false_iff_ne, ne_eq, decide_eq_false_iff_not, Fin.ext_iff]
    omega
  · rw [ne_eq, Fin.ext_iff]
    omega
  · rw [ne_eq, Fin.ext_iff]
    omega

/-- What the items match is the same in both texts, which still differ after it. -/
theorem matchItems_differs : ∀ {items : List Item} {s s' : Str}, (∀ item ∈ items, item.latin) →
    Differs s s' →
    (matchItems items s = none ∧ matchItems items s' = none) ∨
      ∃ m u u', matchItems items s = some (m, u) ∧ matchItems items s' = some (m, u') ∧
        Differs u u'
  | [], s, s', _, h => .inr ⟨[], s, s', rfl, rfl, h⟩
  | .letter l :: items, _, _, hlatin, .intro q x a v v' hx ha hv hv' => by
    cases q with
    | nil =>
      have hmiss : matchesLetter l x = false := by
        by_contra hl
        rw [Bool.not_eq_false] at hl
        have hne := (inside_of_matchesLetter (hlatin _ List.mem_cons_self) hl).2
        rcases hx with rfl | rfl
        · exact hne.1 rfl
        · exact hne.2 rfl
      left
      simp only [List.nil_append, matchItems, hmiss, Bool.false_eq_true, if_false, and_self]
    | cons c q =>
      have hrest := Differs.intro q x a v v' hx ha hv hv'
      cases hl : matchesLetter l c with
      | false =>
        left
        simp only [List.cons_append, matchItems, hl, Bool.false_eq_true, if_false, and_self]
      | true =>
        have ih := matchItems_differs (fun i hi => hlatin i (List.mem_cons_of_mem _ hi)) hrest
        simp only [List.cons_append, matchItems, hl, if_true]
        rcases ih with ⟨hleft, hright⟩ | ⟨m, u, u', hleft, hright, hu⟩
        · left
          rw [hleft, hright]
          exact ⟨rfl, rfl⟩
        · right
          rw [hleft, hright]
          exact ⟨c :: m, u, u', rfl, rfl, hu⟩
  | .dash :: items, _, _, hlatin, .intro q x a v v' hx ha hv hv' => by
    have hlatin' := fun i hi => hlatin i (List.mem_cons_of_mem Item.dash hi)
    have hwhole := Differs.intro q x a v v' hx ha hv hv'
    cases q with
    | nil =>
      have hmiss : ¬(x = ch '_' ∨ x = ch '-') := by
        rcases hx with rfl | rfl <;> decide
      simp only [List.nil_append, matchItems, if_neg hmiss]
      exact matchItems_differs hlatin' hwhole
    | cons c q =>
      have hrest := Differs.intro q x a v v' hx ha hv hv'
      by_cases hdash : c = ch '_' ∨ c = ch '-'
      · simp only [List.cons_append, matchItems, if_pos hdash]
        rcases matchItems_differs hlatin' hrest with ⟨hleft, hright⟩ |
          ⟨m, u, u', hleft, hright, hu⟩
        · left
          rw [hleft, hright]
          exact ⟨rfl, rfl⟩
        · right
          rw [hleft, hright]
          exact ⟨c :: m, u, u', rfl, rfl, hu⟩
      · simp only [List.cons_append, matchItems, if_neg hdash]
        exact matchItems_differs hlatin' hwhole

theorem isSome_matchSeparator (word s : Str) : (matchSeparator word s).isSome =
    match s.dropWhile CodePoint.isspace with
    | [] => false
    | c :: t => (c == ch ':' || c == ch '=') &&
        (t.dropWhile CodePoint.isspace).head?.any inside := by
  unfold matchSeparator
  cases s.dropWhile CodePoint.isspace with
  | nil => rfl
  | cons c t =>
    simp only
    cases ht : t.dropWhile CodePoint.isspace with
    | nil =>
      simp only [List.takeWhile_nil, if_true, List.head?_nil, Option.any_none, Bool.and_false]
      split_ifs <;> rfl
    | cons d t =>
      by_cases hc : c = ch ':' ∨ c = ch '='
      · have hbool : (c == ch ':' || c == ch '=') = true := by
          rw [Bool.or_eq_true, beq_iff_eq, beq_iff_eq]
          exact hc
        rw [if_pos hc, hbool, Bool.true_and, List.head?_cons, Option.any_some]
        change (if List.takeWhile inside (d :: t) = [] then none else _).isSome = _
        cases hd : inside d with
        | false => simp [hd]
        | true => simp [hd]
      · have hbool : (c == ch ':' || c == ch '=') = false := by
          rw [Bool.or_eq_false_iff, beq_eq_false_iff_ne, beq_eq_false_iff_ne]
          exact not_or.1 hc
        rw [if_neg hc, hbool, Bool.false_and]
        rfl

theorem dropWhile_isspace_cons {q : Str} {x : CodePoint} (hx : x.isspace = false) (t : Str) :
    (q ++ x :: t).dropWhile CodePoint.isspace = q.dropWhile CodePoint.isspace ++ x :: t := by
  rw [List.dropWhile_append]
  split_ifs with h
  · rw [List.isEmpty_iff.1 h]
    simp [hx]
  · rfl

theorem isSome_matchSeparator_differs (word : Str) (h : Differs s s') :
    (matchSeparator word s).isSome = (matchSeparator word s').isSome := by
  obtain ⟨q, x, a, v, v', hx, ha, hv, hv'⟩ := h
  have hxs := not_isspace_of_colon hx
  rw [isSome_matchSeparator, isSome_matchSeparator, dropWhile_isspace_cons hxs,
    dropWhile_isspace_cons hxs]
  cases q.dropWhile CodePoint.isspace with
  | nil =>
    -- the separator is the one the value follows
    have hskip : ∀ v : Str, v.head?.any inside = true →
        (a ++ v).dropWhile CodePoint.isspace = v := by
      intro v hv
      refine (dropWhile_isspace_append ha ?_).2
      intro c hc
      rw [Option.mem_def.1 hc] at hv
      exact not_isspace_of_inside hv
    simp only [List.nil_append, hskip v hv, hskip v' hv', hv, hv']
  | cons c q =>
    -- an earlier character is read as separator, so the next one is common to both
    simp only [List.cons_append, dropWhile_isspace_cons hxs]
    cases q.dropWhile CodePoint.isspace <;> rfl

/-- Reading one alternative at a position. -/
def matchWord (s : Str) (word : List Item) : Option Pair :=
  (matchItems word s).bind fun m => matchSeparator m.1 m.2

theorem isSome_matchWord_differs (hword : word ∈ sensitiveWords)
    (h : Differs s s') : (matchWord s word).isSome = (matchWord s' word).isSome := by
  unfold matchWord
  rcases matchItems_differs (latin_of_mem_sensitiveWords word hword) h with ⟨hs, hs'⟩ |
    ⟨m, u, u', hs, hs', hu⟩
  · rw [hs, hs']
  · rw [hs, hs']
    exact isSome_matchSeparator_differs m hu

theorem matchPair_eq (s : Str) : matchPair s = sensitiveWords.findSome? (matchWord s) := rfl

theorem isSome_matchPair_differs (h : Differs s s') :
    (matchPair s).isSome = (matchPair s').isSome := by
  rw [matchPair_eq, matchPair_eq, Bool.eq_iff_iff, List.findSome?_isSome_iff,
    List.findSome?_isSome_iff]
  constructor
  · rintro ⟨word, hword, hsome⟩
    exact ⟨word, hword, isSome_matchWord_differs hword h ▸ hsome⟩
  · rintro ⟨word, hword, hsome⟩
    exact ⟨word, hword, (isSome_matchWord_differs hword h).symm ▸ hsome⟩

/-! ## A match with another value -/

theorem matchItems_eq_some : ∀ {items : List Item} {s m u : Str},
    matchItems items s = some (m, u) → s = m ++ u
  | [], _, _, _, h => by
    cases h
    rfl
  | .letter _ :: _, [], _, _, h => by cases h
  | .letter l :: items, c :: s, _, _, h => by
    rw [matchItems] at h
    split_ifs at h
    obtain ⟨⟨m, u⟩, hm, hmu⟩ := Option.map_eq_some_iff.1 h
    cases hmu
    rw [matchItems_eq_some hm]
    rfl
  | .dash :: items, [], _, _, h => @matchItems_eq_some items _ _ _ h
  | .dash :: items, c :: s, _, _, h => by
    rw [matchItems] at h
    split_ifs at h
    · obtain ⟨⟨m, u⟩, hm, hmu⟩ := Option.map_eq_some_iff.1 h
      cases hmu
      rw [matchItems_eq_some hm]
      rfl
    · exact matchItems_eq_some h

theorem differs_of_separator {separator v' : Str} (rest rest' : Str) (hs : IsSeparator separator)
    (hv : IsRun v) (hv' : IsRun v') :
    Differs (separator ++ v ++ rest) (separator ++ v' ++ rest') := by
  obtain ⟨a, c, b, rfl, ha, hc, hb⟩ := hs
  have hhead : ∀ {v rest : Str}, IsRun v → (v ++ rest).head?.any inside = true := by
    intro v rest hv
    cases v with
    | nil => exact absurd rfl hv.1
    | cons d v => exact hv.2 d List.mem_cons_self
  have h := Differs.intro a c b (v ++ rest) (v' ++ rest') hc hb (hhead hv) (hhead hv')
  simpa only [List.append_assoc, List.cons_append] using h

theorem matchWord_eq_some (h : matchWord s word = some pair) :
    s = pair.word ++ (pair.separator ++ pair.value ++ pair.rest) ∧ IsSeparator pair.separator ∧
      IsRun pair.value ∧ Ends pair.rest := by
  obtain ⟨⟨m, u⟩, hm, hu⟩ := Option.bind_eq_some_iff.1 h
  obtain ⟨rfl, hshape, hs, hv, hrest⟩ := matchSeparator_eq_some hu
  refine ⟨?_, hs, hv, hrest⟩
  have hu' : u = pair.separator ++ pair.value ++ pair.rest := hshape
  rw [matchItems_eq_some hm, ← hu']

theorem matchWord_replace (hword : word ∈ sensitiveWords)
    (h : matchWord s word = some pair) (hv : IsRun v) (hrest : Ends rest) :
    matchWord (pair.word ++ (pair.separator ++ v ++ rest)) word =
      some ⟨pair.word, pair.separator, v, rest⟩ := by
  obtain ⟨hshape, hs, hvalue, -⟩ := matchWord_eq_some h
  obtain ⟨⟨m, u⟩, hm, hu⟩ := Option.bind_eq_some_iff.1 h
  obtain ⟨hmatched, hrestShape, -, -, -⟩ := matchSeparator_eq_some hu
  have hdiffers := (differs_of_separator pair.rest rest hs hvalue hv).append
    pair.word
  rw [← hshape] at hdiffers
  rcases matchItems_differs (latin_of_mem_sensitiveWords word hword) hdiffers with ⟨hnone, -⟩ |
    ⟨m', w, w', hw, hw', -⟩
  · rw [hnone] at hm
    cases hm
  · rw [hm] at hw
    cases hw
    have hrest' := matchItems_eq_some hw'
    simp only at hmatched
    rw [← hmatched] at hrest' hw'
    have hrestEq := List.append_cancel_left hrest'
    unfold matchWord
    rw [hw', ← hrestEq]
    exact matchSeparator_append _ hs hv hrest

theorem matchPair_eq_some (h : matchPair s = some pair) :
    s = pair.word ++ (pair.separator ++ pair.value ++ pair.rest) ∧ IsSeparator pair.separator ∧
      IsRun pair.value ∧ Ends pair.rest := by
  obtain ⟨word, -, hword⟩ := List.exists_of_findSome?_eq_some h
  exact matchWord_eq_some hword

theorem matchPair_replace (h : matchPair s = some pair) (hv : IsRun v) (hrest : Ends rest) :
    matchPair (pair.word ++ (pair.separator ++ v ++ rest)) =
      some ⟨pair.word, pair.separator, v, rest⟩ := by
  obtain ⟨hshape, hs, hvalue, -⟩ := matchPair_eq_some h
  have hdiffers := (differs_of_separator pair.rest rest hs hvalue hv).append
    pair.word
  rw [← hshape] at hdiffers
  rw [matchPair_eq, List.findSome?_eq_some_iff] at h ⊢
  obtain ⟨before, word, after, hwords, hword, hnone⟩ := h
  have hmem : ∀ other ∈ before ++ word :: after, other ∈ sensitiveWords := by
    rw [hwords]
    exact fun _ hother => hother
  refine ⟨before, word, after, hwords, matchWord_replace (hmem word ?_) hword hv hrest, ?_⟩
  · exact List.mem_append_right _ List.mem_cons_self
  · intro other hother
    have hsame := isSome_matchWord_differs (hmem other (List.mem_append_left _ hother)) hdiffers
    rw [hnone other hother] at hsame
    apply Option.not_isSome_iff_eq_none.1
    rw [← hsame]
    exact Bool.false_ne_true

theorem inside_of_matchPair (h : (matchPair (c :: s)).isSome = true) : inside c = true := by
  obtain ⟨pair, hpair⟩ := Option.isSome_iff_exists.1 h
  obtain ⟨word, hword, hmatch⟩ := List.exists_of_findSome?_eq_some hpair
  obtain ⟨l, items, rfl⟩ := head_of_mem_sensitiveWords word hword
  have hlatin := latin_of_mem_sensitiveWords _ hword _ List.mem_cons_self
  cases hl : matchesLetter l c with
  | true => exact (inside_of_matchesLetter hlatin hl).1
  | false => simp [matchItems, hl] at hmatch

section
variable [WordData]

/-- The match of the substitution at a position, which is at a word boundary. -/
def pairAt (before : Bool) : Str → Option Pair
  | [] => none
  | c :: s => if before != WordData.isWord c then matchPair (c :: s) else none

theorem pairAt_cons (before : Bool) (c : CodePoint) (s : Str) : pairAt before (c :: s) =
    if before != WordData.isWord c then matchPair (c :: s) else none := rfl

variable {before : Bool} {pair : Pair} {s : Str}

theorem pairAt_eq_some (h : pairAt before s = some pair) : matchPair s = some pair := by
  cases s with
  | nil => cases h
  | cons c s =>
    rw [pairAt_cons] at h
    split_ifs at h
    exact h

theorem pairAt_congr {s' : Str} (hhead : s.head? = s'.head?) {pair' : Pair}
    (h : pairAt before s = some pair) (h' : matchPair s' = some pair') :
    pairAt before s' = some pair' := by
  cases s with
  | nil => cases h
  | cons c s =>
    cases s' with
    | nil => cases hhead
    | cons d s' =>
      cases hhead
      rw [pairAt_cons] at h ⊢
      split_ifs at h with hboundary
      rw [if_pos hboundary]
      exact h'

theorem pairAt_replace (h : pairAt before s = some pair)
    {v rest : Str} (hv : IsRun v) (hrest : Ends rest) :
    pairAt before (pair.word ++ (pair.separator ++ v ++ rest)) =
      some ⟨pair.word, pair.separator, v, rest⟩ := by
  have hmatch := pairAt_eq_some h
  obtain ⟨hshape, hs, hvalue, -⟩ := matchPair_eq_some hmatch
  have hdiffers := (differs_of_separator pair.rest rest hs hvalue hv).append
    pair.word
  rw [← hshape] at hdiffers
  exact pairAt_congr hdiffers.head? h (matchPair_replace hmatch hv hrest)

theorem pairAt_none_of_differs {s' : Str} (h : Differs s s')
    (hnone : pairAt before s = none) : pairAt before s' = none := by
  cases hsome : pairAt before s' with
  | none => rfl
  | some pair =>
    have hmatch := isSome_matchPair_differs h
    rw [pairAt_eq_some hsome] at hmatch
    obtain ⟨pair', hpair'⟩ := Option.isSome_iff_exists.1 hmatch
    rw [pairAt_congr h.head?.symm hsome hpair'] at hnone
    cases hnone

theorem pairAt_none_of_ends (h : Ends s) (before : Bool) : pairAt before s = none := by
  cases hsome : pairAt before s with
  | none => rfl
  | some pair =>
    cases s with
    | nil => cases hsome
    | cons c s =>
      have hinside : inside c = true := by
        apply inside_of_matchPair (s := s)
        rw [pairAt_eq_some hsome]
        rfl
      rw [h c rfl] at hinside
      cases hinside

/-! ## The substitution -/

/-- The substitution with fuel for the whole text. -/
def redacted (before : Bool) (s : Str) : Str := redactFrom s.length before s

theorem redactFrom_cons (fuel : Nat) (before : Bool) (c : CodePoint) (s : Str) :
    redactFrom (fuel + 1) before (c :: s) =
      match pairAt before (c :: s) with
      | some pair => pair.word ++ pair.separator ++ placeholder ++
          redactFrom fuel (pair.value.getLast?.any WordData.isWord) pair.rest
      | none => c :: redactFrom fuel (WordData.isWord c) s := by
  rw [pairAt_cons]
  rfl

theorem length_rest_lt (h : pairAt before s = some pair) : pair.rest.length < s.length := by
  obtain ⟨hshape, hs, hvalue, -⟩ := matchPair_eq_some (pairAt_eq_some h)
  have hpos := List.length_pos_of_ne_nil hvalue.1
  have hlength := congrArg List.length hshape
  simp only [List.length_append] at hlength
  omega

theorem redactFrom_eq : ∀ (fuel : Nat) (before : Bool) (s : Str), s.length ≤ fuel →
    redactFrom fuel before s = redacted before s := by
  have hmore : ∀ (fuel more : Nat) (before : Bool) (s : Str), s.length ≤ fuel → fuel ≤ more →
      redactFrom fuel before s = redactFrom more before s := by
    intro fuel
    induction fuel with
    | zero =>
      intro more before s hs _
      rw [List.eq_nil_of_length_eq_zero (Nat.le_zero.1 hs)]
      cases more <;> rfl
    | succ fuel ih =>
      intro more before s hs hmore
      cases more with
      | zero => omega
      | succ more =>
        cases s with
        | nil => rfl
        | cons c s =>
          rw [redactFrom_cons, redactFrom_cons]
          rw [List.length_cons] at hs
          cases hpair : pairAt before (c :: s) with
          | none =>
            simp only
            rw [ih more _ s (by omega) (by omega)]
          | some pair =>
            have hlt := length_rest_lt hpair
            rw [List.length_cons] at hlt
            simp only
            rw [ih more _ pair.rest (by omega) (by omega)]
  intro fuel before s hs
  exact (hmore s.length fuel before s (Nat.le_refl _) hs).symm

theorem redacted_pair (h : pairAt before s = some pair) :
    redacted before s = pair.word ++ (pair.separator ++ placeholder ++
      redacted (pair.value.getLast?.any WordData.isWord) pair.rest) := by
  cases s with
  | nil => cases h
  | cons c s =>
    have hlt := length_rest_lt h
    rw [List.length_cons] at hlt
    unfold redacted
    rw [List.length_cons, redactFrom_cons, h]
    simp only
    rw [redactFrom_eq _ _ _ (by omega)]
    simp only [List.append_assoc]
    rfl

theorem redacted_skip {c : CodePoint} (h : pairAt before (c :: s) = none) :
    redacted before (c :: s) = c :: redacted (WordData.isWord c) s := by
  unfold redacted
  rw [List.length_cons, redactFrom_cons, h]

theorem redactText_eq (s : Str) : redactText s = redacted false s :=
  redactFrom_eq _ _ _ (Nat.le_succ _)

theorem scan_induction {P : Bool → Str → Prop} (nil : ∀ before, P before [])
    (pair : ∀ before s pair, pairAt before s = some pair →
      P (pair.value.getLast?.any WordData.isWord) pair.rest → P before s)
    (skip : ∀ before c s, pairAt before (c :: s) = none → P (WordData.isWord c) s →
      P before (c :: s)) (before : Bool) (s : Str) : P before s := by
  induction hn : s.length using Nat.strong_induction_on generalizing before s with
  | h n ih =>
    subst hn
    cases hpair : pairAt before s with
    | some p => exact pair before s p hpair (ih _ (length_rest_lt hpair) _ _ rfl)
    | none =>
      cases s with
      | nil => exact nil before
      | cons c s => exact skip before c s hpair (ih s.length (Nat.lt_succ_self _) _ _ rfl)

theorem redacted_of_ends (h : Ends s) (before before' : Bool) :
    redacted before s = redacted before' s := by
  cases s with
  | nil => rfl
  | cons c s =>
    rw [redacted_skip (pairAt_none_of_ends h before), redacted_skip (pairAt_none_of_ends h before')]

theorem redacted_eq_or_differs (before : Bool) (s : Str) :
    redacted before s = s ∨ Differs s (redacted before s) := by
  induction before, s using scan_induction with
  | nil before => exact .inl rfl
  | pair before s pair hpair _ =>
    right
    obtain ⟨hshape, hs, hvalue, -⟩ := matchPair_eq_some (pairAt_eq_some hpair)
    rw [redacted_pair hpair]
    conv => arg 1; rw [hshape]
    exact (differs_of_separator _ _ hs hvalue isRun_placeholder).append pair.word
  | skip before c s hnone ih =>
    rw [redacted_skip hnone]
    rcases ih with ih | ih
    · rw [ih]
      exact .inl rfl
    · exact .inr (ih.cons c)

theorem ends_redacted (h : Ends s) (before : Bool) : Ends (redacted before s) := by
  rcases redacted_eq_or_differs before s with hsame | hdiffers
  · rw [hsame]
    exact h
  · intro c hc
    rw [← hdiffers.head?] at hc
    exact h c hc

theorem redacted_redacted (before : Bool) (s : Str) :
    redacted before (redacted before s) = redacted before s := by
  induction before, s using scan_induction with
  | nil before => rfl
  | pair before s pair hpair ih =>
    obtain ⟨-, -, -, hends⟩ := matchPair_eq_some (pairAt_eq_some hpair)
    have hrest := ends_redacted hends (pair.value.getLast?.any WordData.isWord)
    rw [redacted_pair hpair, redacted_pair (pairAt_replace hpair isRun_placeholder hrest)]
    simp only
    rw [redacted_of_ends hrest _ (pair.value.getLast?.any WordData.isWord), ih]
  | skip before c s hnone ih =>
    have hnext : pairAt before (c :: redacted (WordData.isWord c) s) = none := by
      rcases redacted_eq_or_differs (WordData.isWord c) s with hsame | hdiffers
      · rw [hsame]
        exact hnone
      · exact pairAt_none_of_differs (hdiffers.cons c) hnone
    rw [redacted_skip hnone, redacted_skip hnext, ih]

theorem redactText_redactText (s : Str) : redactText (redactText s) = redactText s := by
  rw [redactText_eq, redactText_eq, redacted_redacted]

/-! ## Another value -/

/-- The second text is the first with `new` for the value `old` of one of the pairs that the
substitution reaches; `before` tells whether a word character stands before the text. -/
inductive Replaced (old new : Str) : Bool → Str → Str → Prop
  | here {before : Bool} {s : Str} {pair : Pair} (h : pairAt before s = some pair)
      (hold : pair.value = old) (hnew : IsRun new) :
      Replaced old new before s (pair.word ++ (pair.separator ++ new ++ pair.rest))
  | later {before : Bool} {s rest' : Str} {pair : Pair} (h : pairAt before s = some pair)
      (hrest : Replaced old new (pair.value.getLast?.any WordData.isWord) pair.rest rest') :
      Replaced old new before s (pair.word ++ (pair.separator ++ pair.value ++ rest'))
  | skip {before : Bool} {c : CodePoint} {s s' : Str} (h : pairAt before (c :: s) = none)
      (hs : Replaced old new (WordData.isWord c) s s') :
      Replaced old new before (c :: s) (c :: s')

variable {old new : Str}

variable {before : Bool} {s s' : Str}

theorem Replaced.differs (h : Replaced old new before s s') : Differs s s' := by
  induction h with
  | here h hold hnew =>
    obtain ⟨hshape, hs, hvalue, -⟩ := matchPair_eq_some (pairAt_eq_some h)
    conv => arg 1; rw [hshape]
    exact (differs_of_separator _ _ hs hvalue hnew).append _
  | later h hrest ih =>
    obtain ⟨hshape, hs, hvalue, -⟩ := matchPair_eq_some (pairAt_eq_some h)
    conv => arg 1; rw [hshape]
    exact (ih.append _).append _
  | skip h hs ih => exact ih.cons _

theorem Replaced.ends (h : Replaced old new before s s') (hs : Ends s) : Ends s' := by
  intro c hc
  rw [← h.differs.head?] at hc
  exact hs c hc

theorem Replaced.redacted_eq (h : Replaced old new before s s') :
    redacted before s = redacted before s' := by
  induction h with
  | here h hold hnew =>
    obtain ⟨-, -, -, hends⟩ := matchPair_eq_some (pairAt_eq_some h)
    rw [redacted_pair h, redacted_pair (pairAt_replace h hnew hends)]
    simp only
    rw [redacted_of_ends hends]
  | later h hrest ih =>
    obtain ⟨-, -, hvalue, hends⟩ := matchPair_eq_some (pairAt_eq_some h)
    rw [redacted_pair h, redacted_pair (pairAt_replace h hvalue (hrest.ends hends))]
    simp only
    rw [ih]
  | skip h hs ih =>
    rw [redacted_skip h, redacted_skip (pairAt_none_of_differs (hs.differs.cons _) h), ih]

theorem Replaced.redactText_eq (h : Replaced old new false s s') :
    redactText s = redactText s' := by
  rw [ActionLog.redactText_eq, ActionLog.redactText_eq, h.redacted_eq]

theorem Replaced.forall_inside (h : Replaced old new before s s')
    (hs : ∀ c ∈ s, inside c = true) : ∀ c ∈ s', inside c = true := by
  induction h with
  | here h hold hnew =>
    obtain ⟨hshape, -, -, -⟩ := matchPair_eq_some (pairAt_eq_some h)
    rw [hshape] at hs
    simp only [List.mem_append, or_imp, forall_and] at hs ⊢
    exact ⟨hs.1, ⟨hs.2.1.1, hnew.2⟩, hs.2.2⟩
  | later h hrest ih =>
    obtain ⟨hshape, -, -, -⟩ := matchPair_eq_some (pairAt_eq_some h)
    rw [hshape] at hs
    simp only [List.mem_append, or_imp, forall_and] at hs ⊢
    exact ⟨hs.1, hs.2.1, ih hs.2.2⟩
  | skip h hs' ih =>
    simp only [List.mem_cons, or_imp, forall_and, forall_eq] at hs ⊢
    exact ⟨hs.1, ih hs.2⟩

theorem Replaced.ne_nil (h : Replaced old new before s s') : s ≠ [] := by
  rintro rfl
  cases h with
  | here h => cases h
  | later h => cases h

theorem Replaced.symm (h : Replaced old new before s s') : Replaced new old before s' s := by
  induction h with
  | @here before s pair h hold hnew =>
    obtain ⟨hshape, hs, hvalue, hends⟩ := matchPair_eq_some (pairAt_eq_some h)
    have hback := @Replaced.here _ new old _ _ _ (pairAt_replace h hnew hends) rfl
      (hold ▸ hvalue)
    rw [← hold] at hback
    simp only at hback
    rw [← hshape, hold] at hback
    exact hback
  | @later before s rest' pair h hrest ih =>
    obtain ⟨hshape, hs, hvalue, hends⟩ := matchPair_eq_some (pairAt_eq_some h)
    have hback := Replaced.later (pairAt_replace h hvalue (hrest.ends hends)) ih
    simp only at hback
    rw [← hshape] at hback
    exact hback
  | skip h hs ih => exact .skip (pairAt_none_of_differs (hs.differs.cons _) h) ih

theorem Replaced.redacted_ne (h : Replaced old new before s s')
    (hold : old ≠ placeholder) : redacted before s ≠ s := by
  induction h with
  | @here before s pair h heq hnew =>
    obtain ⟨hshape, hs, hvalue, hends⟩ := matchPair_eq_some (pairAt_eq_some h)
    intro hsame
    rw [redacted_pair h] at hsame
    conv at hsame => rhs; rw [hshape]
    have hcut := List.append_cancel_left hsame
    rw [List.append_assoc, List.append_assoc] at hcut
    have hrun := run_unique isRun_placeholder.2 hvalue.2 (ends_redacted hends _) hends
      (List.append_cancel_left hcut)
    exact hold (heq ▸ hrun.1.symm)
  | @later before s rest' pair h hrest ih =>
    obtain ⟨hshape, hs, hvalue, hends⟩ := matchPair_eq_some (pairAt_eq_some h)
    intro hsame
    rw [redacted_pair h] at hsame
    conv at hsame => rhs; rw [hshape]
    have hcut := List.append_cancel_left hsame
    rw [List.append_assoc, List.append_assoc] at hcut
    have hrun := run_unique isRun_placeholder.2 hvalue.2 (ends_redacted hends _) hends
      (List.append_cancel_left hcut)
    exact ih hrun.2
  | skip h hs ih =>
    rw [redacted_skip h]
    intro hsame
    exact ih (List.cons.inj hsame).2

end

end IntegrityGuardian.ActionLog
