import IntegrityGuardian.Library.Transaction
import IntegrityGuardian.Python.Json

/-!
# Reading back rendered JSON

The decoder inverts the encoder on every float-free value with distinct keys,
at any depth: `loads (render v) = v`.  The proof follows the decoder from the
characters of a string and the digits of an integer up to whole documents.
-/

namespace IntegrityGuardian.Python.Json

open Library (ok_bind bind_eq_ok)

/-- What follows a value inside a document: its end, a comma, a closing bracket or a new line. -/
def Delimited (rest : Str) : Prop :=
  ∀ c tail, rest = c :: tail → c = ch ',' ∨ c = ch ']' ∨ c = ch '}' ∨ c = ch '\n'

theorem delimited_nil : Delimited [] := by
  intro c tail h
  cases h

theorem delimited_cons {c : CodePoint} {tail : Str}
    (h : c = ch ',' ∨ c = ch ']' ∨ c = ch '}' ∨ c = ch '\n') : Delimited (c :: tail) := by
  intro c' tail' h'
  cases h'
  exact h

/-! ## Strings -/

theorem nextStringItem_escapeChar (c : CodePoint) (rest : Str) :
    nextStringItem (escapeChar c ++ rest) = some (.char c rest) := by
  unfold escapeChar
  split
  · subst_vars; rfl
  split
  · subst_vars; rfl
  split
  · subst_vars; rfl
  split
  · subst_vars; rfl
  split
  · subst_vars; rfl
  split
  · subst_vars; rfl
  split
  · subst_vars; rfl
  split
  · rename_i h
    have h0 : hexValue (ch '0') = some 0 := rfl
    have h4 : hex4? (ch '0') (ch '0') (hexDigit (c.val / 16)) (hexDigit (c.val % 16)) =
        some c.val := by
      unfold hex4?
      rw [h0, hexValue_hexDigit (by omega), hexValue_hexDigit (by omega)]
      simp only [Option.bind_eq_bind, Option.bind_some, Option.pure_def, Option.some.injEq]
      omega
    have hq : ch '\\' ≠ ch '"' := by decide
    simp only [unicodeEscape, List.cons_append, List.nil_append, nextStringItem]
    rw [if_neg hq, if_pos trivial, if_pos trivial, h4, Option.bind_some, unicodeItem,
      if_neg (by omega)]
    simp only [codePoint?_val, Option.map_some]
  · rename_i hquote hslash _ _ _ _ _ hctl
    simp only [List.cons_append, List.nil_append, nextStringItem]
    rw [if_neg hquote, if_neg hslash, if_neg hctl]

variable {c : CodePoint} {fuel n : Nat} {rest : Str}

theorem scanString_escaped (s rest : Str) (hfuel : s.length < fuel) :
    scanString fuel (s.flatMap escapeChar ++ ch '"' :: rest) = .ok (s, rest) := by
  induction s generalizing fuel with
  | nil =>
    obtain ⟨fuel, rfl⟩ : ∃ n, fuel = n + 1 := ⟨fuel - 1, by simp at hfuel; omega⟩
    rfl
  | cons c s ih =>
    obtain ⟨fuel, rfl⟩ : ∃ n, fuel = n + 1 := ⟨fuel - 1, by simp at hfuel; omega⟩
    have htail : s.length < fuel := by simpa using hfuel
    rw [List.flatMap_cons, List.append_assoc, scanString, nextStringItem_escapeChar]
    simp only []
    rw [ih htail]

theorem escapeChar_ne_nil (c : CodePoint) : escapeChar c ≠ [] := by
  unfold escapeChar unicodeEscape
  repeat' split
  all_goals simp

theorem length_le_escaped (s : Str) : s.length ≤ (s.flatMap escapeChar).length := by
  induction s with
  | nil => simp
  | cons c s ih =>
    have := List.length_pos_of_ne_nil (escapeChar_ne_nil c)
    rw [List.flatMap_cons, List.length_append, List.length_cons]
    omega

theorem scanString_rendered (s rest : Str) :
    scanString ((s.flatMap escapeChar ++ ch '"' :: rest).length + 1)
      (s.flatMap escapeChar ++ ch '"' :: rest) = .ok (s, rest) := by
  apply scanString_escaped
  have := length_le_escaped s
  rw [List.length_append]
  omega

/-! ## Integers -/

theorem isDigit_digit (n : Nat) : isDigit (digit n) = true := by
  have hval : (digit n).val = 48 + n % 10 := rfl
  simp only [isDigit, hval, Bool.and_eq_true, decide_eq_true_eq]
  omega

theorem decimalAux_append (fuel n : Nat) (acc : Str) :
    decimalAux fuel n acc = decimalAux fuel n [] ++ acc := by
  induction fuel generalizing n acc with
  | zero => rfl
  | succ fuel ih =>
    simp only [decimalAux]
    split
    · rfl
    · rw [ih, ih (n / 10) [digit (n % 10)]]
      simp

theorem isDigit_of_mem_decimalAux (fuel n : Nat)
    (h : c ∈ decimalAux fuel n []) : isDigit c = true := by
  induction fuel generalizing n with
  | zero => simp [decimalAux] at h
  | succ fuel ih =>
    rw [decimalAux] at h
    split at h
    · simp only [List.mem_singleton] at h
      rw [h]
      exact isDigit_digit n
    · rw [decimalAux_append] at h
      simp only [List.mem_append, List.mem_singleton] at h
      rcases h with h | h
      · exact ih _ h
      · rw [h]
        exact isDigit_digit _

theorem decimalValue_append_digit (s : Str) (n : Nat) :
    decimalValue (s ++ [digit n]) = decimalValue s * 10 + n % 10 := by
  simp [decimalValue, digit]

theorem decimalValue_decimalAux (h : n < fuel) : decimalValue (decimalAux fuel n []) = n := by
  induction fuel generalizing n with
  | zero => omega
  | succ fuel ih =>
    rw [decimalAux]
    split
    · rename_i hlt
      have := decimalValue_append_digit [] n
      simp only [List.nil_append] at this
      rw [this]
      simp only [decimalValue, List.foldl_nil]
      omega
    · rw [decimalAux_append, decimalValue_append_digit, ih (by omega)]
      omega

theorem decimalAux_head (h : n < fuel) (hn : n ≠ 0) :
    ∃ c tail, decimalAux fuel n [] = c :: tail ∧ isDigit c = true ∧ c ≠ ch '0' := by
  induction fuel generalizing n with
  | zero => omega
  | succ fuel ih =>
    rw [decimalAux]
    split
    · rename_i hlt
      refine ⟨digit n, [], rfl, isDigit_digit n, ?_⟩
      intro hzero
      have hval := congrArg Fin.val hzero
      have hch : (ch '0').val = 48 := rfl
      simp only [digit, hch] at hval
      omega
    · obtain ⟨c, tail, hc, hd, h0⟩ := ih (n := n / 10) (by omega) (by omega)
      rw [decimalAux_append, hc]
      exact ⟨c, tail ++ [digit (n % 10)], rfl, hd, h0⟩

theorem decimalValue_decimal (n : Nat) : decimalValue (decimal n) = n :=
  decimalValue_decimalAux (by omega)

theorem decimal_head (hn : n ≠ 0) :
    ∃ c tail, decimal n = c :: tail ∧ isDigit c = true ∧ c ≠ ch '0' :=
  decimalAux_head (by omega) hn

theorem not_isDigit_of_delimiter
    (h : c = ch ',' ∨ c = ch ']' ∨ c = ch '}' ∨ c = ch '\n') : isDigit c = false := by
  rcases h with rfl | rfl | rfl | rfl <;> rfl

theorem takeWhile_isDigit_append {ds : Str} (hd : ∀ c ∈ ds, isDigit c = true)
    (hr : Delimited rest) : (ds ++ rest).takeWhile isDigit = ds := by
  induction ds with
  | nil =>
    cases rest with
    | nil => rfl
    | cons c tail => simp [not_isDigit_of_delimiter (hr c tail rfl)]
  | cons d ds ih =>
    simp [hd d (by simp), ih (fun c hc => hd c (by simp [hc]))]

theorem dropWhile_isDigit_append {ds : Str} (hd : ∀ c ∈ ds, isDigit c = true)
    (hr : Delimited rest) : (ds ++ rest).dropWhile isDigit = rest := by
  induction ds with
  | nil =>
    cases rest with
    | nil => rfl
    | cons c tail => simp [not_isDigit_of_delimiter (hr c tail rfl)]
  | cons d ds ih =>
    simp [hd d (by simp), ih (fun c hc => hd c (by simp [hc]))]

theorem isDigit_ne_minus (h : isDigit c = true) : c ≠ ch '-' := by
  rintro rfl
  revert h
  decide

theorem integerPart_decimal (n : Nat) (hr : Delimited rest) :
    integerPart (decimal n ++ rest) = some (decimal n, rest) := by
  by_cases hn : n = 0
  · subst hn
    rfl
  · obtain ⟨c, tail, hc, hd, h0⟩ := decimal_head hn
    have htail : ∀ d ∈ tail, isDigit d = true := fun d hd' =>
      isDigit_of_mem_decimalAux (n + 1) n (by
        rw [show decimalAux (n + 1) n [] = c :: tail from hc]; simp [hd'])
    have hm : (c == ch '-') = false := by simpa using isDigit_ne_minus hd
    rw [hc]
    simp only [integerPart, List.cons_append, List.take_succ_cons, List.take_zero,
      List.filter_cons, hm, List.filter_nil, Bool.false_eq_true, if_false, List.length_nil,
      List.drop_zero, if_neg h0, hd, if_true, takeWhile_isDigit_append htail hr,
      dropWhile_isDigit_append htail hr, List.nil_append]

theorem integerPart_neg_decimal (n : Nat) (hr : Delimited rest) :
    integerPart (ch '-' :: (decimal n ++ rest)) = some (ch '-' :: decimal n, rest) := by
  by_cases hn : n = 0
  · subst hn
    rfl
  · obtain ⟨c, tail, hc, hd, h0⟩ := decimal_head hn
    have htail : ∀ d ∈ tail, isDigit d = true := fun d hd' =>
      isDigit_of_mem_decimalAux (n + 1) n (by
        rw [show decimalAux (n + 1) n [] = c :: tail from hc]; simp [hd'])
    rw [hc]
    simp [integerPart, h0, hd, takeWhile_isDigit_append htail hr,
      dropWhile_isDigit_append htail hr]

theorem integerPart_renderInt (n : Int) (hr : Delimited rest) :
    integerPart (renderInt n ++ rest) = some (renderInt n, rest) := by
  cases n with
  | ofNat n => exact integerPart_decimal n hr
  | negSucc n => exact integerPart_neg_decimal (n + 1) hr

theorem integerValue_renderInt (n : Int) : integerValue (renderInt n) = n := by
  cases n with
  | ofNat n =>
    have hval := decimalValue_decimal n
    simp only [renderInt]
    by_cases hn : n = 0
    · subst hn; rfl
    · obtain ⟨c, tail, hc, hd, -⟩ := decimal_head hn
      rw [hc] at hval ⊢
      rw [integerValue, if_neg (isDigit_ne_minus hd), hval]
      rfl
  | negSucc n =>
    simp only [renderInt, integerValue, if_true, decimalValue_decimal]
    rfl

theorem fraction_of_delimited (hr : Delimited rest) : fraction rest = ([], rest) := by
  match rest with
  | [] => rfl
  | [_] => rfl
  | c :: d :: tail =>
    have hc : c ≠ ch '.' := by
      rcases hr c _ rfl with rfl | rfl | rfl | rfl <;> decide
    rw [fraction, if_neg (fun h => hc h.1)]

theorem exponent_of_delimited (hr : Delimited rest) : exponent rest = ([], rest) := by
  match rest with
  | [] => rfl
  | c :: tail =>
    have hc : ¬(c = ch 'e' ∨ c = ch 'E') := by
      rcases hr c _ rfl with rfl | rfl | rfl | rfl <;> decide
    rw [exponent, if_neg hc]

theorem scanNumber_renderInt (n : Int) (hr : Delimited rest) :
    scanNumber (renderInt n ++ rest) = .ok (.int n, rest) := by
  unfold scanNumber
  rw [integerPart_renderInt n hr]
  simp only [fraction_of_delimited hr, exponent_of_delimited hr, and_self, if_true,
    integerValue_renderInt]

theorem renderInt_head (n : Int) :
    ∃ c tail, renderInt n = c :: tail ∧ (isDigit c = true ∨ c = ch '-') := by
  cases n with
  | ofNat n =>
    by_cases hn : n = 0
    · subst hn
      exact ⟨ch '0', [], rfl, Or.inl rfl⟩
    · obtain ⟨c, tail, hc, hd, -⟩ := decimal_head hn
      exact ⟨c, tail, hc, Or.inl hd⟩
  | negSucc n => exact ⟨ch '-', _, rfl, Or.inr rfl⟩

/-! ## Values -/

/-- The characters a rendered value can start with. -/
def IsValueStart (c : CodePoint) : Prop :=
  c = ch '"' ∨ c = ch '[' ∨ c = ch '{' ∨ c = ch 'n' ∨ c = ch 't' ∨ c = ch 'f'
    ∨ isDigit c = true ∨ c = ch '-'

theorem render_head (v : Json) : ∃ c tail, render v = c :: tail ∧ IsValueStart c := by
  unfold IsValueStart
  cases v with
  | null => exact ⟨ch 'n', _, rfl, by simp⟩
  | bool b =>
    cases b
    · exact ⟨ch 'f', _, rfl, by simp⟩
    · exact ⟨ch 't', _, rfl, by simp⟩
  | int n =>
    obtain ⟨c, tail, hc, hd⟩ := renderInt_head n
    refine ⟨c, tail, hc, ?_⟩
    rcases hd with hd | hd <;> simp [hd]
  | str s => exact ⟨ch '"', _, rfl, by simp⟩
  | arr items => cases items <;> exact ⟨ch '[', _, by rw [render], by simp⟩
  | obj members =>
    rcases members with _ | ⟨⟨k, v⟩, ms⟩ <;> exact ⟨ch '{', _, by rw [render], by simp⟩

theorem IsValueStart.not_whitespace (h : IsValueStart c) : isWhitespace c = false := by
  rcases h with rfl | rfl | rfl | rfl | rfl | rfl | h | rfl
  case inr.inr.inr.inr.inr.inr.inl =>
    cases hw : isWhitespace c with
    | false => rfl
    | true =>
      simp only [isWhitespace, Bool.or_eq_true, beq_iff_eq] at hw
      rcases hw with ((rfl | rfl) | rfl) | rfl <;> exact absurd h (by decide)
  all_goals decide

theorem IsValueStart.ne_close {c : CodePoint} (h : IsValueStart c) : c ≠ ch ']' := by
  rcases h with rfl | rfl | rfl | rfl | rfl | rfl | h | rfl
  case inr.inr.inr.inr.inr.inr.inl =>
    rintro rfl
    exact absurd h (by decide)
  all_goals decide

theorem skipWhitespace_cons {tail : Str} (h : isWhitespace c = false) :
    skipWhitespace (c :: tail) = c :: tail := by
  simp [skipWhitespace, h]

theorem skipWhitespace_render (v : Json) (rest : Str) :
    skipWhitespace (render v ++ rest) = render v ++ rest := by
  obtain ⟨c, tail, hc, hstart⟩ := render_head v
  rw [hc, List.cons_append, skipWhitespace_cons hstart.not_whitespace]

theorem skipWhitespace_renderStr (s rest : Str) :
    skipWhitespace (renderStr s ++ rest) = renderStr s ++ rest := by
  rw [renderStr, List.cons_append, List.cons_append, skipWhitespace_cons (by decide)]

theorem scanKeyword_renderInt (n : Int) (hr : Delimited rest) :
    scanKeyword (renderInt n ++ rest) = .ok (.int n, rest) := by
  obtain ⟨c, tail, hc, hd⟩ := renderInt_head n
  have hne : ∀ d : CodePoint, isDigit d = false → d ≠ ch '-' → d ≠ c := by
    rintro d hd1 hd2 rfl
    rcases hd with hd | hd
    · rw [hd1] at hd; cases hd
    · exact hd2 hd
  have hprefix : ∀ (d : CodePoint) (word : Str), isDigit d = false → d ≠ ch '-' →
      List.isPrefixOf (d :: word) (renderInt n ++ rest) = false := by
    intro d word hd1 hd2
    rw [hc, List.cons_append, List.isPrefixOf_cons_cons, beq_eq_false_iff_ne.2 (hne d hd1 hd2),
      Bool.false_and]
  unfold scanKeyword
  rw [show Python.str "null" = ch 'n' :: Python.str "ull" from rfl,
    show Python.str "true" = ch 't' :: Python.str "rue" from rfl,
    show Python.str "false" = ch 'f' :: Python.str "alse" from rfl,
    show Python.str "NaN" = ch 'N' :: Python.str "aN" from rfl,
    show Python.str "Infinity" = ch 'I' :: Python.str "nfinity" from rfl,
    hprefix _ _ (by decide) (by decide), hprefix _ _ (by decide) (by decide),
    hprefix _ _ (by decide) (by decide), hprefix _ _ (by decide) (by decide),
    hprefix _ _ (by decide) (by decide)]
  exact scanNumber_renderInt n hr

theorem scanOnce_renderInt (n : Int) (fuel : Nat) (hr : Delimited rest) :
    scanOnce (fuel + 1) (renderInt n ++ rest) = .ok (.int n, rest) := by
  have hscan := scanKeyword_renderInt n hr
  obtain ⟨c, tail, hc, hd⟩ := renderInt_head n
  have hne : ∀ d : CodePoint, isDigit d = false → d ≠ ch '-' → c ≠ d := by
    rintro d hd1 hd2 rfl
    rcases hd with hd | hd
    · rw [hd1] at hd; cases hd
    · exact hd2 hd
  rw [hc, List.cons_append] at hscan ⊢
  rw [scanOnce, if_neg (hne _ (by decide) (by decide)), if_neg (hne _ (by decide) (by decide)),
    if_neg (hne _ (by decide) (by decide))]
  exact hscan

theorem rejectDuplicateKeys_eq (result pairs : List (Str × Json))
    (h : ((result ++ pairs).map Prod.fst).Nodup) :
    rejectDuplicateKeys result pairs = .ok (result ++ pairs) := by
  induction pairs generalizing result with
  | nil => simp [rejectDuplicateKeys]
  | cons pair pairs ih =>
    obtain ⟨key, value⟩ := pair
    have hfresh : key ∉ result.map Prod.fst := by
      rw [List.map_append, List.map_cons] at h
      have hdis := List.disjoint_of_nodup_append h
      exact fun hmem => hdis hmem List.mem_cons_self
    rw [rejectDuplicateKeys, if_neg hfresh, ih]
    · simp
    · simpa using h

mutual
theorem scanOnce_render : ∀ (v : Json) (fuel : Nat) (rest : Str), v.wf = true →
    Delimited rest → 2 * (render v).length ≤ fuel + 1 →
    scanOnce fuel (render v ++ rest) = .ok (v, rest)
  | .null, fuel, rest, _, _, hfuel => by
    obtain ⟨fuel, rfl⟩ : ∃ n, fuel = n + 1 := ⟨fuel - 1, by simp [render, Python.str] at hfuel; omega⟩
    rfl
  | .bool b, fuel, rest, _, _, hfuel => by
    obtain ⟨fuel, rfl⟩ : ∃ n, fuel = n + 1 :=
      ⟨fuel - 1, by cases b <;> simp [render, Python.str] at hfuel <;> omega⟩
    cases b <;> rfl
  | .int n, fuel, rest, _, hr, hfuel => by
    obtain ⟨c, tail, hc, -⟩ := renderInt_head n
    obtain ⟨fuel, rfl⟩ : ∃ n, fuel = n + 1 := ⟨fuel - 1, by simp [render, hc] at hfuel; omega⟩
    rw [render]
    exact scanOnce_renderInt n fuel hr
  | .str s, fuel, rest, _, _, hfuel => by
    obtain ⟨fuel, rfl⟩ : ∃ n, fuel = n + 1 := ⟨fuel - 1, by simp [render, renderStr] at hfuel; omega⟩
    rw [render, renderStr, List.cons_append, List.cons_append, scanOnce, if_pos rfl,
      List.append_assoc, List.cons_append, List.nil_append, scanString_rendered]
    rfl
  | .arr [], fuel, rest, _, _, hfuel => by
    obtain ⟨fuel, rfl⟩ : ∃ n, fuel = n + 1 := ⟨fuel - 1, by simp [render] at hfuel; omega⟩
    rfl
  | .arr (v :: vs), fuel, rest, hwf, _, hfuel => by
    obtain ⟨fuel, rfl⟩ : ∃ n, fuel = n + 1 := ⟨fuel - 1, by simp [render] at hfuel; omega⟩
    have hitems := scanItems_render (v :: vs) fuel rest
      (by simpa [wf] using hwf) v vs rfl (by simp [render] at hfuel ⊢; omega)
    have hws := skipWhitespace_render v (renderItems vs ++ rest)
    obtain ⟨c, tail, hc, hstart⟩ := render_head v
    rw [List.append_assoc] at hitems
    rw [render, List.cons_append, scanOnce, if_neg (by decide), if_neg (by decide), if_pos rfl,
      List.append_assoc, hws]
    rw [hc, List.cons_append] at hitems ⊢
    simp only []
    rw [if_neg hstart.ne_close, hitems]
    rfl
  | .obj [], fuel, rest, _, _, hfuel => by
    obtain ⟨fuel, rfl⟩ : ∃ n, fuel = n + 1 := ⟨fuel - 1, by simp [render] at hfuel; omega⟩
    rfl
  | .obj ((k, v) :: ms), fuel, rest, hwf, _, hfuel => by
    obtain ⟨fuel, rfl⟩ : ∃ n, fuel = n + 1 := ⟨fuel - 1, by simp [render] at hfuel; omega⟩
    simp only [wf, Bool.and_eq_true, decide_eq_true_eq] at hwf
    have hmembers := scanMembers_render ((k, v) :: ms) fuel rest
      hwf.2 k v ms rfl (by simp [render] at hfuel ⊢; omega)
    have hkeys := rejectDuplicateKeys_eq [] ((k, v) :: ms) (by simpa using hwf.1)
    rw [render, List.cons_append, scanOnce, if_neg (by decide), if_pos rfl]
    rw [renderStr, List.cons_append] at hmembers ⊢
    simp only [List.cons_append] at hmembers ⊢
    rw [skipWhitespace_cons (by decide)]
    simp only []
    rw [if_neg (by decide), hmembers]
    rw [ok_bind]
    simp only []
    rw [hkeys]
    rfl

theorem scanItems_render : ∀ (items : List Json) (fuel : Nat) (rest : Str),
    wfItems items = true → ∀ v vs, items = v :: vs →
    2 * (render v ++ renderItems vs).length ≤ fuel + 2 →
    scanItems fuel (render v ++ renderItems vs ++ rest) = .ok (items, rest)
  | [], _, _, _, _, _, h, _ => by cases h
  | w :: ws, fuel, rest, hwf, v, vs, h, hfuel => by
    cases h
    simp only [wfItems, Bool.and_eq_true] at hwf
    obtain ⟨c, tail, hc, -⟩ := render_head w
    have hlen : 1 ≤ (render w).length := by rw [hc]; simp
    match ws with
    | [] =>
      simp only [renderItems, List.length_append, List.length_cons, List.length_nil] at hfuel
      obtain ⟨fuel, rfl⟩ : ∃ n, fuel = n + 1 := ⟨fuel - 1, by omega⟩
      have hv := scanOnce_render w fuel (ch ']' :: rest) hwf.1
        (delimited_cons (by simp)) (by omega)
      rw [renderItems, List.append_assoc, scanItems, List.cons_append, List.nil_append, hv]
      rfl
    | x :: xs =>
      simp only [renderItems, List.length_append, List.length_cons] at hfuel
      obtain ⟨fuel, rfl⟩ : ∃ n, fuel = n + 1 := ⟨fuel - 1, by omega⟩
      have hv := scanOnce_render w fuel
        (ch ',' :: (render x ++ renderItems xs ++ rest)) hwf.1
        (delimited_cons (by simp)) (by omega)
      have hrest := scanItems_render (x :: xs) fuel rest hwf.2 x xs rfl
        (by simp only [List.length_append]; omega)
      rw [renderItems, List.append_assoc, scanItems, List.cons_append, hv, ok_bind]
      simp only [skipWhitespace_cons (show isWhitespace (ch ',') = false by decide)]
      rw [if_neg (by decide), if_pos trivial, List.append_assoc, skipWhitespace_render,
        ← List.append_assoc, hrest]
      rfl

theorem scanMembers_render : ∀ (members : List (Str × Json)) (fuel : Nat) (rest : Str),
    wfMembers members = true → ∀ k v ms, members = (k, v) :: ms →
    2 * (renderStr k ++ ch ':' :: render v ++ renderMembers ms).length ≤ fuel + 2 →
    scanMembers fuel (renderStr k ++ ch ':' :: render v ++ renderMembers ms ++ rest) =
      .ok (members, rest)
  | [], _, _, _, _, _, _, h, _ => by cases h
  | (l, w) :: ns, fuel, rest, hwf, k, v, ms, h, hfuel => by
    cases h
    simp only [wfMembers, Bool.and_eq_true] at hwf
    have hquote : ∀ tail, renderStr l ++ ch ':' :: tail =
        ch '"' :: (l.flatMap escapeChar ++ ch '"' :: (ch ':' :: tail)) := by
      intro tail
      simp [renderStr]
    have hcolon : ∀ tail, skipWhitespace (ch ':' :: tail) = ch ':' :: tail := fun tail =>
      skipWhitespace_cons (by decide)
    match ns with
    | [] =>
      simp only [renderMembers, List.length_append, List.length_cons, List.length_nil] at hfuel
      obtain ⟨fuel, rfl⟩ : ∃ n, fuel = n + 1 := ⟨fuel - 1, by omega⟩
      have hv := scanOnce_render w fuel (ch '}' :: rest) hwf.1
        (delimited_cons (by simp)) (by omega)
      simp only [renderMembers, List.append_assoc, List.cons_append, List.nil_append]
      rw [hquote, scanMembers, if_pos rfl, scanString_rendered, ok_bind]
      simp only [hcolon, if_true]
      rw [skipWhitespace_render, hv]
      rfl
    | (k', x) :: xs =>
      simp only [renderMembers, List.length_append, List.length_cons] at hfuel
      obtain ⟨fuel, rfl⟩ : ∃ n, fuel = n + 1 := ⟨fuel - 1, by omega⟩
      have hv := scanOnce_render w fuel
        (ch ',' :: (renderStr k' ++ ch ':' :: render x ++ renderMembers xs ++ rest))
        hwf.1 (delimited_cons (by simp)) (by omega)
      have hrest := scanMembers_render ((k', x) :: xs) fuel rest
        hwf.2 k' x xs rfl (by simp only [List.length_append, List.length_cons]; omega)
      simp only [List.append_assoc, List.cons_append] at hv hrest
      simp only [renderMembers, List.append_assoc, List.cons_append]
      rw [hquote, scanMembers, if_pos rfl, scanString_rendered, ok_bind]
      simp only [hcolon, if_true]
      rw [skipWhitespace_render, hv, ok_bind]
      simp only [skipWhitespace_cons (show isWhitespace (ch ',') = false by decide)]
      rw [if_neg (by decide), if_pos trivial, skipWhitespace_renderStr, hrest]
      rfl
end

variable {v : Json}

theorem loads_render_append (hwf : v.wf = true) {rest : Str} (hr : Delimited rest)
    (hspace : skipWhitespace rest = []) : loads (render v ++ rest) = .ok v := by
  have hstart := skipWhitespace_render v rest
  have hscan := scanOnce_render v (2 * (render v ++ rest).length + 2) rest hwf hr (by
    rw [List.length_append]
    omega)
  obtain ⟨c, tail, hc, hs⟩ := render_head v
  have hbom : c ≠ ⟨0xfeff, by omega⟩ := by
    rintro rfl
    rcases hs with h | h | h | h | h | h | h | h <;> exact absurd h (by decide)
  rw [loads, if_neg (by rw [hc]; simpa using hbom)]
  simp only [hstart, hscan, ok_bind, hspace, if_true]

theorem loads_render (hwf : v.wf = true) : loads (render v) = .ok v := by
  have hloads := loads_render_append hwf delimited_nil rfl
  rw [List.append_nil] at hloads
  exact hloads

/-! ## Key order -/

theorem map_fst_sortMembers (ms : List (Str × Json)) :
    (sortMembers ms).map Prod.fst = ms.map Prod.fst := by
  induction ms with
  | nil => rfl
  | cons m ms ih =>
    obtain ⟨k, v⟩ := m
    simp [sortMembers, ih]

theorem wfMembers_iff (ms : List (Str × Json)) :
    wfMembers ms = true ↔ ∀ m ∈ ms, m.2.wf = true := by
  induction ms with
  | nil => simp [wfMembers]
  | cons m ms ih =>
    obtain ⟨k, v⟩ := m
    simp [wfMembers, ih]

mutual
theorem wf_sortKeys : ∀ {v : Json}, v.wf = true → v.sortKeys.wf = true
  | .null, _ => rfl
  | .bool _, _ => rfl
  | .int _, _ => rfl
  | .str _, _ => rfl
  | .arr items, h => by
    simp only [sortKeys, wf] at h ⊢
    exact wfItems_sortItems h
  | .obj members, h => by
    simp only [sortKeys, wf, Bool.and_eq_true, decide_eq_true_eq] at h ⊢
    have hperm := List.perm_insertionSort (fun a b : Str × Json => a.1 ≤ b.1)
      (sortMembers members)
    constructor
    · rw [(hperm.map Prod.fst).nodup_iff, map_fst_sortMembers]
      exact h.1
    · rw [wfMembers_iff]
      intro m hm
      exact (wfMembers_iff _).1 (wfMembers_sortMembers h.2) m (hperm.mem_iff.1 hm)

theorem wfItems_sortItems : ∀ {vs : List Json}, wfItems vs = true → wfItems (sortItems vs) = true
  | [], _ => rfl
  | v :: vs, h => by
    simp only [sortItems, wfItems, Bool.and_eq_true] at h ⊢
    exact ⟨wf_sortKeys h.1, wfItems_sortItems h.2⟩

theorem wfMembers_sortMembers : ∀ {ms : List (Str × Json)}, wfMembers ms = true →
    wfMembers (sortMembers ms) = true
  | [], _ => rfl
  | (k, v) :: ms, h => by
    simp only [sortMembers, wfMembers, Bool.and_eq_true] at h ⊢
    exact ⟨wf_sortKeys h.1, wfMembers_sortMembers h.2⟩
end

theorem sortMembers_eq_self {ms : List (Str × Json)} (h : ∀ m ∈ ms, m.2.sortKeys = m.2) :
    sortMembers ms = ms := by
  induction ms with
  | nil => rfl
  | cons m ms ih =>
    obtain ⟨k, v⟩ := m
    have hv : v.sortKeys = v := h (k, v) (by simp)
    simp only [sortMembers, hv]
    rw [ih (fun m hm => h m (by simp [hm]))]

instance : Std.Total (fun a b : Str × Json => a.1 ≤ b.1) := ⟨fun a b => le_total a.1 b.1⟩

instance : IsTrans (Str × Json) (fun a b => a.1 ≤ b.1) := ⟨fun _ _ _ => le_trans⟩

mutual
theorem sortKeys_sortKeys : ∀ v : Json, v.sortKeys.sortKeys = v.sortKeys
  | .null => rfl
  | .bool _ => rfl
  | .int _ => rfl
  | .str _ => rfl
  | .arr items => by simp only [sortKeys, sortItems_sortItems items]
  | .obj members => by
    have hfixed : ∀ m ∈ (sortMembers members).insertionSort fun a b => a.1 ≤ b.1,
        m.2.sortKeys = m.2 := by
      intro m hm
      exact sortKeys_of_mem_sortMembers members ((List.mem_insertionSort _).1 hm)
    simp only [sortKeys]
    rw [sortMembers_eq_self hfixed]
    congr 1
    exact (List.pairwise_insertionSort _ _).insertionSort_eq

theorem sortItems_sortItems : ∀ vs : List Json, sortItems (sortItems vs) = sortItems vs
  | [] => rfl
  | v :: vs => by simp only [sortItems, sortKeys_sortKeys v, sortItems_sortItems vs]

theorem sortKeys_of_mem_sortMembers : ∀ (ms : List (Str × Json)) {m : Str × Json},
    m ∈ sortMembers ms → m.2.sortKeys = m.2
  | [], _, h => by simp [sortMembers] at h
  | (k, v) :: ms, m, h => by
    simp only [sortMembers, List.mem_cons] at h
    rcases h with rfl | h
    · exact sortKeys_sortKeys v
    · exact sortKeys_of_mem_sortMembers ms h
end

variable {c : CodePoint} {v : Json} {s : Str}

theorem loads_dumps (hwf : v.wf = true) : loads (dumps v) = .ok v.sortKeys :=
  loads_render (wf_sortKeys hwf)

theorem sortKeys_eq_of_dumps_eq {w : Json} (hv : v.wf = true) (hw : w.wf = true)
    (h : dumps v = dumps w) : v.sortKeys = w.sortKeys := by
  have hload := loads_dumps hv
  rw [h, loads_dumps hw] at hload
  exact (Except.ok.inj hload).symm

theorem lookup_eq_some_iff_mem {κ α : Type} [BEq κ] [LawfulBEq κ] {ms : List (κ × α)}
    (h : (ms.map Prod.fst).Nodup) {key : κ} {v : α} : ms.lookup key = some v ↔ (key, v) ∈ ms := by
  induction ms with
  | nil => simp
  | cons m ms ih =>
    obtain ⟨k, w⟩ := m
    simp only [List.map_cons, List.nodup_cons] at h
    rw [List.lookup_cons]
    by_cases hk : key = k
    · subst hk
      have hfresh : (key, v) ∉ ms := fun hmem => h.1 (List.mem_map_of_mem hmem)
      simp [hfresh, eq_comm]
    · rw [beq_eq_false_iff_ne.2 hk]
      simp [hk, ih h.2]

theorem mem_sortMembers {ms : List (Str × Json)} {key : Str} {w : Json} :
    (key, w) ∈ sortMembers ms ↔ ∃ v, (key, v) ∈ ms ∧ v.sortKeys = w := by
  induction ms with
  | nil => simp [sortMembers]
  | cons m ms ih =>
    obtain ⟨k, v⟩ := m
    simp only [sortMembers, List.mem_cons, ih, Prod.mk.injEq]
    constructor
    · rintro (⟨rfl, rfl⟩ | ⟨v', hmem, rfl⟩)
      · exact ⟨v, Or.inl ⟨rfl, rfl⟩, rfl⟩
      · exact ⟨v', Or.inr hmem, rfl⟩
    · rintro ⟨v', ⟨rfl, rfl⟩ | hmem, rfl⟩
      · exact Or.inl ⟨rfl, rfl⟩
      · exact Or.inr ⟨v', hmem, rfl⟩

theorem get?_sortKeys (hwf : v.wf = true) (key : Str) :
    v.sortKeys.get? key = (v.get? key).map sortKeys := by
  cases v with
  | obj members =>
    have hsorted := wf_sortKeys hwf
    simp only [sortKeys, wf, Bool.and_eq_true, decide_eq_true_eq] at hwf hsorted
    simp only [sortKeys, get?]
    apply Option.ext
    intro w
    rw [lookup_eq_some_iff_mem hsorted.1, List.mem_insertionSort, mem_sortMembers,
      Option.map_eq_some_iff]
    simp only [lookup_eq_some_iff_mem hwf.1]
  | _ => rfl

/-! ## Byte documents -/

theorem escapeChar_ne_zero {d : CodePoint} (h : d ∈ escapeChar c) : d.val ≠ 0 := by
  have hhex : ∀ n, (hexDigit n).val ≠ 0 := by
    intro n
    unfold hexDigit
    split <;> simp only [] <;> omega
  have hpair : ∀ e : CodePoint, e.val ≠ 0 → d ∈ [ch '\\', e] → d.val ≠ 0 := by
    intro e he hd
    simp only [List.mem_cons, List.not_mem_nil, or_false] at hd
    rcases hd with rfl | rfl
    · decide
    · exact he
  unfold escapeChar at h
  split at h
  · exact hpair _ (by decide) h
  split at h
  · exact hpair _ (by decide) h
  split at h
  · exact hpair _ (by decide) h
  split at h
  · exact hpair _ (by decide) h
  split at h
  · exact hpair _ (by decide) h
  split at h
  · exact hpair _ (by decide) h
  split at h
  · exact hpair _ (by decide) h
  split at h
  · simp only [unicodeEscape, List.mem_cons, List.not_mem_nil, or_false] at h
    rcases h with rfl | rfl | rfl | rfl | rfl | rfl
    · decide
    · decide
    · decide
    · decide
    · exact hhex _
    · exact hhex _
  · simp only [List.mem_singleton] at h
    subst h
    omega

theorem renderStr_ne_zero (h : c ∈ renderStr s) : c.val ≠ 0 := by
  simp only [renderStr, List.cons_append, List.mem_cons, List.mem_append, List.mem_flatMap,
    List.not_mem_nil, or_false] at h
  rcases h with rfl | ⟨d, -, hd⟩ | rfl
  · decide
  · exact escapeChar_ne_zero hd
  · decide

theorem renderInt_ne_zero {n : Int} (h : c ∈ renderInt n) : c.val ≠ 0 := by
  have hdigit : ∀ {m}, c ∈ decimal m → c.val ≠ 0 := by
    intro m hm
    have := isDigit_of_mem_decimalAux _ _ hm
    simp only [isDigit, Bool.and_eq_true, decide_eq_true_eq] at this
    omega
  cases n with
  | ofNat n => exact hdigit h
  | negSucc n =>
    simp only [renderInt, List.mem_cons] at h
    rcases h with rfl | h
    · decide
    · exact hdigit h

theorem ne_zero_of_all (hs : s.all (fun c => c.val != 0) = true) (h : c ∈ s) : c.val ≠ 0 := by
  simpa using List.all_eq_true.1 hs c h

mutual
theorem render_ne_zero : ∀ (v : Json) {c : CodePoint}, c ∈ render v → c.val ≠ 0
  | .null, c, h => by
    rw [render] at h
    exact ne_zero_of_all (by decide) h
  | .bool true, c, h => by
    rw [render] at h
    exact ne_zero_of_all (by decide) h
  | .bool false, c, h => by
    rw [render] at h
    exact ne_zero_of_all (by decide) h
  | .int n, c, h => by rw [render] at h; exact renderInt_ne_zero h
  | .str s, c, h => by rw [render] at h; exact renderStr_ne_zero h
  | .arr [], c, h => by
    rw [render] at h
    exact ne_zero_of_all (by decide) h
  | .arr (v :: vs), c, h => by
    simp only [render, List.mem_cons, List.mem_append] at h
    rcases h with rfl | h | h
    · decide
    · exact render_ne_zero v h
    · exact renderItems_ne_zero vs h
  | .obj [], c, h => by
    rw [render] at h
    exact ne_zero_of_all (by decide) h
  | .obj ((k, v) :: ms), c, h => by
    simp only [render, List.mem_cons, List.mem_append] at h
    rcases h with rfl | (h | rfl | h) | h
    · decide
    · exact renderStr_ne_zero h
    · decide
    · exact render_ne_zero v h
    · exact renderMembers_ne_zero ms h

theorem renderItems_ne_zero : ∀ (vs : List Json) {c : CodePoint}, c ∈ renderItems vs → c.val ≠ 0
  | [], c, h => by
    simp only [renderItems, List.mem_singleton] at h
    subst h
    decide
  | v :: vs, c, h => by
    simp only [renderItems, List.mem_cons, List.mem_append] at h
    rcases h with rfl | h | h
    · decide
    · exact render_ne_zero v h
    · exact renderItems_ne_zero vs h

theorem renderMembers_ne_zero : ∀ (ms : List (Str × Json)) {c : CodePoint},
    c ∈ renderMembers ms → c.val ≠ 0
  | [], c, h => by
    simp only [renderMembers, List.mem_singleton] at h
    subst h
    decide
  | (k, v) :: ms, c, h => by
    simp only [renderMembers, List.mem_cons, List.mem_append] at h
    rcases h with rfl | (h | rfl | h) | h
    · decide
    · exact renderStr_ne_zero h
    · decide
    · exact render_ne_zero v h
    · exact renderMembers_ne_zero ms h
end

variable {c : CodePoint} {v : Json}

theorem utf8Octets_ne_zero (h : c.val ≠ 0) : (0 : UInt8) ∉ utf8Octets c := by
  have hc := c.isLt
  have hnat : ∀ n, 0 < n → n < 256 → (0 : UInt8) ≠ UInt8.ofNat n := by
    intro n hpos hlt heq
    have hval := congrArg UInt8.toNat heq
    rw [UInt8.toNat_ofNat'] at hval
    have hzero : (0 : UInt8).toNat = 0 := rfl
    omega
  unfold utf8Octets
  split
  · simpa using hnat c.val (by omega) (by omega)
  split
  · simp only [List.mem_cons, List.not_mem_nil, or_false, not_or]
    exact ⟨hnat _ (by omega) (by omega), hnat _ (by omega) (by omega)⟩
  split
  · simp only [List.mem_cons, List.not_mem_nil, or_false, not_or]
    exact ⟨hnat _ (by omega) (by omega), hnat _ (by omega) (by omega), hnat _ (by omega) (by omega)⟩
  · simp only [List.mem_cons, List.not_mem_nil, or_false, not_or]
    exact ⟨hnat _ (by omega) (by omega), hnat _ (by omega) (by omega),
      hnat _ (by omega) (by omega), hnat _ (by omega) (by omega)⟩

theorem detectEncoding_eq_utf8 {b0 : UInt8} {tail : Bytes} (h0 : b0.toNat < 0x80)
    (hzero : (0 : UInt8) ∉ b0 :: tail) : detectEncoding (b0 :: tail) = .utf8 := by
  have hne : ∀ b : UInt8, 0x80 ≤ b.toNat → (b == b0) = false := by
    intro b hb
    rw [beq_eq_false_iff_ne]
    rintro rfl
    omega
  have hz0 : b0 ≠ 0 := by rintro rfl; simp at hzero
  have hz1 : ((0 : UInt8) == b0) = false := by
    rw [beq_eq_false_iff_ne]; exact hz0.symm
  unfold detectEncoding
  simp only [List.isPrefixOf_cons_cons, hz1, hne 0xff (by decide), hne 0xfe (by decide),
    hne 0xef (by decide), Bool.false_and, Bool.false_eq_true, or_self, if_false]
  split
  · rename_i b1 b2 b3 rest heq
    cases heq
    have hb1 : b1 ≠ 0 := by rintro rfl; simp at hzero
    rw [if_neg hz0, if_neg hb1]
  · rename_i b1 heq
    cases heq
    have hb1 : b1 ≠ 0 := by rintro rfl; simp at hzero
    rw [if_neg hz0, if_neg hb1]
  · rfl

theorem IsValueStart.octet (h : IsValueStart c) : c.val < 0x80 := by
  rcases h with rfl | rfl | rfl | rfl | rfl | rfl | h | rfl
  case inr.inr.inr.inr.inr.inr.inl =>
    simp only [isDigit, Bool.and_eq_true, decide_eq_true_eq] at h
    omega
  all_goals decide

theorem loadsBytes_encode_dumps {b : Bytes} (hwf : v.wf = true)
    (h : encodeUtf8 (dumps v) = some b) : loadsBytes b = .ok v.sortKeys := by
  have hdecode := decodeUtf8_encodeUtf8 h
  have henc : detectEncoding b = .utf8 := by
    unfold encodeUtf8 at h
    split at h
    · cases h
    cases h
    obtain ⟨c, tail, hc, hstart⟩ := render_head v.sortKeys
    have hlt := hstart.octet
    have hzero : (0 : UInt8) ∉ (dumps v).flatMap utf8Octets := by
      intro hmem
      obtain ⟨d, hd, hmem⟩ := List.mem_flatMap.1 hmem
      exact utf8Octets_ne_zero (render_ne_zero _ hd) hmem
    have hocts : utf8Octets c = [UInt8.ofNat c.val] := by
      unfold utf8Octets
      rw [if_pos hlt]
    have hcons : (dumps v).flatMap utf8Octets =
        UInt8.ofNat c.val :: tail.flatMap utf8Octets := by
      rw [dumps, hc, List.flatMap_cons, hocts]
      rfl
    rw [hcons] at hzero ⊢
    apply detectEncoding_eq_utf8 _ hzero
    rw [UInt8.toNat_ofNat']
    omega
  unfold loadsBytes
  rw [henc, decodeAs, hdecode]
  exact loads_dumps hwf

/-! ## Decoded values have distinct keys -/

theorem rejectDuplicateKeys_ok {result pairs members : List (Str × Json)}
    (hnodup : (result.map Prod.fst).Nodup) (h : rejectDuplicateKeys result pairs = .ok members) :
    members = result ++ pairs ∧ (members.map Prod.fst).Nodup := by
  induction pairs generalizing result with
  | nil =>
    cases h
    simpa using hnodup
  | cons pair pairs ih =>
    obtain ⟨key, value⟩ := pair
    rw [rejectDuplicateKeys] at h
    split at h
    · cases h
    · rename_i hfresh
      have := @ih (result ++ [(key, value)])
        (by
          rw [List.map_append, List.nodup_append]
          refine ⟨hnodup, by simp, ?_⟩
          intro a ha b hb
          simp only [List.map_cons, List.map_nil, List.mem_singleton] at hb
          rintro rfl
          exact hfresh (hb ▸ ha)) h
      simpa using this

theorem scanKeyword_wf {s rest : Str} (h : scanKeyword s = .ok (v, rest)) : v.wf = true := by
  unfold scanKeyword at h
  split at h
  · cases h; rfl
  split at h
  · cases h; rfl
  split at h
  · cases h; rfl
  split at h
  · cases h
  split at h
  · cases h
  unfold scanNumber at h
  split at h
  · split at h <;> cases h
  · simp only [] at h
    split at h
    · cases h; rfl
    · cases h

theorem scan_wf (fuel : Nat) :
    (∀ s v rest, scanOnce fuel s = .ok (v, rest) → v.wf = true) ∧
    (∀ s vs rest, scanItems fuel s = .ok (vs, rest) → wfItems vs = true) ∧
    (∀ s ms rest, scanMembers fuel s = .ok (ms, rest) → wfMembers ms = true) := by
  induction fuel with
  | zero =>
    refine ⟨?_, ?_, ?_⟩
    · intro s v rest h; rw [scanOnce] at h; cases h
    · intro s v rest h; rw [scanItems] at h; cases h
    · intro s v rest h; rw [scanMembers] at h; cases h
  | succ fuel ih =>
    obtain ⟨ihv, ihi, ihm⟩ := ih
    refine ⟨?_, ?_, ?_⟩
    · intro s v rest h
      cases s with
      | nil => rw [scanOnce] at h; cases h
      | cons c s =>
        rw [scanOnce] at h
        split at h
        · obtain ⟨⟨t, r⟩, -, h⟩ := bind_eq_ok.1 h
          cases h
          rfl
        split at h
        · split at h
          · cases h
          split at h
          · cases h; rfl
          obtain ⟨⟨pairs, r⟩, hpairs, h⟩ := bind_eq_ok.1 h
          obtain ⟨members, hmembers, h⟩ := bind_eq_ok.1 h
          cases h
          obtain ⟨rfl, hnodup⟩ := rejectDuplicateKeys_ok (by simp) hmembers
          simp only [wf, Bool.and_eq_true, decide_eq_true_eq] at hnodup ⊢
          exact ⟨hnodup, ihm _ _ _ hpairs⟩
        split at h
        · split at h
          · cases h
          split at h
          · cases h; rfl
          obtain ⟨⟨items, r⟩, hitems, h⟩ := bind_eq_ok.1 h
          cases h
          rw [wf]
          exact ihi _ _ _ hitems
        · exact scanKeyword_wf h
    · intro s vs rest h
      rw [scanItems] at h
      obtain ⟨⟨v, r⟩, hv, h⟩ := bind_eq_ok.1 h
      simp only [] at h
      split at h
      · cases h
      split at h
      · cases h
        simp [wfItems, ihv _ _ _ hv]
      split at h
      · obtain ⟨⟨ws, r'⟩, hws, h⟩ := bind_eq_ok.1 h
        cases h
        simp [wfItems, ihv _ _ _ hv, ihi _ _ _ hws]
      · cases h
    · intro s ms rest h
      cases s with
      | nil => rw [scanMembers] at h; cases h
      | cons q s =>
        rw [scanMembers] at h
        split at h
        · obtain ⟨⟨key, r⟩, -, h⟩ := bind_eq_ok.1 h
          simp only [] at h
          split at h
          · cases h
          split at h
          · obtain ⟨⟨v, r'⟩, hv, h⟩ := bind_eq_ok.1 h
            simp only [] at h
            split at h
            · cases h
            split at h
            · cases h
              simp [wfMembers, ihv _ _ _ hv]
            split at h
            · obtain ⟨⟨ns, r''⟩, hns, h⟩ := bind_eq_ok.1 h
              cases h
              simp [wfMembers, ihv _ _ _ hv, ihm _ _ _ hns]
            · cases h
          · cases h
        · cases h

theorem loads_wf {text : Str} (h : loads text = .ok v) : v.wf = true := by
  unfold loads at h
  split at h
  · cases h
  obtain ⟨⟨w, rest⟩, hw, h⟩ := bind_eq_ok.1 h
  simp only [] at h
  split at h
  · cases h
    exact (scan_wf _).1 _ _ _ hw
  · cases h

theorem loadsBytes_wf {data : Bytes} (h : loadsBytes data = .ok v) : v.wf = true := by
  unfold loadsBytes at h
  split at h
  · cases h
  · exact loads_wf h

end IntegrityGuardian.Python.Json
