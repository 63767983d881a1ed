import IntegrityGuardian.Python.JsonRoundTrip
import IntegrityGuardian.Python.Value

/-!
# Reading back rendered values with floats

`json.dumps` with `allow_nan=True`, and that `json.loads` reads its text back.
Of `float` the module needs what its documentation says of `repr`: the text of a
finite number is a JSON number, and `float` of it is that number again.
-/

namespace IntegrityGuardian.Python

open Json (ch isDigit integerPart fraction exponent renderStr renderInt escapeChar Delimited
  IsValueStart skipWhitespace delimited_cons delimited_nil skipWhitespace_cons)
open Library (ok_bind bind_eq_ok)

/-- The whole text is a JSON number with a fraction or an exponent. -/
def isFloatText (s : Str) : Bool :=
  match integerPart s with
  | none => false
  | some (_, rest) =>
    ((fraction rest).1 != [] || (exponent (fraction rest).2).1 != [])
      && (exponent (fraction rest).2).2 == []

/-- What `float.__repr__` and `float` promise of finite numbers. -/
class LawfulFloatData [FloatData] : Prop where
  repr_isFloatText : ∀ x, FloatData.isfinite x = true → isFloatText (FloatData.repr x) = true
  ofText_repr : ∀ x, FloatData.isfinite x = true → FloatData.ofText (FloatData.repr x) = x

/-- What `ensure_ascii=True` makes of a character that the encoder leaves as it is. -/
def asciiEscape (c : CodePoint) : Str :=
  if c.val < 127 then [c]
  else if c.val < 0x10000 then escape c.val
  else escape (0xd800 + (c.val - 0x10000) / 1024) ++ escape (0xdc00 + (c.val - 0x10000) % 1024)
where
  /-- `"\\u{0:04x}".format(n)`. -/
  escape (n : Nat) : Str :=
    [ch '\\', ch 'u', hexDigit (n / 4096 % 16), hexDigit (n / 256 % 16), hexDigit (n / 16 % 16),
      hexDigit (n % 16)]

/-! ## The parts of a number -/

variable {rest : Str}

theorem takeWhile_append_delimited (s : Str) (hr : Delimited rest) :
    (s ++ rest).takeWhile isDigit = s.takeWhile isDigit ∧
      (s ++ rest).dropWhile isDigit = s.dropWhile isDigit ++ rest := by
  induction s with
  | nil =>
    cases rest with
    | nil => exact ⟨rfl, rfl⟩
    | cons c tail =>
      have hc := Json.not_isDigit_of_delimiter (hr c tail rfl)
      simp [hc]
  | cons c s ih =>
    cases hc : isDigit c with
    | true => simp [hc, ih.1, ih.2]
    | false => simp [hc]

theorem integerPart_append {s digits tail : Str} (h : integerPart s = some (digits, tail))
    (hr : Delimited rest) : integerPart (s ++ rest) = some (digits, tail ++ rest) := by
  cases s with
  | nil => cases h
  | cons c s =>
    unfold integerPart at h ⊢
    simp only [List.cons_append, List.take_succ_cons, List.take_zero] at h ⊢
    generalize hsign : [c].filter (· == ch '-') = sign at h ⊢
    have hdrop : ((c :: (s ++ rest)).drop sign.length) = (c :: s).drop sign.length ++ rest := by
      have hlen : sign.length ≤ 1 := by
        rw [← hsign]
        exact List.length_filter_le _ _
      rw [← List.cons_append, List.drop_append_of_le_length (by simp; omega)]
    rw [hdrop]
    generalize (c :: s).drop sign.length = body at h ⊢
    cases body with
    | nil => cases h
    | cons d body =>
      simp only [List.cons_append] at h ⊢
      split_ifs at h ⊢ with hzero hdigit
      · cases h
        rfl
      · cases h
        rw [(takeWhile_append_delimited body hr).1, (takeWhile_append_delimited body hr).2]

theorem fraction_append (s : Str) (hr : Delimited rest) :
    fraction (s ++ rest) = ((fraction s).1, (fraction s).2 ++ rest) := by
  match s with
  | [] => exact Json.fraction_of_delimited hr
  | [c] =>
    cases rest with
    | nil => rfl
    | cons d tail =>
      have hd := Json.not_isDigit_of_delimiter (hr d tail rfl)
      rw [List.cons_append, List.nil_append, fraction, if_neg (by simp [hd])]
      rfl
  | c :: d :: s =>
    rw [List.cons_append, List.cons_append, fraction, fraction]
    have happend := takeWhile_append_delimited (d :: s) hr
    rw [List.cons_append] at happend
    split_ifs
    · rw [happend.1, happend.2]
    · rfl

theorem sign_append (s : Str) (hr : Delimited rest) :
    ((s ++ rest).takeWhile fun d => d == ch '-' || d == ch '+').take 1 =
      (s.takeWhile fun d => d == ch '-' || d == ch '+').take 1 := by
  cases s with
  | nil =>
    cases rest with
    | nil => rfl
    | cons c tail =>
      have hc : (c == ch '-' || c == ch '+') = false := by
        rcases hr c tail rfl with rfl | rfl | rfl | rfl <;> decide
      rw [List.nil_append, List.takeWhile_cons, hc]
      rfl
  | cons c s =>
    rw [List.cons_append, List.takeWhile_cons, List.takeWhile_cons]
    split_ifs
    · rfl
    · rfl

theorem exponent_append (s : Str) (hr : Delimited rest) :
    exponent (s ++ rest) = ((exponent s).1, (exponent s).2 ++ rest) := by
  cases s with
  | nil => exact Json.exponent_of_delimited hr
  | cons c s =>
    rw [List.cons_append, exponent, exponent]
    simp only [sign_append s hr]
    generalize hsign : (s.takeWhile fun d => d == ch '-' || d == ch '+').take 1 = sign
    have hlen : sign.length ≤ s.length := by
      rw [← hsign]
      exact (List.length_take_le' _ _).trans (List.takeWhile_prefix _).length_le
    have hdrop : (s ++ rest).drop sign.length = s.drop sign.length ++ rest :=
      List.drop_append_of_le_length hlen
    have hdigits := takeWhile_append_delimited (s.drop sign.length) hr
    rw [hdrop, hdigits.1]
    split_ifs
    · rfl
    · have hend : sign.length + ((s.drop sign.length).takeWhile isDigit).length ≤ s.length := by
        have := (List.takeWhile_prefix isDigit (l := s.drop sign.length)).length_le
        rw [List.length_drop] at this
        omega
      rw [List.drop_append_of_le_length hend]
    · rfl

theorem integerPart_split {s digits tail : Str} (h : integerPart s = some (digits, tail)) :
    s = digits ++ tail := by
  cases s with
  | nil => cases h
  | cons c s =>
    unfold integerPart at h
    simp only [List.take_succ_cons, List.take_zero] at h
    have hsplit : c :: s = [c].filter (· == ch '-') ++
        (c :: s).drop ([c].filter (· == ch '-')).length := by
      by_cases hc : (c == ch '-') = true
      · simp [hc]
      · simp [hc]
    generalize [c].filter (· == ch '-') = sign at h hsplit
    rw [hsplit]
    generalize (c :: s).drop sign.length = body at h hsplit
    cases body with
    | nil => cases h
    | cons d body =>
      simp only [] at h
      split_ifs at h with hzero hdigit
      · cases h
        simp
      · cases h
        simp [List.takeWhile_append_dropWhile]

theorem fraction_split (s : Str) : s = (fraction s).1 ++ (fraction s).2 := by
  match s with
  | [] => rfl
  | [c] => rfl
  | c :: d :: s =>
    rw [fraction]
    split_ifs
    · rw [List.cons_append, List.takeWhile_append_dropWhile]
    · rfl

theorem exponent_split (s : Str) : s = (exponent s).1 ++ (exponent s).2 := by
  cases s with
  | nil => rfl
  | cons c s =>
    rw [exponent]
    have hsign : (s.takeWhile fun d => d == ch '-' || d == ch '+').take 1 <+: s :=
      (List.take_prefix _ _).trans (List.takeWhile_prefix _)
    generalize (s.takeWhile fun d => d == ch '-' || d == ch '+').take 1 = sign at hsign
    obtain ⟨body, rfl⟩ := hsign
    simp only [List.drop_left]
    split_ifs
    · rfl
    · have hbody : body.drop (body.takeWhile isDigit).length = body.dropWhile isDigit := by
        conv_lhs => rw [← List.takeWhile_append_dropWhile (p := isDigit) (l := body)]
        rw [List.drop_append, List.drop_eq_nil_of_le (by simp), List.nil_append]
        simp
      rw [← List.drop_drop, List.drop_left, hbody]
      simp [List.takeWhile_append_dropWhile]
    · rfl

section
variable [FloatData]

/-- How `json.dumps` writes a float. -/
def floatText (x : FloatData.Float) : Str :=
  if FloatData.isfinite x then FloatData.repr x
  else if ¬FloatData.eq x x then str "NaN"
  else if FloatData.eq x FloatData.infinity then str "Infinity"
  else str "-Infinity"

/-- The float that `json.loads` reads there. -/
def rereadFloat (x : FloatData.Float) : FloatData.Float :=
  if FloatData.isfinite x then x
  else if ¬FloatData.eq x x then FloatData.nan
  else if FloatData.eq x FloatData.infinity then FloatData.infinity
  else FloatData.negInfinity

namespace Value

mutual
/-- `json.dumps(value, ensure_ascii=False, separators=(comma, colon))`; only plain values
are ever written. -/
def encode (comma colon : Str) : Value → Str
  | .null => Python.str "null"
  | .bool true => Python.str "true"
  | .bool false => Python.str "false"
  | .int n => renderInt n
  | .float x => floatText x
  | .str s => renderStr s
  | .arr [] => [ch '[', ch ']']
  | .arr (v :: vs) => ch '[' :: (encode comma colon v ++ encodeItems comma colon vs)
  | .obj [] => [ch '{', ch '}']
  | .obj ((k, v) :: ms) =>
    ch '{' :: (renderStr k ++ colon ++ encode comma colon v ++ encodeMembers comma colon ms)
  | .foreign _ _ => []

def encodeItems (comma colon : Str) : List Value → Str
  | [] => [ch ']']
  | v :: vs => comma ++ encode comma colon v ++ encodeItems comma colon vs

def encodeMembers (comma colon : Str) : List (Str × Value) → Str
  | [] => [ch '}']
  | (k, v) :: ms =>
    comma ++ renderStr k ++ colon ++ encode comma colon v ++ encodeMembers comma colon ms
end

/-- `json.dumps(value, ensure_ascii=False, separators=(",", ":"))`. -/
def compact (v : Value) : Str := encode [ch ','] [ch ':'] v

/-- `json.dumps(value, sort_keys=True)`. -/
def dumpsSorted (v : Value) : Str :=
  (encode (Python.str ", ") (Python.str ": ") v.sortKeys).flatMap asciiEscape

/-- `json.loads(text)`. -/
def loads (text : Str) : Except Exc Value :=
  if text.head? = some ⟨0xfeff, CodePoint.bom_lt⟩ then .error invalid
  else do
    let start := skipWhitespace text
    let (v, rest) ← scanOnce (2 * start.length + 2) start
    if skipWhitespace rest = [] then .ok v else .error invalid

/-! ## Decoding with a hook -/

section Hook
variable (hook : List (Str × Value) → Except Exc Value)

mutual
/-- `scan_once` with an `object_pairs_hook`. -/
def scanOnceWith : Nat → Str → Except Exc (Value × Str)
  | 0, _ => .error invalid
  | _ + 1, [] => .error invalid
  | fuel + 1, c :: rest =>
    if c = ch '"' then do
      let (s, rest) ← scanText rest
      .ok (.str s, rest)
    else if c = ch '{' then
      match Json.skipWhitespace rest with
      | [] => .error invalid
      | d :: rest =>
        if d = ch '}' then do
          let v ← hook []
          .ok (v, rest)
        else do
          let (pairs, rest) ← scanMembersWith fuel (d :: rest)
          let v ← hook pairs
          .ok (v, rest)
    else if c = ch '[' then
      match Json.skipWhitespace rest with
      | [] => .error invalid
      | d :: rest =>
        if d = ch ']' then .ok (.arr [], rest)
        else do
          let (items, rest) ← scanItemsWith fuel (d :: rest)
          .ok (.arr items, rest)
    else scanKeyword (c :: rest)

def scanItemsWith : Nat → Str → Except Exc (List Value × Str)
  | 0, _ => .error invalid
  | fuel + 1, s => do
    let (v, rest) ← scanOnceWith fuel s
    match Json.skipWhitespace rest with
    | [] => .error invalid
    | c :: rest =>
      if c = ch ']' then .ok ([v], rest)
      else if c = ch ',' then do
        let (vs, rest) ← scanItemsWith fuel (Json.skipWhitespace rest)
        .ok (v :: vs, rest)
      else .error invalid

def scanMembersWith : Nat → Str → Except Exc (List (Str × Value) × Str)
  | 0, _ => .error invalid
  | _ + 1, [] => .error invalid
  | fuel + 1, q :: rest =>
    if q = ch '"' then do
      let (key, rest) ← scanText rest
      match Json.skipWhitespace rest with
      | [] => .error invalid
      | colon :: rest =>
        if colon = ch ':' then do
          let (v, rest) ← scanOnceWith fuel (Json.skipWhitespace rest)
          match Json.skipWhitespace rest with
          | [] => .error invalid
          | c :: rest =>
            if c = ch '}' then .ok ([(key, v)], rest)
            else if c = ch ',' then do
              let (ms, rest) ← scanMembersWith fuel (Json.skipWhitespace rest)
              .ok ((key, v) :: ms, rest)
            else .error invalid
        else .error invalid
    else .error invalid
end

/-- `json.loads(text, object_pairs_hook=hook)`. -/
def loadsWith (text : Str) : Except Exc Value :=
  if text.head? = some ⟨0xfeff, CodePoint.bom_lt⟩ then .error invalid
  else do
    let start := skipWhitespace text
    let (v, rest) ← scanOnceWith hook (2 * start.length + 2) start
    if skipWhitespace rest = [] then .ok v else .error invalid

end Hook

/-- A hook that takes distinct keys as they are. -/
def Keeps (hook : List (Str × Value) → Except Exc Value) : Prop :=
  ∀ pairs : List (Str × Value), (pairs.map Prod.fst).Nodup → hook pairs = .ok (.obj pairs)

mutual
/-- Distinct keys, and no object that `json` cannot encode. -/
def plain : Value → Bool
  | .arr items => plainItems items
  | .obj members => decide (members.map Prod.fst).Nodup && plainMembers members
  | .foreign _ _ => false
  | _ => true

def plainItems : List Value → Bool
  | [] => true
  | v :: vs => plain v && plainItems vs

def plainMembers : List (Str × Value) → Bool
  | [] => true
  | (_, v) :: ms => plain v && plainMembers ms
end

mutual
/-- Every float is finite. -/
def finite : Value → Bool
  | .float x => FloatData.isfinite x
  | .arr items => finiteItems items
  | .obj members => finiteMembers members
  | _ => true

def finiteItems : List Value → Bool
  | [] => true
  | v :: vs => finite v && finiteItems vs

def finiteMembers : List (Str × Value) → Bool
  | [] => true
  | (_, v) :: ms => finite v && finiteMembers ms
end

mutual
/-- The value that is read back; only the floats that are not finite may differ. -/
def reread : Value → Value
  | .float x => .float (rereadFloat x)
  | .arr items => .arr (rereadItems items)
  | .obj members => .obj (rereadMembers members)
  | v => v

def rereadItems : List Value → List Value
  | [] => []
  | v :: vs => reread v :: rereadItems vs

def rereadMembers : List (Str × Value) → List (Str × Value)
  | [] => []
  | (k, v) :: ms => (k, reread v) :: rereadMembers ms
end

mutual
theorem reread_of_finite : ∀ {v : Value}, v.finite = true → v.reread = v
  | .null, _ => rfl
  | .bool _, _ => rfl
  | .int _, _ => rfl
  | .str _, _ => rfl
  | .foreign _ _, _ => rfl
  | .float x, h => by
    rw [finite] at h
    rw [reread, rereadFloat, if_pos h]
  | .arr items, h => by
    rw [finite] at h
    rw [reread, rereadItems_of_finite h]
  | .obj members, h => by
    rw [finite] at h
    rw [reread, rereadMembers_of_finite h]

theorem rereadItems_of_finite : ∀ {vs : List Value}, finiteItems vs = true → rereadItems vs = vs
  | [], _ => rfl
  | v :: vs, h => by
    rw [finiteItems, Bool.and_eq_true] at h
    rw [rereadItems, reread_of_finite h.1, rereadItems_of_finite h.2]

theorem rereadMembers_of_finite : ∀ {ms : List (Str × Value)}, finiteMembers ms = true →
    rereadMembers ms = ms
  | [], _ => rfl
  | (k, v) :: ms, h => by
    rw [finiteMembers, Bool.and_eq_true] at h
    rw [rereadMembers, reread_of_finite h.1, rereadMembers_of_finite h.2]
end

theorem map_fst_rereadMembers (ms : List (Str × Value)) :
    (rereadMembers ms).map Prod.fst = ms.map Prod.fst := by
  induction ms with
  | nil => rfl
  | cons m ms ih =>
    obtain ⟨k, v⟩ := m
    rw [rereadMembers, List.map_cons, List.map_cons, ih]

/-! ## Values -/

variable {c : CodePoint} {rest tail text : Str}

theorem scanNumber_renderInt (n : Int) (hr : Delimited rest) :
    scanNumber (renderInt n ++ rest) = .ok (.int n, rest) := by
  unfold scanNumber
  rw [Json.integerPart_renderInt n hr]
  simp only [Json.fraction_of_delimited hr, Json.exponent_of_delimited hr, and_self, if_true,
    Json.integerValue_renderInt]

theorem scanNumber_floatText (h : isFloatText text = true) (hr : Delimited rest) :
    scanNumber (text ++ rest) = .ok (.float (FloatData.ofText text), rest) := by
  unfold isFloatText at h
  cases hint : integerPart text with
  | none =>
    rw [hint] at h
    cases h
  | some parts =>
    obtain ⟨digits, tail⟩ := parts
    rw [hint] at h
    simp only [Bool.and_eq_true, Bool.or_eq_true, bne_iff_ne, beq_iff_eq] at h
    have hwhole : digits ++ (fraction tail).1 ++ (exponent (fraction tail).2).1 = text := by
      conv_rhs => rw [integerPart_split hint, fraction_split tail, exponent_split (fraction tail).2]
      rw [h.2, List.append_nil, List.append_assoc]
    unfold scanNumber
    rw [integerPart_append hint hr]
    simp only [fraction_append tail hr, exponent_append (fraction tail).2 hr, h.2, hwhole,
      List.nil_append]
    rw [if_neg]
    intro hempty
    exact h.1.elim (absurd hempty.1) (absurd hempty.2)

/-- The characters a number can start with. -/
def IsNumberStart (c : CodePoint) : Prop := isDigit c = true ∨ c = ch '-'

/-- The characters a rendered value can start with. -/
def IsStart (c : CodePoint) : Prop := IsValueStart c ∨ c = ch 'N' ∨ c = ch 'I'

omit [FloatData] in
theorem IsNumberStart.ne {d : CodePoint} (h : IsNumberStart c) (hd : isDigit d = false)
    (hminus : d ≠ ch '-') : c ≠ d := by
  rintro rfl
  rcases h with h | h
  · rw [hd] at h
    cases h
  · exact hminus h

theorem scanKeyword_number (hc : IsNumberStart c) :
    scanKeyword (c :: tail) = scanNumber (c :: tail) := by
  have hprefix : ∀ (d : CodePoint) (word : Str), isDigit d = false → d ≠ ch '-' →
      List.isPrefixOf (d :: word) (c :: tail) = false := by
    intro d word hd hminus
    rw [List.isPrefixOf_cons_cons, beq_eq_false_iff_ne.2 (hc.ne hd hminus).symm, Bool.false_and]
  unfold scanKeyword
  rw [show Python.str "null" = ch 'n' :: Python.str "ull" from rfl,
    show Python.str "true" = ch 't' :: Python.str "rue" from rfl,
    show Python.str "false" = ch 'f' :: Python.str "alse" from rfl,
    show Python.str "NaN" = ch 'N' :: Python.str "aN" from rfl,
    show Python.str "Infinity" = ch 'I' :: Python.str "nfinity" from rfl,
    hprefix _ _ (by decide) (by decide), hprefix _ _ (by decide) (by decide),
    hprefix _ _ (by decide) (by decide), hprefix _ _ (by decide) (by decide),
    hprefix _ _ (by decide) (by decide)]
  rfl

theorem scanOnceWith_number {hook : List (Str × Value) → Except Exc Value}
    (hc : IsNumberStart c) (fuel : Nat) :
    scanOnceWith hook (fuel + 1) (c :: tail) = scanNumber (c :: tail) := by
  rw [scanOnceWith, if_neg (hc.ne (by decide) (by decide)), if_neg (hc.ne (by decide) (by decide)),
    if_neg (hc.ne (by decide) (by decide)), scanKeyword_number hc]

omit [FloatData] in
theorem isFloatText_head (h : isFloatText text = true) :
    ∃ c tail, text = c :: tail ∧ IsNumberStart c := by
  cases text with
  | nil => cases h
  | cons c tail =>
    refine ⟨c, tail, rfl, ?_⟩
    by_cases hminus : c = ch '-'
    · exact .inr hminus
    · left
      unfold isFloatText integerPart at h
      simp only [List.take_succ_cons, List.take_zero, List.filter_cons, beq_iff_eq, hminus,
        List.filter_nil, if_false, List.length_nil, List.drop_zero] at h
      by_cases hzero : c = ch '0'
      · rw [hzero]
        rfl
      · rw [if_neg hzero] at h
        by_contra hdigit
        rw [if_neg hdigit] at h
        cases h

variable [LawfulFloatData]

theorem floatText_head (x : FloatData.Float) :
    ∃ c tail, floatText x = c :: tail ∧ IsStart c := by
  unfold floatText
  split_ifs with hfinite hnan hinf
  · obtain ⟨c, tail, hc, hstart⟩ := isFloatText_head (LawfulFloatData.repr_isFloatText x hfinite)
    refine ⟨c, tail, hc, .inl ?_⟩
    rcases hstart with hstart | hstart
    · simp [IsValueStart, hstart]
    · simp [IsValueStart, hstart]
  · exact ⟨ch 'I', _, rfl, .inr (.inr rfl)⟩
  · exact ⟨ch '-', _, rfl, .inl (by simp [IsValueStart])⟩
  · exact ⟨ch 'N', _, rfl, .inr (.inl rfl)⟩

theorem scanOnceWith_floatText {hook : List (Str × Value) → Except Exc Value}
    (x : FloatData.Float) (fuel : Nat) {rest : Str} (hr : Delimited rest) :
    scanOnceWith hook (fuel + 1) (floatText x ++ rest) = .ok (.float (rereadFloat x), rest) := by
  unfold floatText rereadFloat
  split_ifs with hfinite hnan hinf
  · have htext := LawfulFloatData.repr_isFloatText x hfinite
    have hscan := scanNumber_floatText htext hr
    obtain ⟨c, tail, hc, hstart⟩ := isFloatText_head htext
    rw [LawfulFloatData.ofText_repr x hfinite] at hscan
    rw [hc, List.cons_append] at hscan ⊢
    rw [scanOnceWith_number hstart, hscan]
  · rfl
  · rfl
  · rfl

variable {c : CodePoint} {v : Value}

theorem encode_head (comma colon : Str) (h : v.plain = true) :
    ∃ c tail, encode comma colon v = c :: tail ∧ IsStart c := by
  unfold IsStart IsValueStart
  cases v with
  | null => exact ⟨ch 'n', _, rfl, by simp⟩
  | bool b =>
    cases b
    · exact ⟨ch 'f', _, rfl, by simp⟩
    · exact ⟨ch 't', _, rfl, by simp⟩
  | int n =>
    obtain ⟨c, tail, hc, hd⟩ := Json.renderInt_head n
    refine ⟨c, tail, hc, ?_⟩
    rcases hd with hd | hd
    · simp [hd]
    · simp [hd]
  | float x => exact floatText_head x
  | str s => exact ⟨ch '"', _, rfl, by simp⟩
  | arr items =>
    cases items with
    | nil => exact ⟨ch '[', _, by rw [encode], by simp⟩
    | cons v vs => exact ⟨ch '[', _, by rw [encode], by simp⟩
  | obj members =>
    cases members with
    | nil => exact ⟨ch '{', _, by rw [encode], by simp⟩
    | cons m ms => exact ⟨ch '{', _, by rw [encode], by simp⟩
  | foreign _ _ => cases h

omit [FloatData] [LawfulFloatData] in
theorem IsStart.not_whitespace (h : IsStart c) : Json.isWhitespace c = false := by
  rcases h with h | rfl | rfl
  · exact h.not_whitespace
  · decide
  · decide

omit [FloatData] [LawfulFloatData] in
theorem IsStart.ne_close (h : IsStart c) : c ≠ ch ']' := by
  rcases h with h | rfl | rfl
  · exact h.ne_close
  · decide
  · decide

theorem skipWhitespace_compact (h : v.plain = true) (rest : Str) :
    skipWhitespace (compact v ++ rest) = compact v ++ rest := by
  obtain ⟨c, tail, hc, hstart⟩ := encode_head [ch ','] [ch ':'] h
  rw [compact, hc, List.cons_append, skipWhitespace_cons hstart.not_whitespace]

section
variable {hook : List (Str × Value) → Except Exc Value}

set_option linter.unusedSectionVars false in
mutual
theorem scanOnceWith_compact (hhook : Keeps hook) :
    ∀ (v : Value) (fuel : Nat) (rest : Str), v.plain = true → Delimited rest →
    2 * (compact v).length ≤ fuel + 1 →
    scanOnceWith hook fuel (compact v ++ rest) = .ok (v.reread, rest)
  | .null, fuel, rest, _, _, hfuel => by
    obtain ⟨fuel, rfl⟩ : ∃ n, fuel = n + 1 :=
      ⟨fuel - 1, by simp [compact, encode, Python.str] at hfuel; omega⟩
    rfl
  | .bool b, fuel, rest, _, _, hfuel => by
    obtain ⟨fuel, rfl⟩ : ∃ n, fuel = n + 1 :=
      ⟨fuel - 1, by cases b <;> simp [compact, encode, Python.str] at hfuel <;> omega⟩
    cases b <;> rfl
  | .int n, fuel, rest, _, hr, hfuel => by
    obtain ⟨c, tail, hc, hstart⟩ := Json.renderInt_head n
    obtain ⟨fuel, rfl⟩ : ∃ n, fuel = n + 1 :=
      ⟨fuel - 1, by simp [compact, encode, hc] at hfuel; omega⟩
    have hscan := scanNumber_renderInt n hr
    rw [compact, encode]
    rw [hc, List.cons_append] at hscan ⊢
    rw [scanOnceWith_number hstart, hscan]
    rfl
  | .float x, fuel, rest, _, hr, hfuel => by
    obtain ⟨c, tail, hc, -⟩ := floatText_head x
    obtain ⟨fuel, rfl⟩ : ∃ n, fuel = n + 1 :=
      ⟨fuel - 1, by simp [compact, encode, hc] at hfuel; omega⟩
    rw [compact, encode, reread]
    exact scanOnceWith_floatText x fuel hr
  | .str s, fuel, rest, _, _, hfuel => by
    obtain ⟨fuel, rfl⟩ : ∃ n, fuel = n + 1 :=
      ⟨fuel - 1, by simp [compact, encode, renderStr] at hfuel; omega⟩
    rw [compact, encode, renderStr, List.cons_append, List.cons_append, scanOnceWith, if_pos rfl,
      List.append_assoc, List.cons_append, List.nil_append, scanText, Json.scanString_rendered]
    rfl
  | .foreign _ _, _, _, h, _, _ => by cases h
  | .arr [], fuel, rest, _, _, hfuel => by
    obtain ⟨fuel, rfl⟩ : ∃ n, fuel = n + 1 :=
      ⟨fuel - 1, by simp [compact, encode] at hfuel; omega⟩
    rfl
  | .arr (v :: vs), fuel, rest, hplain, _, hfuel => by
    obtain ⟨fuel, rfl⟩ : ∃ n, fuel = n + 1 :=
      ⟨fuel - 1, by simp [compact, encode] at hfuel; omega⟩
    rw [plain] at hplain
    have hitems := scanItemsWith_compact hhook (v :: vs) fuel rest hplain v vs rfl
      (by simp [compact, encode] at hfuel ⊢; omega)
    rw [plainItems, Bool.and_eq_true] at hplain
    have hws := skipWhitespace_compact hplain.1 (encodeItems [ch ','] [ch ':'] vs ++ rest)
    obtain ⟨c, tail, hc, hstart⟩ := encode_head [ch ','] [ch ':'] hplain.1
    rw [List.append_assoc] at hitems
    rw [compact] at hws hitems
    rw [compact, encode, List.cons_append, scanOnceWith, if_neg (by decide), if_neg (by decide),
      if_pos rfl, List.append_assoc, hws]
    rw [hc, List.cons_append] at hitems ⊢
    simp only []
    rw [if_neg hstart.ne_close, hitems]
    rfl
  | .obj members, fuel, rest, hplain, _, hfuel =>
    scanOnceWith_object hhook members fuel rest hplain hfuel

theorem scanOnceWith_object (hhook : Keeps hook) :
    ∀ (members : List (Str × Value)) (fuel : Nat) (rest : Str),
    (Value.obj members).plain = true → 2 * (compact (.obj members)).length ≤ fuel + 1 →
    scanOnceWith hook fuel (compact (.obj members) ++ rest) = .ok ((Value.obj members).reread, rest)
  | [], fuel, rest, _, hfuel => by
    obtain ⟨fuel, rfl⟩ : ∃ n, fuel = n + 1 :=
      ⟨fuel - 1, by simp [compact, encode] at hfuel; omega⟩
    show (hook [] >>= fun v => Except.ok (v, rest)) = _
    rw [hhook [] List.nodup_nil]
    rfl
  | (k, v) :: ms, fuel, rest, hplain, hfuel => by
    obtain ⟨fuel, rfl⟩ : ∃ n, fuel = n + 1 :=
      ⟨fuel - 1, by simp [compact, encode] at hfuel; omega⟩
    simp only [plain, Bool.and_eq_true, decide_eq_true_eq] at hplain
    have hmembers := scanMembersWith_compact hhook ((k, v) :: ms) fuel rest hplain.2 k v ms rfl
      (by simp [compact, encode] at hfuel ⊢; omega)
    have hkeys := hhook (rereadMembers ((k, v) :: ms))
      (by rw [map_fst_rereadMembers]; exact hplain.1)
    rw [compact, encode, List.cons_append, scanOnceWith, if_neg (by decide), if_pos rfl]
    rw [renderStr, List.cons_append] at hmembers ⊢
    simp only [List.cons_append, List.nil_append, List.append_assoc, compact] at hmembers ⊢
    rw [skipWhitespace_cons (by decide)]
    simp only []
    rw [if_neg (by decide), hmembers]
    rw [ok_bind]
    simp only []
    rw [hkeys, reread]
    rfl

theorem scanItemsWith_compact (hhook : Keeps hook) :
    ∀ (items : List Value) (fuel : Nat) (rest : Str),
    plainItems items = true → ∀ v vs, items = v :: vs →
    2 * (compact v ++ encodeItems [ch ','] [ch ':'] vs).length ≤ fuel + 2 →
    scanItemsWith hook fuel (compact v ++ encodeItems [ch ','] [ch ':'] vs ++ rest) =
      .ok (rereadItems items, rest)
  | [], _, _, _, _, _, h, _ => by cases h
  | w :: ws, fuel, rest, hplain, v, vs, h, hfuel => by
    cases h
    rw [plainItems, Bool.and_eq_true] at hplain
    obtain ⟨c, tail, hc, -⟩ := encode_head [ch ','] [ch ':'] hplain.1
    have hlen : 1 ≤ (compact w).length := by
      rw [compact, hc]
      simp
    match ws with
    | [] =>
      simp only [encodeItems, List.length_append, List.length_cons, List.length_nil] at hfuel
      obtain ⟨fuel, rfl⟩ : ∃ n, fuel = n + 1 := ⟨fuel - 1, by omega⟩
      have hv := scanOnceWith_compact hhook w fuel (ch ']' :: rest) hplain.1
        (delimited_cons (by simp)) (by omega)
      rw [encodeItems, List.append_assoc, scanItemsWith, List.cons_append, List.nil_append, hv]
      rfl
    | x :: xs =>
      simp only [encodeItems, List.length_append, List.length_cons, List.length_nil] at hfuel
      obtain ⟨fuel, rfl⟩ : ∃ n, fuel = n + 1 := ⟨fuel - 1, by omega⟩
      have hx := hplain.2
      rw [plainItems, Bool.and_eq_true] at hx
      have hv := scanOnceWith_compact hhook w fuel
        (ch ',' :: (compact x ++ encodeItems [ch ','] [ch ':'] xs ++ rest)) hplain.1
        (delimited_cons (by simp)) (by omega)
      have hrest := scanItemsWith_compact hhook (x :: xs) fuel rest hplain.2 x xs rfl
        (by simp only [List.length_append, compact] at hfuel ⊢; omega)
      rw [encodeItems, ← compact, List.append_assoc, List.append_assoc, List.append_assoc,
        scanItemsWith, List.cons_append, List.nil_append, ← List.append_assoc (compact x), hv,
        ok_bind]
      simp only [skipWhitespace_cons (show Json.isWhitespace (ch ',') = false by decide)]
      rw [if_neg (by decide), if_pos trivial, List.append_assoc, skipWhitespace_compact hx.1,
        ← List.append_assoc, hrest]
      rfl

theorem scanMembersWith_compact (hhook : Keeps hook) :
    ∀ (members : List (Str × Value)) (fuel : Nat) (rest : Str),
    plainMembers members = true → ∀ k v ms, members = (k, v) :: ms →
    2 * (renderStr k ++ ch ':' :: compact v ++ encodeMembers [ch ','] [ch ':'] ms).length ≤
      fuel + 2 →
    scanMembersWith hook fuel
        (renderStr k ++ ch ':' :: compact v ++ encodeMembers [ch ','] [ch ':'] ms ++ rest) =
      .ok (rereadMembers members, rest)
  | [], _, _, _, _, _, _, h, _ => by cases h
  | (l, w) :: ns, fuel, rest, hplain, k, v, ms, h, hfuel => by
    cases h
    rw [plainMembers, Bool.and_eq_true] at hplain
    have hquote : ∀ tail, renderStr l ++ ch ':' :: tail =
        ch '"' :: (l.flatMap escapeChar ++ ch '"' :: (ch ':' :: tail)) := by
      intro tail
      simp [renderStr]
    have hcolon : ∀ tail, skipWhitespace (ch ':' :: tail) = ch ':' :: tail := fun tail =>
      skipWhitespace_cons (by decide)
    match ns with
    | [] =>
      simp only [encodeMembers, List.length_append, List.length_cons, List.length_nil] at hfuel
      obtain ⟨fuel, rfl⟩ : ∃ n, fuel = n + 1 := ⟨fuel - 1, by omega⟩
      have hv := scanOnceWith_compact hhook w fuel (ch '}' :: rest) hplain.1
        (delimited_cons (by simp)) (by omega)
      simp only [encodeMembers, List.append_assoc, List.cons_append, List.nil_append]
      rw [hquote, scanMembersWith, if_pos rfl, scanText, Json.scanString_rendered, ok_bind]
      simp only [hcolon, if_true]
      rw [skipWhitespace_compact hplain.1, hv]
      rfl
    | (k', x) :: xs =>
      simp only [encodeMembers, List.length_append, List.length_cons, List.length_nil] at hfuel
      obtain ⟨fuel, rfl⟩ : ∃ n, fuel = n + 1 := ⟨fuel - 1, by omega⟩
      have hv := scanOnceWith_compact hhook w fuel
        (ch ',' :: (renderStr k' ++ ch ':' :: compact x ++
          encodeMembers [ch ','] [ch ':'] xs ++ rest))
        hplain.1 (delimited_cons (by simp)) (by omega)
      have hrest := scanMembersWith_compact hhook ((k', x) :: xs) fuel rest hplain.2 k' x xs rfl
        (by simp only [List.length_append, List.length_cons, compact] at hfuel ⊢; omega)
      simp only [List.append_assoc, List.cons_append, compact] at hv hrest
      simp only [encodeMembers, List.append_assoc, List.cons_append, List.nil_append]
      rw [hquote, scanMembersWith, if_pos rfl, scanText, Json.scanString_rendered, ok_bind]
      simp only [hcolon, if_true]
      rw [skipWhitespace_compact hplain.1, compact, hv, ok_bind]
      simp only [skipWhitespace_cons (show Json.isWhitespace (ch ',') = false by decide)]
      rw [if_neg (by decide), if_pos trivial, Json.skipWhitespace_renderStr, hrest]
      rfl
end

theorem loadsWith_compact (hhook : Keeps hook) {v : Value} (h : v.plain = true) {rest : Str}
    (hr : Delimited rest) (hspace : skipWhitespace rest = []) :
    loadsWith hook (compact v ++ rest) = .ok v.reread := by
  have hstart := skipWhitespace_compact h rest
  have hscan := scanOnceWith_compact hhook v (2 * (compact v ++ rest).length + 2) rest h hr
    (by rw [List.length_append]; omega)
  obtain ⟨c, tail, hc, hs⟩ := encode_head [ch ','] [ch ':'] h
  have hbom : c ≠ ⟨0xfeff, CodePoint.bom_lt⟩ := by
    rintro rfl
    rcases hs with (h | h | h | h | h | h | h | h) | h | h <;> exact absurd h (by decide)
  rw [loadsWith, if_neg (by rw [compact, hc]; simpa using hbom)]
  simp only [hstart, hscan, ok_bind]
  rw [if_pos hspace]

end

variable {v : Value}

omit [LawfulFloatData] in
theorem map_fst_replace (members : List (Str × Value)) (pair : Str × Value) :
    (members.map fun m => if m.1 = pair.1 then pair else m).map Prod.fst =
      members.map Prod.fst := by
  rw [List.map_map]
  apply List.map_congr_left
  intro m _
  by_cases h : m.1 = pair.1
  · rw [Function.comp_apply, if_pos h, h]
  · rw [Function.comp_apply, if_neg h]

end Value

end

end IntegrityGuardian.Python
