import Mathlib.Data.List.TakeWhile
import IntegrityGuardian.Library.Lines
import IntegrityGuardian.Python.ValueText

/-!
# Strict reading of sorted texts

`loads_json_strict` of `json_integrity.py`, and that it reads back what `json.dumps` with
`sort_keys=True` and `allow_nan=False` writes: one line of UTF-8, whose second writing is
the same line.
-/

namespace IntegrityGuardian.Python

open Json (ch isDigit integerPart fraction exponent renderStr renderInt escapeChar Delimited
  skipWhitespace delimited_cons)
open Library (ok_bind bind_eq_ok IsLine)

/-- `data.decode("utf-8")`. -/
def decodeUtf8Strict (data : Bytes) : Option Str :=
  (decodeUtf8 data).filter fun s => !s.any CodePoint.isSurrogate

theorem decodeUtf8Strict_encodeUtf8 {s : Str} {b : Bytes} (h : encodeUtf8 s = some b) :
    decodeUtf8Strict b = some s := by
  rw [decodeUtf8Strict, decodeUtf8_encodeUtf8 h]
  unfold encodeUtf8 at h
  split_ifs at h with hsurrogate
  simp [hsurrogate]

namespace Value

section
variable [FloatData]

/-! ## The hook -/

section
variable [UnicodeData]

/-- The loop of `_object_without_duplicates`. -/
def withoutDuplicates : List (Str × Value) → List (Str × Value) → Except Exc (List (Str × Value))
  | result, [] => .ok result
  | result, (key, value) :: pairs =>
    if key ∈ result.map Prod.fst then
      .error (.valueError (Python.str "duplicate JSON object key: " ++ Str.repr key))
    else withoutDuplicates (result ++ [(key, value)]) pairs

/-- `_object_without_duplicates`. -/
def objectWithoutDuplicates (pairs : List (Str × Value)) : Except Exc Value := do
  let result ← withoutDuplicates [] pairs
  .ok (.obj result)

/-- `loads_json_strict`. -/
def loadsJsonStrict (text : Str) : Except Exc Value := loadsWith objectWithoutDuplicates text

theorem withoutDuplicates_eq {result pairs : List (Str × Value)}
    (h : ((result ++ pairs).map Prod.fst).Nodup) :
    withoutDuplicates result pairs = .ok (result ++ pairs) := by
  induction pairs generalizing result with
  | nil => rw [List.append_nil]; rfl
  | cons pair pairs ih =>
    obtain ⟨key, value⟩ := pair
    have hfresh : key ∉ result.map Prod.fst := by
      rw [List.map_append, List.map_cons] at h
      exact fun hmem => List.disjoint_of_nodup_append h hmem List.mem_cons_self
    rw [withoutDuplicates, if_neg hfresh, ih (by simpa using h), List.append_assoc]
    rfl

theorem keeps_objectWithoutDuplicates : Keeps objectWithoutDuplicates := by
  intro pairs h
  rw [objectWithoutDuplicates, @withoutDuplicates_eq _ _ [] pairs h]
  rfl

end

/-! ## Values that can be written -/

mutual
/-- Distinct keys, and objects of other kinds only where `json` refuses them. -/
def jsonable : Value → Bool
  | .arr items => jsonableItems items
  | .obj members => decide (members.map Prod.fst).Nodup && jsonableMembers members
  | .foreign _ (.ok _) => false
  | _ => true

def jsonableItems : List Value → Bool
  | [] => true
  | v :: vs => jsonable v && jsonableItems vs

def jsonableMembers : List (Str × Value) → Bool
  | [] => true
  | (_, v) :: ms => jsonable v && jsonableMembers ms
end

mutual
/-- What is written is plain and finite, and is written as it would be with
`allow_nan=True`. -/
theorem render_eq_ok : ∀ {v : Value} {text : Str}, v.jsonable = true → v.render = .ok text →
    v.plain = true ∧ v.finite = true ∧ text = compact v
  | .null, _, _, h => by
    cases h
    exact ⟨rfl, rfl, rfl⟩
  | .bool b, _, _, h => by
    cases b <;> cases h <;> exact ⟨rfl, rfl, rfl⟩
  | .int n, _, _, h => by
    cases h
    exact ⟨rfl, rfl, rfl⟩
  | .str s, _, _, h => by
    cases h
    exact ⟨rfl, rfl, rfl⟩
  | .float x, _, _, h => by
    rw [render] at h
    split_ifs at h with hfinite
    cases h
    refine ⟨rfl, hfinite, ?_⟩
    rw [compact, encode, floatText, if_pos hfinite]
  | .foreign _ (.ok _), _, hjson, _ => by cases hjson
  | .foreign _ (.error _), _, _, h => by cases h
  | .arr [], _, _, h => by
    cases h
    exact ⟨rfl, rfl, rfl⟩
  | .arr (v :: vs), _, hjson, h => by
    rw [jsonable, jsonableItems, Bool.and_eq_true] at hjson
    rw [render] at h
    obtain ⟨first, hfirst, h⟩ := bind_eq_ok.1 h
    obtain ⟨rest, hrest, h⟩ := bind_eq_ok.1 h
    cases h
    obtain ⟨hplain, hfinite, rfl⟩ := render_eq_ok hjson.1 hfirst
    obtain ⟨hplains, hfinites, rfl⟩ := renderItems_eq_ok hjson.2 hrest
    refine ⟨by simp [plain, plainItems, hplain, hplains],
      by simp [finite, finiteItems, hfinite, hfinites], ?_⟩
    simp only [compact, encode]
  | .obj [], _, _, h => by
    cases h
    exact ⟨rfl, rfl, rfl⟩
  | .obj ((k, v) :: ms), _, hjson, h => by
    rw [jsonable, jsonableMembers, Bool.and_eq_true, Bool.and_eq_true] at hjson
    rw [render] at h
    obtain ⟨first, hfirst, h⟩ := bind_eq_ok.1 h
    obtain ⟨rest, hrest, h⟩ := bind_eq_ok.1 h
    cases h
    obtain ⟨hplain, hfinite, rfl⟩ := render_eq_ok hjson.2.1 hfirst
    obtain ⟨hplains, hfinites, rfl⟩ := renderMembers_eq_ok hjson.2.2 hrest
    refine ⟨?_, by simp [finite, finiteMembers, hfinite, hfinites], ?_⟩
    · rw [plain, plainMembers, hplain, hplains, hjson.1]
      rfl
    · simp [compact, encode]

theorem renderItems_eq_ok : ∀ {vs : List Value} {text : Str}, jsonableItems vs = true →
    renderItems vs = .ok text →
    plainItems vs = true ∧ finiteItems vs = true ∧ text = encodeItems [ch ','] [ch ':'] vs
  | [], _, _, h => by
    cases h
    exact ⟨rfl, rfl, rfl⟩
  | v :: vs, _, hjson, h => by
    rw [jsonableItems, Bool.and_eq_true] at hjson
    rw [renderItems] at h
    obtain ⟨first, hfirst, h⟩ := bind_eq_ok.1 h
    obtain ⟨rest, hrest, h⟩ := bind_eq_ok.1 h
    cases h
    obtain ⟨hplain, hfinite, rfl⟩ := render_eq_ok hjson.1 hfirst
    obtain ⟨hplains, hfinites, rfl⟩ := renderItems_eq_ok hjson.2 hrest
    refine ⟨by simp [plainItems, hplain, hplains],
      by simp [finiteItems, hfinite, hfinites], ?_⟩
    rw [encodeItems, compact]
    rfl

theorem renderMembers_eq_ok : ∀ {ms : List (Str × Value)} {text : Str},
    jsonableMembers ms = true → renderMembers ms = .ok text →
    plainMembers ms = true ∧ finiteMembers ms = true ∧
      text = encodeMembers [ch ','] [ch ':'] ms
  | [], _, _, h => by
    cases h
    exact ⟨rfl, rfl, rfl⟩
  | (k, v) :: ms, _, hjson, h => by
    rw [jsonableMembers, Bool.and_eq_true] at hjson
    rw [renderMembers] at h
    obtain ⟨first, hfirst, h⟩ := bind_eq_ok.1 h
    obtain ⟨rest, hrest, h⟩ := bind_eq_ok.1 h
    cases h
    obtain ⟨hplain, hfinite, rfl⟩ := render_eq_ok hjson.1 hfirst
    obtain ⟨hplains, hfinites, rfl⟩ := renderMembers_eq_ok hjson.2 hrest
    refine ⟨by simp [plainMembers, hplain, hplains],
      by simp [finiteMembers, hfinite, hfinites], ?_⟩
    rw [encodeMembers, compact]
    simp
end

/-! ## Key order -/

theorem map_fst_sortMembers (ms : List (Str × Value)) :
    (sortMembers ms).map Prod.fst = ms.map Prod.fst := by
  induction ms with
  | nil => rfl
  | cons m ms ih =>
    obtain ⟨k, v⟩ := m
    simp [sortMembers, ih]

theorem jsonableMembers_iff (ms : List (Str × Value)) :
    jsonableMembers ms = true ↔ ∀ m ∈ ms, m.2.jsonable = true := by
  induction ms with
  | nil => simp [jsonableMembers]
  | cons m ms ih =>
    obtain ⟨k, v⟩ := m
    simp [jsonableMembers, ih]

mutual
theorem jsonable_sortKeys : ∀ {v : Value}, v.jsonable = true → v.sortKeys.jsonable = true
  | .null, _ => rfl
  | .bool _, _ => rfl
  | .int _, _ => rfl
  | .float _, _ => rfl
  | .str _, _ => rfl
  | .foreign _ (.error _), _ => rfl
  | .foreign _ (.ok _), h => by cases h
  | .arr items, h => by
    rw [jsonable] at h
    rw [sortKeys, jsonable]
    exact jsonableItems_sortItems h
  | .obj members, h => by
    rw [jsonable, Bool.and_eq_true, decide_eq_true_eq] at h
    rw [sortKeys, jsonable, Bool.and_eq_true, decide_eq_true_eq]
    have hperm := List.perm_insertionSort (fun a b : Str × Value => a.1 ≤ b.1)
      (sortMembers members)
    constructor
    · rw [(hperm.map Prod.fst).nodup_iff, map_fst_sortMembers]
      exact h.1
    · rw [jsonableMembers_iff]
      intro m hm
      exact (jsonableMembers_iff _).1 (jsonableMembers_sortMembers h.2) m (hperm.mem_iff.1 hm)

theorem jsonableItems_sortItems : ∀ {vs : List Value}, jsonableItems vs = true →
    jsonableItems (sortItems vs) = true
  | [], _ => rfl
  | v :: vs, h => by
    rw [jsonableItems, Bool.and_eq_true] at h
    rw [sortItems, jsonableItems, Bool.and_eq_true]
    exact ⟨jsonable_sortKeys h.1, jsonableItems_sortItems h.2⟩

theorem jsonableMembers_sortMembers : ∀ {ms : List (Str × Value)}, jsonableMembers ms = true →
    jsonableMembers (sortMembers ms) = true
  | [], _ => rfl
  | (k, v) :: ms, h => by
    rw [jsonableMembers, Bool.and_eq_true] at h
    rw [sortMembers, jsonableMembers, Bool.and_eq_true]
    exact ⟨jsonable_sortKeys h.1, jsonableMembers_sortMembers h.2⟩
end

theorem sortMembers_eq_self {ms : List (Str × Value)} (h : ∀ m ∈ ms, m.2.sortKeys = m.2) :
    sortMembers ms = ms := by
  induction ms with
  | nil => rfl
  | cons m ms ih =>
    obtain ⟨k, v⟩ := m
    have hv : v.sortKeys = v := h (k, v) (by simp)
    simp only [sortMembers, hv]
    rw [ih (fun m hm => h m (by simp [hm]))]

instance : Std.Total (fun a b : Str × Value => a.1 ≤ b.1) := ⟨fun a b => le_total a.1 b.1⟩

instance : IsTrans (Str × Value) (fun a b => a.1 ≤ b.1) := ⟨fun _ _ _ => le_trans⟩

mutual
theorem sortKeys_sortKeys : ∀ v : Value, v.sortKeys.sortKeys = v.sortKeys
  | .null => rfl
  | .bool _ => rfl
  | .int _ => rfl
  | .float _ => rfl
  | .str _ => rfl
  | .foreign _ _ => rfl
  | .arr items => by simp only [sortKeys, sortItems_sortItems items]
  | .obj members => by
    have hfixed : ∀ m ∈ (sortMembers members).insertionSort fun a b => a.1 ≤ b.1,
        m.2.sortKeys = m.2 := by
      intro m hm
      exact sortKeys_of_mem_sortMembers members ((List.mem_insertionSort _).1 hm)
    simp only [sortKeys]
    rw [sortMembers_eq_self hfixed]
    congr 1
    exact (List.pairwise_insertionSort _ _).insertionSort_eq

theorem sortItems_sortItems : ∀ vs : List Value, sortItems (sortItems vs) = sortItems vs
  | [] => rfl
  | v :: vs => by simp only [sortItems, sortKeys_sortKeys v, sortItems_sortItems vs]

theorem sortKeys_of_mem_sortMembers : ∀ (ms : List (Str × Value)) {m : Str × Value},
    m ∈ sortMembers ms → m.2.sortKeys = m.2
  | [], _, h => by simp [sortMembers] at h
  | (k, v) :: ms, m, h => by
    simp only [sortMembers, List.mem_cons] at h
    rcases h with rfl | h
    · exact sortKeys_sortKeys v
    · exact sortKeys_of_mem_sortMembers ms h
end

theorem mem_sortMembers {ms : List (Str × Value)} {key : Str} {w : Value} :
    (key, w) ∈ sortMembers ms ↔ ∃ v, (key, v) ∈ ms ∧ v.sortKeys = w := by
  induction ms with
  | nil => simp [sortMembers]
  | cons m ms ih =>
    obtain ⟨k, v⟩ := m
    simp only [sortMembers, List.mem_cons, ih, Prod.mk.injEq]
    constructor
    · rintro (⟨rfl, rfl⟩ | ⟨v', hmem, rfl⟩)
      · exact ⟨v, Or.inl ⟨rfl, rfl⟩, rfl⟩
      · exact ⟨v', Or.inr hmem, rfl⟩
    · rintro ⟨v', ⟨rfl, rfl⟩ | hmem, rfl⟩
      · exact Or.inl ⟨rfl, rfl⟩
      · exact Or.inr ⟨v', hmem, rfl⟩

theorem get?_sortKeys {v : Value} (h : v.jsonable = true) (key : Str) :
    v.sortKeys.get? key = (v.get? key).map sortKeys := by
  cases v with
  | obj members =>
    have hsorted := jsonable_sortKeys h
    simp only [sortKeys, jsonable, Bool.and_eq_true, decide_eq_true_eq] at h hsorted
    simp only [sortKeys, get?]
    apply Option.ext
    intro w
    rw [Json.lookup_eq_some_iff_mem hsorted.1, List.mem_insertionSort, mem_sortMembers,
      Option.map_eq_some_iff]
    simp only [Json.lookup_eq_some_iff_mem h.1]
  | _ => rfl

/-! ## One line -/

/-- No control character. -/
def Printed (s : Str) : Prop := ∀ c ∈ s, 32 ≤ c.val

variable {s : Str}

omit [FloatData] in
theorem printed_of_all (h : s.all (fun c => 32 ≤ c.val) = true) : Printed s := by
  intro c hc
  simpa using List.all_eq_true.1 h c hc

omit [FloatData] in
theorem Printed.append {t : Str} (hs : Printed s) (ht : Printed t) : Printed (s ++ t) := by
  intro c hc
  rcases List.mem_append.1 hc with hc | hc
  · exact hs c hc
  · exact ht c hc

omit [FloatData] in
theorem Printed.cons {c : CodePoint} {s : Str} (hc : 32 ≤ c.val) (hs : Printed s) :
    Printed (c :: s) := by
  intro d hd
  rcases List.mem_cons.1 hd with rfl | hd
  · exact hc
  · exact hs d hd

omit [FloatData] in
theorem printed_of_isDigit (h : ∀ c ∈ s, isDigit c = true) : Printed s := by
  intro c hc
  have hdigit := h c hc
  simp only [isDigit, Bool.and_eq_true, decide_eq_true_eq] at hdigit
  omega

omit [FloatData] in
theorem printed_takeWhile (s : Str) : Printed (s.takeWhile isDigit) :=
  printed_of_isDigit fun _ hc => List.mem_takeWhile_imp hc

omit [FloatData] in
theorem printed_escapeChar (c : CodePoint) : Printed (escapeChar c) := by
  have hhex : ∀ n, 32 ≤ (hexDigit n).val := by
    intro n
    unfold hexDigit
    split <;> simp only [] <;> omega
  unfold escapeChar
  split_ifs with h1 h2 h3 h4 h5 h6 h7 h8
  · exact printed_of_all (by decide)
  · exact printed_of_all (by decide)
  · exact printed_of_all (by decide)
  · exact printed_of_all (by decide)
  · exact printed_of_all (by decide)
  · exact printed_of_all (by decide)
  · exact printed_of_all (by decide)
  · have hhead : Printed [ch '\\', ch 'u', ch '0', ch '0'] := printed_of_all (by decide)
    refine hhead.append ?_
    exact .cons (hhex _) (.cons (hhex _) (printed_of_all rfl))
  · exact .cons (Nat.le_of_not_lt h8) (printed_of_all rfl)

omit [FloatData] in
theorem printed_renderStr (s : Str) : Printed (renderStr s) := by
  refine .append (.cons (by decide) ?_) (printed_of_all (by decide))
  intro c hc
  obtain ⟨d, -, hc⟩ := List.mem_flatMap.1 hc
  exact printed_escapeChar d c hc

omit [FloatData] in
theorem printed_renderInt (n : Int) : Printed (renderInt n) := by
  have hdecimal : ∀ m, Printed (Json.decimal m) := fun m =>
    printed_of_isDigit fun _ hc => Json.isDigit_of_mem_decimalAux _ _ hc
  cases n with
  | ofNat n => exact hdecimal n
  | negSucc n => exact .cons (by decide) (hdecimal _)

omit [FloatData] in
theorem printed_integerPart {digits rest : Str} (h : integerPart s = some (digits, rest)) :
    Printed digits := by
  unfold integerPart at h
  have hsign : Printed ((s.take 1).filter (· == ch '-')) := by
    intro c hc
    have hminus := (List.mem_filter.1 hc).2
    rw [beq_iff_eq] at hminus
    rw [hminus]
    decide
  generalize (s.take 1).filter (· == ch '-') = sign at h hsign
  cases hdrop : s.drop sign.length with
  | nil =>
    simp only [hdrop] at h
    cases h
  | cons c tail =>
    simp only [hdrop] at h
    split_ifs at h with hzero hdigit
    · cases h
      rw [hzero]
      exact hsign.append (printed_of_all (by decide))
    · cases h
      refine hsign.append (.cons ?_ (printed_takeWhile tail))
      exact printed_of_isDigit (s := [c]) (by simpa using hdigit) c (by simp)

omit [FloatData] in
theorem printed_fraction (s : Str) : Printed (fraction s).1 := by
  match s with
  | [] => exact printed_of_all rfl
  | [c] => exact printed_of_all rfl
  | c :: d :: rest =>
    rw [fraction]
    split_ifs with h
    · rw [h.1]
      exact .cons (by decide) (printed_takeWhile _)
    · exact printed_of_all rfl

omit [FloatData] in
theorem printed_exponent (s : Str) : Printed (exponent s).1 := by
  cases s with
  | nil => exact printed_of_all rfl
  | cons c rest =>
    rw [exponent]
    have hsign : Printed ((rest.takeWhile fun d => d == ch '-' || d == ch '+').take 1) := by
      intro d hd
      have hd := List.mem_takeWhile_imp (List.mem_of_mem_take hd)
      rw [Bool.or_eq_true, beq_iff_eq, beq_iff_eq] at hd
      rcases hd with rfl | rfl
      · decide
      · decide
    generalize (rest.takeWhile fun d => d == ch '-' || d == ch '+').take 1 = sign at hsign
    by_cases h : c = ch 'e' ∨ c = ch 'E'
    · rw [if_pos h]
      simp only []
      split_ifs
      · exact printed_of_all rfl
      · refine .cons ?_ (hsign.append (printed_takeWhile _))
        rcases h with rfl | rfl
        · decide
        · decide
    · rw [if_neg h]
      exact printed_of_all rfl

omit [FloatData] in
theorem printed_isFloatText (h : isFloatText s = true) : Printed s := by
  unfold isFloatText at h
  cases hint : integerPart s with
  | none =>
    rw [hint] at h
    cases h
  | some parts =>
    obtain ⟨digits, tail⟩ := parts
    rw [hint] at h
    simp only [Bool.and_eq_true, beq_iff_eq] at h
    rw [integerPart_split hint, fraction_split tail, exponent_split (fraction tail).2, h.2,
      List.append_nil]
    exact (printed_integerPart hint).append ((printed_fraction _).append (printed_exponent _))

variable [LawfulFloatData]

set_option linter.unusedSectionVars false in
mutual
theorem printed_encode : ∀ v : Value, Printed (encode [ch ','] [ch ':'] v)
  | .null => printed_of_all rfl
  | .bool true => printed_of_all rfl
  | .bool false => printed_of_all rfl
  | .int n => printed_renderInt n
  | .str s => printed_renderStr s
  | .foreign _ _ => printed_of_all rfl
  | .float x => by
    rw [encode, floatText]
    split_ifs with hfinite
    · exact printed_isFloatText (LawfulFloatData.repr_isFloatText x hfinite)
    · exact printed_of_all (by decide)
    · exact printed_of_all (by decide)
    · exact printed_of_all (by decide)
  | .arr [] => printed_of_all rfl
  | .arr (v :: vs) => by
    rw [encode]
    exact .cons (by decide) ((printed_encode v).append (printed_encodeItems vs))
  | .obj [] => printed_of_all rfl
  | .obj ((k, v) :: ms) => by
    rw [encode]
    refine .cons (by decide) (.append (.append (.append ?_ ?_) ?_) (printed_encodeMembers ms))
    · exact printed_renderStr k
    · exact printed_of_all (by decide)
    · exact printed_encode v

theorem printed_encodeItems : ∀ vs : List Value, Printed (encodeItems [ch ','] [ch ':'] vs)
  | [] => printed_of_all rfl
  | v :: vs => by
    rw [encodeItems]
    exact (Printed.append (printed_of_all (by decide)) (printed_encode v)).append
      (printed_encodeItems vs)

theorem printed_encodeMembers : ∀ ms : List (Str × Value),
    Printed (encodeMembers [ch ','] [ch ':'] ms)
  | [] => printed_of_all rfl
  | (k, v) :: ms => by
    rw [encodeMembers]
    refine .append (.append (.append (.append ?_ ?_) ?_) ?_) (printed_encodeMembers ms)
    · exact printed_of_all (by decide)
    · exact printed_renderStr k
    · exact printed_of_all (by decide)
    · exact printed_encode v
end

end

end Value

theorem newline_notMem_octets {c : CodePoint} (h : 32 ≤ c.val) : (10 : UInt8) ∉ utf8Octets c := by
  have hc := c.isLt
  have hnat : ∀ n, 10 < n → n < 256 → (10 : UInt8) ≠ UInt8.ofNat n := by
    intro n hpos hlt heq
    have hval := congrArg UInt8.toNat heq
    rw [UInt8.toNat_ofNat'] at hval
    have hten : (10 : UInt8).toNat = 10 := rfl
    omega
  unfold utf8Octets
  split
  · simpa using hnat c.val (by omega) (by omega)
  split
  · simp only [List.mem_cons, List.not_mem_nil, or_false, not_or]
    exact ⟨hnat _ (by omega) (by omega), hnat _ (by omega) (by omega)⟩
  split
  · simp only [List.mem_cons, List.not_mem_nil, or_false, not_or]
    exact ⟨hnat _ (by omega) (by omega), hnat _ (by omega) (by omega),
      hnat _ (by omega) (by omega)⟩
  · simp only [List.mem_cons, List.not_mem_nil, or_false, not_or]
    exact ⟨hnat _ (by omega) (by omega), hnat _ (by omega) (by omega),
      hnat _ (by omega) (by omega), hnat _ (by omega) (by omega)⟩

namespace Value

variable [FloatData] [LawfulFloatData] [UnicodeData]

/-- What is written with a line break after it is one line, from which the value in key order
is read back. -/
theorem line_of_dumps {v : Value} (hjson : v.jsonable = true) {text : Str} {line : Bytes}
    (hdumps : v.dumps = .ok text) (hline : encodeUtf8 (text ++ [ch '\n']) = some line) :
    IsLine (10 : UInt8) line ∧ decodeUtf8Strict line = some (text ++ [ch '\n']) ∧
      loadsJsonStrict (text ++ [ch '\n']) = .ok v.sortKeys := by
  obtain ⟨hplain, hfinite, rfl⟩ := render_eq_ok (jsonable_sortKeys hjson) hdumps
  refine ⟨?_, decodeUtf8Strict_encodeUtf8 hline, ?_⟩
  · unfold encodeUtf8 at hline
    split_ifs at hline
    cases hline
    refine ⟨(compact v.sortKeys).flatMap utf8Octets, by rw [List.flatMap_append]; rfl, ?_⟩
    intro hmem
    obtain ⟨c, hc, hmem⟩ := List.mem_flatMap.1 hmem
    exact newline_notMem_octets (printed_encode v.sortKeys c hc) hmem
  · have hread := loadsWith_compact keeps_objectWithoutDuplicates hplain
      (@delimited_cons (ch '\n') [] (by simp)) (by decide)
    rw [reread_of_finite hfinite] at hread
    exact hread

end Value

end IntegrityGuardian.Python
