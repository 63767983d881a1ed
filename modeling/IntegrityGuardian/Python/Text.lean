import IntegrityGuardian.Library.Dict
import IntegrityGuardian.Python.Sha256
import Mathlib.Algebra.GroupWithZero.Nat
import Mathlib.Algebra.Ring.Int.Defs
import Mathlib.Data.List.Infix
import Mathlib.Order.Lattice.Nat
import Mathlib.Data.List.Lex
import Mathlib.Data.Fin.Basic

/-!
# Python text and bytes

A `str` is a list of code points, lone surrogates included, since `json.loads`
can produce them and `str.encode` then refuses them.  The module gives the
parts of `str` and `bytes` the development rests on: UTF-8 in both directions,
hexadecimal digests, white space and prefixes.
-/

namespace IntegrityGuardian.Python

abbrev CodePoint := Fin 0x110000

abbrev Str := List CodePoint

instance CodePoint.neZero : NeZero 0x110000 := ⟨by decide⟩

theorem CodePoint.zero_lt : 0 < 0x110000 := by decide

theorem CodePoint.bom_lt : 0xfeff < 0x110000 := by decide

instance : LawfulBEq CodePoint := inferInstance

instance : LawfulBEq Str := inferInstance

instance : LawfulBEq (Lex (Str × Str)) := inferInstance

instance : Std.TransCmp (Library.orderCmp (κ := Str)) := inferInstance

/-- The code point of a scalar value. -/
def CodePoint.ofChar (c : Char) : CodePoint :=
  ⟨c.toNat, by
    have h := c.valid
    have hnat : c.toNat = c.val.toNat := rfl
    rw [hnat]
    rcases h with h | h
    · exact Nat.lt_trans h (by decide)
    · exact h.2⟩

/-- A string literal of the source. -/
def str (s : String) : Str := s.toList.map CodePoint.ofChar

/-- `0xd800 <= c <= 0xdfff`. -/
def CodePoint.isSurrogate (c : CodePoint) : Bool := 0xd800 ≤ c.val && c.val ≤ 0xdfff

/-- `str.isspace` on one character. -/
def CodePoint.isspace (c : CodePoint) : Bool :=
  (9 ≤ c.val && c.val ≤ 13) || (28 ≤ c.val && c.val ≤ 32) || c.val == 0x85 || c.val == 0xa0
    || c.val == 0x1680 || (0x2000 ≤ c.val && c.val ≤ 0x200a) || c.val == 0x2028
    || c.val == 0x2029 || c.val == 0x202f || c.val == 0x205f || c.val == 0x3000

/-- `value.strip()`. -/
def Str.strip (s : Str) : Str :=
  ((s.dropWhile CodePoint.isspace).reverse.dropWhile CodePoint.isspace).reverse

/-- Character properties of the Unicode database an interpreter is built with.
They differ between interpreter versions outside ASCII, so only their ASCII
part is fixed here. -/
class UnicodeData where
  isprintable : CodePoint → Bool
  casefold : CodePoint → Str
  isprintable_ascii : ∀ c : CodePoint, c.val < 128 → isprintable c = (32 ≤ c.val && c.val < 127)
  casefold_ascii : ∀ c : CodePoint, c.val < 128 →
    casefold c = [if 65 ≤ c.val ∧ c.val ≤ 90 then c + 32 else c]

/-- The database restricted to ASCII: nothing else is printable and nothing else folds. -/
@[reducible] def asciiUnicodeData : UnicodeData where
  isprintable c := 32 ≤ c.val && c.val < 127
  casefold c := [if 65 ≤ c.val ∧ c.val ≤ 90 then c + 32 else c]
  isprintable_ascii _ _ := rfl
  casefold_ascii _ _ := rfl

/-! ## UTF-8 -/

/-- The octets of one code point, by its size class. -/
def utf8Octets (c : CodePoint) : Bytes :=
  if c.val < 0x80 then [UInt8.ofNat c.val]
  else if c.val < 0x800 then
    [UInt8.ofNat (0xc0 + c.val / 64), UInt8.ofNat (0x80 + c.val % 64)]
  else if c.val < 0x10000 then
    [UInt8.ofNat (0xe0 + c.val / 4096), UInt8.ofNat (0x80 + c.val / 64 % 64),
      UInt8.ofNat (0x80 + c.val % 64)]
  else
    [UInt8.ofNat (0xf0 + c.val / 262144), UInt8.ofNat (0x80 + c.val / 4096 % 64),
      UInt8.ofNat (0x80 + c.val / 64 % 64), UInt8.ofNat (0x80 + c.val % 64)]

/-- `s.encode("utf-8")`; `none` is the `UnicodeEncodeError` on a surrogate. -/
def encodeUtf8 (s : Str) : Option Bytes :=
  if s.any CodePoint.isSurrogate then none else some (s.flatMap utf8Octets)

/-- A continuation octet's payload. -/
def continuation (b : UInt8) : Option Nat :=
  if 0x80 ≤ b.toNat ∧ b.toNat < 0xc0 then some (b.toNat - 0x80) else none

def codePoint? (n : Nat) : Option CodePoint :=
  if h : n < 0x110000 then some ⟨n, h⟩ else none

/-- The code point `n` of a form that starts at `least`; a smaller one is overlong. -/
def codePointFrom (least n : Nat) : Option CodePoint := if n < least then none else codePoint? n

/-- The first code point of UTF-8 data, with the octets after it.  Overlong
forms and values past `0x10ffff` are refused, encoded surrogates pass. -/
def nextUtf8 : Bytes → Option (CodePoint × Bytes)
  | [] => none
  | b0 :: rest =>
    if b0.toNat < 0x80 then (codePoint? b0.toNat).map (·, rest)
    else if 0xc2 ≤ b0.toNat ∧ b0.toNat < 0xe0 then
      match rest with
      | b1 :: rest => do
        let t1 ← continuation b1
        (codePoint? ((b0.toNat - 0xc0) * 64 + t1)).map (·, rest)
      | _ => none
    else if 0xe0 ≤ b0.toNat ∧ b0.toNat < 0xf0 then
      match rest with
      | b1 :: b2 :: rest => do
        let t1 ← continuation b1
        let t2 ← continuation b2
        (codePointFrom 0x800 (4096 * (b0.toNat - 0xe0) + 64 * t1 + t2)).map (·, rest)
      | _ => none
    else if 0xf0 ≤ b0.toNat ∧ b0.toNat < 0xf5 then
      match rest with
      | b1 :: b2 :: b3 :: rest => do
        let t1 ← continuation b1
        let t2 ← continuation b2
        let t3 ← continuation b3
        (codePointFrom 0x10000
          (262144 * (b0.toNat - 0xf0) + 4096 * t1 + 64 * t2 + t3)).map (·, rest)
      | _ => none
    else none

/-- Decode at most `fuel` code points; data left over after that is refused. -/
def decodeWith (next : Bytes → Option (CodePoint × Bytes)) : Nat → Bytes → Option Str
  | _, [] => some []
  | 0, _ :: _ => none
  | fuel + 1, b :: rest => do
    let (c, rest) ← next (b :: rest)
    let s ← decodeWith next fuel rest
    pure (c :: s)

/-- `data.decode("utf-8", "surrogatepass")`. -/
def decodeUtf8 (data : Bytes) : Option Str := decodeWith nextUtf8 data.length data

variable {b : Bytes} {c : CodePoint} {n : Nat} {s : Str}

theorem continuation_ofNat (hn : n < 64) : continuation (UInt8.ofNat (0x80 + n)) = some n := by
  have hval : (UInt8.ofNat (0x80 + n)).toNat = 0x80 + n := by
    rw [UInt8.toNat_ofNat']
    omega
  unfold continuation
  rw [hval, if_pos (by omega), Nat.add_sub_cancel_left]

@[simp] theorem codePoint?_val (c : CodePoint) : codePoint? c.val = some c := by
  simp [codePoint?]

theorem codePointFrom_val {least : Nat} (h : ¬c.val < least) :
    codePointFrom least c.val = some c := by
  rw [codePointFrom, if_neg h, codePoint?_val]

theorem nextUtf8_octets_append (c : CodePoint) (rest : Bytes) :
    nextUtf8 (utf8Octets c ++ rest) = some (c, rest) := by
  have hc := c.isLt
  unfold utf8Octets
  split
  · have hb : (UInt8.ofNat c.val).toNat = c.val := by rw [UInt8.toNat_ofNat']; omega
    simp only [List.cons_append, List.nil_append, nextUtf8]
    rw [if_pos (by omega), hb, codePoint?_val]
    rfl
  split
  · have hb : (UInt8.ofNat (0xc0 + c.val / 64)).toNat = 0xc0 + c.val / 64 := by
      rw [UInt8.toNat_ofNat']; omega
    have hn : (0xc0 + c.val / 64 - 0xc0) * 64 + c.val % 64 = c.val := by omega
    simp only [List.cons_append, List.nil_append, nextUtf8]
    rw [if_neg (by omega), if_pos (by omega), hb, continuation_ofNat (by omega)]
    simp only [Option.bind_eq_bind, Option.bind_some, hn, codePoint?_val]
    rfl
  split
  · have hb : (UInt8.ofNat (0xe0 + c.val / 4096)).toNat = 0xe0 + c.val / 4096 := by
      rw [UInt8.toNat_ofNat']; omega
    have hn : 4096 * (0xe0 + c.val / 4096 - 0xe0) + 64 * (c.val / 64 % 64) + c.val % 64 =
        c.val := by
      omega
    simp only [List.cons_append, List.nil_append, nextUtf8]
    rw [if_neg (by omega), if_neg (by omega), if_pos (by omega), hb,
      continuation_ofNat (by omega), continuation_ofNat (by omega)]
    simp only [Option.bind_eq_bind, Option.bind_some]
    rw [hn, codePointFrom_val (by omega)]
    rfl
  · have hb : (UInt8.ofNat (0xf0 + c.val / 262144)).toNat = 0xf0 + c.val / 262144 := by
      rw [UInt8.toNat_ofNat']; omega
    have hn : 262144 * (0xf0 + c.val / 262144 - 0xf0) + 4096 * (c.val / 4096 % 64)
        + 64 * (c.val / 64 % 64) + c.val % 64 = c.val := by
      omega
    simp only [List.cons_append, List.nil_append, nextUtf8]
    rw [if_neg (by omega), if_neg (by omega), if_neg (by omega), if_pos (by omega), hb,
      continuation_ofNat (by omega), continuation_ofNat (by omega),
      continuation_ofNat (by omega)]
    simp only [Option.bind_eq_bind, Option.bind_some]
    rw [hn, codePointFrom_val (by omega)]
    rfl

theorem utf8Octets_ne_nil (c : CodePoint) : utf8Octets c ≠ [] := by
  unfold utf8Octets
  split
  · simp
  split
  · simp
  split <;> simp

theorem decodeWith_flatMap (s : Str) {fuel : Nat} (hfuel : s.length ≤ fuel) :
    decodeWith nextUtf8 fuel (s.flatMap utf8Octets) = some s := by
  induction s generalizing fuel with
  | nil => cases fuel <;> rfl
  | cons c s ih =>
    obtain ⟨fuel, rfl⟩ : ∃ n, fuel = n + 1 := ⟨fuel - 1, by simp at hfuel; omega⟩
    obtain ⟨b, tail, hb⟩ := List.exists_cons_of_ne_nil (utf8Octets_ne_nil c)
    have hnext := nextUtf8_octets_append c (s.flatMap utf8Octets)
    rw [hb, List.cons_append] at hnext
    rw [List.flatMap_cons, hb, List.cons_append, decodeWith, hnext]
    simp only [Option.bind_eq_bind, Option.bind_some]
    rw [ih (by simpa using hfuel)]
    rfl

theorem length_le_flatMap_utf8Octets (s : Str) : s.length ≤ (s.flatMap utf8Octets).length := by
  induction s with
  | nil => simp
  | cons c s ih =>
    have := List.length_pos_of_ne_nil (utf8Octets_ne_nil c)
    rw [List.flatMap_cons, List.length_append, List.length_cons]
    omega

theorem decodeUtf8_encodeUtf8 (h : encodeUtf8 s = some b) : decodeUtf8 b = some s := by
  unfold encodeUtf8 at h
  split at h
  · cases h
  · cases h
    exact decodeWith_flatMap s (length_le_flatMap_utf8Octets s)

/-! ## Hexadecimal digests -/

def hexDigit (n : Nat) : CodePoint :=
  if n < 10 then ⟨48 + n % 10, by omega⟩ else ⟨87 + n % 16, by omega⟩

/-- `data.hex()`. -/
def hex (b : Bytes) : Str :=
  b.flatMap fun x => [hexDigit (x.toNat / 16), hexDigit (x.toNat % 16)]

def hexValue (c : CodePoint) : Option Nat :=
  if 48 ≤ c.val ∧ c.val ≤ 57 then some (c.val - 48)
  else if 97 ≤ c.val ∧ c.val ≤ 102 then some (c.val - 87)
  else if 65 ≤ c.val ∧ c.val ≤ 70 then some (c.val - 55)
  else none

/-- `bytes.fromhex(text)`: ASCII white space between octets is skipped. -/
def fromhex : Str → Option Bytes
  | [] => some []
  | c :: rest =>
    if (9 ≤ c.val ∧ c.val ≤ 13) ∨ c.val = 32 then fromhex rest
    else
      match rest with
      | [] => none
      | d :: rest1 => do
        let hi ← hexValue c
        let lo ← hexValue d
        let b ← fromhex rest1
        pure (UInt8.ofNat (hi * 16 + lo) :: b)

/-- `[0-9a-f]`. -/
def CodePoint.isLowerHex (c : CodePoint) : Bool :=
  (48 ≤ c.val && c.val ≤ 57) || (97 ≤ c.val && c.val ≤ 102)

theorem hexValue_hexDigit (hn : n < 16) : hexValue (hexDigit n) = some n := by
  unfold hexDigit hexValue
  split
  · rw [if_pos (by simp only []; omega)]
    simp only [Option.some.injEq]
    omega
  · rw [if_neg (by simp only []; omega), if_pos (by simp only []; omega)]
    simp only [Option.some.injEq]
    omega

theorem isLowerHex_hexDigit (hn : n < 16) : (hexDigit n).isLowerHex = true := by
  unfold hexDigit CodePoint.isLowerHex
  split <;> simp <;> omega

theorem hexDigit_not_space (n : Nat) :
    ¬((9 ≤ (hexDigit n).val ∧ (hexDigit n).val ≤ 13) ∨ (hexDigit n).val = 32) := by
  unfold hexDigit
  split <;> simp only [] <;> omega

@[simp] theorem length_hex (b : Bytes) : (hex b).length = 2 * b.length := by
  induction b with
  | nil => rfl
  | cons x b ih =>
    simp only [hex, List.flatMap_cons, List.length_append, List.length_cons] at ih ⊢
    simp only [List.length_nil]
    omega

theorem fromhex_hex (b : Bytes) : fromhex (hex b) = some b := by
  induction b with
  | nil => rfl
  | cons x b ih =>
    have hx := x.toNat_lt
    have hsplit : x.toNat / 16 * 16 + x.toNat % 16 = x.toNat := by omega
    have hcons : hex (x :: b) =
        hexDigit (x.toNat / 16) :: hexDigit (x.toNat % 16) :: hex b := rfl
    rw [hcons, fromhex, if_neg (hexDigit_not_space _)]
    rw [hexValue_hexDigit (by omega), hexValue_hexDigit (by omega), ih]
    simp only [Option.bind_eq_bind, Option.bind_some, hsplit, UInt8.ofNat_toNat]
    rfl

theorem isLowerHex_of_mem_hex (h : c ∈ hex b) : c.isLowerHex = true := by
  simp only [hex, List.mem_flatMap, List.mem_cons, List.not_mem_nil, or_false] at h
  obtain ⟨x, -, rfl | rfl⟩ := h
  · exact isLowerHex_hexDigit (by have := x.toNat_lt; omega)
  · exact isLowerHex_hexDigit (by omega)

theorem hex_injective : Function.Injective hex := by
  intro a b h
  have := fromhex_hex a
  rw [h, fromhex_hex] at this
  exact (Option.some.inj this).symm

theorem hexDigit_of_hexValue (hc : c.isLowerHex = true)
    (h : hexValue c = some n) : n < 16 ∧ hexDigit n = c := by
  simp only [CodePoint.isLowerHex, Bool.or_eq_true, Bool.and_eq_true, decide_eq_true_eq] at hc
  unfold hexValue at h
  unfold hexDigit
  split at h
  · cases h
    refine ⟨by omega, ?_⟩
    rw [if_pos (by omega)]
    apply Fin.ext
    simp only []
    omega
  · rw [if_pos (by omega)] at h
    cases h
    refine ⟨by omega, ?_⟩
    rw [if_neg (by omega)]
    apply Fin.ext
    simp only []
    omega

theorem hex_fromhex (hs : ∀ c ∈ s, c.isLowerHex = true) (h : fromhex s = some b) : hex b = s := by
  induction s using fromhex.induct generalizing b with
  | case1 => simp only [fromhex, Option.some.injEq] at h; subst h; rfl
  | case2 c rest hspace ih =>
    have hc := hs c (by simp)
    simp only [CodePoint.isLowerHex, Bool.or_eq_true, Bool.and_eq_true, decide_eq_true_eq] at hc
    omega
  | case3 c hspace => simp [fromhex, hspace] at h
  | case4 c hspace d rest ih =>
    rw [fromhex, if_neg hspace] at h
    simp only [Option.bind_eq_bind, Option.bind_eq_some_iff, Option.pure_def,
      Option.some.injEq] at h
    obtain ⟨hi, hhi, lo, hlo, tail, htail, rfl⟩ := h
    obtain ⟨hi16, rfl⟩ := hexDigit_of_hexValue (hs c (by simp)) hhi
    obtain ⟨lo16, rfl⟩ := hexDigit_of_hexValue (hs d (by simp)) hlo
    have hval : (UInt8.ofNat (hi * 16 + lo)).toNat = hi * 16 + lo := by
      rw [UInt8.toNat_ofNat']; omega
    have hq : (hi * 16 + lo) / 16 = hi := by omega
    have hr : (hi * 16 + lo) % 16 = lo := by omega
    rw [show hex (UInt8.ofNat (hi * 16 + lo) :: tail) =
        hexDigit ((UInt8.ofNat (hi * 16 + lo)).toNat / 16) ::
          hexDigit ((UInt8.ofNat (hi * 16 + lo)).toNat % 16) :: hex tail from rfl,
      hval, hq, hr, ih (fun c hc => hs c (by simp [hc])) htail]

end IntegrityGuardian.Python
