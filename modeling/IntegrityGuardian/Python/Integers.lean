import IntegrityGuardian.Python.JsonRoundTrip

/-!
# Integers from text

`int(text)`: white space around, a sign, and decimal digits of any script with single
underscores between them.  `str(n)` reads back.
-/

namespace IntegrityGuardian.Python

open Json (ch isDigit decimal decimalValue)

/-- The decimal digits of the Unicode database; only their ASCII part is fixed here. -/
class DigitData where
  digit : CodePoint → Option Nat
  digit_ascii : ∀ c : CodePoint, c.val < 128 →
    digit c = if isDigit c then some (c.val - 48) else none

/-- The database restricted to ASCII. -/
@[reducible] def asciiDigitData : DigitData where
  digit c := if isDigit c then some (c.val - 48) else none
  digit_ascii _ _ := rfl

variable [DigitData]

/-- The digits after the first. -/
def digitsFrom : Nat → Str → Option Nat
  | value, [] => some value
  | value, c :: rest =>
    match DigitData.digit c with
    | some d => digitsFrom (value * 10 + d) rest
    | none =>
      if c = ch '_' then
        match rest with
        | [] => none
        | d :: rest =>
          match DigitData.digit d with
          | some d => digitsFrom (value * 10 + d) rest
          | none => none
      else none

/-- Digits that start with one. -/
def natural : Str → Option Nat
  | [] => none
  | c :: rest =>
    match DigitData.digit c with
    | some d => digitsFrom d rest
    | none => none

/-- `int(text)`; `none` is its `ValueError`. -/
def toInt (text : Str) : Option Int :=
  match text.strip with
  | [] => none
  | c :: rest =>
    if c = ch '-' then (natural rest).map fun n => -(n : Int)
    else if c = ch '+' then (natural rest).map Int.ofNat
    else (natural (c :: rest)).map Int.ofNat

/-! ## Reading a number back -/

theorem digit_of_isDigit {c : CodePoint} (h : isDigit c = true) :
    DigitData.digit c = some (c.val - 48) := by
  have hval : c.val < 128 := by
    simp only [isDigit, Bool.and_eq_true, decide_eq_true_eq] at h
    omega
  rw [DigitData.digit_ascii c hval, if_pos h]

variable {s : Str}

theorem digitsFrom_of_isDigit {value : Nat} (h : ∀ c ∈ s, isDigit c = true) :
    digitsFrom value s = some (s.foldl (fun acc c => acc * 10 + (c.val - 48)) value) := by
  induction s generalizing value with
  | nil => rfl
  | cons c rest ih =>
    rw [digitsFrom.eq_def]
    simp only [digit_of_isDigit (h c List.mem_cons_self), List.foldl_cons]
    exact ih fun d hd => h d (List.mem_cons_of_mem _ hd)

omit [DigitData] in
theorem strip_of_isDigit (h : ∀ c ∈ s, isDigit c = true) : s.strip = s := by
  have hspace : ∀ c ∈ s, c.isspace = false := by
    intro c hc
    have hdigit := h c hc
    simp only [isDigit, Bool.and_eq_true, decide_eq_true_eq] at hdigit
    simp only [CodePoint.isspace, Bool.or_eq_false_iff, Bool.and_eq_false_iff,
      decide_eq_false_iff_not, beq_eq_false_iff_ne]
    omega
  have hkeep : ∀ t : Str, (∀ c ∈ t, c.isspace = false) → t.dropWhile CodePoint.isspace = t := by
    intro t ht
    cases t with
    | nil => rfl
    | cons c rest =>
      rw [List.dropWhile_cons, ht c List.mem_cons_self]
      rfl
  rw [Str.strip, hkeep s hspace, hkeep s.reverse fun c hc => hspace c (List.mem_reverse.1 hc),
    List.reverse_reverse]

theorem toInt_decimal (n : Nat) : toInt (decimal n) = some (n : Int) := by
  have hdigits : ∀ c ∈ decimal n, isDigit c = true := fun c hc =>
    Json.isDigit_of_mem_decimalAux _ _ hc
  rw [toInt, strip_of_isDigit hdigits]
  have hvalue := Json.decimalValue_decimal n
  cases hcase : decimal n with
  | nil =>
    rcases Nat.eq_zero_or_pos n with rfl | hpos
    · cases hcase
    · obtain ⟨c, tail, hhead, -⟩ := Json.decimal_head (Nat.pos_iff_ne_zero.1 hpos)
      rw [hhead] at hcase
      cases hcase
  | cons c rest =>
    rw [hcase] at hdigits hvalue
    have hfirst := hdigits c List.mem_cons_self
    have hminus : c ≠ ch '-' := fun heq => by rw [heq] at hfirst; cases hfirst
    have hplus : c ≠ ch '+' := fun heq => by rw [heq] at hfirst; cases hfirst
    dsimp only
    rw [if_neg hminus, if_neg hplus, natural, digit_of_isDigit hfirst]
    dsimp only
    rw [digitsFrom_of_isDigit fun d hd => hdigits d (List.mem_cons_of_mem _ hd), ← hvalue]
    simp [decimalValue]

end IntegrityGuardian.Python
