import IntegrityGuardian.Python.Runtime

/-!
# `datetime.fromisoformat`

The ISO 8601 reader of the standard library: calendar and week dates, with and
without separators, any separator in front of the time, truncated fractions of
a second and offsets below a day.  Digits are ASCII, as the C implementation
reads them.
-/

namespace IntegrityGuardian.Python

namespace Isoformat

open Json (ch isDigit decimalValue)

/-- `int(text)` of exactly `width` ASCII digits. -/
def fixedWidth (width : Nat) (s : Str) : Option Nat :=
  if s.length = width ∧ s.all isDigit then some (decimalValue s) else none

/-! ## Dates, as days counted from `0001-01-01` -/

/-- `_days_before_year`. -/
def daysBeforeYear (year : Nat) : Nat :=
  (year - 1) * 365 + (year - 1) / 4 - (year - 1) / 100 + (year - 1) / 400

/-- A calendar date. -/
def calendarDay (year month day : Nat) : Option Nat :=
  let lengths := monthLengths (isLeap year)
  if 1 ≤ year ∧ year ≤ 9999 ∧ 1 ≤ month ∧ month ≤ 12
      ∧ 1 ≤ day ∧ day ≤ lengths.getD (month - 1) 0 then
    some (daysBeforeYear year + (lengths.take (month - 1)).sum + (day - 1))
  else none

/-- `_isoweek_to_gregorian`; a day after the calendar's end is refused later. -/
def weekDay (year week day : Nat) : Option Nat :=
  let newYear := daysBeforeYear year
  let long := newYear % 7 = 3 ∨ newYear % 7 = 2 ∧ isLeap year
  let monday := newYear - newYear % 7 + if 3 < newYear % 7 then 7 else 0
  if 1 ≤ year ∧ year ≤ 9999 ∧ (0 < week ∧ week < 53 ∨ week = 53 ∧ long) ∧ 0 < day ∧ day < 8 then
    some (monday + (week - 1) * 7 + (day - 1))
  else none

/-- `_find_isoformat_datetime_separator`, on at least seven characters. -/
def separatorLocation (s : Str) : Option Nat :=
  if s.length = 7 then some 7
  else if s[4]? = some (ch '-') then
    if s[5]? = some (ch 'W') then
      if s[8]? = some (ch '-') then
        if s.length = 9 then none
        else if (s[10]?.map isDigit).getD false then some 8
        else some 10
      else some 8
    else some 10
  else if s[4]? = some (ch 'W') then
    let location := 7 + ((s.drop 7).takeWhile isDigit).length
    if location < 9 then some location
    else if location % 2 = 0 then some 7
    else some 8
  else some 8

/-- `_parse_isoformat_date`. -/
def parseDate (s : Str) : Option Nat := do
  let year ← fixedWidth 4 (s.take 4)
  let dash := s[4]? = some (ch '-')
  let rest := s.drop (if dash then 5 else 4)
  if rest.head? = some (ch 'W') then
    let week ← fixedWidth 2 ((rest.drop 1).take 2)
    match rest.drop 3 with
    | [] => weekDay year week 1
    | c :: tail =>
      if (c = ch '-') ≠ dash then none
      else
        let day ← fixedWidth 1 (if dash then tail else c :: tail)
        weekDay year week day
  else
    let month ← fixedWidth 2 (rest.take 2)
    match rest.drop 2 with
    | [] => none
    | c :: tail =>
      if (c = ch '-') ≠ dash then none
      else
        let day ← fixedWidth 2 (if dash then tail else c :: tail)
        calendarDay year month day

/-! ## Times -/

/-- Hour, minute, second and microsecond. -/
structure Clock where
  hour : Nat
  minute : Nat
  second : Nat
  microsecond : Nat

namespace Clock

def micros (c : Clock) : Nat :=
  ((c.hour * 60 + c.minute) * 60 + c.second) * 1000000 + c.microsecond

end Clock

/-- `[.,]` and digits; those after the sixth are dropped. -/
def parseFraction : Str → Option Nat
  | [] => some 0
  | c :: digits =>
    if (c = ch '.' ∨ c = ch ',') ∧ digits ≠ [] ∧ digits.all isDigit then
      some (decimalValue (digits.take 6) * 10 ^ (6 - digits.length))
    else none

/-- `_parse_hh_mm_ss_ff`. -/
def parseClock (s : Str) : Option Clock := do
  let hour ← fixedWidth 2 (s.take 2)
  match s.drop 2 with
  | [] => some ⟨hour, 0, 0, 0⟩
  | c :: tail =>
    let colon := c = ch ':'
    let rest := if colon then tail else c :: tail
    let minute ← fixedWidth 2 (rest.take 2)
    match rest.drop 2 with
    | [] => some ⟨hour, minute, 0, 0⟩
    | d :: tail =>
      if colon ∧ d ≠ ch ':' then none
      else
        let rest := if colon then tail else d :: tail
        let second ← fixedWidth 2 (rest.take 2)
        let microsecond ← parseFraction (rest.drop 2)
        some ⟨hour, minute, second, microsecond⟩

def startsOffset (c : CodePoint) : Bool := c == ch '+' || c == ch '-' || c == ch 'Z'

/-- The time zone of a text: its offset in microseconds, strictly below a day. -/
def parseOffset : Str → Option (Option Int)
  | [] => some none
  | c :: rest =>
    if c = ch 'Z' then (if rest = [] then some (some 0) else none)
    else do
      let offset ← parseClock rest
      if offset.micros < 86400000000 then
        some (some (if c = ch '-' then -(offset.micros : Int) else offset.micros))
      else none

/-- `_parse_isoformat_time`, with the ranges the `datetime` constructor checks. -/
def parseTime (s : Str) : Option (Clock × Option Int) := do
  let clock ← parseClock (s.takeWhile fun c => !startsOffset c)
  let offset ← parseOffset (s.dropWhile fun c => !startsOffset c)
  if clock.hour < 24 ∧ clock.minute < 60 ∧ clock.second < 60 then some (clock, offset) else none

end Isoformat

/-- `datetime.fromisoformat`; `none` is its `ValueError`. -/
def Datetime.fromisoformat (s : Str) : Option Datetime := do
  if s.length < 7 then none
  else
    let location ← Isoformat.separatorLocation s
    let day ← Isoformat.parseDate (s.take location)
    let (clock, offset) ←
      if s.length = location then some (⟨0, 0, 0, 0⟩, none)
      else Isoformat.parseTime (s.drop (location + 1))
    let reading ← (instant (86400000000 * day + clock.micros)).toOption
    some ⟨reading, offset⟩

namespace Datetime

/-- The instant an aware value denotes, by which aware values are compared. -/
def moment (d : Datetime) (offset : Int) : Int := d.reading.val - offset

end Datetime

example : (Datetime.fromisoformat (str "2026-09-25T14:00:00.0000015+02:00")).map
    (fun d => (Instant.render d.reading, d.utcoffset)) =
      some (str "2026-09-25T14:00:00.000001Z", some 7200000000) := by
  decide

example : Datetime.fromisoformat (str "2026-W39-5T12:00Z")
    = Datetime.fromisoformat (str "20260925 120000+0000") := by
  decide

end IntegrityGuardian.Python
