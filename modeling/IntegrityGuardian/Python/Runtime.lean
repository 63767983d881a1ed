import IntegrityGuardian.Python.Json

/-!
# Exceptions and instants

The exceptions that come from the interpreter and its standard library rather
than from the program, and `datetime` as far as the program uses it: aware
readings converted to UTC, `timedelta` additions that can leave the calendar,
and the microsecond ISO form.
-/

namespace IntegrityGuardian.Python

/-- Exceptions of built-in operations, of `sqlite3` and of `jsonschema`. -/
inductive Exc where
  | valueError (message : Str)
  | typeError
  | attributeError
  | keyError (key : Str)
  | overflowError
  | unicodeEncodeError
  | integrityError (constraint : Str)
  | operationalError (message : Str)
  | validationError
  /-- An exception outside `Exception`, such as `KeyboardInterrupt`. -/
  | baseException
  deriving DecidableEq

/-- `text.split(":", 1)[0]` of a text with a colon. -/
def Str.beforeColon (s : Str) : Str := s.takeWhile (· != Json.ch ':')

/-- `text.split(":", 1)[1]` of a text with a colon. -/
def Str.afterColon (s : Str) : Str := (s.dropWhile (· != Json.ch ':')).drop 1

section
variable [UnicodeData]

/-- `width` hexadecimal digits of `n`. -/
def hexPad : Nat → Nat → Str
  | 0, _ => []
  | width + 1, n => hexPad width (n / 16) ++ [hexDigit (n % 16)]

/-- One character inside `repr(text)` with the given quote. -/
def reprChar (quote c : CodePoint) : Str :=
  if c = quote ∨ c = Json.ch '\\' then [Json.ch '\\', c]
  else if c = Json.ch '\t' then str "\\t"
  else if c = Json.ch '\n' then str "\\n"
  else if c = Json.ch '\r' then str "\\r"
  else if UnicodeData.isprintable c then [c]
  else if c.val < 0x100 then str "\\x" ++ hexPad 2 c.val
  else if c.val < 0x10000 then str "\\u" ++ hexPad 4 c.val
  else str "\\U" ++ hexPad 8 c.val

/-- `repr(text)`. -/
def Str.repr (s : Str) : Str :=
  let apostrophe := Json.ch (Char.ofNat 39)
  let quote := if s.contains apostrophe && !s.contains (Json.ch '"') then Json.ch '"'
    else apostrophe
  quote :: s.flatMap (reprChar quote) ++ [quote]

end

/-! ## Instants -/

/-- Microseconds from `0001-01-01T00:00:00Z` to the end of year 9999. -/
abbrev Instant := Fin 315537897600000000

instance Instant.neZero : NeZero 315537897600000000 := ⟨by decide⟩

/-- A `datetime`: its wall-clock reading and, when aware, its UTC offset in microseconds. -/
structure Datetime where
  reading : Instant
  utcoffset : Option Int
  deriving DecidableEq

/-- The instant `micros`, or the `OverflowError` outside the calendar. -/
def instant (micros : Int) : Except Exc Instant :=
  if h : 0 ≤ micros ∧ micros < 315537897600000000 then .ok ⟨micros.toNat, by omega⟩
  else .error .overflowError

/-- `value + timedelta(seconds=seconds)`. -/
def Instant.addSeconds (value : Instant) (seconds : Int) : Except Exc Instant :=
  instant (value.val + seconds * 1000000)

def isLeap (year : Nat) : Bool := year % 4 = 0 && (year % 100 ≠ 0 || year % 400 = 0)

def monthLengths (leap : Bool) : List Nat :=
  [31, if leap then 29 else 28, 31, 30, 31, 30, 31, 31, 30, 31, 30, 31]

/-- Month and day of a day counted from zero inside its year. -/
def monthDay : List Nat → Nat → Nat → Nat × Nat
  | [], month, day => (month, day + 1)
  | length :: rest, month, day =>
    if day < length then (month, day + 1) else monthDay rest (month + 1) (day - length)

/-- Year and day of the year, from days counted from `0001-01-01`. -/
def yearDay (days : Nat) : Nat × Nat :=
  let n400 := days / 146097
  let r400 := days % 146097
  let n100 := min (r400 / 36524) 3
  let r100 := r400 - n100 * 36524
  let n4 := r100 / 1461
  let r4 := r100 % 1461
  let n1 := min (r4 / 365) 3
  (n400 * 400 + n100 * 100 + n4 * 4 + n1 + 1, r4 - n1 * 365)

/-- `n` in decimal with at least `width` digits. -/
def zeroPad (width n : Nat) : Str :=
  List.replicate (width - (Json.decimal n).length) (Json.ch '0') ++ Json.decimal n

/-- `value.isoformat(timespec="microseconds").replace("+00:00", "Z")` of a UTC value. -/
def Instant.render (value : Instant) : Str :=
  let micros := value.val % 1000000
  let seconds := value.val / 1000000
  let clock := seconds % 86400
  let (year, day) := yearDay (seconds / 86400)
  let (month, day) := monthDay (monthLengths (isLeap year)) 1 day
  zeroPad 4 year ++ Json.ch '-' :: zeroPad 2 month ++ Json.ch '-' :: zeroPad 2 day
    ++ Json.ch 'T' :: zeroPad 2 (clock / 3600) ++ Json.ch ':' :: zeroPad 2 (clock / 60 % 60)
    ++ Json.ch ':' :: zeroPad 2 (clock % 60) ++ Json.ch '.' :: zeroPad 6 micros ++ [Json.ch 'Z']

example : Instant.render 63925934400000001 = str "2026-09-25T12:00:00.000001Z" := by
  decide

end IntegrityGuardian.Python
