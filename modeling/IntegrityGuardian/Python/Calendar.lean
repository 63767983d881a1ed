import IntegrityGuardian.Python.Isoformat
import IntegrityGuardian.Python.JsonRoundTrip

/-!
# `isoformat` of UTC values

The text `isoformat()` gives a UTC value, with the fraction left out when it is
zero, and that `fromisoformat` reads the value back from it.
-/

namespace IntegrityGuardian.Python

open Json (ch isDigit decimalValue decimal digit)
open Isoformat

/-! ## The text -/

/-- Year, month and day. -/
def Instant.date (value : Instant) : Nat × Nat × Nat :=
  let (year, day) := yearDay (value.val / 1000000 / 86400)
  let (month, day) := monthDay (monthLengths (isLeap year)) 1 day
  (year, month, day)

/-- The fraction of a second, unless it is zero. -/
def fractionText (micros : Nat) : Str :=
  if micros = 0 then [] else ch '.' :: zeroPad 6 micros

/-- `value.isoformat()` of a UTC value, with the given text for its zone. -/
def Instant.isoText (value : Instant) (zone : Str) : Str :=
  let (year, month, day) := value.date
  let clock := value.val / 1000000 % 86400
  zeroPad 4 year ++ ch '-' :: zeroPad 2 month ++ ch '-' :: zeroPad 2 day
    ++ ch 'T' :: zeroPad 2 (clock / 3600) ++ ch ':' :: zeroPad 2 (clock / 60 % 60)
    ++ ch ':' :: zeroPad 2 (clock % 60) ++ fractionText (value.val % 1000000) ++ zone

/-- `value.isoformat()` of a UTC value. -/
def Instant.isoformat (value : Instant) : Str := value.isoText (str "+00:00")

/-- `value.isoformat().replace("+00:00", "Z")` of a UTC value. -/
def Instant.isoformatZ (value : Instant) : Str := value.isoText (str "Z")

/-! ## Padded numbers -/

theorem length_decimalAux {width : Nat} : ∀ {fuel n : Nat}, n < 10 ^ (width + 1) →
    (Json.decimalAux fuel n []).length ≤ width + 1 := by
  induction width with
  | zero =>
    intro fuel n hn
    cases fuel with
    | zero => simp [Json.decimalAux]
    | succ fuel =>
      have hsmall : n < 10 := by simpa using hn
      simp [Json.decimalAux, hsmall]
  | succ width ih =>
    intro fuel n hn
    cases fuel with
    | zero => simp [Json.decimalAux]
    | succ fuel =>
      rw [Json.decimalAux]
      split
      · simp
      · rw [Json.decimalAux_append, List.length_append, List.length_singleton]
        have hdiv : n / 10 < 10 ^ (width + 1) := by
          rw [Nat.div_lt_iff_lt_mul (by omega)]
          rw [Nat.pow_succ] at hn
          exact hn
        have hlength := @ih fuel _ hdiv
        omega

theorem length_zeroPad {width n : Nat} (hn : n < 10 ^ (width + 1)) :
    (zeroPad (width + 1) n).length = width + 1 := by
  have hlength : (decimal n).length ≤ width + 1 := length_decimalAux hn
  rw [zeroPad, List.length_append, List.length_replicate]
  omega

theorem isDigit_zeroPad {width n : Nat} : (zeroPad width n).all isDigit = true := by
  rw [zeroPad, List.all_append, Bool.and_eq_true, List.all_eq_true, List.all_eq_true]
  constructor
  · intro c hc
    rw [List.eq_of_mem_replicate hc]
    decide
  · intro c hc
    exact Json.isDigit_of_mem_decimalAux _ _ hc

theorem decimalValue_replicate_append (count : Nat) (s : Str) :
    decimalValue (List.replicate count (ch '0') ++ s) = decimalValue s := by
  induction count with
  | zero => rfl
  | succ count ih => exact ih

theorem decimalValue_zeroPad (width n : Nat) : decimalValue (zeroPad width n) = n := by
  rw [zeroPad, decimalValue_replicate_append, Json.decimalValue_decimal]

theorem fixedWidth_zeroPad {width n : Nat} (hn : n < 10 ^ (width + 1)) :
    fixedWidth (width + 1) (zeroPad (width + 1) n) = some n := by
  rw [fixedWidth, if_pos ⟨length_zeroPad hn, isDigit_zeroPad⟩, decimalValue_zeroPad]

variable {c : CodePoint} {value : Instant} {days micros n : Nat} {zone : Str}

theorem zeroPad_two (hn : n < 100) :
    ∃ a b, zeroPad 2 n = [a, b] ∧ isDigit a = true ∧ isDigit b = true ∧
      fixedWidth 2 [a, b] = some n := by
  have hlength := @length_zeroPad 1 n (by omega)
  have hvalue := @fixedWidth_zeroPad 1 n (by omega)
  have hdigits := @isDigit_zeroPad 2 n
  match hpad : zeroPad 2 n, hlength with
  | [a, b], _ =>
    rw [hpad] at hvalue hdigits
    simp only [List.all_cons, List.all_nil, Bool.and_true, Bool.and_eq_true] at hdigits
    exact ⟨a, b, rfl, hdigits.1, hdigits.2, hvalue⟩

theorem zeroPad_four (hn : n < 10000) : ∃ a b c d, zeroPad 4 n = [a, b, c, d] ∧
      (isDigit a = true ∧ isDigit b = true ∧ isDigit c = true ∧ isDigit d = true) ∧
      fixedWidth 4 [a, b, c, d] = some n := by
  have hlength := @length_zeroPad 3 n (by omega)
  have hvalue := @fixedWidth_zeroPad 3 n (by omega)
  have hdigits := @isDigit_zeroPad 4 n
  match hpad : zeroPad 4 n, hlength with
  | [a, b, c, d], _ =>
    rw [hpad] at hvalue hdigits
    simp only [List.all_cons, List.all_nil, Bool.and_true, Bool.and_eq_true] at hdigits
    exact ⟨a, b, c, d, rfl, hdigits, hvalue⟩

/-! ## The calendar -/

theorem yearDay_spec {year day : Nat} (hdays : days < 3652059) (h : yearDay days = (year, day)) :
    1 ≤ year ∧ year ≤ 9999 ∧ day < 365 + (if isLeap year then 1 else 0) ∧
      daysBeforeYear year + day = days := by
  simp only [yearDay, Prod.mk.injEq] at h
  obtain ⟨rfl, rfl⟩ := h
  have hleap : ∀ y : Nat, isLeap y = true ↔ y % 4 = 0 ∧ (y % 100 ≠ 0 ∨ y % 400 = 0) := by
    intro y
    simp [isLeap]
  have hera : days = days / 146097 * 146097 + days % 146097 := by omega
  generalize days / 146097 = a at hera ⊢
  have hera' : days % 146097 < 146097 := by omega
  generalize days % 146097 = inEra at hera hera' ⊢
  have hcentury : inEra = min (inEra / 36524) 3 * 36524 +
      (inEra - min (inEra / 36524) 3 * 36524) ∧ min (inEra / 36524) 3 ≤ 3 ∧
      (inEra - min (inEra / 36524) 3 * 36524 < 36524 ∨
        inEra - min (inEra / 36524) 3 * 36524 = 36524 ∧ min (inEra / 36524) 3 = 3) := by
    omega
  generalize min (inEra / 36524) 3 = b at hcentury ⊢
  generalize inEra - b * 36524 = inCentury at hcentury ⊢
  have hfour : inCentury = inCentury / 1461 * 1461 + inCentury % 1461 ∧
      inCentury % 1461 < 1461 := by
    omega
  generalize inCentury / 1461 = c at hfour ⊢
  generalize inCentury % 1461 = inFour at hfour ⊢
  have hyear : inFour = min (inFour / 365) 3 * 365 + (inFour - min (inFour / 365) 3 * 365) ∧
      min (inFour / 365) 3 ≤ 3 ∧ (inFour - min (inFour / 365) 3 * 365 < 365 ∨
        inFour = 1460 ∧ min (inFour / 365) 3 = 3) := by
    omega
  generalize min (inFour / 365) 3 = d at hyear ⊢
  generalize inFour - d * 365 = day at hyear ⊢
  have hc : c ≤ 24 := by omega
  have hlast : a * 400 + b * 100 + c * 4 + d + 1 - 1 = a * 400 + b * 100 + c * 4 + d := by omega
  have hquarter : (a * 400 + b * 100 + c * 4 + d) / 4 = a * 100 + b * 25 + c := by omega
  have hhundred : (a * 400 + b * 100 + c * 4 + d) / 100 = a * 4 + b := by omega
  have hcycle : (a * 400 + b * 100 + c * 4 + d) / 400 = a := by omega
  refine ⟨by omega, by omega, ?_, ?_⟩
  · split
    · omega
    · rename_i hnot
      rw [hleap] at hnot
      omega
  · rw [daysBeforeYear, hlast, hquarter, hhundred, hcycle]
    omega

theorem monthDay_spec {lengths : List Nat} : ∀ {start days month day : Nat},
    days < lengths.sum → monthDay lengths start days = (month, day) →
    start ≤ month ∧ month - start < lengths.length ∧ 1 ≤ day ∧
      day ≤ lengths.getD (month - start) 0 ∧
      (lengths.take (month - start)).sum + (day - 1) = days := by
  induction lengths with
  | nil =>
    intro start days month day hdays
    simp at hdays
  | cons length rest ih =>
    intro start days month day hdays h
    rw [monthDay] at h
    split at h
    · cases h
      refine ⟨by omega, by simp, by omega, ?_, ?_⟩
      · simp
        omega
      · simp
    · rw [List.sum_cons] at hdays
      obtain ⟨hstart, hbound, hone, hday, hsum⟩ := ih (by omega) h
      have hindex : month - start = month - (start + 1) + 1 := by omega
      rw [hindex, List.length_cons, List.getD_cons_succ, List.take_succ_cons, List.sum_cons]
      exact ⟨by omega, by omega, hone, hday, by omega⟩

theorem sum_monthLengths (leap : Bool) :
    (monthLengths leap).sum = 365 + if leap then 1 else 0 := by
  cases leap <;> rfl

theorem calendarDay_date {year month day : Nat} (h : value.date = (year, month, day)) :
    year < 10000 ∧ month < 100 ∧ day < 100 ∧
      calendarDay year month day = some (value.val / 1000000 / 86400) := by
  have hvalue := value.isLt
  unfold Instant.date at h
  obtain ⟨⟨y, doy⟩, hyear⟩ : ∃ p, yearDay (value.val / 1000000 / 86400) = p := ⟨_, rfl⟩
  rw [hyear] at h
  obtain ⟨⟨m, d⟩, hmonth⟩ : ∃ p, monthDay (monthLengths (isLeap y)) 1 doy = p := ⟨_, rfl⟩
  simp only [hmonth, Prod.mk.injEq] at h
  obtain ⟨rfl, rfl, rfl⟩ := h
  obtain ⟨hone, hlast, hdoy, hdays⟩ := yearDay_spec (by omega) hyear
  obtain ⟨hstart, hmonths, hfirst, hday, hsum⟩ :=
    monthDay_spec (by rw [sum_monthLengths]; exact hdoy) hmonth
  have hlong : ∀ leap : Bool, ∀ n ∈ monthLengths leap, n ≤ 31 := by decide
  have hlength : (monthLengths (isLeap y)).length = 12 := rfl
  have hbound : (monthLengths (isLeap y)).getD (m - 1) 0 ≤ 31 := by
    rw [List.getD_eq_getElem?_getD, List.getElem?_eq_getElem hmonths, Option.getD_some]
    exact hlong _ _ (List.getElem_mem hmonths)
  refine ⟨by omega, by omega, by omega, ?_⟩
  rw [calendarDay, if_pos ⟨hone, hlast, hstart, by omega, hfirst, hday⟩]
  congr 1
  omega

/-! ## Reading the text back -/

theorem ne_of_isDigit {d : CodePoint} (hc : isDigit c = true) (hd : isDigit d = false) :
    c ≠ d := by
  intro heq
  rw [heq, hd] at hc
  cases hc

theorem not_startsOffset_of_isDigit (hc : isDigit c = true) : startsOffset c = false := by
  have hplus := ne_of_isDigit hc (show isDigit (ch '+') = false by decide)
  have hminus := ne_of_isDigit hc (show isDigit (ch '-') = false by decide)
  have hzulu := ne_of_isDigit hc (show isDigit (ch 'Z') = false by decide)
  simp [startsOffset, hplus, hminus, hzulu]

theorem parseFraction_fractionText (h : micros < 1000000) :
    parseFraction (fractionText micros) = some micros := by
  unfold fractionText
  split
  · rename_i hzero
    rw [hzero]
    rfl
  · have hlength := @length_zeroPad 5 micros (by omega)
    have hne : zeroPad 6 micros ≠ [] := by
      intro hempty
      rw [hempty] at hlength
      cases hlength
    have htake : (zeroPad 6 micros).take 6 = zeroPad 6 micros :=
      List.take_of_length_le (Nat.le_of_eq hlength)
    rw [parseFraction, if_pos ⟨Or.inl rfl, hne, isDigit_zeroPad⟩, htake, decimalValue_zeroPad,
      hlength]
    simp

theorem all_fractionText (micros : Nat) :
    ∀ c ∈ fractionText micros, (!startsOffset c) = true := by
  intro c hc
  unfold fractionText at hc
  split at hc
  · cases hc
  · rcases List.mem_cons.1 hc with rfl | hc
    · decide
    · rw [not_startsOffset_of_isDigit (List.all_eq_true.1 isDigit_zeroPad c hc)]
      rfl

/-- The texts of the zone of a UTC value. -/
def IsUtc (zone : Str) : Prop := zone = str "+00:00" ∨ zone = str "Z"

theorem parseOffset_utc (h : IsUtc zone) :
    parseOffset zone = some (some 0) ∧ ∃ c rest, zone = c :: rest ∧ startsOffset c = true := by
  rcases h with rfl | rfl
  · exact ⟨by decide, ch '+', str "00:00", rfl, by decide⟩
  · exact ⟨by decide, ch 'Z', [], rfl, by decide⟩

theorem parseTime_clock {clock micros : Nat} (hclock : clock < 86400) (hmicros : micros < 1000000)
    {zone : Str} (hzone : IsUtc zone) :
    ∃ reading, parseTime (zeroPad 2 (clock / 3600) ++ ch ':' :: zeroPad 2 (clock / 60 % 60)
        ++ ch ':' :: zeroPad 2 (clock % 60) ++ fractionText micros ++ zone) =
      some (reading, some 0) ∧ reading.micros = clock * 1000000 + micros := by
  obtain ⟨h1, h2, hh, hd1, hd2, hhour⟩ := zeroPad_two (n := clock / 3600) (by omega)
  obtain ⟨m1, m2, hm, hd3, hd4, hminute⟩ := zeroPad_two (n := clock / 60 % 60) (by omega)
  obtain ⟨s1, s2, hs, hd5, hd6, hsecond⟩ := zeroPad_two (n := clock % 60) (by omega)
  obtain ⟨hoffset, c, rest, rfl, hstart⟩ := parseOffset_utc hzone
  rw [hh, hm, hs]
  have hplain : ∀ x ∈ [h1, h2, ch ':', m1, m2, ch ':', s1, s2] ++ fractionText micros,
      (!startsOffset x) = true := by
    intro x hx
    rcases List.mem_append.1 hx with hx | hx
    · simp only [List.mem_cons, List.not_mem_nil, or_false] at hx
      rcases hx with rfl | rfl | rfl | rfl | rfl | rfl | rfl | rfl
      all_goals first | decide | (rw [not_startsOffset_of_isDigit (by assumption)]; rfl)
    · exact all_fractionText micros x hx
  have hclockText : [h1, h2] ++ ch ':' :: [m1, m2] ++ ch ':' :: [s1, s2] ++ fractionText micros
      ++ c :: rest = ([h1, h2, ch ':', m1, m2, ch ':', s1, s2] ++ fractionText micros)
        ++ c :: rest := by simp
  have htake : ([h1, h2] ++ ch ':' :: [m1, m2] ++ ch ':' :: [s1, s2] ++ fractionText micros
      ++ c :: rest).takeWhile (fun x => !startsOffset x) =
      [h1, h2, ch ':', m1, m2, ch ':', s1, s2] ++ fractionText micros := by
    rw [hclockText, List.takeWhile_append_of_pos hplain, List.takeWhile_cons_of_neg (by simp [hstart]),
      List.append_nil]
  have hdrop : ([h1, h2] ++ ch ':' :: [m1, m2] ++ ch ':' :: [s1, s2] ++ fractionText micros
      ++ c :: rest).dropWhile (fun x => !startsOffset x) = c :: rest := by
    rw [hclockText, List.dropWhile_append_of_pos hplain, List.dropWhile_cons_of_neg (by simp [hstart])]
  have hparse : parseClock ([h1, h2, ch ':', m1, m2, ch ':', s1, s2] ++ fractionText micros) =
      some ⟨clock / 3600, clock / 60 % 60, clock % 60, micros⟩ := by
    simp [parseClock, hhour, hminute, hsecond, parseFraction_fractionText hmicros]
  refine ⟨⟨clock / 3600, clock / 60 % 60, clock % 60, micros⟩, ?_, ?_⟩
  · rw [parseTime, htake, hdrop, hparse, hoffset]
    simp
    omega
  · simp only [Clock.micros]
    omega

theorem instant_eq_ok (h : 86400000000 * days + micros = value.val) :
    instant (86400000000 * (days : Int) + (micros : Int)) = .ok value := by
  obtain ⟨n, hn⟩ := value
  have htotal : 86400000000 * (days : Int) + (micros : Int) = (n : Int) := by
    have hcast : 86400000000 * days + micros = n := h
    omega
  rw [htotal, instant, dif_pos ⟨by omega, by omega⟩]
  rfl

theorem fromisoformat_of_parts {y1 y2 y3 y4 m1 m2 d1 d2 : CodePoint} {time : Str}
    {clock : Clock} {offset : Option Int} (hweek : m1 ≠ ch 'W')
    (hdate : parseDate [y1, y2, y3, y4, ch '-', m1, m2, ch '-', d1, d2] = some days)
    (htime : parseTime time = some (clock, offset))
    (hvalue : instant (86400000000 * (days : Int) + (clock.micros : Int)) = .ok value) :
    Datetime.fromisoformat (y1 :: y2 :: y3 :: y4 :: ch '-' :: m1 :: m2 :: ch '-' :: d1 :: d2 ::
      ch 'T' :: time) = some ⟨value, offset⟩ := by
  have hlocation : separatorLocation (y1 :: y2 :: y3 :: y4 :: ch '-' :: m1 :: m2 :: ch '-' ::
      d1 :: d2 :: ch 'T' :: time) = some 10 := by
    simp [separatorLocation, hweek]
  have hlong : ¬(y1 :: y2 :: y3 :: y4 :: ch '-' :: m1 :: m2 :: ch '-' :: d1 :: d2 :: ch 'T' ::
      time).length < 7 := by
    simp only [List.length_cons]
    omega
  have hmore : (y1 :: y2 :: y3 :: y4 :: ch '-' :: m1 :: m2 :: ch '-' :: d1 :: d2 :: ch 'T' ::
      time).length ≠ 10 := by
    simp only [List.length_cons]
    omega
  have htimeOf : (if (y1 :: y2 :: y3 :: y4 :: ch '-' :: m1 :: m2 :: ch '-' :: d1 :: d2 ::
      ch 'T' :: time).length = 10 then some ((⟨0, 0, 0, 0⟩ : Clock), (none : Option Int))
      else parseTime time) = some (clock, offset) := by
    rw [if_neg hmore]
    exact htime
  have hinstant : (instant (86400000000 * (days : Int) + (clock.micros : Int))).toOption =
      some value := by
    rw [hvalue]
    rfl
  unfold Datetime.fromisoformat
  rw [if_neg hlong]
  refine Option.bind_eq_some_iff.2 ⟨10, hlocation, ?_⟩
  refine Option.bind_eq_some_iff.2 ⟨days, hdate, ?_⟩
  refine Option.bind_eq_some_iff.2 ⟨(clock, offset), htimeOf, ?_⟩
  exact Option.bind_eq_some_iff.2 ⟨value, hinstant, rfl⟩

theorem fromisoformat_isoText (value : Instant) (hzone : IsUtc zone) :
    Datetime.fromisoformat (value.isoText zone) = some ⟨value, some 0⟩ := by
  obtain ⟨⟨year, month, day⟩, hdate⟩ : ∃ d, value.date = d := ⟨_, rfl⟩
  obtain ⟨hyear, hmonth, hday, hcalendar⟩ := calendarDay_date hdate
  obtain ⟨y1, y2, y3, y4, hy, -, hyearText⟩ := zeroPad_four hyear
  obtain ⟨m1, m2, hm, hdigit, -, hmonthText⟩ := zeroPad_two hmonth
  obtain ⟨d1, d2, hd, -, -, hdayText⟩ := zeroPad_two hday
  obtain ⟨reading, htime, hmicros⟩ := @parseTime_clock
    (value.val / 1000000 % 86400) (value.val % 1000000) (by omega) (by omega) zone hzone
  have hweek : m1 ≠ ch 'W' := ne_of_isDigit hdigit (by decide)
  have hparse : parseDate [y1, y2, y3, y4, ch '-', m1, m2, ch '-', d1, d2] =
      some (value.val / 1000000 / 86400) := by
    simp [parseDate, hyearText, hweek, hmonthText, hdayText, hcalendar]
  have hsum : 86400000000 * (value.val / 1000000 / 86400) + reading.micros = value.val := by
    omega
  have hread := fromisoformat_of_parts hweek hparse htime (instant_eq_ok hsum)
  have htext : value.isoText zone = y1 :: y2 :: y3 :: y4 :: ch '-' :: m1 :: m2 :: ch '-' :: d1 ::
      d2 :: ch 'T' :: (zeroPad 2 (value.val / 1000000 % 86400 / 3600)
        ++ ch ':' :: zeroPad 2 (value.val / 1000000 % 86400 / 60 % 60)
        ++ ch ':' :: zeroPad 2 (value.val / 1000000 % 86400 % 60)
        ++ fractionText (value.val % 1000000) ++ zone) := by
    simp [Instant.isoText, hdate, hy, hm, hd]
  rw [htext]
  exact hread

end IntegrityGuardian.Python
