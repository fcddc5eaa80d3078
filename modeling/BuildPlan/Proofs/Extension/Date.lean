import BuildPlan.Extension.Builtin
import BuildPlan.Proofs.Calendar

/-!
# What the date formats say

The time of a build is given as a timestamp, as a date and as a number of seconds. A reader that
takes nothing but these forms and nothing but dates that the calendar has (`Timestamp.read?`) gets
the date and the time of day back from the timestamp. The seconds up to then are the number that is
given (`date_formats_agree`).
-/

set_option autoImplicit false
set_option relaxedAutoImplicit false

namespace BuildPlan

/-! ### Numbers of a given width -/

/-- Reads the digits in front of a text as a number, if their count is allowed. -/
def readNumber? (allowed : Nat → Bool) (text : List Char) : Option (Nat × List Char) :=
  let digits := text.takeWhile Char.isDigit
  if allowed digits.length then
    some (Nat.ofDigitChars 10 digits 0, text.dropWhile Char.isDigit)
  else none

/-- Reads one character. -/
def readMark? (mark : Char) : List Char → Option (List Char)
  | [] => none
  | first :: rest => if first = mark then some rest else none

/-- A text in front of which stands no digit. -/
def EndsNumber (text : List Char) : Prop :=
  ∀ c ∈ text.head?, c.isDigit = false

theorem endsNumber_nil : EndsNumber [] :=
  nofun

theorem endsNumber_cons (mark : Char) (rest : List Char) (h : mark.isDigit = false) :
    EndsNumber (mark :: rest) := by
  intro c hc
  obtain rfl := Option.some.inj hc
  exact h

theorem readMark?_cons (mark : Char) (rest : List Char) :
    readMark? mark (mark :: rest) = some rest :=
  if_pos rfl

theorem toList_padded (width n : Nat) :
    (Date.padded width n).toList =
      List.replicate (width - (Nat.toDigits 10 n).length) '0' ++ Nat.toDigits 10 n :=
  String.toList_ofList

theorem isDigit_of_mem_padded {width n : Nat} {c : Char} (h : c ∈ (Date.padded width n).toList) :
    c.isDigit = true := by
  rw [toList_padded, List.mem_append] at h
  rcases h with hzero | hdigit
  · rw [List.eq_of_mem_replicate hzero]
    decide
  · exact Nat.isDigit_of_mem_toDigits (by decide) (by decide) hdigit

theorem ofDigitChars_padded (width n : Nat) :
    Nat.ofDigitChars 10 (Date.padded width n).toList 0 = n := by
  rw [toList_padded, Nat.ofDigitChars_append, Nat.ofDigitChars_replicate_zero, Nat.mul_zero,
    Nat.ofDigitChars_ten_toDigits]

theorem length_padded (width n : Nat) :
    (Date.padded width n).toList.length = max width (Nat.toDigits 10 n).length := by
  rw [toList_padded, List.length_append, List.length_replicate]
  omega

/-- A number is wider than it is padded exactly if it has more digits. -/
theorem length_padded_eq_iff {width n : Nat} (hwidth : 0 < width) :
    (Date.padded width n).toList.length = width ↔ n < 10 ^ width := by
  rw [length_padded, ← Nat.length_toDigits_le_iff (by decide) hwidth]
  omega

/-- Padded digits are read as the number that they show. -/
theorem readNumber?_padded (allowed : Nat → Bool) {width n : Nat} {rest : List Char}
    (h : allowed (Date.padded width n).toList.length = true) (hrest : EndsNumber rest) :
    readNumber? allowed ((Date.padded width n).toList ++ rest) = some (n, rest) := by
  have hdigits : ∀ c ∈ (Date.padded width n).toList, c.isDigit = true :=
    fun _ ↦ isDigit_of_mem_padded
  have hstops : rest.takeWhile Char.isDigit = [] ∧ rest.dropWhile Char.isDigit = rest := by
    cases rest with
    | nil => exact ⟨rfl, rfl⟩
    | cons c rest =>
      have hc : ¬ c.isDigit = true := by simp [hrest c rfl]
      exact ⟨List.takeWhile_cons_of_neg hc, List.dropWhile_cons_of_neg hc⟩
  rw [readNumber?, List.takeWhile_append_of_pos hdigits, List.dropWhile_append_of_pos hdigits,
    hstops.1, hstops.2, List.append_nil, if_pos h, ofDigitChars_padded]

theorem readNumber?_two {n : Nat} {rest : List Char} (h : n < 100) (hrest : EndsNumber rest) :
    readNumber? (· = 2) ((Date.padded 2 n).toList ++ rest) = some (n, rest) :=
  readNumber?_padded (· = 2) (decide_eq_true ((length_padded_eq_iff (by decide)).2 h)) hrest

/-- Two digits up to a mark. -/
theorem readNumber?_two_cons {n : Nat} {mark : Char} (h : n < 100) (hmark : mark.isDigit = false)
    (after : List Char) :
    readNumber? (· = 2) ((Date.padded 2 n).toList ++ mark :: after) = some (n, mark :: after) :=
  readNumber?_two h (endsNumber_cons mark after hmark)

/-! ### Dates -/

/-- The sign in front of a year. -/
def yearSign (year : Int) : List Char :=
  if year < 0 then ['-'] else if 9999 < year then ['+'] else []

theorem toList_yearText (year : Int) :
    (Date.yearText year).toList = yearSign year ++ (Date.padded 4 year.natAbs).toList := by
  unfold Date.yearText yearSign
  split_ifs <;> simp

/-- Reads a year: a minus sign and at least four digits, a plus sign and more than four, or four
digits. -/
def readYear? : List Char → Option (Int × List Char)
  | '-' :: text => (readNumber? (4 ≤ ·) text).map fun read ↦ (-(read.1 : Int), read.2)
  | '+' :: text => (readNumber? (4 < ·) text).map fun read ↦ ((read.1 : Int), read.2)
  | text => (readNumber? (· = 4) text).map fun read ↦ ((read.1 : Int), read.2)

theorem readYear?_minus (text : List Char) :
    readYear? ('-' :: text) =
      (readNumber? (4 ≤ ·) text).map fun read ↦ (-(read.1 : Int), read.2) :=
  rfl

theorem readYear?_plus (text : List Char) :
    readYear? ('+' :: text) =
      (readNumber? (4 < ·) text).map fun read ↦ ((read.1 : Int), read.2) :=
  rfl

/-- A year that starts with a digit has no sign. -/
theorem readYear?_of_isDigit {text : List Char} (h : ∀ c ∈ text.head?, c.isDigit = true) :
    readYear? text = (readNumber? (· = 4) text).map fun read ↦ ((read.1 : Int), read.2) := by
  unfold readYear?
  split
  next => exact absurd (h '-' rfl) (by decide)
  next => exact absurd (h '+' rfl) (by decide)
  next => rfl

/-- The year is read from the text that is written for it. -/
theorem readYear?_yearText (year : Int) {rest : List Char} (hrest : EndsNumber rest) :
    readYear? ((Date.yearText year).toList ++ rest) = some (year, rest) := by
  have hleast : 4 ≤ (Date.padded 4 year.natAbs).toList.length := by
    rw [length_padded]
    exact Nat.le_max_left _ _
  have hfour : (Date.padded 4 year.natAbs).toList.length = 4 ↔ year.natAbs < 10 ^ 4 :=
    length_padded_eq_iff (by decide)
  rw [toList_yearText, yearSign]
  split_ifs with hnegative hlarge
  · have hyear : -(year.natAbs : Int) = year := by omega
    rw [List.append_assoc, List.singleton_append, readYear?_minus,
      readNumber?_padded (4 ≤ ·) (decide_eq_true hleast) hrest, Option.map_some, hyear]
  · have hmore : 4 < (Date.padded 4 year.natAbs).toList.length := by omega
    have hyear : (year.natAbs : Int) = year := by omega
    rw [List.append_assoc, List.singleton_append, readYear?_plus,
      readNumber?_padded (4 < ·) (decide_eq_true hmore) hrest, Option.map_some, hyear]
  · have hyear : (year.natAbs : Int) = year := by omega
    have hwidth := hfour.2 (by omega)
    have hdigit : ∀ c ∈ ((Date.padded 4 year.natAbs).toList ++ rest).head?, c.isDigit = true := by
      intro c hc
      rw [List.head?_append_of_ne_nil _ (List.ne_nil_of_length_pos (by omega))] at hc
      exact isDigit_of_mem_padded (List.mem_of_mem_head? hc)
    rw [List.nil_append, readYear?_of_isDigit hdigit,
      readNumber?_padded (· = 4) (decide_eq_true hwidth) hrest, Option.map_some, hyear]

namespace Date

/-- Reads a date that the calendar has. -/
def read? (text : List Char) : Option (Date × List Char) := do
  let (year, text) ← readYear? text
  let text ← readMark? '-' text
  let (month, text) ← readNumber? (· = 2) text
  let text ← readMark? '-' text
  let (day, text) ← readNumber? (· = 2) text
  let date : Date := { year, month, day }
  if date.Valid then return (date, text) else none

theorem Valid.day_lt {date : Date} (h : date.Valid) : date.day < 32 := by
  have hday := h.day_le
  unfold daysOfMonth at hday
  split_ifs at hday <;> omega

/-- A date is read from its text. -/
theorem read?_text {date : Date} (h : date.Valid) {rest : List Char} (hrest : EndsNumber rest) :
    read? (date.text.toList ++ rest) = some (date, rest) := by
  have hyear (after : List Char) := readYear?_yearText date.year (endsNumber_cons '-' after rfl)
  have hmonth : date.month < 100 := Nat.lt_of_le_of_lt h.month_le (by decide)
  have hday := readNumber?_two (Nat.lt_trans h.day_lt (by decide)) hrest
  simp [read?, text, hyear, readMark?_cons, readNumber?_two_cons hmonth, hday, h]

end Date

/-! ### Timestamps -/

/-- A date and a time of day, in universal time. -/
structure Timestamp where
  date : Date
  hour : Nat
  minute : Nat
  second : Nat

namespace Timestamp

/-- A timestamp whose date the calendar has and whose time of day a clock shows. -/
structure Valid (timestamp : Timestamp) : Prop where
  date : timestamp.date.Valid
  hour_lt : timestamp.hour < 24
  minute_lt : timestamp.minute < 60
  second_lt : timestamp.second < 60

instance (timestamp : Timestamp) : Decidable timestamp.Valid :=
  decidable_of_iff (timestamp.date.Valid ∧ timestamp.hour < 24 ∧ timestamp.minute < 60 ∧
      timestamp.second < 60)
    ⟨fun ⟨hdate, hhour, hminute, hsecond⟩ ↦ ⟨hdate, hhour, hminute, hsecond⟩,
      fun ⟨hdate, hhour, hminute, hsecond⟩ ↦ ⟨hdate, hhour, hminute, hsecond⟩⟩

/-- The time of day, with two digits for each part. -/
def clock (timestamp : Timestamp) : String :=
  Date.padded 2 timestamp.hour ++ ":" ++ Date.padded 2 timestamp.minute ++ ":" ++
    Date.padded 2 timestamp.second

/-- The seconds from the start of 1970 to a timestamp, counted by days, hours and minutes. -/
def seconds (timestamp : Timestamp) : Int :=
  24 * 60 * 60 * timestamp.date.dayNumber + 60 * 60 * timestamp.hour + 60 * timestamp.minute +
    timestamp.second

/-- Reads a timestamp: a date that the calendar has, and behind it a time of day that a clock
shows. -/
def read? (text : List Char) : Option Timestamp := do
  let (date, text) ← Date.read? text
  let text ← readMark? 'T' text
  let (hour, text) ← readNumber? (· = 2) text
  let text ← readMark? ':' text
  let (minute, text) ← readNumber? (· = 2) text
  let text ← readMark? ':' text
  let (second, text) ← readNumber? (· = 2) text
  let text ← readMark? 'Z' text
  let timestamp : Timestamp := { date, hour, minute, second }
  if text = [] ∧ timestamp.Valid then return timestamp else none

/-- A timestamp is read from its text. -/
theorem read?_text {timestamp : Timestamp} (h : timestamp.Valid) :
    read? (timestamp.date.text ++ "T" ++ timestamp.clock ++ "Z").toList = some timestamp := by
  have hday (after : List Char) := Date.read?_text h.date (endsNumber_cons 'T' after rfl)
  have hhour : timestamp.hour < 100 := Nat.lt_trans h.hour_lt (by decide)
  have hminute : timestamp.minute < 100 := Nat.lt_trans h.minute_lt (by decide)
  have hsecond : timestamp.second < 100 := Nat.lt_trans h.second_lt (by decide)
  simp [read?, clock, hday, readMark?_cons, readNumber?_two_cons hhour,
    readNumber?_two_cons hminute, readNumber?_two_cons hsecond, h]

end Timestamp

/-- The date and the time of day of an instant. -/
def Instant.timestamp (instant : Instant) : Timestamp where
  date := instant.date
  hour := instant.secondOfDay / 3600
  minute := instant.secondOfDay / 60 % 60
  second := instant.secondOfDay % 60

theorem Instant.date_timestamp (instant : Instant) : instant.timestamp.date = instant.date :=
  rfl

theorem Instant.timeText_eq {instant : Instant} (h : instant.leap = false) :
    instant.timeText = instant.timestamp.clock := by
  simp [timeText, secondOfMinute, h, Timestamp.clock, timestamp]

/-- The seconds of an instant are counted by its date and its time of day. -/
theorem Instant.seconds_timestamp (instant : Instant) :
    instant.timestamp.seconds = instant.seconds := by
  simp only [timestamp, Timestamp.seconds, date, Date.dayNumber_ofDay, secondOfDay, secondsPerDay]
  omega

theorem Instant.valid_timestamp (instant : Instant) : instant.timestamp.Valid := by
  refine ⟨Date.valid_ofDay _, ?_, Nat.mod_lt _ (by decide), Nat.mod_lt _ (by decide)⟩
  simp only [timestamp, secondOfDay, secondsPerDay]
  omega

/-! ### The three formats -/

/-- A date starts with a sign exactly if its year is negative or has more than four digits. -/
theorem Date.head?_text (date : Date) :
    (date.text.toList.head? = some '-' ↔ date.year < 0) ∧
      (date.text.toList.head? = some '+' ↔ 9999 < date.year) := by
  have hne : (padded 4 date.year.natAbs).toList ≠ [] := by
    refine List.ne_nil_of_length_pos ?_
    rw [length_padded]
    omega
  obtain ⟨c, digits, hdigits⟩ := List.exists_cons_of_ne_nil hne
  have hdigit : c.isDigit = true := isDigit_of_mem_padded (hdigits ▸ List.mem_cons_self)
  have hminus : c ≠ '-' := fun h ↦ absurd (h ▸ hdigit) (by decide)
  have hplus : c ≠ '+' := fun h ↦ absurd (h ▸ hdigit) (by decide)
  simp only [text, String.toList_append, toList_yearText, hdigits, yearSign, List.append_assoc]
  split_ifs with hnegative hlarge
  · simp [hnegative]
    omega
  · simp [hnegative, hlarge]
  · simp [hnegative, hlarge, hminus, hplus]

namespace Extension

/-- The three formats of the time name the same instant, whenever that is, a leap second excepted.
The timestamp is the date, `T`, the hours, minutes and seconds with two digits each, and `Z`. What
is read back from it is a date that the Gregorian calendar has, with a time of day, and the seconds
from the start of 1970 to then are the number that is given. Years before 0 have a minus sign, years
after 9999 a plus sign, and other years none. -/
theorem date_formats_agree (now : Instant) (hleap : now.leap = false) (raw : String)
    (fallback : Option String) :
    ∃ (day : String) (timestamp : Timestamp),
      date now raw "dateOnly" fallback = .ok day ∧
      date now raw "time" fallback = .ok (day ++ "T" ++ timestamp.clock ++ "Z") ∧
      date now raw "unix" fallback = .ok (toString timestamp.seconds) ∧
      Date.read? day.toList = some (timestamp.date, []) ∧
      Timestamp.read? (day ++ "T" ++ timestamp.clock ++ "Z").toList = some timestamp ∧
      timestamp.seconds = now.seconds ∧
      (day.toList.head? = some '-' ↔ timestamp.date.year < 0) ∧
      (day.toList.head? = some '+' ↔ 9999 < timestamp.date.year) := by
  have htime : date now raw "time" fallback = .ok now.text := if_pos rfl
  have hdateOnly : date now raw "dateOnly" fallback = .ok now.date.text :=
    (if_neg (by decide)).trans (if_pos rfl)
  have hunix : date now raw "unix" fallback = .ok (toString now.seconds) :=
    (if_neg (by decide)).trans ((if_neg (by decide)).trans (if_pos rfl))
  rw [Instant.text, Instant.timeText_eq hleap, ← Instant.date_timestamp] at htime
  rw [← Instant.date_timestamp] at hdateOnly
  rw [← Instant.seconds_timestamp] at hunix
  have hvalid := now.valid_timestamp
  have hday := Date.read?_text hvalid.date endsNumber_nil
  rw [List.append_nil] at hday
  obtain ⟨hminus, hplus⟩ := now.timestamp.date.head?_text
  exact ⟨now.timestamp.date.text, now.timestamp, hdateOnly, htime, hunix, hday,
    Timestamp.read?_text hvalid, now.seconds_timestamp, hminus, hplus⟩

/-- The last second before year 0 is read back from its texts. -/
theorem last_second_of_year_minus_one :
    (⟨-62167219201, false⟩ : Instant).leap = false ∧
    date ⟨-62167219201, false⟩ "" "time" none = .ok "-0001-12-31T23:59:59Z" ∧
    ∃ (day : String) (timestamp : Timestamp),
      date ⟨-62167219201, false⟩ "" "dateOnly" none = .ok day ∧
      date ⟨-62167219201, false⟩ "" "time" none = .ok (day ++ "T" ++ timestamp.clock ++ "Z") ∧
      date ⟨-62167219201, false⟩ "" "unix" none = .ok (toString timestamp.seconds) ∧
      Date.read? day.toList = some (timestamp.date, []) ∧
      Timestamp.read? (day ++ "T" ++ timestamp.clock ++ "Z").toList = some timestamp ∧
      timestamp.seconds = -62167219201 ∧
      (day.toList.head? = some '-' ↔ timestamp.date.year < 0) ∧
      (day.toList.head? = some '+' ↔ 9999 < timestamp.date.year) :=
  ⟨rfl, rfl, date_formats_agree ⟨-62167219201, false⟩ rfl "" none⟩

/-- A year with five digits has a plus sign. -/
example : date ⟨253402300800, false⟩ "" "time" none = .ok "+10000-01-01T00:00:00Z" := by
  rfl

end Extension

end BuildPlan
