import Mathlib

set_option relaxedAutoImplicit false
set_option autoImplicit false

/-!
# Timestamps

Dates of the Gregorian calendar and the timestamps of RFC 3339: a date, a separator, a time of day
and an offset from UTC.

## Main definitions

* `Rfc3339.Date`, `Rfc3339.Date.dayNumber` — a date, and its day counted from 1970-01-01.
* `Rfc3339.Timestamp`, `Rfc3339.Timestamp.instant` — a timestamp, and the nanoseconds from
  1970-01-01 in UTC to it.
* `Rfc3339.bareDate`, `Rfc3339.read` — reading a date and a timestamp.

## Main results

* `Rfc3339.bareDate_prefix` — the date of a timestamp stands in its first ten characters.

## Design

* Any character may separate the date from the time, as the note of RFC 3339 on its `T` allows.
* A leap second is read as the nanosecond before the next minute.
-/

namespace Rfc3339

/-! ## Dates -/

/-- Whether a year has 366 days. -/
def isLeapYear (year : ℕ) : Bool := year % 4 = 0 ∧ (year % 100 ≠ 0 ∨ year % 400 = 0)

/-- The number of days of a month. -/
def daysInMonth (year month : ℕ) : ℕ :=
  match month with
  | 2 => if isLeapYear year then 29 else 28
  | 4 | 6 | 9 | 11 => 30
  | _ => 31

/-- A date of the Gregorian calendar. -/
structure Date where
  year : ℕ
  month : ℕ
  day : ℕ
  valid : 1 ≤ month ∧ month ≤ 12 ∧ 1 ≤ day ∧ day ≤ daysInMonth year month
deriving DecidableEq

namespace Date

variable (date : Date)

/-- The days before a year, counted from the year 0, which is a leap year. -/
def daysBeforeYear (year : ℕ) : ℕ :=
  365 * year + (year + 3) / 4 - (year + 99) / 100 + (year + 399) / 400

/-- The days before a month of a year. -/
def daysBeforeMonth (year month : ℕ) : ℕ :=
  ((List.range (month - 1)).map fun m => daysInMonth year (m + 1)).sum

/-- The day, counted from 1970-01-01. -/
def dayNumber : ℤ :=
  (daysBeforeYear date.year + daysBeforeMonth date.year date.month + (date.day - 1) : ℕ) - 719528

/-- The first second of the day in UTC. -/
def firstSecond : ℤ := date.dayNumber * 86400

/-- The last second of the day in UTC. -/
def lastSecond : ℤ := date.dayNumber * 86400 + 86399

end Date

/-! ## Timestamps -/

/-- A timestamp. -/
structure Timestamp where
  date : Date
  separator : Char
  hour : ℕ
  minute : ℕ
  second : ℕ
  nanosecond : ℕ
  /-- By how many minutes the clock is ahead of UTC. -/
  offset : ℤ
  valid : hour < 24 ∧ minute < 60 ∧ second < 60 ∧ nanosecond < 1000000000
deriving DecidableEq

namespace Timestamp

variable (timestamp : Timestamp)

/-- The second on the clock, counted from 1970-01-01. -/
def clockSecond : ℤ :=
  timestamp.date.firstSecond + timestamp.hour * 3600 + timestamp.minute * 60 + timestamp.second

/-- The nanoseconds from 1970-01-01 in UTC. -/
def instant : ℤ :=
  (timestamp.clockSecond - timestamp.offset * 60) * 1000000000 + timestamp.nanosecond

/-- The second on the clock belongs to the date. -/
lemma clockSecond_mem : timestamp.date.firstSecond ≤ timestamp.clockSecond ∧
    timestamp.clockSecond ≤ timestamp.date.lastSecond := by
  have hvalid := timestamp.valid
  rw [clockSecond, Date.lastSecond, Date.firstSecond]
  omega

end Timestamp

/-! ## Reading -/

/-- The number that digits stand for. -/
def number (digits : List Char) : Option ℕ :=
  if digits.all Char.isDigit then some (Nat.ofDigitChars 10 digits 0) else none

/-- Reads a date and nothing else. -/
def bareDate : List Char → Option Date
  | [y₁, y₂, y₃, y₄, '-', m₁, m₂, '-', d₁, d₂] => do
    let year ← number [y₁, y₂, y₃, y₄]
    let month ← number [m₁, m₂]
    let day ← number [d₁, d₂]
    if valid : 1 ≤ month ∧ month ≤ 12 ∧ 1 ≤ day ∧ day ≤ daysInMonth year month then
      some ⟨year, month, day, valid⟩
    else none
  | _ => none

/-- Reads two digits, and returns what follows. -/
def twoDigits : List Char → Option (ℕ × List Char)
  | a :: b :: rest => (number [a, b]).map fun n => (n, rest)
  | _ => none

/-- Reads a character, and returns what follows. -/
def expect (expected : Char) : List Char → Option (List Char)
  | c :: rest => if c = expected then some rest else none
  | [] => none

/-- Reads the nanoseconds of a fraction, if there is one, and returns what follows. Digits after the
ninth are dropped. -/
def fraction : List Char → Option (ℕ × List Char)
  | '.' :: rest =>
    let digits := rest.takeWhile Char.isDigit
    if digits = [] then none
    else some (Nat.ofDigitChars 10 ((digits.take 9).rightpad 9 '0') 0,
      rest.dropWhile Char.isDigit)
  | rest => some (0, rest)

/-- Reads the minutes of an offset and nothing else. -/
def offset : List Char → Option ℤ
  | ['Z'] | ['z'] => some 0
  | sign :: rest => do
    let (hours, rest) ← twoDigits rest
    let rest ← expect ':' rest
    let (minutes, []) ← twoDigits rest | none
    if 23 < hours ∨ 59 < minutes then none
    else if sign = '+' then some (hours * 60 + minutes)
    else if sign = '-' then some (-(hours * 60 + minutes))
    else none
  | [] => none

/-- The timestamp of a time of day, if there is such a time. -/
def Timestamp.ofClock (date : Date) (separator : Char) (hour minute second nanosecond : ℕ)
    (offset : ℤ) : Option Timestamp :=
  if valid : hour < 24 ∧ minute < 60 ∧ second < 60 ∧ nanosecond < 1000000000 then
    some ⟨date, separator, hour, minute, second, nanosecond, offset, valid⟩
  else none

/-- Reads the time and the offset that follow a date and a separator. -/
def withTime (date : Date) (separator : Char) (rest : List Char) : Option Timestamp := do
  let (hour, rest) ← twoDigits rest
  let rest ← expect ':' rest
  let (minute, rest) ← twoDigits rest
  let rest ← expect ':' rest
  let (second, rest) ← twoDigits rest
  let (nanosecond, rest) ← fraction rest
  let offset ← offset rest
  if second = 60 then Timestamp.ofClock date separator hour minute 59 999999999 offset
  else Timestamp.ofClock date separator hour minute second nanosecond offset

/-- Reads a timestamp. -/
def read (value : String) : Option Timestamp := do
  let date ← bareDate (value.toList.take 10)
  match value.toList.drop 10 with
  | separator :: rest => withTime date separator rest
  | [] => none

/-- Two ways to write an instant. -/
example : (read "2026-01-01T01:00:00.50+01:00").map Timestamp.instant =
    (read "2026-01-01 00:00:00.5z").map Timestamp.instant := by decide

/-! ## The text of the date -/

/-- Digits stand for a number. -/
lemma all_isDigit_of_number {digits : List Char} {n : ℕ} (h : number digits = some n) :
    ∀ c ∈ digits, c.isDigit = true := by
  unfold number at h
  split at h
  · rename_i hall
    exact List.all_eq_true.mp hall
  · exact absurd h (by simp)

/-- A date has ten characters, which are digits and hyphens. -/
lemma bareDate_chars {chars : List Char} {date : Date} (h : bareDate chars = some date) :
    chars.length = 10 ∧ ∀ c ∈ chars, c.isDigit = true ∨ c = '-' := by
  unfold bareDate at h
  split at h
  · simp only [Option.bind_eq_bind, Option.bind_eq_some_iff] at h
    obtain ⟨year, hyear, month, hmonth, day, hday, -⟩ := h
    have hyear := all_isDigit_of_number hyear
    have hmonth := all_isDigit_of_number hmonth
    have hday := all_isDigit_of_number hday
    simp only [List.mem_cons, List.not_mem_nil, or_false, forall_eq_or_imp, forall_eq]
      at hyear hmonth hday ⊢
    refine ⟨rfl, ?_⟩
    tauto
  · exact absurd h (by simp)

/-- A time of day changes neither the date nor the separator. -/
lemma Timestamp.ofClock_eq_some {date : Date} {separator : Char}
    {hour minute second nanosecond : ℕ} {offset : ℤ} {timestamp : Timestamp}
    (h : ofClock date separator hour minute second nanosecond offset = some timestamp) :
    timestamp.date = date ∧ timestamp.separator = separator := by
  unfold ofClock at h
  split at h
  · exact Option.some.inj h ▸ ⟨rfl, rfl⟩
  · exact absurd h (by simp)

/-- The time that follows changes neither the date nor the separator. -/
lemma withTime_eq_some {date : Date} {separator : Char} {rest : List Char} {timestamp : Timestamp}
    (h : withTime date separator rest = some timestamp) :
    timestamp.date = date ∧ timestamp.separator = separator := by
  simp only [withTime, Option.bind_eq_bind, Option.bind_eq_some_iff] at h
  obtain ⟨_, -, _, -, _, -, _, -, _, -, _, -, _, -, h⟩ := h
  split at h <;> exact Timestamp.ofClock_eq_some h

/-- **The text of the date.** The date of a timestamp stands in its first ten characters, and the
separator follows. -/
theorem bareDate_prefix {value : String} {timestamp : Timestamp}
    (h : read value = some timestamp) :
    ∃ chars rest, value.toList = chars ++ timestamp.separator :: rest ∧
      bareDate chars = some timestamp.date := by
  simp only [read, Option.bind_eq_bind, Option.bind_eq_some_iff] at h
  obtain ⟨date, hdate, h⟩ := h
  split at h
  · rename_i separator rest hrest
    obtain ⟨rfl, rfl⟩ := withTime_eq_some h
    refine ⟨value.toList.take 10, rest, ?_, hdate⟩
    rw [← hrest, List.take_append_drop]
  · exact absurd h (by simp)

end Rfc3339
