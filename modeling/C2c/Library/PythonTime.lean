import C2c.Library.GoTime

/-!
Moments of Python's `datetime` and the ISO 8601 texts it reads.
-/

namespace C2c.Library.PythonTime

open C2c.Library.JavaText
open C2c.Library.GoTime (isLeap daysIn daysBeforeYear daysBeforeMonth fixed expect)

/-- A `datetime`: its clock in microseconds since the year 0 and, if it is
aware, the distance of its zone to the east. -/
structure DateTime where
  wall : Int
  offset : Option Int
deriving DecidableEq

/-- The moment of an aware time; a naive one is taken as it stands. -/
def DateTime.moment (x : DateTime) : Int :=
  x.wall - x.offset.getD 0

/-- `x >= y`, where none of the two is aware alone. -/
def DateTime.atLeast (x y : DateTime) : Option Bool :=
  if x.offset.isSome = y.offset.isSome then some (decide (y.moment ≤ x.moment)) else none

/-- The day of the calendar, counted from the start of the year 0. -/
def dayNumber (year month day : Nat) : Option Nat :=
  if 1 ≤ year ∧ year ≤ 9999 ∧ 1 ≤ month ∧ month ≤ 12 ∧ 1 ≤ day ∧ day ≤ daysIn month year then
    some (daysBeforeYear year + daysBeforeMonth month year + (day - 1))
  else none

/-- The day of the week, a Monday being 0. -/
def weekday (day : Nat) : Nat :=
  (day + 5) % 7

/-- A year of 53 weeks starts on a Thursday, or in a leap year on a Wednesday. -/
def weeksOf (year : Nat) : Nat :=
  let first := weekday (daysBeforeYear year)
  if first = 3 ∨ (first = 2 ∧ isLeap year = true) then 53 else 52

/-- The day of a week of the ISO calendar. -/
def weekDayNumber (year week day : Nat) : Option Nat :=
  if 1 ≤ year ∧ year ≤ 9999 ∧ 1 ≤ week ∧ week ≤ weeksOf year ∧ 1 ≤ day ∧ day ≤ 7 then
    let newYear := daysBeforeYear year
    let monday :=
      if weekday newYear ≤ 3 then newYear - weekday newYear else newYear + 7 - weekday newYear
    let number := monday + 7 * (week - 1) + (day - 1)
    if number < daysBeforeYear 10000 then some number else none
  else none

/-- The date: `YYYY-MM-DD`, `YYYYMMDD`, or a week of the year. -/
def readDate (t : Text) : Option Nat := do
  let (year, t) ← fixed 4 t
  let separated := t.head? == some '-'
  let t := if separated then t.drop 1 else t
  if t.head? = some 'W' then
    let (week, t) ← fixed 2 (t.drop 1)
    if t = [] then weekDayNumber year week 1
    else
      let t ← if separated then expect '-' t else some t
      let (day, t) ← fixed 1 t
      if t = [] then weekDayNumber year week day else none
  else
    let (month, t) ← fixed 2 t
    let t ← if separated then expect '-' t else some t
    let (day, t) ← fixed 2 t
    if t = [] then dayNumber year month day else none

/-- A fraction of a second, of which six digits count. -/
def readFraction : Text → Option Nat
  | [] => some 0
  | c :: digits =>
      if (c = '.' ∨ c = ',') ∧ digits ≠ [] ∧ digits.all isDigitAscii = true then
        some (digitsValue ((digits ++ List.replicate 6 '0').take 6))
      else none

/-- Hours, minutes, seconds and microseconds: `HH[:?MM[:?SS[.fff]]]`. -/
def readClock (t : Text) : Option (Nat × Nat × Nat × Nat) := do
  let (hour, t) ← fixed 2 t
  if t = [] then some (hour, 0, 0, 0)
  else
    let separated := t.head? == some ':'
    let (minute, t) ← fixed 2 (if separated then t.drop 1 else t)
    if t = [] then some (hour, minute, 0, 0)
    else
      let t ← if separated then expect ':' t else some t
      let (second, t) ← fixed 2 t
      let micros ← readFraction t
      some (hour, minute, second, micros)

def clockMicros (clock : Nat × Nat × Nat × Nat) : Nat :=
  (3600 * clock.1 + 60 * clock.2.1 + clock.2.2.1) * 1000000 + clock.2.2.2

/-- The zone behind the clock; none makes a naive time. -/
def readZone : Text → Option (Option Int)
  | [] => some none
  | ['Z'] => some (some 0)
  | sign :: t => do
      if sign = '+' ∨ sign = '-' then
        let clock ← readClock t
        if clockMicros clock < 86400 * 1000000 then
          some (some (if sign = '-' then -(clockMicros clock : Int) else clockMicros clock))
        else none
      else none

def startsZone (c : Char) : Bool :=
  c == '+' || c == '-' || c == 'Z'

/-- Where the date ends, if the text is long enough to tell. -/
def separatorIndex (t : Text) : Option Nat :=
  if t.length = 7 then some 7
  else if t[4]? = some '-' then
    if t[5]? = some 'W' then
      if t[8]? = some '-' then
        if t.length = 9 then none
        else if (t[10]?).any isDigitAscii then some 8
        else some 10
      else some 8
    else some 10
  else if t[4]? = some 'W' then
    let digits := 7 + ((t.drop 7).takeWhile isDigitAscii).length
    if digits < 9 then some digits
    else if digits % 2 = 0 then some 7
    else some 8
  else some 8

/-- `datetime.fromisoformat(t)`; `none` for a `ValueError`. -/
def fromisoformat (t : Text) : Option DateTime := do
  if t.length < 7 then none
  else
    let i ← separatorIndex t
    let day ← readDate (t.take i)
    if t.length ≤ i then some { wall := 86400 * 1000000 * day, offset := none }
    else
      let time := t.drop (i + 1)
      let clock ← readClock (time.takeWhile fun c => !startsZone c)
      let offset ← readZone (time.dropWhile fun c => !startsZone c)
      if clock.1 < 24 ∧ clock.2.1 < 60 ∧ clock.2.2.1 < 60 then
        some { wall := 86400 * 1000000 * day + clockMicros clock, offset := offset }
      else none

example : fromisoformat "1970-01-01T00:00:00+00:00".toList =
    fromisoformat "1970W014T000000Z".toList := by
  decide

example : (fromisoformat "2024-02-30".toList).isNone = true := by
  decide

end C2c.Library.PythonTime
