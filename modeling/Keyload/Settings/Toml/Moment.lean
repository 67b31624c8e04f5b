import Keyload.Settings.Toml.Scalar

/-!
# Dates and times of a settings file

A date, a time of day, or both with a shift from universal time. Such a scalar stands for its own text
in the standard form: a capital `T` between date and time, a capital `Z`, and a fraction of a second of
at most nine digits that does not end in zero.
-/
namespace Keyload.Settings.Toml

/-- What a reading step yields, if it does not fail; otherwise nothing is read. -/
def Read.optional (step : Read String) : Read String := step <|> pure ""

/-- A number of `width` digits between two bounds. -/
def readPart (width low high : Nat) : Read Nat := do
  let cs ← Read.rest
  let n ← Decimal.spell? 0 (cs.take width)
  unless (cs.take width).length = width ∧ low ≤ n ∧ n ≤ high do failure
  set (cs.drop width)
  pure n

/-- A number below a hundred in two digits. -/
def twoDigits (n : Nat) : String := if n < 10 then s!"0{n}" else toString n

/-- A number of two digits between two bounds, as it is written. -/
def readPair (low high : Nat) : Read String := twoDigits <$> readPart 2 low high

/-- A year whose February has 29 days. -/
def isLeapYear (year : Nat) : Bool :=
  year % 4 == 0 && (year % 100 != 0 || year % 400 == 0)

/-- How many days a month has, the months counted from one. -/
def daysIn (year month : Nat) : Nat :=
  if month = 2 then if isLeapYear year then 29 else 28
  else if month = 4 ∨ month = 6 ∨ month = 9 ∨ month = 11 then 30
  else 31

/-- A day of the calendar. -/
def readDate : Read String := do
  let written := String.ofList ((← Read.rest).take 4)
  let year ← readPart 4 0 9999
  Read.expect "-"
  let month ← readPart 2 1 12
  Read.expect "-"
  let day ← readPair 1 (daysIn year month)
  pure s!"{written}-{twoDigits month}-{day}"

/-- The digits of a fraction of a second, from its point on. -/
def readFraction : Read String := do
  Read.expect "."
  let ds ← Read.many isDecimal
  if ds.isEmpty then failure
  let kept := ((ds.take 9).reverse.dropWhile (· == '0')).reverse
  pure (if kept.isEmpty then "" else "." ++ String.ofList kept)

/-- A time of day; the last second of a day may be a sixtieth. -/
def readTime : Read String := do
  let hour ← readPair 0 23
  Read.expect ":"
  let minute ← readPair 0 59
  Read.expect ":"
  let second ← readPair 0 60
  let fraction ← readFraction.optional
  pure s!"{hour}:{minute}:{second}{fraction}"

/-- A shift from universal time; one of nothing counts as forward. -/
def readShift : Read String := do
  match ← Read.pop with
  | 'Z' => pure "Z"
  | 'z' => pure "Z"
  | sign =>
    unless sign = '+' ∨ sign = '-' do failure
    let hour ← readPair 0 23
    Read.expect ":"
    let minute ← readPair 0 59
    let ahead := sign = '+' ∨ (hour = "00" ∧ minute = "00")
    pure ((if ahead then "+" else "-") ++ s!"{hour}:{minute}")

/-- The time of a day after its date, with a shift if there is one. -/
def readTimeOfDate : Read String := do
  let mark ← Read.pop
  unless mark = 'T' ∨ mark = 't' ∨ mark = ' ' do failure
  let time ← readTime
  let shift ← readShift.optional
  pure s!"T{time}{shift}"

/-- A date, with a time of day or not. -/
def readMoment : Read String := do
  let date ← readDate
  let time ← readTimeOfDate.optional
  pure (date ++ time)

/-- A date, a time of day, a truth value or a number. -/
def readBare : Read Value :=
  (Value.text <$> readMoment) <|> (Value.text <$> readTime) <|> readWord

end Keyload.Settings.Toml
