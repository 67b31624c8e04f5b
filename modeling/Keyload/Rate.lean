/-!
# Pacing

A ticker holds a producer to a number of requests an hour. Its deadlines lie on a grid; a tick that
comes more than five milliseconds late skips the deadlines it missed. Times are in nanoseconds.
-/
namespace Keyload

/-- The deadlines of a paced producer. -/
structure Ticker where
  period : Nat
  /-- The next deadline. -/
  due : Nat
  deriving DecidableEq, Repr

namespace Ticker

/-- Nanoseconds in a millisecond. -/
def milli : Nat := 1000000

/-- Nanoseconds in a second. -/
def second : Nat := 1000 * milli

/-- Nanoseconds in an hour. -/
def hour : Nat := 3600 * second

/-- How late a tick may be without skipping deadlines. -/
def grace : Nat := 5 * milli

/-- The time between two requests, at least a nanosecond; none without a limit. -/
def period? (rate : Nat) : Option Nat := if rate = 0 then none else some (max (hour / rate) 1)

/-- A ticker whose first deadline is one period away. -/
def start (period now : Nat) : Ticker := ⟨period, now + period⟩

/-- The ticker of a rate. -/
def ofRate (rate now : Nat) : Option Ticker := (period? rate).map (start · now)

/-- The first whole millisecond at which the deadline is past. -/
def dueMs (t : Ticker) : Nat := (t.due + milli - 1) / milli

/-- The ticker after a tick that returned at `now`. -/
def tick (t : Ticker) (now : Nat) : Ticker :=
  if t.due + grace < now then { t with due := now + t.period - (now - t.due) % t.period }
  else { t with due := t.due + t.period }

/-- The millisecond at which a tick asked for at `nowMs` returns, and the ticker after it. -/
def waitMs (t : Ticker) (nowMs : Nat) : Nat × Ticker :=
  let returned := max nowMs t.dueMs
  (returned, t.tick (returned * milli))

/-- The times at which ticks return, after a pause in milliseconds before each. -/
def schedule : Option Ticker → Nat → List Nat → List Nat
  | _, _, [] => []
  | none, now, pause :: rest => (now + pause) :: schedule none (now + pause) rest
  | some t, now, pause :: rest =>
    let (returned, t) := t.waitMs (now + pause)
    returned :: schedule (some t) returned rest

end Ticker

end Keyload
