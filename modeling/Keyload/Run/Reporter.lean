import Keyload.Rate

/-!
# Interval reports

A reporter closes the interval of the statistics in a fixed period until it is told to stop. A period too
long for the clock breaks it at once.
-/
namespace Keyload

/-- Where a reporter stands. -/
inductive ReporterStage where
  | running
  | ended
  | broken
  deriving DecidableEq, Repr

/-- A reporter, the stop signal it listens to and its pace. -/
structure Reporter where
  signal : Nat
  ticker : Ticker
  stage : ReporterStage
  deriving DecidableEq, Repr

namespace Reporter

/-- The seconds that the clock can hold. -/
def longest : Nat := Nat.pow 2 63

/-- A reporter with a period in seconds. -/
def start (signal secs nowMs : Nat) : Reporter where
  signal
  ticker := Ticker.start (secs * Ticker.second) (nowMs * Ticker.milli)
  stage := if secs < longest then .running else .broken

/-- Whether an interval is over. -/
def isDue (t : Reporter) (nowMs : Nat) : Bool := t.ticker.dueMs ≤ nowMs

/-- Begin the next interval. -/
def tick (t : Reporter) (nowMs : Nat) : Reporter :=
  { t with ticker := t.ticker.tick (nowMs * Ticker.milli) }

/-- When the reporter goes on by itself. -/
def timer? (t : Reporter) : Option Nat :=
  match t.stage with
  | .running => some t.ticker.dueMs
  | _ => none

end Reporter

end Keyload
