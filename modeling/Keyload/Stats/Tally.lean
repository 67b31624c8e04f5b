import Keyload.Fault
import Keyload.Number.Binary64
import Keyload.Store.Operation

/-!
# Tallies

What is counted of a run: calls, keys, bytes and latencies of every kind of operation, reconnects,
errors and watch events. Everything is counted in two views at once, one over the lifetime of a run and
one that an interval report takes and clears. Latencies are in nanoseconds and counted in whole
microseconds.
-/
namespace Keyload

/-- The latencies of some calls, in microseconds. -/
structure Latency where
  count : Nat
  totalUs : Nat
  minUs : Nat
  maxUs : Nat
  deriving DecidableEq, Repr

namespace Latency

/-- No calls. -/
def zero : Latency := ⟨0, 0, 0, 0⟩

/-- A latency in whole microseconds, cut to a word. -/
def micros (nanos : Nat) : Nat := nanos / 1000 % Word.limit

/-- Count one more call. -/
def record (l : Latency) (nanos : Nat) : Except Fault Latency := do
  let us := micros nanos
  let total ← Word.add l.totalUs us
  pure {
    count := l.count + 1
    totalUs := total
    minUs := if l.count = 0 ∨ us < l.minUs then us else l.minUs
    maxUs := max l.maxUs us }

/-- The mean, zero without calls. -/
def mean (l : Latency) : Binary64 :=
  if l.count = 0 then Binary64.zero else (Binary64.ofNat l.totalUs).div (Binary64.ofNat l.count)

end Latency

/-- The operations of one kind; the calls are those of the latency. -/
structure OpTally where
  latency : Latency
  keys : Nat
  bytes : Nat
  deriving DecidableEq, Repr

namespace OpTally

/-- No operations. -/
def zero : OpTally := ⟨Latency.zero, 0, 0⟩

/-- The number of calls. -/
def calls (t : OpTally) : Nat := t.latency.count

/-- Count one more operation. -/
def record (t : OpTally) (nanos keys bytes : Nat) : Except Fault OpTally := do
  pure ⟨← t.latency.record nanos, ← Word.add t.keys keys, ← Word.add t.bytes bytes⟩

end OpTally

/-- Everything counted in one view. -/
structure Snapshot where
  put : OpTally
  delete : OpTally
  get : OpTally
  prefixGet : OpTally
  reconnect : Latency
  errors : Nat
  watchEvents : Nat
  /-- Watchers planned. -/
  watchersConfigured : Nat
  /-- Watchers planned that were not lost. -/
  watchersActive : Nat
  deriving DecidableEq, Repr

namespace Snapshot

/-- Nothing counted. -/
def zero : Snapshot :=
  ⟨OpTally.zero, OpTally.zero, OpTally.zero, OpTally.zero, Latency.zero, 0, 0, 0, 0⟩

/-- The calls of all kinds. -/
def operations (s : Snapshot) : Nat :=
  s.put.calls + s.delete.calls + s.get.calls + s.prefixGet.calls

end Snapshot

/-- A quantity in both views. -/
structure Views (α : Type) where
  lifetime : α
  interval : α
  deriving DecidableEq, Repr

namespace Views

/-- The same in both views. -/
def both {α : Type} (a : α) : Views α := ⟨a, a⟩

/-- Change both views. -/
def update {α : Type} (v : Views α) (f : α → Except Fault α) : Except Fault (Views α) := do
  pure ⟨← f v.lifetime, ← f v.interval⟩

/-- Add to a counter that starts over beyond the largest word. -/
def count (v : Views Nat) (n : Nat) : Views Nat :=
  ⟨(v.lifetime + n) % Word.limit, (v.interval + n) % Word.limit⟩

/-- Clear the interval. -/
def clear {α : Type} (v : Views α) (zero : α) : Views α := ⟨v.lifetime, zero⟩

end Views

/-- The first and the last time of a watch event. -/
structure WatchWindow where
  first : Nat
  last : Nat
  deriving DecidableEq, Repr

/-- Everything counted. -/
structure Tally where
  put : Views OpTally
  delete : Views OpTally
  get : Views OpTally
  prefixGet : Views OpTally
  reconnect : Views Latency
  errors : Views Nat
  watchEvents : Views Nat
  window : Option WatchWindow
  watchersConfigured : Nat
  watchersLost : Nat
  deriving DecidableEq, Repr

namespace Tally

/-- Nothing counted. -/
def zero : Tally where
  put := Views.both OpTally.zero
  delete := Views.both OpTally.zero
  get := Views.both OpTally.zero
  prefixGet := Views.both OpTally.zero
  reconnect := Views.both Latency.zero
  errors := Views.both 0
  watchEvents := Views.both 0
  window := none
  watchersConfigured := 0
  watchersLost := 0

/-- Count an operation of a kind. -/
def record (t : Tally) (kind : Kind) (nanos keys bytes : Nat) : Except Fault Tally := do
  match kind with
  | .put => pure { t with put := ← t.put.update (·.record nanos keys bytes) }
  | .delete => pure { t with delete := ← t.delete.update (·.record nanos keys bytes) }
  | .get => pure { t with get := ← t.get.update (·.record nanos keys bytes) }
  | .prefixGet => pure { t with prefixGet := ← t.prefixGet.update (·.record nanos keys bytes) }

/-- Count a reconnect. -/
def recordReconnect (t : Tally) (nanos : Nat) : Except Fault Tally := do
  pure { t with reconnect := ← t.reconnect.update (·.record nanos) }

/-- Count an error. -/
def recordError (t : Tally) : Tally := { t with errors := t.errors.count 1 }

/-- Count watch events that came at a time. -/
def recordWatchEvents (t : Tally) (now events : Nat) : Tally :=
  { t with
    watchEvents := t.watchEvents.count events
    window := some (match t.window with
      | some w => { w with last := now }
      | none => ⟨now, now⟩) }

/-- Start counting for a new plan of watchers. -/
def setWatchers (t : Tally) (n : Nat) : Tally :=
  { t with watchersConfigured := n, watchersLost := 0 }

/-- A watcher stopped before the end of the run. -/
def loseWatcher (t : Tally) : Tally := { t with watchersLost := t.watchersLost + 1 }

/-- Watchers planned that were not lost. -/
def watchersActive (t : Tally) : Nat := t.watchersConfigured - t.watchersLost

/-- Watch events a second between the first and the last, times being in milliseconds. -/
def throughput (t : Tally) : Binary64 :=
  match t.window with
  | some w =>
    if w.first < w.last then
      (Binary64.ofNat t.watchEvents.lifetime).div (Binary64.seconds ((w.last - w.first) * 1000000))
    else Binary64.zero
  | none => Binary64.zero

/-- The view over the lifetime. -/
def snapshot (t : Tally) : Snapshot where
  put := t.put.lifetime
  delete := t.delete.lifetime
  get := t.get.lifetime
  prefixGet := t.prefixGet.lifetime
  reconnect := t.reconnect.lifetime
  errors := t.errors.lifetime
  watchEvents := t.watchEvents.lifetime
  watchersConfigured := t.watchersConfigured
  watchersActive := t.watchersActive

/-- The view over the interval. -/
def intervalSnapshot (t : Tally) : Snapshot where
  put := t.put.interval
  delete := t.delete.interval
  get := t.get.interval
  prefixGet := t.prefixGet.interval
  reconnect := t.reconnect.interval
  errors := t.errors.interval
  watchEvents := t.watchEvents.interval
  watchersConfigured := t.watchersConfigured
  watchersActive := t.watchersActive

/-- Start a new interval. -/
def resetInterval (t : Tally) : Tally :=
  { t with
    put := t.put.clear OpTally.zero
    delete := t.delete.clear OpTally.zero
    get := t.get.clear OpTally.zero
    prefixGet := t.prefixGet.clear OpTally.zero
    reconnect := t.reconnect.clear Latency.zero
    errors := t.errors.clear 0
    watchEvents := t.watchEvents.clear 0 }

/-- The view over the interval, and a new interval. -/
def takeInterval (t : Tally) : Snapshot × Tally := (t.intervalSnapshot, t.resetInterval)

end Tally

end Keyload
