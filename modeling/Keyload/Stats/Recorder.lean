import Keyload.Stats.Metrics
import Keyload.Stats.Tally

/-!
# Recording

Where every observation goes: into the tallies of the run and into the metrics. Starting the tallies
over leaves the metrics as they are.
-/
namespace Keyload

/-- The tallies and the metrics. -/
structure Recorder where
  tally : Tally
  metrics : Metrics
  deriving DecidableEq, Repr

namespace Recorder

/-- Nothing recorded. -/
def zero : Recorder := ⟨Tally.zero, Metrics.zero⟩

/-- Record an operation that succeeded. -/
def operation (r : Recorder) (kind : Kind) (nanos keys bytes : Nat) : Except Fault Recorder := do
  pure ⟨← r.tally.record kind nanos keys bytes, r.metrics.observe kind nanos bytes⟩

/-- Record a put. -/
def put (r : Recorder) (nanos bytes : Nat) : Except Fault Recorder :=
  r.operation .put nanos 1 bytes

/-- Record a delete. -/
def delete (r : Recorder) (nanos deleted : Nat) : Except Fault Recorder :=
  r.operation .delete nanos deleted 0

/-- Record a read. -/
def get (r : Recorder) (below : Bool) (nanos count bytes : Nat) : Except Fault Recorder :=
  r.operation (if below then .prefixGet else .get) nanos count bytes

/-- Record what a store answered; bytes of reads only if they are wanted. -/
def answer (r : Recorder) (a : Answer) (nanos : Nat) (fullRead : Bool) : Except Fault Recorder :=
  match a with
  | .put bytes => r.put nanos bytes
  | .delete deleted => r.delete nanos deleted
  | .get below count bytes => r.get below nanos count (if fullRead then bytes else 0)

/-- Record a reconnect. -/
def reconnect (r : Recorder) (nanos : Nat) : Except Fault Recorder := do
  pure ⟨← r.tally.recordReconnect nanos, r.metrics.observeReconnect⟩

/-- Record a failed operation. -/
def error (r : Recorder) (kind : String) : Recorder :=
  ⟨r.tally.recordError, r.metrics.observeError kind⟩

/-- Record watch events. -/
def watchEvents (r : Recorder) (now events : Nat) : Recorder :=
  ⟨r.tally.recordWatchEvents now events, r.metrics.observeWatchEvents events⟩

/-- Change the tallies alone. -/
def onTally (r : Recorder) (f : Tally → Tally) : Recorder := { r with tally := f r.tally }

/-- Start the tallies over. -/
def reset (r : Recorder) : Recorder := r.onTally fun _ => Tally.zero

end Recorder

end Keyload
