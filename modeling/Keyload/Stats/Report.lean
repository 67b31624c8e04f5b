import Keyload.Log
import Keyload.Number.Places
import Keyload.Stats.Tally

/-!
# Reports

What a view tells over a stretch of time: counts, rates and latencies of every kind of operation, and
the events it is logged as.
-/
namespace Keyload

/-- The counts, rates and latencies of one kind of operation. -/
structure RateSummary where
  calls : Nat
  keys : Nat
  callsPerSec : Binary64
  keysPerSec : Binary64
  meanUs : Binary64
  minUs : Nat
  maxUs : Nat
  bytesPerSec : Binary64
  deriving DecidableEq, Repr

/-- A number a second; zero over no time. -/
def perSecond (n : Nat) (seconds : Binary64) : Binary64 := (Binary64.ofNat n).div seconds

/-- The summary of a tally. -/
def RateSummary.ofTally (t : OpTally) (seconds : Binary64) : RateSummary where
  calls := t.calls
  keys := t.keys
  callsPerSec := perSecond t.calls seconds
  keysPerSec := perSecond t.keys seconds
  meanUs := t.latency.mean
  minUs := t.latency.minUs
  maxUs := t.latency.maxUs
  bytesPerSec := perSecond t.bytes seconds

/-- What a view tells over a stretch of time. -/
structure Report where
  label : String
  elapsedNs : Nat
  /-- The keys the run addresses. -/
  keySpace : Nat
  put : RateSummary
  delete : RateSummary
  get : RateSummary
  prefixGet : RateSummary
  reconnects : Nat
  reconnectMeanUs : Binary64
  reconnectMaxUs : Nat
  errors : Nat
  watchEvents : Nat
  watchEventsPerSec : Binary64
  watchersConfigured : Nat
  watchersActive : Nat
  deriving DecidableEq, Repr

namespace Report

/-- The report of a view. -/
def ofSnapshot (label : String) (s : Snapshot) (elapsedNs keySpace : Nat) : Report :=
  let seconds := Binary64.seconds elapsedNs
  { label, elapsedNs, keySpace
    put := RateSummary.ofTally s.put seconds
    delete := RateSummary.ofTally s.delete seconds
    get := RateSummary.ofTally s.get seconds
    prefixGet := RateSummary.ofTally s.prefixGet seconds
    reconnects := s.reconnect.count
    reconnectMeanUs := s.reconnect.mean
    reconnectMaxUs := s.reconnect.maxUs
    errors := s.errors
    watchEvents := s.watchEvents
    watchEventsPerSec := perSecond s.watchEvents seconds
    watchersConfigured := s.watchersConfigured
    watchersActive := s.watchersActive }

/-- A number of a field. -/
def shown (n : Nat) : String := String.ofList (Radix.decimal n)

/-- The event of one kind of operation, none without calls. -/
def kindEvent (r : Report) (kind : Kind) (s : RateSummary) : List LogEvent :=
  if s.calls = 0 then []
  else
    [⟨.info, [("report", r.label), ("kind", kind.name), ("calls", shown s.calls),
      ("keys", shown s.keys), ("calls_per_sec", s.callsPerSec.toPlaces 2),
      ("keys_per_sec", s.keysPerSec.toPlaces 2), ("mean_us", s.meanUs.toPlaces 1),
      ("min_us", shown s.minUs), ("max_us", shown s.maxUs),
      ("bytes_per_sec", s.bytesPerSec.toPlaces 1)]⟩]

/-- The event of the watchers, a warning when some were lost. -/
def watcherEvent (r : Report) : List LogEvent :=
  let fields := [("report", r.label), ("watchers_active", shown r.watchersActive),
    ("watchers_configured", shown r.watchersConfigured)]
  if r.watchersActive < r.watchersConfigured then
    [⟨.warning, fields ++ [("message", "Watchers lost")]⟩]
  else if 0 < r.watchersConfigured then [⟨.info, fields⟩]
  else []

/-- The events a report is logged as. -/
def log (r : Report) : List LogEvent :=
  [⟨.info, [("report", r.label), ("elapsed_s", (Binary64.seconds r.elapsedNs).toPlaces 2),
    ("key_space", shown r.keySpace), ("errors", shown r.errors),
    ("message", "Workload statistics")]⟩] ++
  r.kindEvent .put r.put ++ r.kindEvent .delete r.delete ++ r.kindEvent .get r.get ++
  r.kindEvent .prefixGet r.prefixGet ++
  (if 0 < r.reconnects then
    [⟨.info, [("report", r.label), ("reconnects", shown r.reconnects),
      ("mean_us", r.reconnectMeanUs.toPlaces 1), ("max_us", shown r.reconnectMaxUs)]⟩]
  else []) ++
  (if 0 < r.watchEvents then
    [⟨.info, [("report", r.label), ("watch_events", shown r.watchEvents),
      ("watch_events_per_sec", r.watchEventsPerSec.toPlaces 2)]⟩]
  else []) ++
  r.watcherEvent

end Report

end Keyload
