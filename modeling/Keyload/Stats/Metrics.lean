import Keyload.Number.Places
import Keyload.Fault
import Keyload.Store.Operation

/-!
# Metrics

Counters and latency histograms that only ever grow, and their text exposition: families by name, the
samples of a family by label. A labelled family appears once it has a sample.
-/
namespace Keyload

/-- A histogram of latencies in microseconds. -/
structure Histogram where
  /-- Observations in each bucket, the last one without bound. -/
  buckets : List Nat
  sum : Binary64
  count : Nat
  deriving DecidableEq, Repr

namespace Histogram

/-- The upper bounds of the buckets. -/
def bounds : List Nat := (List.range 20).map fun i => 10 * Nat.pow 2 i

/-- No observations. -/
def zero : Histogram := ⟨List.replicate 21 0, Binary64.zero, 0⟩

/-- The bucket of a latency: the first whose bound is not below it. -/
def bucketOf (us : Binary64) : Nat := bounds.findIdx fun bound => us.le (Binary64.ofNat bound)

/-- Add a latency. -/
def observe (h : Histogram) (us : Binary64) : Histogram :=
  ⟨h.buckets.modify (bucketOf us) (· + 1), h.sum.add us, h.count + 1⟩

end Histogram

/-- The measurements of one kind of operation. -/
structure KindMetrics where
  latency : Histogram
  operations : Nat
  /-- Absent until an operation has moved any bytes. -/
  bytes : Option Nat
  deriving DecidableEq, Repr

/-- All measurements; labelled ones in the order of their first sample. -/
structure Metrics where
  kinds : List (Kind × KindMetrics)
  errors : List (String × Nat)
  reconnects : Nat
  watchEvents : Nat
  activeWatchers : Nat
  deriving DecidableEq, Repr

namespace Metrics

/-- Nothing measured. -/
def zero : Metrics := ⟨[], [], 0, 0, 0⟩

/-- Change the entry of a label, which is new if it has none. -/
def upsert {κ α : Type} [DecidableEq κ] (key : κ) (fresh : α) (f : α → α) :
    List (κ × α) → List (κ × α)
  | [] => [(key, f fresh)]
  | (k, a) :: rest => if k = key then (k, f a) :: rest else (k, a) :: upsert key fresh f rest

/-- Measure an operation. -/
def observe (m : Metrics) (kind : Kind) (nanos bytes : Nat) : Metrics :=
  { m with kinds := upsert kind ⟨Histogram.zero, 0, none⟩ (fun k => {
      latency := k.latency.observe (Binary64.ofNat (nanos / 1000))
      operations := k.operations + 1
      bytes :=
        if 0 < bytes then some ((k.bytes.getD 0 + bytes) % Word.limit) else k.bytes }) m.kinds }

/-- Measure an error. -/
def observeError (m : Metrics) (kind : String) : Metrics :=
  { m with errors := upsert kind 0 (· + 1) m.errors }

/-- Measure a reconnect. -/
def observeReconnect (m : Metrics) : Metrics := { m with reconnects := m.reconnects + 1 }

/-- Measure watch events. -/
def observeWatchEvents (m : Metrics) (n : Nat) : Metrics :=
  { m with watchEvents := (m.watchEvents + n) % Word.limit }

/-! ## Exposition -/

/-- A number as it is exposed. -/
def number (n : Nat) : String := (Binary64.ofNat n).text

/-- A label's value, with what could end it escaped. -/
def escape (label : String) : String :=
  String.ofList (label.toList.flatMap fun c =>
    if c = '\\' then ['\\', '\\']
    else if c = '"' then ['\\', '"']
    else if c = '\n' then ['\\', 'n']
    else [c])

/-- A line of a sample: its name, its labels, its value. -/
def sample (name : String) (labels : List (String × String)) (value : String) : String :=
  let pairs := labels.map fun (k, v) => k ++ "=\"" ++ escape v ++ "\""
  let shown := if pairs.isEmpty then "" else "\x7b" ++ String.intercalate "," pairs ++ "\x7d"
  name ++ shown ++ " " ++ value ++ "\n"

/-- A family: its name, what it is, its type and its samples; without samples it does not appear. -/
def family (name help type : String) (samples : List String) : String :=
  if samples.isEmpty then ""
  else s!"# HELP {name} {help}\n# TYPE {name} {type}\n" ++ String.join samples

/-- Entries by label. -/
def sorted {α : Type} (entries : List (String × α)) : List (String × α) :=
  entries.mergeSort fun a b => a.1 ≤ b.1

/-- The lines of the buckets, each with all observations up to its bound. -/
def bucketLines (name kind : String) : Nat → List (Nat × Nat) → List String
  | _, [] => []
  | before, (bound, n) :: rest =>
    sample (name ++ "_bucket") [("kind", kind), ("le", number bound)] (number (before + n)) ::
      bucketLines name kind (before + n) rest

/-- The lines of a histogram. -/
def histogramLines (name kind : String) (h : Histogram) : List String :=
  bucketLines name kind 0 (Histogram.bounds.zip h.buckets) ++
    [sample (name ++ "_bucket") [("kind", kind), ("le", "+Inf")] (number h.count),
      sample (name ++ "_sum") [("kind", kind)] h.sum.text,
      sample (name ++ "_count") [("kind", kind)] (number h.count)]

/-- The lines of a counter, one for each label. -/
def counterLines (name : String) (entries : List (String × Nat)) : List String :=
  (sorted entries).map fun (kind, n) => sample name [("kind", kind)] (number n)

/-- The text of all measurements. -/
def expose (m : Metrics) : String :=
  let kinds := m.kinds.map fun (k, v) => (k.name, v)
  let latency := "workload_operation_latency_us"
  String.join [
    family "workload_active_watchers" "Watch subscriptions currently receiving" "gauge"
      [sample "workload_active_watchers" [] (number m.activeWatchers)],
    family "workload_errors_total" "Failed store operations" "counter"
      (counterLines "workload_errors_total" m.errors),
    family "workload_operation_bytes_total" "Key and value bytes written or read" "counter"
      (counterLines "workload_operation_bytes_total"
        (kinds.filterMap fun (k, v) => v.bytes.map fun n => (k, n))),
    family latency "Histogram of store operation latency in microseconds" "histogram"
      ((sorted kinds).flatMap fun (k, v) => histogramLines latency k v.latency),
    family "workload_operations_total" "Successful store operations" "counter"
      (counterLines "workload_operations_total" (kinds.map fun (k, v) => (k, v.operations))),
    family "workload_reconnects_total" "Client reconnects after their use budget" "counter"
      [sample "workload_reconnects_total" [] (number m.reconnects)],
    family "workload_watch_events_total" "Watch events received" "counter"
      [sample "workload_watch_events_total" [] (number m.watchEvents)]]

end Metrics

end Keyload
