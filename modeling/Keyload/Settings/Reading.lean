import Keyload.Fault
import Keyload.Number.Radix
import Keyload.Settings.Basic
import Keyload.Settings.Value

/-!
# Reading settings from values

How a value is understood where a setting of some kind is wanted, section by section. A setting that is
not mentioned keeps its default, an unknown one is ignored, and a list in place of a section gives the
settings in order. What cannot be understood is refused.
-/
namespace Keyload.Settings

namespace Value

/-- Words that stand for truth values. -/
def wordTruth? (s : String) : Option Bool :=
  let s := Text.lower s
  if s = "true" ∨ s = "on" ∨ s = "yes" then some true
  else if s = "false" ∨ s = "off" ∨ s = "no" then some false
  else none

/-- The decimal text of an integer. -/
def wholeText (i : Int) : String :=
  (if i < 0 then "-" else "") ++ String.ofList (Radix.decimal i.natAbs)

/-- A number below `bound`. -/
def asNat? (bound : Nat) (v : Value) : Option Nat :=
  let n? :=
    match v with
    | truth b => some b.toNat
    | whole i => if 0 ≤ i ∧ i < (Word.limit : Int) then some i.toNat else none
    | real x => some x.toWord
    | text s =>
      match wordTruth? s with
      | some b => some b.toNat
      | none => Decimal.word? s.toList
    | _ => none
  n?.filter (· < bound)

/-- A 64-bit word. -/
def asWord? (v : Value) : Option Nat := v.asNat? Word.limit

/-- A truth value; a number is true unless it is zero. -/
def asTruth? : Value → Option Bool
  | truth b => some b
  | whole i => some (i != 0)
  | real x => some !x.isZero
  | text "1" => some true
  | text "0" => some false
  | text s => wordTruth? s
  | _ => none

/-- A text; numbers and truth values as they are printed. -/
def asText? : Value → Option String
  | truth b => some (if b then "true" else "false")
  | whole i => some (wholeText i)
  | real x => some x.text
  | text s => some s
  | _ => none

/-- A list of texts. -/
def asTexts? : Value → Option (List String)
  | list items => items.mapM asText?
  | _ => none

/-- A setting that may be absent. -/
def asOption? {α : Type} (read : Value → Option α) : Value → Option (Option α)
  | absent => some none
  | v => (read v).map some

end Value

/-- The settings of a section by name. -/
abbrev Section := List (String × Value)

namespace Section

/-- The section a value gives, its settings named in order. -/
def ofValue? (names : List String) : Value → Option Section
  | .table es => some es
  | .list items => some (names.zip items)
  | _ => none

/-- A setting, or its default when it is not mentioned. -/
def get {α : Type} (s : Section) (name : String) (read : Value → Option α) (default : α) :
    Option α :=
  match s.lookup name with
  | some v => read v
  | none => some default

end Section

open Value

/-- A builder rule. -/
def readBuilder? (v : Value) : Option Pattern.BuilderDefinition := do
  let s ← Section.ofValue? ["values", "pattern", "count", "max"] v
  let values ← s.get "values" asTexts? []
  let pattern ← s.get "pattern" (asOption? asText?) none
  let count ← s.get "count" asWord? 1
  let max ← s.get "max" asWord? 0
  pure ⟨values, pattern, count, max⟩

/-- Builder rules by name. -/
def readBuilders? : Value → Option (List (String × Pattern.BuilderDefinition))
  | .table es => es.mapM fun (name, v) => (readBuilder? v).map (name, ·)
  | _ => none

/-- The keys to load. -/
def readWorkload? (d : Workload) (v : Value) : Option Workload := do
  let s ← Section.ofValue?
    ["patterns", "builder_rules", "total", "put_rate", "skip_init", "value_spec", "seed"] v
  let patterns ← s.get "patterns" asTexts? d.patterns
  let builderRules ← s.get "builder_rules" readBuilders? d.builderRules
  let total ← s.get "total" asWord? d.total
  let putRate ← s.get "put_rate" asWord? d.putRate
  let skipInit ← s.get "skip_init" asTruth? d.skipInit
  let valueSpec ← s.get "value_spec" (asOption? asText?) d.valueSpec
  let seed ← s.get "seed" (asOption? asWord?) d.seed
  pure ⟨patterns, builderRules, total, putRate, skipInit, valueSpec, seed⟩

/-- How the key space is changed. -/
def readChurn? (d : Churn) (v : Value) : Option Churn := do
  let s ← Section.ofValue? ["value_rate", "level_rate", "level", "level_pct"] v
  let valueRate ← s.get "value_rate" (asOption? asWord?) d.valueRate
  let levelRate ← s.get "level_rate" (asOption? asWord?) d.levelRate
  let level ← s.get "level" asWord? d.level
  let levelPct ← s.get "level_pct" (asNat? Word.halfLimit) d.levelPct
  pure ⟨valueRate, levelRate, level, levelPct⟩

/-- How a level is read. -/
def readReads? (d : Reads) (v : Value) : Option Reads := do
  let s ← Section.ofValue? ["rate", "level", "serializable", "keys_only", "full_read"] v
  let rate ← s.get "rate" (asOption? asWord?) d.rate
  let level ← s.get "level" asWord? d.level
  let serializable ← s.get "serializable" asTruth? d.serializable
  let keysOnly ← s.get "keys_only" asTruth? d.keysOnly
  let fullRead ← s.get "full_read" asTruth? d.fullRead
  pure ⟨rate, level, serializable, keysOnly, fullRead⟩

/-- What is watched. -/
def readWatches? (d : Watches) (v : Value) : Option Watches := do
  let s ← Section.ofValue? ["counts_per_level", "with_prefix", "sequential_keys",
    "prefix_get_interval_ms", "strict_levels"] v
  let counts ← s.get "counts_per_level" (asOption? asText?) d.countsPerLevel
  let withPrefix ← s.get "with_prefix" asTruth? d.withPrefix
  let sequential ← s.get "sequential_keys" asTruth? d.sequentialKeys
  let replayMs ← s.get "prefix_get_interval_ms" asWord? d.replayMs
  let strict ← s.get "strict_levels" asTruth? d.strictLevels
  pure ⟨counts, withPrefix, sequential, replayMs, strict⟩

/-- How patiently the first connections are tried. -/
def readRetries? (d : Retry) (v : Value) : Option Retry := do
  let s ← Section.ofValue? ["max_retries", "timeout_ms", "base_delay_ms", "max_delay_ms"] v
  let attempts ← s.get "max_retries" asWord? d.attempts
  let timeoutMs ← s.get "timeout_ms" asWord? d.timeoutMs
  let baseDelayMs ← s.get "base_delay_ms" asWord? d.baseDelayMs
  let maxDelayMs ← s.get "max_delay_ms" asWord? d.maxDelayMs
  pure ⟨attempts, timeoutMs, baseDelayMs, maxDelayMs⟩

/-- The clients of the store. -/
def readClient? (d : Client) (v : Value) : Option Client := do
  let s ← Section.ofValue? ["endpoints", "conns", "clients", "request_timeout_ms",
    "connect_timeout_ms", "reconnect_every", "connect_retry"] v
  let endpoints ← s.get "endpoints" asTexts? d.endpoints
  let conns ← s.get "conns" asWord? d.conns
  let clients ← s.get "clients" asWord? d.clients
  let requestTimeoutMs ← s.get "request_timeout_ms" asWord? d.requestTimeoutMs
  let connectTimeoutMs ← s.get "connect_timeout_ms" asWord? d.connectTimeoutMs
  let reconnectEvery ← s.get "reconnect_every" asWord? d.reconnectEvery
  let retry ← s.get "connect_retry" (readRetries? d.retry) d.retry
  pure ⟨endpoints, conns, clients, requestTimeoutMs, connectTimeoutMs, reconnectEvery, retry⟩

/-- How a run ends and reports. -/
def readLifecycle? (d : Lifecycle) (v : Value) : Option Lifecycle := do
  let s ← Section.ofValue?
    ["test_end_key", "do_not_exit", "do_not_exit_key", "stats_interval_secs"] v
  let testEndKey ← s.get "test_end_key" asText? d.testEndKey
  let doNotExit ← s.get "do_not_exit" asTruth? d.doNotExit
  let doNotExitKey ← s.get "do_not_exit_key" asText? d.doNotExitKey
  let statsIntervalSecs ← s.get "stats_interval_secs" asWord? d.statsIntervalSecs
  pure ⟨testEndKey, doNotExit, doNotExitKey, statsIntervalSecs⟩

/-- Where measurements are published. -/
def readMonitoring? (d : Monitoring) (v : Value) : Option Monitoring := do
  let s ← Section.ofValue? ["prometheus_enabled", "prometheus_port"] v
  let enabled ← s.get "prometheus_enabled" asTruth? d.prometheusEnabled
  let port ← s.get "prometheus_port" (asNat? 65536) d.prometheusPort
  pure ⟨enabled, port⟩

/-- All settings from a table of sections. -/
def read? (s : Section) : Option Settings := do
  let d := standard
  let workload ← s.get "workload" (readWorkload? d.workload) d.workload
  let churn ← s.get "churn" (readChurn? d.churn) d.churn
  let reads ← s.get "get" (readReads? d.reads) d.reads
  let watches ← s.get "watch" (readWatches? d.watches) d.watches
  let client ← s.get "client" (readClient? d.client) d.client
  let lifecycle ← s.get "run" (readLifecycle? d.lifecycle) d.lifecycle
  let monitoring ← s.get "monitoring" (readMonitoring? d.monitoring) d.monitoring
  pure ⟨workload, churn, reads, watches, client, lifecycle, monitoring⟩

end Keyload.Settings
