import Keyload.Settings.Basic
import Keyload.Settings.Value

/-!
# Writing settings as values

All settings as a table of sections, under the names they are read by.
-/
namespace Keyload.Settings

namespace Value

/-- A word. -/
def ofNat (n : Nat) : Value := whole n

/-- A value that may be absent. -/
def ofOption {α : Type} (write : α → Value) : Option α → Value
  | none => absent
  | some x => write x

/-- A list of texts. -/
def ofTexts (ss : List String) : Value := list (ss.map text)

end Value

open Value

/-- A builder rule. -/
def writeBuilder (r : Pattern.BuilderDefinition) : Value := .table [
  ("values", ofTexts r.values), ("pattern", ofOption .text r.pattern),
  ("count", ofNat r.count), ("max", ofNat r.max)]

/-- All settings. -/
def write (s : Settings) : List (String × Value) := [
  ("workload", .table [
    ("patterns", ofTexts s.workload.patterns),
    ("builder_rules", .table (s.workload.builderRules.map fun (n, r) => (n, writeBuilder r))),
    ("total", ofNat s.workload.total),
    ("put_rate", ofNat s.workload.putRate),
    ("skip_init", .truth s.workload.skipInit),
    ("value_spec", ofOption .text s.workload.valueSpec),
    ("seed", ofOption ofNat s.workload.seed)]),
  ("churn", .table [
    ("value_rate", ofOption ofNat s.churn.valueRate),
    ("level_rate", ofOption ofNat s.churn.levelRate),
    ("level", ofNat s.churn.level),
    ("level_pct", ofNat s.churn.levelPct)]),
  ("get", .table [
    ("rate", ofOption ofNat s.reads.rate),
    ("level", ofNat s.reads.level),
    ("serializable", .truth s.reads.serializable),
    ("keys_only", .truth s.reads.keysOnly),
    ("full_read", .truth s.reads.fullRead)]),
  ("watch", .table [
    ("counts_per_level", ofOption .text s.watches.countsPerLevel),
    ("with_prefix", .truth s.watches.withPrefix),
    ("sequential_keys", .truth s.watches.sequentialKeys),
    ("prefix_get_interval_ms", ofNat s.watches.replayMs),
    ("strict_levels", .truth s.watches.strictLevels)]),
  ("client", .table [
    ("endpoints", ofTexts s.client.endpoints),
    ("conns", ofNat s.client.conns),
    ("clients", ofNat s.client.clients),
    ("request_timeout_ms", ofNat s.client.requestTimeoutMs),
    ("connect_timeout_ms", ofNat s.client.connectTimeoutMs),
    ("reconnect_every", ofNat s.client.reconnectEvery),
    ("connect_retry", .table [
      ("max_retries", ofNat s.client.retry.attempts),
      ("timeout_ms", ofNat s.client.retry.timeoutMs),
      ("base_delay_ms", ofNat s.client.retry.baseDelayMs),
      ("max_delay_ms", ofNat s.client.retry.maxDelayMs)])]),
  ("run", .table [
    ("test_end_key", .text s.lifecycle.testEndKey),
    ("do_not_exit", .truth s.lifecycle.doNotExit),
    ("do_not_exit_key", .text s.lifecycle.doNotExitKey),
    ("stats_interval_secs", ofNat s.lifecycle.statsIntervalSecs)]),
  ("monitoring", .table [
    ("prometheus_enabled", .truth s.monitoring.prometheusEnabled),
    ("prometheus_port", ofNat s.monitoring.prometheusPort)])]

end Keyload.Settings
