import Keyload.Error
import Keyload.Log
import Keyload.Pattern.ValueSpec
import Keyload.Settings.Basic
import Keyload.Text.Quoted

/-!
# Checking settings

What settings have to satisfy before a run, section by section. The first fault found is the answer.
-/
namespace Keyload.Settings

/-- A fault unless a condition holds. -/
def require (holds : Bool) (reason : String) : Except RunError Unit :=
  if holds then .ok () else .error (.invalidConfig reason)

/-- A builder rule needs something to take names from, and enough fixed values for its count. -/
def checkBuilder (name : String) (r : Pattern.BuilderDefinition) : Except RunError Unit := do
  require (!r.values.isEmpty || r.pattern.isSome)
    s!"builder rule '{name}' needs either values or a pattern"
  require (r.pattern.isSome || r.count ≤ r.values.length)
    s!"builder rule '{name}' has {r.values.length} values but count {r.count}"

namespace Workload

/-- There is a pattern, none is blank, and rules and value spec are sound. -/
def check (w : Workload) : Except RunError Unit := do
  require (!w.patterns.isEmpty) "workload.patterns must contain at least one pattern"
  match w.patterns.find? fun p => p.toList.all isBlank with
  | some p => .error (.invalidConfig s!"workload.patterns contains an empty pattern '{p}'")
  | none => pure ()
  w.builderRules.forM fun (name, r) => checkBuilder name r
  match w.valueSpec.map Pattern.ValueSpec.read with
  | some (.error e) => .error (.invalidConfig e.message)
  | _ => pure ()

end Workload

/-- A cycle of level churn removes some subtrees and at most all. -/
def Churn.check (c : Churn) : Except RunError Unit :=
  require (c.levelRate.isNone || (0 < c.levelPct && c.levelPct ≤ 100))
    s!"churn.level_pct must be within 1..=100, got {c.levelPct}"

/-- Counts are not blank, and replays are at least a second apart. -/
def Watches.check (w : Watches) : Except RunError Unit := do
  require (w.countsPerLevel.all fun s => !s.toList.all isBlank)
    "watch.counts_per_level cannot be empty"
  require (w.replayMs = 0 || 1000 ≤ w.replayMs)
    s!"watch.prefix_get_interval_ms {w.replayMs} must be at least one second"

/-- An attempt has some time, and delays grow to their bound. -/
def Retry.check (r : Retry) : Except RunError Unit := do
  require (r.timeoutMs != 0) "connect_retry.timeout_ms must be greater than 0"
  require (r.baseDelayMs ≤ r.maxDelayMs)
    s!"connect_retry.base_delay_ms ({r.baseDelayMs}) cannot exceed max_delay_ms ({r.maxDelayMs})"

/-- There is a client, and no connection without one. -/
def Client.check (c : Client) : Except RunError Unit := do
  require (!c.endpoints.isEmpty) "client.endpoints cannot be empty"
  require (c.conns != 0 && c.clients != 0)
    s!"client.conns ({c.conns}) and client.clients ({c.clients}) must be greater than 0"
  require (c.conns ≤ c.clients)
    s!"client.conns ({c.conns}) cannot exceed client.clients ({c.clients})"
  require (c.connectTimeoutMs != 0) "client.connect_timeout_ms must be greater than 0"
  c.retry.check

/-- The keys that end a run have names. -/
def Lifecycle.check (l : Lifecycle) : Except RunError Unit := do
  require (!l.testEndKey.isEmpty) "run.test_end_key cannot be empty"
  require (!l.doNotExit || !l.doNotExitKey.isEmpty) "run.do_not_exit_key cannot be empty"

/-- Measurements are published at an unprivileged port; a port without a use is only remarked on. -/
def Monitoring.check (m : Monitoring) : Except RunError (List LogEvent) := do
  if m.prometheusEnabled then
    require (m.prometheusPort != 0) "prometheus_port cannot be 0 when enabled"
    require (1024 ≤ m.prometheusPort)
      s!"prometheus_port {m.prometheusPort} is a privileged port (requires root)"
    pure []
  else if m.prometheusPort = standard.monitoring.prometheusPort then pure []
  else
    pure [⟨.warning, [("message",
      s!"prometheus_port configured to {m.prometheusPort} but monitoring is disabled")]⟩]

/-- Check all sections; the events to log on success. -/
def check (s : Settings) : Except RunError (List LogEvent) := do
  s.workload.check
  s.churn.check
  s.watches.check
  s.client.check
  s.lifecycle.check
  s.monitoring.check

/-- Texts between brackets. -/
def quotedList (ss : List String) : String := "[" ++ ", ".intercalate (ss.map Text.quoted) ++ "]"

/-- A short text of settings for a log. -/
def summary (s : Settings) : String :=
  "WorkloadConfig \x7b patterns: " ++ quotedList s.workload.patterns ++ ", endpoints: " ++
    quotedList s.client.endpoints ++ " \x7d"

end Keyload.Settings
