import Keyload.Pattern.Builder

/-!
# Settings

Everything a run can be told, section by section, and what holds where nothing is said.
-/
namespace Keyload

namespace Settings

/-- The keys to load. -/
structure Workload where
  patterns : List String
  builderRules : List (String × Pattern.BuilderDefinition)
  /-- Keys to load, zero for the whole key space. -/
  total : Nat
  /-- Puts per hour during the load, zero for no limit. -/
  putRate : Nat
  /-- The keys are there already. -/
  skipInit : Bool
  /-- Lengths of digit runs that replace all values. -/
  valueSpec : Option String
  seed : Option Nat
  deriving DecidableEq, Repr

/-- How an existing key space is changed; rates are per hour, zero for no limit, absent for not at all. -/
structure Churn where
  valueRate : Option Nat
  levelRate : Option Nat
  /-- The level whose subtrees are removed and rebuilt. -/
  level : Nat
  /-- The share of the level's subtrees that a cycle removes. -/
  levelPct : Nat
  deriving DecidableEq, Repr

/-- How a level is read. -/
structure Reads where
  rate : Option Nat
  level : Nat
  serializable : Bool
  keysOnly : Bool
  /-- Count the bytes that reads return. -/
  fullRead : Bool
  deriving DecidableEq, Repr

/-- What is watched. -/
structure Watches where
  /-- Watchers for each level, separated by commas. -/
  countsPerLevel : Option String
  withPrefix : Bool
  sequentialKeys : Bool
  /-- The period in which every watched key is read too, zero for never. -/
  replayMs : Nat
  strictLevels : Bool
  deriving DecidableEq, Repr

/-- How often and how patiently something is tried; times are in milliseconds. -/
structure Retry where
  /-- Attempts before giving up, zero for no limit. -/
  attempts : Nat
  timeoutMs : Nat
  baseDelayMs : Nat
  maxDelayMs : Nat
  deriving DecidableEq, Repr

/-- The clients of the store. -/
structure Client where
  endpoints : List String
  conns : Nat
  clients : Nat
  /-- The limit of one operation, zero for none. -/
  requestTimeoutMs : Nat
  connectTimeoutMs : Nat
  /-- Operations after which a client opens a new connection, zero for never. -/
  reconnectEvery : Nat
  retry : Retry
  deriving DecidableEq, Repr

/-- How a run ends and reports. -/
structure Lifecycle where
  testEndKey : String
  doNotExit : Bool
  doNotExitKey : String
  statsIntervalSecs : Nat
  deriving DecidableEq, Repr

/-- Where measurements are published. -/
structure Monitoring where
  prometheusEnabled : Bool
  prometheusPort : Nat
  deriving DecidableEq, Repr

end Settings

/-- All settings. -/
structure Settings where
  workload : Settings.Workload
  churn : Settings.Churn
  reads : Settings.Reads
  watches : Settings.Watches
  client : Settings.Client
  lifecycle : Settings.Lifecycle
  monitoring : Settings.Monitoring
  deriving DecidableEq, Repr

namespace Settings

/-- What holds where nothing is said. -/
def standard : Settings where
  workload := ⟨[], [], 0, 0, false, none, none⟩
  churn := ⟨none, none, 0, 10⟩
  reads := ⟨none, 0, false, false, true⟩
  watches := ⟨none, false, false, 0, true⟩
  client := ⟨["http://127.0.0.1:2379"], 1, 1, 10000, 5000, 0, ⟨3, 10000, 500, 5000⟩⟩
  lifecycle := ⟨"/prefix/testEnd", false, "/donotexit", 0⟩
  monitoring := ⟨false, 9100⟩

/-- Whether anything goes on after the initial load. -/
def hasSteadyState (s : Settings) : Bool :=
  s.churn.valueRate.isSome || s.churn.levelRate.isSome || s.reads.rate.isSome ||
    s.watches.countsPerLevel.isSome

/-- The keys the initial load puts, zero for one full pass: what follows the load needs all of them. -/
def initialTotal (s : Settings) : Nat := if s.hasSteadyState then 0 else s.workload.total

end Settings

end Keyload
