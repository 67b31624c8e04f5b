import Keyload.Churn.Activity
import Keyload.Run.Dispatcher
import Keyload.Run.Engine
import Keyload.Run.Sentinel
import Keyload.Run.Split
import Keyload.Stats.Report
import Keyload.Watch.Plan

/-!
# Courses

The course of a run: what its main task is to do and how far it has come. A whole run loads the keys,
opens the watches, starts the activities, waits for the end of the test, winds everything down and
reports. The parts of a run that random numbers belong to take their streams in this order.
-/
namespace Keyload

/-- What a main task is to do. -/
inductive Goal where
  /-- Load the keys, keep the store busy and report. -/
  | workload
  /-- Load keys, a number of times. -/
  | loads (times total : Nat)
  /-- Wait for the end of the test. -/
  | testEnd
  /-- Open the watches. -/
  | watches
  deriving DecidableEq, Repr

/-- What comes of it. -/
inductive Finding where
  /-- The report on the load, the report on what followed, and whether the end of the test was seen. -/
  | reports (ramp summary : Option Report) (testEndSeen : Bool)
  /-- The puts of each load. -/
  | loaded (sent : List Nat)
  | waited (seen : Bool)
  | watching
  deriving DecidableEq, Repr

/-- What a main task waits for. -/
inductive Wait where
  | testEnd
  | keepAlive
  deriving DecidableEq, Repr

/-- The activities that are defined and not started yet. -/
structure Prepared where
  value : Option Churn.ValueChurn
  level : Option Churn.LevelChurn
  reads : Option Churn.LevelRead
  split : ClientSplit

/-- Where a main task stands. -/
inductive Phase (σ : Type) where
  | beginning
  | loading (dispatcher producer : Nat)
  /-- The watches are being opened, with clients and a random source of their own. -/
  | opening (p : Prepared) (targets : List Watch.Target) (clients : List Nat) (source : σ)
  /-- Connects to wait for a key. -/
  | dialing (w : Wait) (untilMs : Nat) (r : Reaction)
  /-- Waits for a key on a connection of its own. -/
  | guarding (w : Wait) (connection : Nat) (s : Sentinel)
  /-- Waits for everything to wind down, knowing how the wait for the end of the test ended. -/
  | finishing (waited : Except StoreError Bool)
  | ended (result : Except RunError Finding)
  | crashed (f : Fault)

/-- The course of a run. -/
structure Course (σ : Type) where
  engine : Engine
  goal : Goal
  options : DispatchOptions
  /-- The places of the clients that the run uses. -/
  pool : List Nat
  /-- The random streams and the number of the next one. -/
  streams : Nat → σ
  nextStream : Nat
  startedMs : Nat
  /-- When the load was over. -/
  steadyMs : Nat
  /-- The puts of the loads so far. -/
  loaded : List Nat
  ramp : Option Report
  summary : Option Report
  testEndSeen : Bool
  /-- The dispatcher and the producer of each activity. -/
  activities : List (Nat × Nat)
  /-- The producers that read watched keys, and their dispatcher. -/
  replays : List Nat
  replayDispatcher : Option Nat
  phase : Phase σ

namespace Course

variable {σ : Type}

/-- A course at its beginning. -/
def start (engine : Engine) (goal : Goal) (options : DispatchOptions) (clients nowMs : Nat)
    (streams : Nat → σ) : Course σ where
  engine
  goal
  options
  pool := List.range clients
  streams
  nextStream := 1
  startedMs := nowMs
  steadyMs := nowMs
  loaded := []
  ramp := none
  summary := none
  testEndSeen := false
  activities := []
  replays := []
  replayDispatcher := none
  phase := .beginning

/-- The settings of the run. -/
def settings (c : Course σ) : Settings := c.engine.settings

/-- Take the next random stream. -/
def takeStream (c : Course σ) : σ × Course σ :=
  (c.streams c.nextStream, { c with nextStream := c.nextStream + 1 })

/-- How the main task ended, if it has. -/
def ending? (c : Course σ) : Option (Outcome RunError Finding) :=
  match c.phase with
  | .ended r => some (ExceptT.mk (.ok r))
  | .crashed f => some (Outcome.stop f)
  | _ => none

/-- Whether the main task has ended. -/
def isOver (c : Course σ) : Bool := c.ending?.isSome

/-- When the main task goes on by itself. -/
def timer? (c : Course σ) : Option Nat :=
  match c.phase with
  | .dialing _ untilMs _ => some untilMs
  | .guarding _ _ s => s.timer?
  | _ => none

/-- The clients of a range. -/
def clientsOf (c : Course σ) (range : ClientRange) : Except Fault (List Nat) :=
  if range.first ≤ range.stop ∧ range.stop ≤ c.pool.length then
    .ok ((c.pool.drop range.first).take (range.stop - range.first))
  else .error .outOfRange

/-- The activities that the settings ask for, all defined before any is started. -/
def defineActivities (c : Course σ) : Outcome DefinitionError Prepared := do
  let s := c.settings
  let ks := c.engine.keySpace
  let value ← s.churn.valueRate.mapM fun _ => Churn.ValueChurn.new ks
  let level ← s.churn.levelRate.mapM fun _ => Churn.LevelChurn.new ks s.churn.level s.churn.levelPct
  let reads ← s.reads.rate.mapM fun _ => Churn.LevelRead.new ks s.reads
  let active : ActiveSet :=
    ⟨reads.isSome, value.isSome, level.isSome, s.watches.countsPerLevel.isSome⟩
  pure ⟨value, level, reads, ClientSplit.plan c.pool.length active⟩

variable [RandomSource σ]

/-- The keys to watch with these clients, none if no watches are asked for. -/
def planWatches (c : Course σ) (clients : List Nat) :
    ExceptT RunError (Draw σ) (List Watch.Target) := do
  let w := c.settings.watches
  match w.countsPerLevel with
  | none => pure []
  | some spec =>
    match Watch.Counts.read spec w.strictLevels with
    | .error e => throw (.definition e)
    | .ok (counts, _) =>
      let plan ← (Watch.Plan.build c.engine.keySpace counts w.sequentialKeys).adapt .definition
      if plan.targets.isEmpty then pure []
      else if clients.isEmpty then throw (.invalidConfig "watches need at least one client")
      else pure plan.targets

end Course

end Keyload
