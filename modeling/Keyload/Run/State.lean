import Keyload.Number.Sum
import Keyload.Run.Course
import Keyload.Run.Producer
import Keyload.Run.Reporter
import Keyload.Signals
import Keyload.Stats.Recorder
import Keyload.Store.Pool
import Keyload.Watch.Watcher

/-!
# The state of a run

Everything that takes part in a run: the store and the clients, the dispatchers and the producers that
feed them, the watchers, and the main task if there is one. They share one clock, one stop token and the
stop signals; each of them goes on by steps of its own, in any order.
-/
namespace Keyload

/-- The state of a run whose random numbers come from sources of type `σ`. -/
structure Run (σ : Type) where
  nowMs : Nat
  site : Site
  recorder : Recorder
  clients : List Client
  /-- The run is told to end. -/
  stopped : Bool
  /-- So is everything after it. -/
  shutDown : Bool
  signals : Signals
  dispatchers : List Dispatcher
  producers : List (Producer σ)
  watchers : List Watch.Watcher
  reporters : List Reporter
  course : Option (Course σ)

namespace Run

variable {σ : Type}

/-- A run that nothing takes part in yet but the clients. -/
def start (site : Site) (clients : List Client) (nowMs : Nat) : Run σ where
  nowMs
  site
  recorder := Recorder.zero
  clients
  stopped := false
  shutDown := false
  signals := Signals.empty
  dispatchers := []
  producers := []
  watchers := []
  reporters := []
  course := none

/-- The time in nanoseconds. -/
def nowNs (r : Run σ) : Nat := r.nowMs * Ticker.milli

/-- The number of the dispatcher that is added next. -/
def nextDispatcher (r : Run σ) : Nat := r.dispatchers.length

/-- The number of the producer that is added next. -/
def nextProducer (r : Run σ) : Nat := r.producers.length

/-- Add a dispatcher over clients. -/
def employ (r : Run σ) (name : String) (options : DispatchOptions) (clients : List Nat) : Run σ :=
  { r with dispatchers := r.dispatchers ++ [Dispatcher.start name options clients] }

/-- Add a producer. -/
def assign (r : Run σ) (p : Producer σ) : Run σ := { r with producers := r.producers ++ [p] }

/-- Change a dispatcher. -/
def onDispatcher (r : Run σ) (d : Nat) (f : Dispatcher → Dispatcher) : Run σ :=
  { r with dispatchers := r.dispatchers.modify d f }

/-- Change a client. -/
def setClient (r : Run σ) (i : Nat) (c : Client) : Run σ := { r with clients := r.clients.set i c }

/-- Hand out a stop signal. -/
def subscribe (r : Run σ) : Run σ := { r with signals := r.signals.subscribe }

/-- Whether anybody may still send to a dispatcher. -/
def hasSenders (r : Run σ) (d : Nat) : Bool :=
  r.producers.any fun p => p.dispatcher == d && !p.hasEnded

/-- Tell the run to end: the token first, then every signal. -/
def stopAll (r : Run σ) : Run σ := { r with stopped := true, signals := r.signals.fire.2 }

/-- Add an interval reporter. -/
def addReporter (r : Run σ) (secs : Nat) : Run σ :=
  { r.subscribe with reporters := r.reporters ++ [Reporter.start r.signals.size secs r.nowMs] }

/-- A run of one dispatcher that one producer feeds, whose clients share a connection at first. -/
def ofProducer (site : Site) (clients connection : Nat) (name : String) (options : DispatchOptions)
    (p : Producer σ) : Run σ :=
  let places := List.range clients
  ((start site (places.map fun i => Client.fresh i i connection) 0).employ name options
    places).assign p

/-- A run with a main task. -/
def ofCourse (site : Site) (pool : Pool) (nowMs : Nat) (c : Course σ) : Run σ :=
  { start site pool.clients nowMs with course := some c }

/-- A run of an engine from the time when its pool is connected. -/
def ofEngine (e : Engine) (goal : Goal) (site : Site) (pool : Pool) (nowMs : Nat) : Run Xoshiro :=
  let options := DispatchOptions.ofSettings e.settings.client e.settings.reads
  ofCourse site pool nowMs (Course.start e goal options pool.size nowMs e.stream)

/-- How the main task ended, if there is one and it has. -/
def ending? (r : Run σ) : Option (Outcome RunError Finding) := r.course.bind Course.ending?

/-- How a list of producers ended, in order: one that broke is an error. -/
def producersEnded? (r : Run σ) : List Nat → Option (Except RunError Unit)
  | [] => some (.ok ())
  | i :: rest =>
    match r.producers[i]? with
    | none => producersEnded? r rest
    | some p =>
      if p.fault?.isSome then some (.error .taskFailed)
      else if p.hasEnded then producersEnded? r rest
      else none

/-- How a list of dispatchers ended, once all have: with the first error. -/
def dispatchersJoined? (r : Run σ) : List Nat → Option (Except RunError Unit)
  | [] => some (.ok ())
  | d :: rest => do
    let one ← r.dispatchers[d]?.elim (some (.ok ())) Dispatcher.joined?
    let others ← dispatchersJoined? r rest
    match one with
    | .error e => some (.error e)
    | .ok () => some others

/-- Watchers that have started and not ended. -/
def watchersActive (r : Run σ) : Nat := r.watchers.countP Watch.Watcher.isActive

/-- Watchers whose first attempt to open succeeded. -/
def watchersEstablished (r : Run σ) : Nat := r.watchers.countP Watch.Watcher.established

/-- Watches opened again after the store cancelled them. -/
def watchesReacquired (r : Run σ) : Nat := sumAll (r.watchers.map Watch.Watcher.reacquired)

/-- Whether the sentinel of the main task has its watch open. -/
def sentinelOpen (r : Run σ) : Bool :=
  match r.course.map Course.phase with
  | some (.guarding _ _ s) => s.isOpen
  | _ => false

/-- Open watches. -/
def watchesOpen (r : Run σ) : Nat :=
  r.watchers.countP Watch.Watcher.isOpen + if r.sentinelOpen then 1 else 0

/-- How the watches and their replays ended, once all have. -/
def watchesClosed? (r : Run σ) (c : Course σ) : Option (Except RunError Unit) :=
  if r.watchers.all fun w => w.stage == .ended then do
    match ← r.producersEnded? c.replays with
    | .error e => some (.error e)
    | .ok () => r.dispatchersJoined? c.replayDispatcher.toList
  else none

/-- How everything that the main task started ended, once all of it has. -/
def woundDown? (r : Run σ) (c : Course σ) : Option (Except RunError Unit) := do
  match ← r.producersEnded? (c.activities.map Prod.snd) with
  | .error e => some (.error e)
  | .ok () =>
    let dispatched ← r.dispatchersJoined? (c.activities.map Prod.fst)
    match ← r.watchesClosed? c with
    | .error e => some (.error e)
    | .ok () => some dispatched

end Run

end Keyload
