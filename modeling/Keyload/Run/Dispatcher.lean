import Keyload.Error
import Keyload.Settings.Basic
import Keyload.Store.Site

/-!
# Dispatchers

A dispatcher carries operations from producers to workers through a queue of limited room. Workers stand
in line for the next operation, producers for room; both lines are served in order. A worker uses one
client and carries out one operation at a time.
-/
namespace Keyload

/-- How operations are carried out. -/
structure DispatchOptions where
  /-- The limit of one operation. -/
  timeoutMs : Option Nat
  /-- Uses of a client before its connection is renewed, zero for never. -/
  reconnectEvery : Nat
  /-- Count the bytes that reads return. -/
  fullRead : Bool
  deriving DecidableEq, Repr

namespace DispatchOptions

/-- No limit, no renewal, all bytes counted. -/
def plain : DispatchOptions := ⟨none, 0, true⟩

/-- The options that settings ask for. -/
def ofSettings (client : Settings.Client) (reads : Settings.Reads) : DispatchOptions :=
  ⟨if client.requestTimeoutMs = 0 then none else some client.requestTimeoutMs,
    client.reconnectEvery, reads.fullRead⟩

end DispatchOptions

/-- Where a worker stands. -/
inductive WorkerStage where
  /-- In line for the next operation. -/
  | waiting
  /-- Has an operation and needs its client. -/
  | claiming (op : Operation)
  /-- Renews the connection of its client. -/
  | renewing (op : Operation) (sinceMs untilMs : Nat) (r : Reaction)
  /-- Carries out its operation. -/
  | executing (op : Operation) (sinceMs untilMs : Nat) (r : Reaction)
  | ended (failure : Option RunError)
  deriving DecidableEq, Repr

/-- A worker and the place of its client among those of the run. -/
structure Worker where
  client : Nat
  stage : WorkerStage
  deriving DecidableEq, Repr

namespace Worker

/-- Whether the worker has ended. -/
def hasEnded (w : Worker) : Bool :=
  match w.stage with
  | .ended _ => true
  | _ => false

/-- What the worker failed with. -/
def failure? (w : Worker) : Option RunError :=
  match w.stage with
  | .ended e => e
  | _ => none

end Worker

/-- A dispatcher. -/
structure Dispatcher where
  name : String
  options : DispatchOptions
  capacity : Nat
  /-- The operations accepted and not taken yet, oldest first. -/
  queue : List Operation
  /-- The workers in line for the next operation. -/
  turns : List Nat
  /-- The producers in line for room. -/
  blocked : List Nat
  workers : List Worker
  deriving DecidableEq, Repr

namespace Dispatcher

/-- A dispatcher with a worker for each of these clients. -/
def start (name : String) (options : DispatchOptions) (clients : List Nat) : Dispatcher where
  name
  options
  capacity := max clients.length 1
  queue := []
  turns := List.range clients.length
  blocked := []
  workers := clients.map fun c => ⟨c, .waiting⟩

/-- Whether somebody is left to take operations. -/
def isServed (d : Dispatcher) : Bool := d.workers.any fun w => !w.hasEnded

/-- Whether a producer may put an operation into the queue now. -/
def admits (d : Dispatcher) (producer : Nat) : Bool :=
  d.queue.length < d.capacity && (d.blocked.isEmpty || d.blocked.head? == some producer)

/-- Put an operation into the queue. -/
def accept (d : Dispatcher) (producer : Nat) (op : Operation) : Dispatcher :=
  { d with queue := d.queue ++ [op], blocked := d.blocked.erase producer }

/-- Get in line for room. -/
def enlist (d : Dispatcher) (producer : Nat) : Dispatcher :=
  { d with blocked := d.blocked ++ [producer] }

/-- Leave the line for room. -/
def giveUp (d : Dispatcher) (producer : Nat) : Dispatcher :=
  { d with blocked := d.blocked.erase producer }

/-- Change where a worker stands. -/
def place (d : Dispatcher) (w : Nat) (stage : WorkerStage) : Dispatcher :=
  { d with workers := d.workers.modify w fun x => { x with stage } }

/-- Give the oldest operation to the worker whose turn it is. -/
def take (d : Dispatcher) (w : Nat) : Option Dispatcher :=
  if d.turns.head? = some w then
    match d.queue with
    | op :: queue => some ({ d with queue, turns := d.turns.tail }.place w (.claiming op))
    | [] => none
  else none

/-- A worker gets in line for its next operation. -/
def rejoin (d : Dispatcher) (w : Nat) : Dispatcher :=
  { d with turns := d.turns ++ [w] }.place w .waiting

/-- A worker ends. -/
def retire (d : Dispatcher) (w : Nat) (failure : Option RunError) : Dispatcher :=
  { d with turns := d.turns.erase w }.place w (.ended failure)

/-- How the dispatcher ended, if all of its workers have: with the failure of the first that failed. -/
def joined? (d : Dispatcher) : Option (Except RunError Unit) :=
  if d.isServed then none
  else
    match d.workers.findSome? Worker.failure? with
    | some e => some (.error e)
    | none => some (.ok ())

end Dispatcher

end Keyload
