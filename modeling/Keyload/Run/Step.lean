import Keyload.Run.Conducting
import Keyload.Run.Producing
import Keyload.Run.Watching
import Keyload.Run.Working

/-!
# Steps of a run

One step of a run is a step of one of those who take part, something done to it from outside, or time
passing. The steps say nothing about their order: every order in which they are possible is a run.
-/
namespace Keyload

/-- Who takes part in a run. -/
inductive Participant where
  | main
  | producer (i : Nat)
  | worker (dispatcher i : Nat)
  | watcher (i : Nat)
  | reporter (i : Nat)
  deriving DecidableEq, Repr

/-- What is done to a run from outside. -/
inductive Intervention where
  /-- Somebody else writes a value. -/
  | write (key : String) (value : ByteArray)
  /-- Somebody else carries out an operation. -/
  | execute (op : Operation)
  | failPuts (n : Nat)
  | refuseWatches (n : Nat)
  | cancelWatches
  | interrupt (i : Watch.Interruption)
  /-- The stop token alone. -/
  | cancel
  /-- The stop signals alone. -/
  | fire
  | stop
  | shutDown
  /-- A producer is given an operation to send. -/
  | offer (producer : Nat) (op : Operation)
  /-- A producer takes one step, whatever its pace, and no step after it. -/
  | urge (producer : Nat)
  /-- A producer goes away. -/
  | dismiss (producer : Nat)

/-- A step of a run. -/
inductive Event where
  | turn (p : Participant)
  | outside (i : Intervention)
  | pass (ms : Nat)

namespace Run

variable {σ : Type}

/-- Change the contents of the store. -/
def onMemory (r : Run σ) (f : Memory → Memory) : Run σ :=
  { r with site := { r.site with memory := f r.site.memory } }

variable [RandomSource σ]

/-- Change a producer. -/
def onProducer (r : Run σ) (i : Nat) (f : Producer σ → Producer σ) : Run σ :=
  match r.producers[i]? with
  | some p => r.placeProducer i (f p)
  | none => r

/-- Let something be done from outside. -/
def intervene (r : Run σ) : Intervention → Run σ
  | .write key value => r.onMemory (·.write key value)
  | .execute op => r.onMemory fun m => (m.execute op).2
  | .failPuts n => r.onMemory (·.failPuts n)
  | .refuseWatches n => { r with site := { r.site with refusing := n } }
  | .cancelWatches => r.onMemory (·.cancelWatches)
  | .interrupt i => r.interrupt i
  | .cancel => { r with stopped := true }
  | .fire => { r with signals := r.signals.fire.2 }
  | .stop => r.stopAll
  | .shutDown => { r.stopAll with shutDown := true }
  | .offer i op => r.onProducer i fun p => { p with work := .given [op], stage := .choosing }
  | .urge i => r.onProducer i fun p => { p with allowance := some 1 }.beginStep none
  | .dismiss i => r.onProducer i (·.inStage .ended)

/-- Let time pass. -/
def pass (r : Run σ) (ms : Nat) : Run σ := { r with nowMs := r.nowMs + ms }

/-- The next step of a participant, none while it has to wait. -/
def move (r : Run σ) : Participant → Option (Run σ)
  | .main => r.moveMain
  | .producer i => r.moveProducer i
  | .worker d w => r.moveWorker d w
  | .watcher i => r.moveWatcher i
  | .reporter i => r.moveReporter i

/-- A step, if it is possible. -/
def step (r : Run σ) : Event → Option (Run σ)
  | .turn p => r.move p
  | .outside i => some (r.intervene i)
  | .pass ms => some (r.pass ms)

/-- The states that a run can get into. -/
inductive Reachable (first : Run σ) : Run σ → Prop where
  | refl : Reachable first first
  | step {r next : Run σ} {e : Event} :
      Reachable first r → r.step e = some next → Reachable first next

end Run

end Keyload
