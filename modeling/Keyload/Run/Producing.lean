import Keyload.Run.State

/-!
# How producers go on

A producer keeps its pace until it is stopped. Sending ends as soon as the run is stopped or nobody is left
to take operations; otherwise the producer waits for room.
-/
namespace Keyload.Run

variable {σ : Type}

/-- Put a producer in its place. One that has ended leaves the line for room and drops its signal. -/
def placeProducer (r : Run σ) (i : Nat) (p : Producer σ) : Run σ :=
  let r := { r with producers := r.producers.set i p }
  if p.hasEnded then
    { r.onDispatcher p.dispatcher (·.giveUp i) with
      signals := p.signal.elim r.signals r.signals.drop }
  else r

/-- Whether a producer is told to end. -/
def isInterrupted (r : Run σ) (p : Producer σ) : Bool :=
  r.stopped || p.signal.any r.signals.isRaised

variable [RandomSource σ]

/-- A producer tries to send; none while it waits for room. -/
def send (r : Run σ) (i : Nat) (p : Producer σ) (d : Dispatcher) (op : Operation)
    (subtree : Option Cursor) : Option (Run σ) :=
  if r.stopped || !d.isServed then some (r.placeProducer i (p.inStage .ended))
  else if d.admits i then
    some ((r.onDispatcher p.dispatcher (·.accept i op)).placeProducer i (p.proceed subtree))
  else if d.blocked.contains i then none
  else some (r.onDispatcher p.dispatcher (·.enlist i))

/-- The next step of a producer, none while it has to wait. -/
def moveProducer (r : Run σ) (i : Nat) : Option (Run σ) := do
  let p ← r.producers[i]?
  let d ← r.dispatchers[p.dispatcher]?
  match p.stage with
  | .ended => none
  | .broken _ => none
  | .delayed untilMs =>
    if r.isInterrupted p then some (r.placeProducer i (p.inStage .ended))
    else if untilMs ≤ r.nowMs then some (r.placeProducer i (p.wake r.nowMs))
    else none
  | .choosing => p.choose.map (r.placeProducer i)
  | .pacing held =>
    if r.isInterrupted p then some (r.placeProducer i (p.inStage .ended))
    else if p.isDue r.nowMs then some (r.placeProducer i ((p.tick r.nowMs).beginStep held))
    else none
  | .sending op subtree => r.send i p d op subtree

end Keyload.Run
