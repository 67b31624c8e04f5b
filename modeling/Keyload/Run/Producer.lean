import Keyload.Churn.Activity
import Keyload.KeySpace.Bounded
import Keyload.Rate
import Keyload.Watch.Replay

/-!
# Producers

A producer sends operations to a dispatcher, at its own pace: the puts of an initial load, the steps of
an activity, the reads of a replay, or operations it is given one by one. It draws from a random source of
its own.
-/
namespace Keyload

/-- What a producer sends. -/
inductive Work where
  | load (keys : Bounded)
  | activity (a : Churn.Activity)
  | replay (r : Watch.Replay)
  | given (ops : List Operation)
  deriving Repr

/-- Where a producer stands. -/
inductive ProducerStage where
  /-- Has not begun yet. -/
  | delayed (untilMs : Nat)
  /-- Is to choose what comes next. -/
  | choosing
  /-- Keeps its pace before the next step, for which it may hold an operation. -/
  | pacing (held : Option Operation)
  /-- Sends an operation, and after it what is left of a subtree. -/
  | sending (op : Operation) (subtree : Option Cursor)
  | ended
  | broken (f : Fault)
  deriving DecidableEq, Repr

/-- A producer. -/
structure Producer (σ : Type) where
  dispatcher : Nat
  work : Work
  source : σ
  ticker : Option Ticker
  /-- The stop signal that it listens to. -/
  signal : Option Nat
  /-- The steps that it may still take; none for no bound. -/
  allowance : Option Nat
  /-- The steps that it has finished. -/
  steps : Nat
  /-- The operations that were accepted. -/
  sent : Nat
  stage : ProducerStage

namespace Producer

variable {σ : Type}

/-- A producer that starts at once and is not bounded. -/
def start (dispatcher : Nat) (work : Work) (source : σ) (ticker : Option Ticker) : Producer σ where
  dispatcher
  work
  source
  ticker
  signal := none
  allowance := none
  steps := 0
  sent := 0
  stage := .choosing

/-- Whether the producer has ended. -/
def hasEnded (p : Producer σ) : Bool :=
  match p.stage with
  | .ended => true
  | .broken _ => true
  | _ => false

/-- The fault that broke the producer. -/
def fault? (p : Producer σ) : Option Fault :=
  match p.stage with
  | .broken f => some f
  | _ => none

/-- The slots of a producer that churns subtrees. -/
def slots? (p : Producer σ) : Option Churn.Slots :=
  match p.work with
  | .activity a => a.slots?
  | _ => none

/-- Change where the producer stands. -/
def inStage (p : Producer σ) (stage : ProducerStage) : Producer σ := { p with stage }

/-- Finish a step. -/
def finishStep (p : Producer σ) : Producer σ :=
  { p with steps := p.steps + 1, allowance := p.allowance.map (· - 1), stage := .choosing }

/-- Go on with a draw from the producer's own source; a fault breaks it. -/
def drawing {α : Type} (p : Producer σ) (x : Draw σ α) (next : α → Producer σ → Producer σ) :
    Producer σ :=
  match x p.source with
  | .ok (a, source) => next a { p with source }
  | .error f => p.inStage (.broken f)

/-- Whether the pace allows a step at a time. -/
def isDue (p : Producer σ) (nowMs : Nat) : Bool :=
  p.allowance != some 0 && p.ticker.all fun t => t.dueMs ≤ nowMs

/-- Take note of a step that the pace allowed. -/
def tick (p : Producer σ) (nowMs : Nat) : Producer σ :=
  { p with ticker := p.ticker.map (·.tick (nowMs * Ticker.milli)) }

/-- The first step of a replay is one period after its delay. -/
def wake (p : Producer σ) (nowMs : Nat) : Producer σ :=
  match p.work with
  | .replay r =>
    { p with
      ticker := some (Ticker.start (r.intervalMs * Ticker.milli) (nowMs * Ticker.milli))
      stage := .choosing }
  | _ => p.inStage .choosing

/-- When the producer goes on by itself. -/
def timer? (p : Producer σ) : Option Nat :=
  match p.stage with
  | .delayed untilMs => some untilMs
  | .pacing _ => if p.allowance = some 0 then none else p.ticker.map Ticker.dueMs
  | _ => none

variable [RandomSource σ]

/-- Send what is left of a subtree. -/
def build (p : Producer σ) (levels : List Pattern.Level) (subtree : Cursor) : Producer σ :=
  p.drawing (Churn.Activity.draw levels subtree) fun (op, subtree) p =>
    match op with
    | some op => p.inStage (.sending op (some subtree))
    | none => p.finishStep

/-- Choose what comes next; none while nothing is given. -/
def choose (p : Producer σ) : Option (Producer σ) :=
  match p.work with
  | .load keys => some <| p.drawing keys.next fun (entry, keys) p =>
    match entry with
    | some e => { p with work := .load keys, stage := .pacing (some (Churn.Activity.putOf e)) }
    | none => { p with work := .load keys, stage := .ended }
  | .activity _ => some (p.inStage (.pacing none))
  | .replay _ => some (p.inStage (.pacing none))
  | .given [] => none
  | .given (op :: ops) => some { p with work := .given ops, stage := .sending op none }

/-- Begin the step that the pace allowed. -/
def beginStep (p : Producer σ) : Option Operation → Producer σ
  | some op => p.inStage (.sending op none)
  | none =>
    match p.work with
    | .activity a => p.drawing a.next fun (step, a) p =>
      let p := { p with work := .activity a }
      match step with
      | .send op => p.inStage (.sending op none)
      | .build subtree => p.build a.levels subtree
      | .nothing => p.inStage .ended
    | .replay r => p.inStage (.sending r.operation none)
    | _ => p.inStage .choosing

/-- Go on after an operation was accepted. -/
def proceed (p : Producer σ) (subtree : Option Cursor) : Producer σ :=
  let p := { p with sent := p.sent + 1 }
  match subtree, p.work with
  | some c, .activity a => p.build a.levels c
  | _, _ => p.finishStep

end Producer

end Keyload
