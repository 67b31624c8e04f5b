import Keyload.Run.Step

/-!
# Schedules

One order of steps among the possible ones. Each participant in its turn goes on until it has to wait;
when all of them wait, time passes to the next moment at which one goes on by itself. Every loop is bounded by a
patience, which a run that ends does not use up.
-/
namespace Keyload.Run

variable {σ : Type}

/-- All participants in their order: whoever gives work comes before whoever does it. -/
def participants (r : Run σ) : List Participant :=
  [.main] ++ (List.range r.producers.length).map .producer ++
  (List.range r.dispatchers.length).flatMap (fun d =>
    (List.range ((r.dispatchers[d]?.map fun x => x.workers.length).getD 0)).map (.worker d)) ++
  (List.range r.watchers.length).map .watcher ++
  (List.range r.reporters.length).map .reporter

/-- The moments at which participants go on by themselves. -/
def timers (r : Run σ) : List Nat :=
  (r.course.bind Course.timer?).toList ++
  r.producers.filterMap Producer.timer? ++
  r.dispatchers.flatMap (fun d => d.workers.filterMap (workerTimer? d.options)) ++
  r.reporters.filterMap Reporter.timer?

/-- The next moment at which a participant goes on by itself. -/
def nextTimer? (r : Run σ) : Option Nat := (r.timers.filter (r.nowMs < ·)).min?

/-- Go to a moment. -/
def goTo (r : Run σ) (ms : Nat) : Run σ := r.pass (ms - r.nowMs)

variable [RandomSource σ]

/-- Let a participant go on until it has to wait or the run is to halt; also whether it did go on. -/
def drive (halt : Run σ → Bool) (p : Participant) : Nat → Run σ → Bool × Run σ
  | 0, r => (false, r)
  | patience + 1, r =>
    if halt r then (false, r)
    else
      match r.move p with
      | none => (false, r)
      | some r => (true, (drive halt p patience r).2)

/-- Give every participant its turn; also whether any went on. -/
def sweep (halt : Run σ → Bool) (patience : Nat) : List Participant → Run σ → Bool × Run σ
  | [], r => (false, r)
  | p :: rest, r =>
    let (went, r) := drive halt p patience r
    let (others, r) := sweep halt patience rest r
    (went || others, r)

/-- Let everything go on that can while time stands still. -/
def settle (halt : Run σ → Bool) (patience : Nat) : Nat → Run σ → Run σ
  | 0, r => r
  | sweeps + 1, r =>
    let (went, r) := sweep halt patience r.participants r
    if went then settle halt patience sweeps r else r

/-- Let everything go on until the run halts, or up to a time, or until nothing goes on any more. -/
def proceed (halt : Run σ → Bool) (patience : Nat) (limitMs : Option Nat) :
    Nat → Run σ → Run σ
  | 0, r => r
  | moments + 1, r =>
    let r := r.settle halt patience patience
    if halt r then r
    else
      match r.nextTimer? with
      | some ms =>
        if limitMs.all (ms ≤ ·) then proceed halt patience limitMs moments (r.goTo ms)
        else r.goTo (limitMs.getD r.nowMs)
      | none => r.goTo (limitMs.getD r.nowMs)

/-- More steps than any run takes that is bounded at all. -/
def patience : Nat := 1000000000

/-- Whether the main task has ended. -/
def isOver (r : Run σ) : Bool := r.ending?.isSome

/-- Let everything go on that can while time stands still. -/
def rest (r : Run σ) : Run σ := r.settle (fun _ => false) patience patience

/-- Let everything go on up to a time or until something holds. -/
def runUntil (r : Run σ) (goal : Run σ → Bool) (limitMs : Nat) : Run σ :=
  r.proceed goal patience (some limitMs) patience

/-- Let everything go on until something holds or nothing goes on any more. -/
def seek (r : Run σ) (goal : Run σ → Bool) : Run σ := r.proceed goal patience none patience

end Keyload.Run
