import Keyload.Run.State

/-!
# How watchers and reporters go on

A watcher that ends before the run is stopped is counted as lost.
-/
namespace Keyload.Run

variable {σ : Type}

/-- Take note of what a watcher did. -/
def noteWatcher (r : Run σ) : Watch.WatcherEvent → Run σ
  | .none => r
  | .received n => { r with recorder := r.recorder.watchEvents r.nowMs n }
  | .lost => if r.stopped then r else { r with recorder := r.recorder.onTally (·.loseWatcher) }

/-- The next step of a watcher, none while there is nothing to do. -/
def moveWatcher (r : Run σ) (i : Nat) : Option (Run σ) := do
  let w ← r.watchers[i]?
  let (w, event, site) ← w.step r.stopped r.site
  some ({ r with site, watchers := r.watchers.set i w }.noteWatcher event)

/-- The next step of a reporter, none while it has to wait. -/
def moveReporter (r : Run σ) (i : Nat) : Option (Run σ) := do
  let t ← r.reporters[i]?
  match t.stage with
  | .running =>
    if r.signals.isRaised t.signal then
      some { r with
        reporters := r.reporters.set i { t with stage := .ended }
        signals := r.signals.drop t.signal }
    else if t.isDue r.nowMs then
      some { r with
        reporters := r.reporters.set i (t.tick r.nowMs)
        recorder := r.recorder.onTally (·.takeInterval.2) }
    else none
  | _ => none

/-- Let something befall every open watch. -/
def interrupt (r : Run σ) (x : Watch.Interruption) : Run σ :=
  { r with
    watchers := r.watchers.map (·.interrupt x)
    course := r.course.map fun c =>
      match c.phase with
      | .guarding wait id s => { c with phase := .guarding wait id (s.interrupt x) }
      | _ => c }

end Keyload.Run
