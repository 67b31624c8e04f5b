import Keyload.Watch.Stream

/-!
# Watchers

A watcher keeps a watch on one key through one client and counts the events it gets. When the store
cancels the watch, the watcher opens it again; a watch that cannot be opened, fails or ends loses the
watcher.
-/
namespace Keyload.Watch

/-- Where a watcher stands. -/
inductive WatcherStage where
  | opening
  | watching (s : Stream)
  | ended
  deriving DecidableEq, Repr

/-- A watcher. -/
structure Watcher where
  key : String
  withPrefix : Bool
  /-- Its first attempt to open was made. -/
  tried : Bool
  /-- Its first attempt to open succeeded. -/
  established : Bool
  /-- How often it has opened its watch again. -/
  reacquired : Nat
  stage : WatcherStage
  deriving DecidableEq, Repr

/-- What a step of a watcher leads to, beside its own state. -/
inductive WatcherEvent where
  | none
  /-- Events were received. -/
  | received (events : Nat)
  /-- The watcher stopped on its own. -/
  | lost
  deriving DecidableEq, Repr

namespace Watcher

/-- A watcher that has done nothing yet. -/
def fresh (key : String) (withPrefix : Bool) : Watcher :=
  ⟨key, withPrefix, false, false, 0, .opening⟩

/-- Whether a watcher has started and not ended. -/
def isActive (w : Watcher) : Bool := w.tried && w.stage != .ended

/-- Try to open the watch. -/
def attempt (w : Watcher) (s : Site) : Watcher × WatcherEvent × Site :=
  match s.watch w.key w.withPrefix with
  | (.ok watching, s) =>
    ({ w with
        tried := true
        established := w.established || !w.tried
        stage := .watching (Stream.opened watching) }, .none, s)
  | (.error _, s) => ({ w with tried := true, stage := .ended }, .lost, s)

/-- Handle what the watch yields. -/
def handle (w : Watcher) (s : Stream) : Item → Watcher × WatcherEvent
  | .update (.events es) =>
    ({ w with stage := .watching s }, if es.isEmpty then .none else .received es.length)
  | .update (.canceled _) =>
    ({ w with reacquired := w.reacquired + 1, stage := .opening }, .none)
  | .failed _ => ({ w with stage := .ended }, .lost)
  | .ended => ({ w with stage := .ended }, .lost)

/-- The next step, none while there is nothing to do; being stopped comes before anything received. -/
def step (w : Watcher) (stopped : Bool) (s : Site) : Option (Watcher × WatcherEvent × Site) :=
  match w.stage with
  | .ended => none
  | .opening => some (w.attempt s)
  | .watching stream =>
    if stopped then some ({ w with stage := .ended }, .none, s)
    else
      match stream.next s.memory.feed with
      | none => none
      | some (none, stream) => some ({ w with stage := .watching stream }, .none, s)
      | some (some item, stream) =>
        let (w, event) := w.handle stream item
        some (w, event, s)

/-- Let something befall an open watch. -/
def interrupt (w : Watcher) (i : Interruption) : Watcher :=
  match w.stage with
  | .watching s => { w with stage := .watching (s.interrupt i) }
  | _ => w

/-- Whether the watch is open. -/
def isOpen (w : Watcher) : Bool :=
  match w.stage with
  | .watching _ => true
  | _ => false

end Watcher

end Keyload.Watch
