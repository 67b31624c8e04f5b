import Keyload.Watch.Stream

/-!
# Sentinels

A sentinel waits until a key is given the value `true`. A watch that the store cancels is opened again at
once, one that fails or ends after a pause; only a watch that cannot be opened is an error. Being stopped
is looked at before anything else, but not during the pause.
-/
namespace Keyload

/-- Where a sentinel stands. -/
inductive SentinelStage where
  | opening
  | watching (s : Watch.Stream)
  | pausing (untilMs : Nat)
  /-- The value was seen, or not before the sentinel was stopped. -/
  | settled (seen : Bool)
  | failed (e : StoreError)
  deriving DecidableEq, Repr

/-- A sentinel on a key. -/
structure Sentinel where
  key : String
  stage : SentinelStage
  deriving DecidableEq, Repr

namespace Sentinel

/-- The value that is waited for. -/
def awaited : ByteArray := "true".toUTF8

/-- The pause before a watch is opened again. -/
def pauseMs : Nat := 1000

/-- A sentinel before its watch is opened. -/
def on (key : String) : Sentinel := ⟨key, .opening⟩

/-- Whether an event gives the awaited value. -/
def isAwaited (e : WatchEvent) : Bool := e.change == .put && e.value == awaited

/-- Where an item of the watch leads, or reading on without one. -/
def after (nowMs : Nat) (s : Watch.Stream) : Option Watch.Item → SentinelStage
  | none => .watching s
  | some (.update (.events es)) => if es.any isAwaited then .settled true else .watching s
  | some (.update (.canceled _)) => .opening
  | some (.failed _) => .pausing (nowMs + pauseMs)
  | some .ended => .pausing (nowMs + pauseMs)

/-- The next step, none while there is nothing to do. -/
def step (t : Sentinel) (stopped : Bool) (nowMs : Nat) (s : Site) : Option (Sentinel × Site) :=
  match t.stage with
  | .opening =>
    if stopped then some ({ t with stage := .settled false }, s)
    else
      match s.watch t.key false with
      | (.ok w, s) => some ({ t with stage := .watching (Watch.Stream.opened w) }, s)
      | (.error e, s) => some ({ t with stage := .failed e }, s)
  | .watching stream =>
    if stopped then some ({ t with stage := .settled false }, s)
    else (stream.next s.memory.feed).map fun (item, stream) =>
      ({ t with stage := after nowMs stream item }, s)
  | .pausing untilMs => if untilMs ≤ nowMs then some ({ t with stage := .opening }, s) else none
  | .settled _ => none
  | .failed _ => none

/-- How the wait ended, if it has. -/
def outcome? (t : Sentinel) : Option (Except StoreError Bool) :=
  match t.stage with
  | .settled seen => some (.ok seen)
  | .failed e => some (.error e)
  | _ => none

/-- When the sentinel goes on by itself. -/
def timer? (t : Sentinel) : Option Nat :=
  match t.stage with
  | .pausing untilMs => some untilMs
  | _ => none

/-- Let something befall an open watch. -/
def interrupt (t : Sentinel) (i : Watch.Interruption) : Sentinel :=
  match t.stage with
  | .watching s => { t with stage := .watching (s.interrupt i) }
  | _ => t

/-- Whether the watch is open. -/
def isOpen (t : Sentinel) : Bool :=
  match t.stage with
  | .watching _ => true
  | _ => false

end Sentinel

end Keyload
