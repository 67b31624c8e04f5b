import Keyload.Store.Memory

/-!
# The site of a store

Where the requests of a run arrive: a store with its contents, how long it takes and where it fails, and
a record of what reached it. Taking time is left to whoever asks: a request has a begin and an end, and
it touches the contents only at its end, so a request that is given up before leaves no trace there.
-/
namespace Keyload

/-- How a request is answered: after a delay, and by a failure or as it should. -/
structure Reaction where
  delayMs : Nat
  failure : Option StoreError
  deriving DecidableEq, Repr

/-- At once and as it should. -/
def Reaction.prompt : Reaction := ⟨0, none⟩

/-- How a store answers, request by request; requests of a sort are numbered from zero. -/
structure Behavior where
  operation : Nat → Operation → Reaction
  connection : Nat → Reaction

/-- A store that never delays or fails. -/
def Behavior.prompt : Behavior := ⟨fun _ _ => Reaction.prompt, fun _ => Reaction.prompt⟩

/-- What happened to a connection. -/
inductive ConnectionEvent where
  /-- A connection to an endpoint was opened and given a number. -/
  | opened (endpoint id : Nat)
  /-- A connection to an endpoint was refused. -/
  | refused (endpoint : Nat)
  | closed (id : Nat)
  deriving DecidableEq, Repr

/-- An operation that was begun: when, by a worker of which dispatcher, on which connection. -/
structure Begun where
  atMs : Nat
  dispatcher : Nat
  connection : Nat
  operation : Operation
  deriving DecidableEq, Repr

/-- The site of a store. -/
structure Site where
  behavior : Behavior
  memory : Memory
  /-- Attempts to connect so far. -/
  attempts : Nat
  /-- Connections opened so far; the number of the next one. -/
  issued : Nat
  /-- Watches still to be refused. -/
  refusing : Nat
  /-- The operations begun, in order. -/
  begun : Array Begun
  /-- What happened to connections, in order. -/
  history : Array ConnectionEvent

namespace Site

/-- A site that nothing has reached. -/
def fresh (behavior : Behavior) (memory : Memory) : Site := ⟨behavior, memory, 0, 0, 0, #[], #[]⟩

/-- Begin to connect. -/
def beginConnect (s : Site) : Reaction × Site :=
  (s.behavior.connection s.attempts, { s with attempts := s.attempts + 1 })

/-- End an attempt to connect to an endpoint: the number of the connection, or why it failed. -/
def endConnect (s : Site) (endpoint : Nat) (r : Reaction) : Except StoreError Nat × Site :=
  match r.failure with
  | some e => (.error e, { s with history := s.history.push (.refused endpoint) })
  | none =>
    (.ok s.issued,
      { s with issued := s.issued + 1, history := s.history.push (.opened endpoint s.issued) })

/-- Close a connection. -/
def close (s : Site) (id : Nat) : Site := { s with history := s.history.push (.closed id) }

/-- Begin an operation. -/
def beginOperation (s : Site) (nowMs dispatcher connection : Nat) (op : Operation) :
    Reaction × Site :=
  (s.behavior.operation s.begun.size op,
    { s with begun := s.begun.push ⟨nowMs, dispatcher, connection, op⟩ })

/-- End an operation: only now it reaches the contents. -/
def endOperation (s : Site) (op : Operation) (r : Reaction) : Except StoreError Answer × Site :=
  match r.failure with
  | some e => (.error e, s)
  | none =>
    let (result, memory) := s.memory.execute op
    (result, { s with memory })

/-- Open a watch. -/
def watch (s : Site) (key : String) (withPrefix : Bool) : Except StoreError Watching × Site :=
  if 0 < s.refusing then (.error (.watchCanceled key), { s with refusing := s.refusing - 1 })
  else (.ok (s.memory.watch key withPrefix), s)

end Site

end Keyload
