import Keyload.Error

/-!
# Change feeds

A store tells everything that changes to whoever watches. The notices form one history; a watch has a
place in it and reads on from there, but never further back than the last 4096 notices.
-/
namespace Keyload

/-- What a write did to a key. -/
inductive Change where
  | put
  | delete
  deriving DecidableEq, Repr

/-- A change of one key. -/
structure WatchEvent where
  change : Change
  key : String
  /-- The new value, empty after a delete. -/
  value : ByteArray

/-- An entry of the history. -/
inductive Notice where
  | changed (e : WatchEvent)
  /-- All watches opened so far are to be opened again. -/
  | canceled

/-- What a watch yields. -/
inductive WatchUpdate where
  | events (es : List WatchEvent)
  | canceled (reason : String)

/-- An open watch: one key, or all keys that start with it, and its place in the history. -/
structure Watching where
  key : String
  withPrefix : Bool
  place : Nat
  deriving DecidableEq, Repr

/-- The history of a store. -/
abbrev Feed := Array Notice

namespace Feed

/-- The number of notices that a watch can still read. -/
def capacity : Nat := 4096

/-- The reason that a cancelled watch is given. -/
def cancelReason : String := "canceled by store"

/-- Whether a watch covers a key. -/
def covers (w : Watching) (key : String) : Bool :=
  if w.withPrefix then w.key.toList.isPrefixOf key.toList else w.key == key

/-- What a watch makes of a notice. -/
def update? (w : Watching) : Notice → Option WatchUpdate
  | .changed e => if covers w e.key then some (.events [e]) else none
  | .canceled => some (.canceled cancelReason)

/-- Open a watch, which yields what comes from now on. -/
def watch (feed : Feed) (key : String) (withPrefix : Bool) : Watching :=
  ⟨key, withPrefix, feed.size⟩

/-- The place from which a watch reads on. -/
def readable (feed : Feed) (w : Watching) : Nat := max w.place (feed.size - capacity)

/-- The first update among `n` notices from a place on, and the place after it. -/
def find (feed : Feed) (w : Watching) : Nat → Nat → Option WatchUpdate × Nat
  | 0, place => (none, place)
  | n + 1, place =>
    match feed[place]? with
    | none => (none, place)
    | some notice =>
      match update? w notice with
      | some u => (some u, place + 1)
      | none => find feed w n (place + 1)

/-- The next update of a watch, if there is one, and the watch after it. -/
def next (feed : Feed) (w : Watching) : Option WatchUpdate × Watching :=
  let start := feed.readable w
  let (u, place) := feed.find w (feed.size - start) start
  (u, { w with place })

/-- All updates of a watch, and the watch after them. -/
def drain (feed : Feed) (w : Watching) : List WatchUpdate × Watching :=
  ((feed.toList.drop (feed.readable w)).filterMap (update? w), { w with place := feed.size })

end Feed

end Keyload
