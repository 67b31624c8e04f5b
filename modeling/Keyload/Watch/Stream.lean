import Keyload.Store.Site

/-!
# Watch streams

An open watch as its reader sees it: updates from the store's feed, and whatever befalls the connection
under it.
-/
namespace Keyload.Watch

/-- What can befall an open watch. -/
inductive Interruption where
  | failed (e : StoreError)
  | ended
  /-- An update without events arrives. -/
  | quiet
  deriving DecidableEq, Repr

/-- An open watch and what has befallen it unread. -/
structure Stream where
  watching : Watching
  pending : List Interruption
  deriving DecidableEq, Repr

/-- What the reader of a watch gets. -/
inductive Item where
  | update (u : WatchUpdate)
  | failed (e : StoreError)
  | ended

namespace Stream

/-- A watch that was just opened. -/
def opened (w : Watching) : Stream := ⟨w, []⟩

/-- Let something befall a watch. -/
def interrupt (s : Stream) (i : Interruption) : Stream := { s with pending := s.pending ++ [i] }

/-- What an interruption looks like to the reader. -/
def itemOf : Interruption → Item
  | .failed e => .failed e
  | .ended => .ended
  | .quiet => .update (.events [])

/-- Read on: the next item, if it comes before the end of the feed, and the stream after it; none if
there is nothing to read. -/
def next (s : Stream) (feed : Feed) : Option (Option Item × Stream) :=
  match s.pending with
  | i :: rest => some (some (itemOf i), { s with pending := rest })
  | [] =>
    if s.watching.place < feed.size then
      let (u, watching) := feed.next s.watching
      some (u.map .update, { s with watching })
    else none

end Stream

end Keyload.Watch
