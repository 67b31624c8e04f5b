/-!
# Stop signals

Every producer that runs for long holds a signal of its own; a run fires all of them together. A
signal whose holder is gone stays on the list but no longer counts.
-/
namespace Keyload

/-- A signal: whether its holder still listens, and whether it fired since the holder last looked. -/
structure Signal where
  listening : Bool
  raised : Bool
  deriving DecidableEq, Repr

/-- All signals handed out, oldest first. -/
structure Signals where
  list : List Signal
  deriving DecidableEq, Repr

namespace Signals

/-- No signals. -/
def empty : Signals := ⟨[]⟩

/-- The number of signals handed out. -/
def size (s : Signals) : Nat := s.list.length

/-- Hand out a signal; its number is the size before. -/
def subscribe (s : Signals) : Signals := ⟨s.list ++ [⟨true, false⟩]⟩

/-- The holder of a signal goes away. -/
def drop (s : Signals) (i : Nat) : Signals := ⟨s.list.modify i fun x => { x with listening := false }⟩

/-- Raise every signal; also how many still had a holder. -/
def fire (s : Signals) : Nat × Signals :=
  (s.list.countP Signal.listening,
    ⟨s.list.map fun x => if x.listening then { x with raised := true } else x⟩)

/-- Whether a signal fired since its holder last looked. -/
def isRaised (s : Signals) (i : Nat) : Bool := s.list[i]?.any Signal.raised

/-- Whether a signal fired since its holder last looked; none once the holder is gone. -/
def look (s : Signals) (i : Nat) : Option Bool × Signals :=
  match s.list[i]? with
  | some x =>
    if x.listening then (some x.raised, ⟨s.list.modify i fun x => { x with raised := false }⟩)
    else (none, s)
  | none => (none, s)

end Signals

end Keyload
