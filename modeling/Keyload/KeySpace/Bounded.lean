import Keyload.KeySpace.Cursor

/-!
# Bounded enumeration

The leaf keys of several patterns, one pattern after the other, up to a total. When the patterns end
before the total is reached, another pass starts; a pass that yields nothing ends it, and a total of
zero asks for exactly one pass.
-/
namespace Keyload

/-- A bounded enumeration and how far it has come. -/
structure Bounded where
  patterns : List Pattern
  total : Nat
  emitted : Nat
  emittedInPass : Nat
  /-- The cursor within the current pattern, and that pattern and those after it; none at the end. -/
  place : Option (Cursor × List Pattern)
  deriving Repr

namespace Bounded

/-- An enumeration before its first key. -/
def start (patterns : List Pattern) (total : Nat) : Bounded :=
  ⟨patterns, total, 0, 0, if patterns.isEmpty then none else some (Cursor.start none, patterns)⟩

variable {σ : Type} [RandomSource σ]

/-- The next key of a pass, and the place after it. -/
def scan : Cursor → List Pattern → Draw σ (Option (Entry × Cursor × List Pattern))
  | _, [] => pure none
  | c, p :: ps => do
    match ← c.advance p.levels with
    | (some e, c) => pure (some (e, c, p :: ps))
    | (none, _) => scan (Cursor.start none) ps

/-- The enumeration after a key that was the `nth` of its pass. -/
def emit (b : Bounded) (nth : Nat) (c : Cursor) (ps : List Pattern) : Bounded :=
  { b with emitted := b.emitted + 1, emittedInPass := nth, place := some (c, ps) }

/-- The next key, if there is one, and the enumeration after it. -/
def next (b : Bounded) : Draw σ (Option Entry × Bounded) :=
  if 0 < b.total ∧ b.total ≤ b.emitted then pure (none, b)
  else
    match b.place with
    | none => pure (none, b)
    | some (c, ps) => do
      match ← scan c ps with
      | some (e, c, ps) => pure (some e, b.emit (b.emittedInPass + 1) c ps)
      | none =>
        if b.total = 0 ∨ b.emittedInPass = 0 then pure (none, { b with place := none })
        else
          match ← scan (Cursor.start none) b.patterns with
          | some (e, c, ps) => pure (some e, b.emit 1 c ps)
          | none => pure (none, { b with emittedInPass := 0, place := none })

/-- Add at most `n` keys to those before; also whether the end was met, and the enumeration after them. -/
def take : Nat → Bounded → Array Entry → Draw σ (Array Entry × Bool × Bounded)
  | 0, b, es => pure (es, false, b)
  | n + 1, b, es => do
    match ← b.next with
    | (none, b) => pure (es, true, b)
    | (some e, b) => take n b (es.push e)

end Bounded

end Keyload
