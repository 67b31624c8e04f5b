import Keyload.Fault

/-!
# Random sources

Everything random is drawn from a caller's source, a state that yields 64-bit words one after
another. Theorems quantify over every source; a seeded run uses `Keyload.Random.Xoshiro`.
-/
namespace Keyload

/-- A random source: a state that yields one 64-bit word and the next state. -/
class RandomSource (σ : Type) where
  /-- The next word and the state after it. -/
  next : σ → UInt64 × σ

/-- A computation that draws from a source and may stop with a fault. -/
abbrev Draw (σ : Type) := StateT σ (Except Fault)

namespace Draw

variable {σ : Type}

/-- Stop with a fault. -/
def stop {α : Type} (f : Fault) : Draw σ α := fun _ => .error f

/-- A computation that draws nothing. -/
def lift {α : Type} (x : Except Fault α) : Draw σ α := fun s => x.map (·, s)

/-- Draw one 64-bit word. -/
def word [RandomSource σ] : Draw σ Nat := fun s =>
  let (w, s') := RandomSource.next s
  .ok (w.toNat, s')

/-- Draw one 32-bit word: the upper half of a 64-bit word. -/
def halfWord [RandomSource σ] : Draw σ Nat := fun s =>
  let (w, s') := RandomSource.next s
  .ok (w.toNat / Word.halfLimit, s')

/-- Run `x` a number of times and collect the results. -/
def times {α : Type} (x : Draw σ α) : Nat → Draw σ (List α)
  | 0 => pure []
  | n + 1 => do
    let a ← x
    let rest ← times x n
    pure (a :: rest)

end Draw

end Keyload
