import Keyload.Random.Source

/-!
# The seeded source

The generator xoshiro256++, whose four words of state are filled from a 64-bit seed by eight steps of
a permuted linear congruential generator.
-/
namespace Keyload

/-- The state of xoshiro256++. -/
structure Xoshiro where
  s0 : UInt64
  s1 : UInt64
  s2 : UInt64
  s3 : UInt64
  deriving DecidableEq, Repr

namespace Xoshiro

/-- Rotate a 64-bit word to the left. -/
def rotl (x : UInt64) (k : UInt64) : UInt64 := (x <<< k) ||| (x >>> (64 - k))

/-- Rotate a 32-bit word to the right. -/
def rotr (x : UInt32) (k : UInt32) : UInt32 :=
  if k % 32 = 0 then x else (x >>> (k % 32)) ||| (x <<< (32 - k % 32))

/-- One step of the generator. -/
def next (g : Xoshiro) : UInt64 × Xoshiro :=
  let word := rotl (g.s0 + g.s3) 23 + g.s0
  let s2 := g.s2 ^^^ g.s0
  let s3 := g.s3 ^^^ g.s1
  (word, ⟨g.s0 ^^^ s3, g.s1 ^^^ s2, s2 ^^^ (g.s1 <<< 17), rotl s3 45⟩)

instance : RandomSource Xoshiro := ⟨next⟩

/-- One step of the seeding generator: its next state and the 32 bits it yields. -/
def seedStep (state : UInt64) : UInt64 × UInt32 :=
  let state := state * 6364136223846793005 + 11634580027462260723
  let mixed := (((state >>> 18) ^^^ state) >>> 27).toUInt32
  (state, rotr mixed (state >>> 59).toUInt32)

/-- Two seeding steps: the next state and a 64-bit word, low half first. -/
def seedWord (state : UInt64) : UInt64 × UInt64 :=
  let (state, low) := seedStep state
  let (state, high) := seedStep state
  (state, low.toUInt64 ||| (high.toUInt64 <<< 32))

/-- The generator that a seed selects. -/
def ofSeed (seed : UInt64) : Xoshiro :=
  let (state, s0) := seedWord seed
  let (state, s1) := seedWord state
  let (state, s2) := seedWord state
  let (_, s3) := seedWord state
  ⟨s0, s1, s2, s3⟩

/-- The generator of stream `stream` of a seeded run. -/
def ofStream (seed : UInt64) (stream : Nat) : Xoshiro := ofSeed (seed + stream.toUInt64)

end Xoshiro

end Keyload
