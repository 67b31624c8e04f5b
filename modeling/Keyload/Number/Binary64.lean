/-!
# Binary64

Non-negative floating-point numbers of 64 bits, computed exactly: an operation takes the exact result
and rounds it to the nearest number, a tie to the even one. A number is a multiple of 2^-1074, written
as a significand below 2^53 and a power of two.
-/
namespace Keyload

/-- The number `significand * 2^power * 2^-1074`. -/
structure Binary64 where
  significand : Nat
  power : Nat
  deriving DecidableEq, Repr

namespace Binary64

/-- The denominator of every number. -/
def unit : Nat := Nat.pow 2 1074

/-- The nearest natural number to a quotient, a tie to the even one. -/
def nearest (num den : Nat) : Nat :=
  let q := num / den
  let r := num % den
  if 2 * r < den ∨ (2 * r = den ∧ q % 2 = 0) then q else q + 1

/-- The nearest number to a quotient; `den` is not zero. -/
def ofRatio (num den : Nat) : Binary64 :=
  let scaled := num * unit
  let power := (scaled / den).log2 - 52
  let m := nearest scaled (den * Nat.pow 2 power)
  if m = Nat.pow 2 53 then ⟨Nat.pow 2 52, power + 1⟩ else ⟨m, power⟩

/-- The nearest number to a natural number. -/
def ofNat (n : Nat) : Binary64 := ofRatio n 1

/-- Zero. -/
def zero : Binary64 := ⟨0, 0⟩

/-- The number as a multiple of the unit. -/
def scaled (x : Binary64) : Nat := x.significand * Nat.pow 2 x.power

/-- The sum, rounded. -/
def add (x y : Binary64) : Binary64 := ofRatio (x.scaled + y.scaled) unit

/-- The quotient, rounded; zero by zero. -/
def div (x y : Binary64) : Binary64 :=
  if y.scaled = 0 then zero else ofRatio x.scaled y.scaled

/-- Whether a number is at most another. -/
def le (x y : Binary64) : Bool := x.scaled ≤ y.scaled

/-- Too large to be finite. -/
def isInfinite (x : Binary64) : Bool := 2046 ≤ x.power

/-- The 64 bits of the number: an infinity where it is too large. -/
def bits (x : Binary64) : UInt64 :=
  UInt64.ofNat (
    if x.isInfinite then 2047 * Nat.pow 2 52
    else if x.significand < Nat.pow 2 52 then x.significand
    else (x.power + 1) * Nat.pow 2 52 + (x.significand - Nat.pow 2 52))

/-- The seconds of a duration in nanoseconds: whole seconds and their fraction are rounded apart. -/
def seconds (nanos : Nat) : Binary64 :=
  (ofNat (nanos / 1000000000)).add ((ofNat (nanos % 1000000000)).div (ofNat 1000000000))

end Binary64

end Keyload
