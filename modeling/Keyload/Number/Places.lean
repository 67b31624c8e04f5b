import Keyload.Number.Binary64
import Keyload.Number.Radix

/-!
# Decimal text of numbers

Two ways to write a binary64 in decimal, both positional: with a fixed number of places, the exact
value rounded and a tie to the even digit; and with the fewest digits that read back as the number.
-/
namespace Keyload.Binary64

/-- A number of places after the point, `places` of them. -/
def withPoint (digits : List Char) (places : Nat) : List Char :=
  let padded := List.replicate (places + 1 - digits.length) '0' ++ digits
  let whole := padded.take (padded.length - places)
  if places = 0 then whole else whole ++ '.' :: padded.drop (padded.length - places)

/-- The text with a fixed number of places. -/
def toPlaces (x : Binary64) (places : Nat) : String :=
  String.ofList (withPoint (Radix.decimal (nearest (x.scaled * Nat.pow 10 places) unit)) places)

/-- Whether a quotient rounds to the number: it lies between the middles to its neighbours. -/
def readsBack (x : Binary64) (num den : Nat) : Bool := ofRatio num den == x

/-- A decimal number: the digits as a natural number, times a power of ten that may be negative. -/
structure Digits where
  digits : Nat
  exponent : Int
  deriving DecidableEq, Repr

namespace Digits

/-- The numerator of the decimal number. -/
def num (d : Digits) : Nat := d.digits * Nat.pow 10 d.exponent.toNat

/-- The denominator of the decimal number. -/
def den (d : Digits) : Nat := Nat.pow 10 (-d.exponent).toNat

/-- The text in positional notation. -/
def text (d : Digits) : String :=
  String.ofList (
    if 0 ≤ d.exponent then Radix.decimal d.num
    else withPoint (Radix.decimal d.digits) (-d.exponent).toNat)

end Digits

/-- The neighbour of the number on the grid of a power of ten that reads back and is nearer. -/
def onGrid? (x : Binary64) (exponent : Int) : Option Digits :=
  let num := x.scaled * Nat.pow 10 (-exponent).toNat
  let den := unit * Nat.pow 10 exponent.toNat
  let near := nearest num den
  let far := if near = num / den then near + 1 else num / den
  let try_ (n : Nat) : Option Digits :=
    let d : Digits := ⟨n, exponent⟩
    if 0 < n && x.readsBack d.num d.den then some d else none
  (try_ near).orElse fun _ => try_ far

/-- The first grid, from coarse to fine, that holds a number that reads back. -/
def shortestFrom (x : Binary64) (exponent : Int) : Nat → Option Digits
  | 0 => none
  | fuel + 1 => (x.onGrid? exponent).orElse fun _ => shortestFrom x (exponent - 1) fuel

/-- The power of ten of the leading digit, or one more. -/
def magnitude (x : Binary64) : Int :=
  if unit ≤ x.scaled then (Radix.decimal (x.scaled / unit)).length
  else -((Radix.decimal (unit / x.scaled)).length - 1 : Int)

/-- The fewest digits that read back as the number. -/
def shortest (x : Binary64) : Digits :=
  if x.scaled = 0 then ⟨0, 0⟩ else (x.shortestFrom x.magnitude 400).getD ⟨0, 0⟩

/-- The text with the fewest digits that read back. -/
def text (x : Binary64) : String :=
  if x.isInfinite then "inf" else x.shortest.text

end Keyload.Binary64
