import Keyload.Number.Decimal
import Keyload.Number.Places

/-!
# Floating-point numbers in text

Signed numbers of 64 bits with infinities and an undefined number: reading them, writing them with the
fewest digits, and rounding them to a word.
-/
namespace Keyload

/-- A floating-point number. -/
inductive Floating where
  | finite (negative : Bool) (size : Binary64)
  | infinite (negative : Bool)
  | undefined
  deriving DecidableEq, Repr

namespace Floating

/-- The number nearest to `digits * 10 ^ exponent`. Beyond 400 places the exact value is not needed. -/
def ofDecimal (negative : Bool) (digits : Nat) (exponent : Int) : Floating :=
  let magnitude : Int := (Radix.decimal digits).length + exponent
  if digits = 0 ∨ magnitude < -400 then .finite negative Binary64.zero
  else if 400 < magnitude then .infinite negative
  else
    let x := Binary64.ofRatio (digits * Nat.pow 10 exponent.toNat) (Nat.pow 10 (-exponent).toNat)
    if x.isInfinite then .infinite negative else .finite negative x

/-- A sign, if there is one, and what follows it. -/
def cutSign : List Char → Bool × List Char
  | '-' :: rest => (true, rest)
  | '+' :: rest => (false, rest)
  | cs => (false, cs)

/-- An exponent: a sign, if there is one, and digits. -/
def readExponent? (cs : List Char) : Option Int :=
  match cutSign cs with
  | (_, []) => none
  | (negative, ds) => (Decimal.spell? 0 ds).map fun n => if negative then -(n : Int) else n

/-- Digits around a point that may be missing, at least one of them, and an exponent after `e` that may
be missing too. -/
def readUnsigned? (negative : Bool) (cs : List Char) : Option Floating :=
  let isDigit := fun c => (Decimal.digit? c).isSome
  let whole := cs.takeWhile isDigit
  let (part, rest) :=
    match cs.dropWhile isDigit with
    | '.' :: after => (after.takeWhile isDigit, after.dropWhile isDigit)
    | after => ([], after)
  if whole.isEmpty && part.isEmpty then none
  else
    let exponent? :=
      match rest with
      | [] => some 0
      | c :: tail => if c = 'e' ∨ c = 'E' then readExponent? tail else none
    match Decimal.spell? 0 (whole ++ part), exponent? with
    | some digits, some exponent => some (ofDecimal negative digits (exponent - part.length))
    | _, _ => none

/-- Read a number; names of the special ones may be written in either case. -/
def read? (cs : List Char) : Option Floating :=
  let (negative, rest) := cutSign cs
  let name := rest.map Char.toLower
  if name = "inf".toList ∨ name = "infinity".toList then some (.infinite negative)
  else if name = "nan".toList then some .undefined
  else readUnsigned? negative rest

/-- The text of a number. -/
def text : Floating → String
  | .finite negative x => (if negative then "-" else "") ++ x.text
  | .infinite negative => if negative then "-inf" else "inf"
  | .undefined => "NaN"

/-- Whether the number is zero, of either sign. -/
def isZero : Floating → Bool
  | .finite _ x => x.significand == 0
  | _ => false

/-- The nearest word, a half away from zero; the ends of the range for numbers outside it. -/
def toWord : Floating → Nat
  | .finite true _ => 0
  | .finite false x => min ((2 * x.scaled + Binary64.unit) / (2 * Binary64.unit)) Word.top
  | .infinite negative => if negative then 0 else Word.top
  | .undefined => 0

end Floating

end Keyload
