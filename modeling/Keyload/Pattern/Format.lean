import Keyload.Fault
import Keyload.Number.Radix

/-!
# Number formats

A format segment such as `tel-%04d` names its instances by number: text, one integer verb, text.
`%%` stands for a percent sign. A verb is `%`, flags `0` and `-` in any mix, a decimal width, and one
of `d v x X o b`.
-/
namespace Keyload.Pattern

/-- The numerals a verb can ask for. -/
inductive Numeral where
  | decimal
  | lowerHex
  | upperHex
  | octal
  | binary
  deriving DecidableEq, Repr

namespace Numeral

/-- The numeral that a verb letter asks for. -/
def ofLetter? : Char → Option Numeral
  | 'd' | 'v' => some .decimal
  | 'x' => some .lowerHex
  | 'X' => some .upperHex
  | 'o' => some .octal
  | 'b' => some .binary
  | _ => none

/-- A number in this numeral. -/
def write : Numeral → Nat → List Char
  | .decimal => Radix.numeral 10 Radix.one_lt_ten false
  | .lowerHex => Radix.numeral 16 Radix.one_lt_sixteen false
  | .upperHex => Radix.numeral 16 Radix.one_lt_sixteen true
  | .octal => Radix.numeral 8 Radix.one_lt_eight false
  | .binary => Radix.numeral 2 Radix.one_lt_two false

end Numeral

/-- An integer verb. -/
structure Verb where
  numeral : Numeral
  width : Nat
  /-- Fill on the left with zeros instead of spaces. -/
  zeroPad : Bool
  /-- Fill on the right with spaces; wins over `zeroPad`. -/
  left : Bool
  deriving DecidableEq, Repr

/-- A number padded to the verb's width, never shortened. -/
def Verb.write (v : Verb) (n : Nat) : List Char :=
  let ds := v.numeral.write n
  let fill := v.width - ds.length
  if v.left then ds ++ List.replicate fill ' '
  else List.replicate fill (if v.zeroPad then '0' else ' ') ++ ds

/-- A compiled format. -/
structure Format where
  source : String
  before : List Char
  verb : Verb
  after : List Char
  deriving DecidableEq, Repr

namespace Format

/-- Why a text is no format. -/
inductive Flaw where
  | secondVerb
  | unsupportedVerb (letter : Char)
  | danglingPercent
  | noVerb
  deriving DecidableEq, Repr

/-- The wording of a flaw. -/
def Flaw.message : Flaw → String
  | .secondVerb => "more than one verb"
  | .unsupportedVerb c => s!"unsupported verb '%{c}'"
  | .danglingPercent => "dangling '%'"
  | .noVerb => "no integer verb"

/-- The widest field that can be printed. -/
def widest : Nat := 65535

/-- Text up to the first verb, `%%` read as a percent sign, and what follows the verb's `%`. -/
def readText : List Char → List Char × Option (List Char)
  | [] => ([], none)
  | '%' :: '%' :: rest =>
    let (text, verb) := readText rest
    ('%' :: text, verb)
  | c :: rest =>
    if c = '%' then ([], some rest)
    else
      let (text, verb) := readText rest
      (c :: text, verb)

/-- A flag character. -/
def isFlag (c : Char) : Bool := c == '0' || c == '-'

/-- A decimal digit of a width. -/
def isWidthDigit (c : Char) : Bool := '0' ≤ c && c ≤ '9'

/-- The width that digits spell; it has to fit a machine word after every digit. -/
def readWidth : Nat → List Char → Except Fault Nat
  | acc, [] => .ok acc
  | acc, c :: rest => do
    let shifted ← Word.mul acc 10
    let width ← Word.add shifted (c.toNat - '0'.toNat)
    readWidth width rest

/-- A verb after its `%`, and the text that follows it. -/
def readVerb (cs : List Char) : Outcome Flaw (Verb × List Char) := do
  let flags := cs.takeWhile isFlag
  let cs := cs.dropWhile isFlag
  let width ← readWidth 0 (cs.takeWhile isWidthDigit)
  match cs.dropWhile isWidthDigit with
  | [] => throw .danglingPercent
  | c :: rest =>
    match Numeral.ofLetter? c with
    | none => throw (.unsupportedVerb c)
    | some numeral =>
      let left := flags.contains '-'
      pure (⟨numeral, width, flags.contains '0' && !left, left⟩, rest)

/-- Read a format. -/
def read (source : String) : Outcome Flaw Format := do
  match readText source.toList with
  | (_, none) => throw .noVerb
  | (before, some rest) =>
    let (verb, rest) ← readVerb rest
    match readText rest with
    | (after, none) => pure ⟨source, before, verb, after⟩
    | (_, some _) => throw .secondVerb

/-- The name of instance `n`; a verb wider than `widest` cannot be printed. -/
def render (f : Format) (n : Nat) : Except Fault String :=
  if f.verb.width ≤ widest then .ok (String.ofList (f.before ++ f.verb.write n ++ f.after))
  else .error .tooWide

end Format

end Keyload.Pattern
