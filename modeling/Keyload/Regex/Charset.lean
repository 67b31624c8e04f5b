import Keyload.Number.Sum
import Keyload.Text.Case
import Keyload.Text.WordChars

/-!
# Character sets

A set of characters as sorted, disjoint intervals that do not touch. Characters are counted by rank:
their code point, less the gap that surrogates leave, so that every rank below `Charset.size` is a
character and an interval of ranks has no hole.
-/
namespace Keyload.Regex

/-- The number of code points between the two blocks of characters. -/
def surrogates : Nat := 0x800

/-- The rank of a code point. -/
def rankOfPoint (n : Nat) : Nat := if n < 0xd800 then n else max (n - surrogates) 0xd800

/-- The rank of a character. -/
def rank (c : Char) : Nat := rankOfPoint c.toNat

/-- The character of a rank. -/
def ofRank (r : Nat) : Char := Char.ofNat (if r < 0xd800 then r else r + surrogates)

/-- A set of characters. -/
structure Charset where
  /-- First and last rank of every interval, in order. -/
  spans : List (Nat × Nat)
  deriving DecidableEq, Repr

namespace Charset

/-- The number of characters there are. -/
def total : Nat := 0x110000 - surrogates

/-- Join intervals that overlap or touch, given in order of their first rank. -/
def merge : List (Nat × Nat) → List (Nat × Nat)
  | (a, b) :: (c, d) :: rest =>
    if c ≤ b + 1 then merge ((a, max b d) :: rest) else (a, b) :: merge ((c, d) :: rest)
  | spans => spans
termination_by spans => spans.length

/-- The set of the characters in any of the intervals. -/
def ofSpans (spans : List (Nat × Nat)) : Charset :=
  ⟨merge ((spans.filter fun (a, b) => a ≤ b).mergeSort fun x y => x.1 ≤ y.1)⟩

/-- No character. -/
def none : Charset := ⟨[]⟩

/-- Every character. -/
def all : Charset := ⟨[(0, total - 1)]⟩

/-- The characters from one to another. -/
def range (a b : Char) : Charset := ofSpans [(rank a, rank b)]

/-- A single character. -/
def single (c : Char) : Charset := range c c

/-- The set whose code points are given by the flips of a class. -/
def ofFlips (flips : Array Nat) : Charset :=
  ofSpans ((Text.intervals flips.toList).map fun (a, b) => (rankOfPoint a, rankOfPoint b))

/-- The characters in either set. -/
def union (s t : Charset) : Charset := ofSpans (s.spans ++ t.spans)

/-- The intervals between those given, from rank `low` on. -/
def gaps (low : Nat) : List (Nat × Nat) → List (Nat × Nat)
  | [] => if low < total then [(low, total - 1)] else []
  | (a, b) :: rest => if low < a then (low, a - 1) :: gaps (b + 1) rest else gaps (b + 1) rest

/-- The characters outside a set. -/
def compl (s : Charset) : Charset := ⟨gaps 0 s.spans⟩

/-- The characters in both sets. -/
def inter (s t : Charset) : Charset := (s.compl.union t.compl).compl

/-- The characters in the first set only. -/
def diff (s t : Charset) : Charset := s.inter t.compl

/-- The characters in exactly one of the sets. -/
def symmDiff (s t : Charset) : Charset := (s.diff t).union (t.diff s)

/-- Whether a rank lies in the set. -/
def hasRank (s : Charset) (r : Nat) : Bool := s.spans.any fun (a, b) => a ≤ r && r ≤ b

/-- Whether a character lies in the set. -/
def has (s : Charset) (c : Char) : Bool := s.hasRank (rank c)

/-- The number of characters in the set. -/
def size (s : Charset) : Nat := sumAll (s.spans.map fun (a, b) => b + 1 - a)

/-- The `i`-th rank of the intervals. -/
def nthRank? : List (Nat × Nat) → Nat → Option Nat
  | [], _ => Option.none
  | (a, b) :: rest, i => if i < b + 1 - a then some (a + i) else nthRank? rest (i - (b + 1 - a))

/-- The `i`-th character of the set, in code point order. -/
def nth? (s : Charset) (i : Nat) : Option Char := (nthRank? s.spans i).map ofRank

/-- Whether all characters of the set are ASCII. -/
def isAscii (s : Charset) : Bool := s.spans.all fun (_, b) => b < 0x80

/-- The only character of the set. -/
def only? (s : Charset) : Option Char :=
  match s.spans with
  | [(a, b)] => if a = b then some (ofRank a) else Option.none
  | _ => Option.none

/-- Every simple case folding: a character's rank and its image's. -/
def foldPairs : List (Nat × Nat) :=
  Text.foldRuns.flatMap fun run =>
    run.members.map fun c => (rankOfPoint c, rankOfPoint ((c : Int) + run.shift).toNat)

/-- The set with every character that folds to the same one as a member. -/
def closeCase (s : Charset) : Charset :=
  let images := (foldPairs.filter fun (c, _) => s.hasRank c).map fun (_, t) => (t, t)
  let folded := s.union (ofSpans images)
  let sources := (foldPairs.filter fun (_, t) => folded.hasRank t).map fun (c, _) => (c, c)
  folded.union (ofSpans sources)

/-- The set with the other case of every ASCII letter. -/
def closeAsciiCase (s : Charset) : Charset :=
  let letters (a b : Nat) (shift : Nat → Nat) :=
    ((List.range (b + 1 - a)).map (a + ·)).filterMap fun r =>
      if s.hasRank r then some (shift r, shift r) else Option.none
  s.union (ofSpans (letters 0x41 0x5a (· + 32) ++ letters 0x61 0x7a (· - 32)))

end Charset

end Keyload.Regex
