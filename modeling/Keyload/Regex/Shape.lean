import Keyload.Regex.Charset
import Keyload.Regex.Tree

/-!
# Simplified expressions

What a written expression means once flags, classes and groups are resolved: literals, character sets,
repetitions, sequences and choices, simplified as they are built. A set of one character is a literal,
neighbouring literals join, nested sequences and choices are flattened, and a choice between sequences
is cut down to what follows their common start.
-/
namespace Keyload.Regex

/-- A simplified expression. -/
inductive Shape where
  | empty
  /-- An anchor or a word boundary. -/
  | look
  | literal (text : List Char)
  /-- A set of characters; `bytes` marks one written where Unicode is off. -/
  | chars (set : Charset) (bytes : Bool)
  | rep (min : Nat) (max : Option Nat) (greedy : Bool) (sub : Shape)
  | capture (index : Nat) (sub : Shape)
  | concat (parts : List Shape)
  | alt (branches : List Shape)

namespace Shape

mutual

/-- Whether two expressions are the same. -/
def same : Shape → Shape → Bool
  | .empty, .empty => true
  | .look, .look => true
  | .literal s, .literal t => s == t
  | .chars s b, .chars t c => s == t && b == c
  | .rep lo hi g s, .rep lo' hi' g' t => lo == lo' && hi == hi' && g == g' && same s t
  | .capture i s, .capture j t => i == j && same s t
  | .concat ss, .concat ts => sameAll ss ts
  | .alt ss, .alt ts => sameAll ss ts
  | _, _ => false

/-- Whether two lists of expressions are the same. -/
def sameAll : List Shape → List Shape → Bool
  | [], [] => true
  | s :: ss, t :: ts => same s t && sameAll ss ts
  | _, _ => false

end

mutual

/-- Whether nothing but the empty text fits. -/
def onlyEmpty : Shape → Bool
  | .empty | .look => true
  | .literal text => text.isEmpty
  | .chars _ _ => false
  | .rep _ _ _ sub => sub.onlyEmpty
  | .capture _ sub => sub.onlyEmpty
  | .concat parts => allOnlyEmpty parts
  | .alt branches => allOnlyEmpty branches

/-- Whether nothing but the empty text fits any of the expressions. -/
def allOnlyEmpty : List Shape → Bool
  | [] => true
  | s :: ss => s.onlyEmpty && allOnlyEmpty ss

end

mutual

/-- The number of expressions within an expression, itself included. -/
def size : Shape → Nat
  | .rep _ _ _ sub => 1 + sub.size
  | .capture _ sub => 1 + sub.size
  | .concat parts => 1 + sizeAll parts
  | .alt branches => 1 + sizeAll branches
  | _ => 1

/-- The number of expressions within a list of them. -/
def sizeAll : List Shape → Nat
  | [] => 0
  | s :: ss => s.size + sizeAll ss

end

/-- A set as an expression: one character is a literal, and no character is refused. -/
def ofSet (bytes : Bool) (set : Charset) : Option Shape :=
  if set.spans.isEmpty then none
  else
    match set.only? with
    | some c => some (.literal [c])
    | none => some (.chars set bytes)

/-- A repetition; the empty text is repeated once at most. -/
def ofRepetition (min : Nat) (max : Option Nat) (greedy : Bool) (sub : Shape) : Shape :=
  let (min, max) :=
    if sub.onlyEmpty then (Nat.min min 1, some (Nat.min (max.getD 1) 1)) else (min, max)
  if max = some 0 then .empty
  else if min = 1 ∧ max = some 1 then sub
  else .rep min max greedy sub

/-- Put an expression before a sequence, joined with a literal there. -/
def consPart : Shape → List Shape → List Shape
  | .empty, parts => parts
  | .literal s, .literal t :: parts => .literal (s ++ t) :: parts
  | s, parts => s :: parts

/-- The parts of a sequence, nested ones spliced. -/
def flattenParts : List Shape → List Shape
  | [] => []
  | .concat inner :: rest => inner.foldr consPart (flattenParts rest)
  | s :: rest => consPart s (flattenParts rest)

/-- A sequence; one of a single part is that part. -/
def ofParts (parts : List Shape) : Shape :=
  match flattenParts parts with
  | [] => .empty
  | [s] => s
  | ss => .concat ss

/-- The branches of a choice, nested ones spliced. -/
def flattenBranches : List Shape → List Shape
  | [] => []
  | .alt inner :: rest => inner ++ flattenBranches rest
  | s :: rest => s :: flattenBranches rest

/-- The characters, if every branch is a literal of one character. -/
def singles? : List Shape → Option Charset
  | [] => some Charset.none
  | .literal [c] :: rest => (singles? rest).map (Charset.single c).union
  | _ => none

/-- The characters, if every branch is a set. -/
def sets? : List Shape → Option Charset
  | [] => some Charset.none
  | .chars s _ :: rest => (sets? rest).map s.union
  | _ => none

/-- The parts, if the branch is a sequence. -/
def parts? : Shape → Option (List Shape)
  | .concat parts => some parts
  | _ => none

/-- How many leading parts two sequences share. -/
def sharedLength : List Shape → List Shape → Nat
  | s :: ss, t :: ts => if same s t then 1 + sharedLength ss ts else 0
  | _, _ => 0

/-- A choice; `fuel` bounds how often a common start is cut off. -/
def choose : Nat → List Shape → Option Shape
  | 0, branches => some (.alt branches)
  | fuel + 1, branches =>
    match flattenBranches branches with
    | [s] => some s
    | ss =>
      match singles? ss, sets? ss with
      | some set, _ => ofSet false set
      | _, some set => ofSet false set
      | none, none =>
        match ss.mapM parts? with
        | some (first :: others) =>
          let shared := others.foldl (fun n parts => min n (sharedLength first parts)) first.length
          if shared = 0 then some (.alt ss)
          else do
            let rest ← choose fuel ((first :: others).map fun parts => ofParts (parts.drop shared))
            some (ofParts (first.take shared ++ [rest]))
        | _ => some (.alt ss)

/-- A choice between expressions. -/
def ofBranches (branches : List Shape) : Option Shape := choose (sizeAll branches + 1) branches

end Shape

/-! ## Flags and classes -/

/-- The flags in force. -/
structure Mode where
  caseless : Bool
  dotAll : Bool
  swapGreed : Bool
  unicode : Bool
  crlf : Bool
  deriving DecidableEq, Repr

namespace Mode

/-- The flags in force at the start. -/
def initial : Mode := ⟨false, false, false, true, false⟩

/-- The flags after one is switched. -/
def switch (m : Mode) : Flag × Bool → Mode
  | (.caseless, on) => { m with caseless := on }
  | (.dotAll, on) => { m with dotAll := on }
  | (.swapGreed, on) => { m with swapGreed := on }
  | (.unicode, on) => { m with unicode := on }
  | (.crlf, on) => { m with crlf := on }
  | (.multiLine, _) | (.verbose, _) => m

/-- The flags after a change. -/
def apply (m : Mode) (change : FlagChange) : Mode := change.foldl switch m

/-- A set closed under case, if case does not matter. -/
def close (m : Mode) (s : Charset) : Charset :=
  if m.caseless then if m.unicode then s.closeCase else s.closeAsciiCase else s

/-- A set or its complement; without Unicode a complement is no text. -/
def negate (m : Mode) (negated : Bool) (s : Charset) : Option Charset :=
  if negated then if m.unicode then some s.compl else none else some s

/-- The set of a class with a letter of its own. -/
def named (m : Mode) : Named → Charset
  | .digit => if m.unicode then Charset.ofFlips Text.digitFlips else Charset.range '0' '9'
  | .blank =>
    if m.unicode then
      Charset.ofSpans ([(0x9, 0xd), (0x20, 0x20), (0x85, 0x85), (0xa0, 0xa0), (0x1680, 0x1680),
        (0x2000, 0x200a), (0x2028, 0x2029), (0x202f, 0x202f), (0x205f, 0x205f), (0x3000, 0x3000)])
    else Charset.ofSpans [(0x9, 0xd), (0x20, 0x20)]
  | .word =>
    if m.unicode then Charset.ofFlips Text.wordFlips
    else Charset.ofSpans [(0x30, 0x39), (0x41, 0x5a), (0x5f, 0x5f), (0x61, 0x7a)]

/-- The set of a class that stands between `[:` and `:]`. -/
def asciiSet : String → Charset
  | "alnum" => Charset.ofSpans [(0x30, 0x39), (0x41, 0x5a), (0x61, 0x7a)]
  | "alpha" => Charset.ofSpans [(0x41, 0x5a), (0x61, 0x7a)]
  | "ascii" => Charset.ofSpans [(0, 0x7f)]
  | "blank" => Charset.ofSpans [(0x9, 0x9), (0x20, 0x20)]
  | "cntrl" => Charset.ofSpans [(0, 0x1f), (0x7f, 0x7f)]
  | "digit" => Charset.ofSpans [(0x30, 0x39)]
  | "graph" => Charset.ofSpans [(0x21, 0x7e)]
  | "lower" => Charset.ofSpans [(0x61, 0x7a)]
  | "print" => Charset.ofSpans [(0x20, 0x7e)]
  | "punct" => Charset.ofSpans [(0x21, 0x2f), (0x3a, 0x40), (0x5b, 0x60), (0x7b, 0x7e)]
  | "space" => Charset.ofSpans [(0x9, 0xd), (0x20, 0x20)]
  | "upper" => Charset.ofSpans [(0x41, 0x5a)]
  | "word" => Charset.ofSpans [(0x30, 0x39), (0x41, 0x5a), (0x5f, 0x5f), (0x61, 0x7a)]
  | _ => Charset.ofSpans [(0x30, 0x39), (0x41, 0x46), (0x61, 0x66)]

/-- A property's name without case, blanks, underscores, hyphens and a leading `is`. -/
def plainName (name : String) : String :=
  let cs := (name.toList.filter fun c => !(c == ' ' || c == '_' || c == '-')).map Char.toLower
  String.ofList (if "is".toList.isPrefixOf cs && cs.length > 2 then cs.drop 2 else cs)

/-- The set of a property, which needs Unicode. -/
def property (m : Mode) (name : String) : Option Charset :=
  if !m.unicode then none
  else
    match plainName name with
    | "any" => some Charset.all
    | "ascii" => some (Charset.ofSpans [(0, 0x7f)])
    | "nd" | "decimalnumber" | "digit" => some (m.named .digit)
    | "whitespace" | "wspace" | "space" => some (m.named .blank)
    | _ => none

/-- A letter of a set; without Unicode it must be ASCII. -/
def setLetter (m : Mode) (l : Letter) : Option Char :=
  if m.unicode || l.char.toNat < 0x80 then some l.char else none

mutual

/-- The set that a bracket's contents denote. -/
def setOf (m : Mode) : SetTree → Option Charset
  | .letter l => (m.setLetter l).map Charset.single
  | .range a b => do return Charset.range (← m.setLetter a) (← m.setLetter b)
  | .named n negated => m.negate negated (m.named n)
  | .ascii name negated => m.negate negated (m.close (asciiSet name))
  | .property name negated => do m.negate negated (m.close (← m.property name))
  | .union items => setOfAll m items
  | .binary op left right => do
    let l := m.close (← m.setOf left)
    let r := m.close (← m.setOf right)
    match op with
    | .inter => some (l.inter r)
    | .diff => some (l.diff r)
    | .symmDiff => some (l.symmDiff r)
  | .bracket negated body => do m.negate negated (m.close (← m.setOf body))

/-- The set that several entries of a bracket denote together. -/
def setOfAll (m : Mode) : List SetTree → Option Charset
  | [] => some Charset.none
  | t :: ts => do return (← m.setOf t).union (← m.setOfAll ts)

end

/-- A single letter outside brackets. -/
def letter (m : Mode) (l : Letter) : Option Shape :=
  if !m.unicode && l.byte && l.char.toNat ≥ 0x80 then none
  else if m.caseless then Shape.ofSet (!m.unicode) (m.close (Charset.single l.char))
  else some (.literal [l.char])

/-- Any character, line ends left out unless asked for. -/
def dot (m : Mode) : Option Shape :=
  if !m.unicode then none
  else if m.dotAll then some (.chars Charset.all false)
  else if m.crlf then some (.chars ((Charset.single '\n').union (Charset.single '\r')).compl false)
  else some (.chars (Charset.single '\n').compl false)

end Mode

/-! ## From trees -/

namespace Shape

mutual

/-- The meaning of a tree, and the flags in force after it. -/
def ofTree (m : Mode) : Tree → Option (Shape × Mode)
  | .empty => some (.empty, m)
  | .flags change => some (.empty, m.apply change)
  | .letter l => (m.letter l).map (·, m)
  | .dot => m.dot.map (·, m)
  | .look => some (.look, m)
  | .named n negated => do
    return (← ofSet (!m.unicode) (← m.negate negated (m.named n)), m)
  | .property name negated => do
    return (← ofSet false (← m.negate negated (m.close (← m.property name))), m)
  | .bracket negated body => do
    return (← ofSet (!m.unicode) (← m.negate negated (m.close (← m.setOf body))), m)
  | .rep min max greedy sub => do
    let (s, _) ← ofTree m sub
    return (ofRepetition min max (greedy != m.swapGreed) s, m)
  | .capture index sub => do
    let (s, _) ← ofTree m sub
    return (.capture index s, m)
  | .group change sub => do
    let (s, _) ← ofTree (m.apply change) sub
    return (s, m)
  | .alt branches => do
    let (ss, m) ← ofTrees m branches
    return (← ofBranches ss, m)
  | .concat parts => do
    let (ss, m) ← ofTrees m parts
    return (ofParts ss, m)

/-- The meanings of several trees, flags handed on from one to the next. -/
def ofTrees (m : Mode) : List Tree → Option (List Shape × Mode)
  | [] => some ([], m)
  | t :: ts => do
    let (s, m) ← ofTree m t
    let (ss, m) ← ofTrees m ts
    return (s :: ss, m)

end

end Shape

end Keyload.Regex
