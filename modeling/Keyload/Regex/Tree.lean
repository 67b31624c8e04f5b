/-!
# Written expressions

A regular expression as it is written: letters, sets, repetitions, groups and the flags that change
how the rest of a group is understood.
-/
namespace Keyload.Regex

/-- A single character; `byte` marks one written as two hexadecimal digits, which names a byte where Unicode is off. -/
structure Letter where
  char : Char
  byte : Bool
  deriving DecidableEq, Repr

/-- The classes with a letter of their own. -/
inductive Named where
  | digit
  | blank
  | word
  deriving DecidableEq, Repr

/-- How two sets of one bracket are combined. -/
inductive SetOp where
  | inter
  | diff
  | symmDiff
  deriving DecidableEq, Repr

/-- What stands in a bracket. -/
inductive SetTree where
  | letter (l : Letter)
  | range (first last : Letter)
  | named (n : Named) (negated : Bool)
  | ascii (name : String) (negated : Bool)
  | property (name : String) (negated : Bool)
  | union (items : List SetTree)
  | binary (op : SetOp) (left right : SetTree)
  | bracket (negated : Bool) (body : SetTree)
  deriving Repr

/-- The settings that flags change. -/
inductive Flag where
  | caseless
  | multiLine
  | dotAll
  | swapGreed
  | unicode
  | crlf
  | verbose
  deriving DecidableEq, Repr

/-- A list of flags as written, each switched on or off. -/
abbrev FlagChange := List (Flag × Bool)

/-- A written expression. -/
inductive Tree where
  | empty
  | flags (change : FlagChange)
  | letter (l : Letter)
  | dot
  /-- An anchor or a word boundary. -/
  | look
  | named (n : Named) (negated : Bool)
  | property (name : String) (negated : Bool)
  | bracket (negated : Bool) (body : SetTree)
  | rep (min : Nat) (max : Option Nat) (greedy : Bool) (sub : Tree)
  | capture (index : Nat) (sub : Tree)
  | group (change : FlagChange) (sub : Tree)
  | alt (branches : List Tree)
  | concat (parts : List Tree)
  deriving Repr

namespace SetTree

mutual

/-- How deep brackets, unions and combinations nest. -/
def depth : SetTree → Nat
  | .union items => 1 + depthAll items
  | .binary _ l r => 1 + max l.depth r.depth
  | .bracket _ body => 1 + body.depth
  | _ => 0

/-- The greatest depth of several items. -/
def depthAll : List SetTree → Nat
  | [] => 0
  | t :: ts => max t.depth (depthAll ts)

end

end SetTree

namespace Tree

mutual

/-- How deep groups, repetitions, sequences, alternations and brackets nest. -/
def depth : Tree → Nat
  | .bracket _ body => 1 + body.depth
  | .rep _ _ _ sub => 1 + sub.depth
  | .capture _ sub => 1 + sub.depth
  | .group _ sub => 1 + sub.depth
  | .alt ts => 1 + depthAll ts
  | .concat ts => 1 + depthAll ts
  | _ => 0

/-- The greatest depth of several parts. -/
def depthAll : List Tree → Nat
  | [] => 0
  | t :: ts => max t.depth (depthAll ts)

end

/-- The deepest nesting that is read. -/
def deepest : Nat := 250

/-- The parts of a sequence, in reverse, as one expression. -/
def ofParts : List Tree → Tree
  | [] => .empty
  | [t] => t
  | ts => .concat ts.reverse

/-- The branches of an alternation, in reverse, as one expression. -/
def ofBranches : List Tree → Tree
  | [t] => t
  | ts => .alt ts.reverse

end Tree

end Keyload.Regex
