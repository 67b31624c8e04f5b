import Keyload.Fault
import Keyload.Number.Decimal
import Keyload.Regex.Tree
import Keyload.Text.Blank
import Keyload.Text.Split
import Keyload.Text.WordChars

/-!
# Reading expressions

From text to `Tree`. Look-around, back-references, unknown escapes, unclosed groups and brackets,
reversed ranges, repetitions of nothing and repeated group names are refused. In verbose mode blanks
and comments between the parts of an expression are skipped.
-/
namespace Keyload.Regex

/-- The text still to read, and what has been read that matters later. -/
structure Reader where
  rest : List Char
  verbose : Bool
  /-- Capture groups opened so far. -/
  captures : Nat
  /-- Names of capture groups. -/
  names : List (List Char)

/-- A reading step: it fails, or yields a value and moves on. -/
abbrev Read := StateT Reader Option

namespace Read

/-- Skip blanks and comments; `comment` tells whether the text starts inside one. -/
def skipVerbose : Bool → List Char → List Char
  | _, [] => []
  | true, c :: cs => skipVerbose (c != '\n') cs
  | false, c :: cs =>
    if isBlank c then skipVerbose false cs
    else if c = '#' then skipVerbose true cs
    else c :: cs

/-- What is left to read. -/
def rest : Read (List Char) := do return (← get).rest

/-- Read on from `cs`. -/
def resume (cs : List Char) : Read Unit := modify fun r => { r with rest := cs }

/-- Skip blanks and comments in verbose mode. -/
def skip : Read Unit := modify fun r =>
  if r.verbose then { r with rest := skipVerbose false r.rest } else r

/-- Drop one character, and then blanks and comments in verbose mode. -/
def drop : Read Unit := do
  resume (← rest).tail
  skip

/-- The next character; fails at the end. -/
def peek : Read Char := do
  match ← rest with
  | c :: _ => pure c
  | [] => failure

/-- The next character, dropped together with the blanks after it. -/
def pop : Read Char := do
  let c ← peek
  drop
  pure c

/-- Drop a text, if it comes next. -/
def accept (text : String) : Read Bool := do
  if text.toList.isPrefixOf (← rest) then
    resume ((← rest).drop text.length)
    pure true
  else pure false

/-- Characters that satisfy `p`, as many as come next. -/
def many (p : Char → Bool) : Nat → Read (List Char)
  | 0 => pure []
  | fuel + 1 => do
    match ← rest with
    | c :: _ =>
      if p c then
        drop
        let cs ← many p fuel
        pure (c :: cs)
      else pure []
    | [] => pure []

/-- A number that fits 32 bits, blanks around it allowed. -/
def decimal : Read Nat := do
  resume ((← rest).dropWhile isBlank)
  let ds ← many (fun c => '0' ≤ c && c ≤ '9') (← rest).length
  let _ ← many isBlank (← rest).length
  match Decimal.below? Word.halfLimit ds with
  | some n => pure n
  | none => failure

/-- A hexadecimal digit's value. -/
def hexDigit? (c : Char) : Option Nat :=
  if '0' ≤ c ∧ c ≤ '9' then some (c.toNat - 0x30)
  else if 'a' ≤ c ∧ c ≤ 'f' then some (c.toNat - 0x57)
  else if 'A' ≤ c ∧ c ≤ 'F' then some (c.toNat - 0x37)
  else none

/-- The character whose code point hexadecimal digits spell. -/
def hexChar? (ds : List Char) : Option Char := do
  let n ← ds.foldlM (fun acc c => (hexDigit? c).map (acc * 16 + ·)) 0
  if n.isValidChar then some (Char.ofNat n) else none

/-- Exactly `n` hexadecimal digits. -/
def hexDigits : Nat → Read (List Char)
  | 0 => pure []
  | n + 1 => do
    let c ← pop
    if (hexDigit? c).isSome then
      let cs ← hexDigits n
      pure (c :: cs)
    else failure

/-- A character by its code point, after the escape's letter: braces, or a fixed number of digits. -/
def hexLetter (digits : Nat) : Read Letter := do
  if (← peek) = '{' then
    drop
    let ds ← many (fun c => (hexDigit? c).isSome) (← rest).length
    if (← pop) = '}' && !ds.isEmpty then
      match hexChar? ds with
      | some c => pure ⟨c, false⟩
      | none => failure
    else failure
  else
    match hexChar? (← hexDigits digits) with
    | some c => pure ⟨c, digits = 2⟩
    | none => failure

/-- A property's name after `p` or `P`: one letter, or a text in braces. -/
def propertyName : Read String := do
  let c ← peek
  if c = '{' then
    drop
    let cs ← many (· != '}') (← rest).length
    let _ ← pop
    pure (String.ofList cs)
  else if c = '\\' then failure
  else
    drop
    pure (String.ofList [c])

/-- What an escape, or a plain character of a set, stands for. -/
inductive Primitive where
  | letter (l : Letter)
  | dot
  | look
  | named (n : Named) (negated : Bool)
  | property (name : String) (negated : Bool)

/-- A character with a meaning of its own. -/
def isMeta (c : Char) : Bool := "\\.+*?()|[]\x7b\x7d^$#&-~".toList.contains c

/-- A character that may be escaped without need. -/
def isPlainEscape (c : Char) : Bool := c.toNat < 0x80 && !c.isAlphanum && c != '<' && c != '>'

/-- The names of the special word boundaries. -/
def boundaryNames : List String := ["start", "end", "start-half", "end-half"]

/-- A letter of the name of a special word boundary. -/
def isBoundaryChar (c : Char) : Bool := c.isAlpha || c == '-'

/-- The braces of a special word boundary, unless they hold the count of a repetition. -/
def boundaryBraces : Read Unit := do
  let start ← rest
  if start.head? = some '{' then
    drop
    if isBoundaryChar (← peek) then
      let name ← many isBoundaryChar (← rest).length
      if (← peek) = '}' && boundaryNames.contains (String.ofList name) then
        resume (← rest).tail
      else failure
    else resume start

/-- An escape, from its backslash on. -/
def escape : Read Primitive := do
  resume (← rest).tail
  let c ← peek
  match c with
  | 'x' => drop; return .letter (← hexLetter 2)
  | 'u' => drop; return .letter (← hexLetter 4)
  | 'U' => drop; return .letter (← hexLetter 8)
  | 'p' => drop; return .property (← propertyName) false
  | 'P' => drop; return .property (← propertyName) true
  | _ => pure ()
  resume (← rest).tail
  match c with
  | 'd' => pure (.named .digit false)
  | 'D' => pure (.named .digit true)
  | 's' => pure (.named .blank false)
  | 'S' => pure (.named .blank true)
  | 'w' => pure (.named .word false)
  | 'W' => pure (.named .word true)
  | 'a' => pure (.letter ⟨'\x07', false⟩)
  | 'f' => pure (.letter ⟨'\x0c', false⟩)
  | 't' => pure (.letter ⟨'\t', false⟩)
  | 'n' => pure (.letter ⟨'\n', false⟩)
  | 'r' => pure (.letter ⟨'\r', false⟩)
  | 'v' => pure (.letter ⟨'\x0b', false⟩)
  | 'A' | 'z' | 'B' | '<' | '>' => pure .look
  | 'b' =>
    boundaryBraces
    pure .look
  | c => if isPlainEscape c || isMeta c then pure (.letter ⟨c, false⟩) else failure

/-! ## Brackets -/

/-- The names of the classes that stand between `[:` and `:]`. -/
def asciiNames : List String :=
  ["alnum", "alpha", "ascii", "blank", "cntrl", "digit", "graph", "lower", "print", "punct",
    "space", "upper", "word", "xdigit"]

/-- A class such as `[:alpha:]` at the start of a text, and the text after it. -/
def asciiClass? (cs : List Char) : Option (SetTree × List Char) :=
  match cs with
  | '[' :: ':' :: cs =>
    let (negated, cs) := match cs with
      | '^' :: cs => (true, cs)
      | cs => (false, cs)
    match Text.cutFirst ':' cs with
    | some (name, ']' :: cs) =>
      if asciiNames.contains (String.ofList name) then
        some (.ascii (String.ofList name) negated, cs)
      else none
    | _ => none
  | _ => none

/-- A single entry of a bracket before it is known whether it starts a range. -/
def setPrimitive : Read Primitive := do
  let c ← peek
  if c = '\\' then escape
  else
    resume (← rest).tail
    pure (.letter ⟨c, false⟩)

/-- An entry of a bracket that is no end of a range. -/
def setEntry : Primitive → Read SetTree
  | .letter l => pure (.letter l)
  | .named n negated => pure (.named n negated)
  | .property name negated => pure (.property name negated)
  | .dot | .look => failure

/-- A character or a range of a bracket. -/
def setRange : Read SetTree := do
  let first ← setPrimitive
  skip
  let c ← peek
  let verbose := (← get).verbose
  let tail := (← rest).tail
  let after := (if verbose then skipVerbose false tail else tail).head?
  if c != '-' || after == some ']' || after == some '-' then setEntry first
  else
    drop
    let last ← setPrimitive
    match first, last with
    | .letter a, .letter b => if a.char ≤ b.char then pure (.range a b) else failure
    | _, _ => failure

/-- The entries of a union, in reverse, as one set. -/
def unionOf : List SetTree → SetTree
  | [t] => t
  | ts => .union ts.reverse

/-- The set before an operator combined with the entries after it. -/
def combine (left : Option (SetTree × SetOp)) (items : List SetTree) : SetTree :=
  match left with
  | some (l, op) => .binary op l (unionOf items)
  | none => unionOf items

/-- The leading `-` of a bracket, each a character. -/
def leadingDashes : Nat → Read (List SetTree)
  | 0 => pure []
  | fuel + 1 => do
    if (← peek) = '-' then
      drop
      let ts ← leadingDashes fuel
      pure (.letter ⟨'-', false⟩ :: ts)
    else pure []

/-- The opening of a bracket: whether it is negated, and the entries that stand for themselves. -/
def openBracket : Read (Bool × List SetTree) := do
  drop
  let negated := (← peek) = '^'
  if negated then drop
  let dashes ← leadingDashes (← rest).length
  if dashes.isEmpty && (← peek) = ']' then
    drop
    let _ ← peek
    pure (negated, [.letter ⟨']', false⟩])
  else
    let _ ← peek
    pure (negated, dashes)

mutual

/-- A bracket from its `[` on. -/
def bracket : Nat → Read SetTree
  | 0 => failure
  | fuel + 1 => do
    let (negated, items) ← openBracket
    let body ← bracketBody fuel none items
    pure (.bracket negated body)

/-- The rest of a bracket, up to and with its `]`. -/
def bracketBody : Nat → Option (SetTree × SetOp) → List SetTree → Read SetTree
  | 0, _, _ => failure
  | fuel + 1, left, items => do
    skip
    match ← rest with
    | [] => failure
    | ']' :: cs =>
      resume cs
      pure (combine left items)
    | '&' :: '&' :: cs =>
      resume cs
      bracketBody fuel (some (combine left items, .inter)) []
    | '-' :: '-' :: cs =>
      resume cs
      bracketBody fuel (some (combine left items, .diff)) []
    | '~' :: '~' :: cs =>
      resume cs
      bracketBody fuel (some (combine left items, .symmDiff)) []
    | '[' :: cs =>
      match asciiClass? ('[' :: cs) with
      | some (item, cs) =>
        resume cs
        bracketBody fuel left (item :: items)
      | none =>
        let item ← bracket fuel
        bracketBody fuel left (item :: items)
    | _ =>
      let item ← setRange
      bracketBody fuel left (item :: items)

end

/-! ## Groups and repetitions -/

/-- The flag of a letter. -/
def flag? : Char → Option Flag
  | 'i' => some .caseless
  | 'm' => some .multiLine
  | 's' => some .dotAll
  | 'U' => some .swapGreed
  | 'u' => some .unicode
  | 'R' => some .crlf
  | 'x' => some .verbose
  | _ => none

/-- Flags up to `:` or `)`; no flag twice, one `-` at most and not at the end. -/
def flagList : List Char → Bool → FlagChange → Option (FlagChange × List Char)
  | [], _, _ => none
  | c :: cs, negated, acc =>
    if c = ':' ∨ c = ')' then
      some (acc.reverse, c :: cs)
    else if c = '-' then
      if negated then none
      else
        match cs with
        | ':' :: _ => none
        | ')' :: _ => none
        | cs => flagList cs true acc
    else
      match flag? c with
      | some f =>
        if acc.any fun (g, _) => g == f then none else flagList cs negated ((f, !negated) :: acc)
      | none => none

/-- A character of a group's name. -/
def isNameChar (first : Bool) (c : Char) : Bool :=
  c == '_' || (!first && (c == '.' || c == '[' || c == ']')) ||
    (Text.inFlips Text.wordFlips c.toNat && !(first && Text.inFlips Text.digitFlips c.toNat))

/-- A group's name up to and with its `>`. -/
def groupName : Read Unit := do
  match Text.cutFirst '>' (← rest) with
  | some (c :: cs, after) =>
    let name := c :: cs
    if isNameChar true c && cs.all (isNameChar false) && !(← get).names.contains name then
      modify fun r => { r with rest := after, names := name :: r.names }
    else failure
  | _ => failure

/-- How a group was opened. -/
inductive Opening where
  | capture (index : Nat)
  | plain (change : FlagChange)
  | directive (change : FlagChange)

/-- Open the next capture group. -/
def nextCapture : Read Opening := do
  let index := (← get).captures
  modify fun r => { r with captures := index + 1 }
  pure (.capture index)

/-- The openings of look-around, which is not supported. -/
def lookAround : List String := ["?=", "?!", "?<=", "?<!"]

/-- The opening of a group, from its `(` on. -/
def openGroup : Read Opening := do
  drop
  let cs ← rest
  if lookAround.any fun p => p.toList.isPrefixOf cs then failure
  if ← accept "?P<" then
    groupName
    nextCapture
  else if ← accept "?<" then
    groupName
    nextCapture
  else if ← accept "?" then
    match flagList (← rest) false [] with
    | some (change, ':' :: cs) =>
      resume cs
      pure (.plain change)
    | some (change, _ :: cs) =>
      if change.isEmpty then failure
      resume cs
      pure (.directive change)
    | _ => failure
  else nextCapture

/-- The verbose mode after a change of flags. -/
def verboseAfter (old : Bool) (change : FlagChange) : Bool :=
  match change.find? fun (f, _) => f == .verbose with
  | some (_, on) => on
  | none => old

/-- The bounds of a repetition, from its operator on. -/
def bounds : Read (Nat × Option Nat) := do
  let c ← peek
  match c with
  | '?' => resume (← rest).tail; pure (0, some 1)
  | '*' => resume (← rest).tail; pure (0, none)
  | '+' => resume (← rest).tail; pure (1, none)
  | _ =>
    drop
    let lo ← decimal
    if (← peek) = ',' then
      drop
      if (← peek) = '}' then
        drop
        pure (lo, none)
      else
        let hi ← decimal
        if (← pop) = '}' && lo ≤ hi then pure (lo, some hi) else failure
    else if (← pop) = '}' then pure (lo, some lo)
    else failure

/-- The repetition of the last part read. -/
def repetition : List Tree → Read (List Tree)
  | [] => failure
  | .empty :: _ => failure
  | .flags _ :: _ => failure
  | t :: parts => do
    let (lo, hi) ← bounds
    let lazy ← accept "?"
    pure (.rep lo hi (!lazy) t :: parts)

/-- A part that is neither group, bracket nor repetition. -/
def primitive : Read Tree := do
  match ← peek with
  | '\\' =>
    match ← escape with
    | .letter l => pure (.letter l)
    | .dot => pure .dot
    | .look => pure .look
    | .named n negated => pure (.named n negated)
    | .property name negated => pure (.property name negated)
  | '.' => resume (← rest).tail; pure .dot
  | '^' | '$' => resume (← rest).tail; pure .look
  | c => resume (← rest).tail; pure (.letter ⟨c, false⟩)

/-- Branches up to a `)` or the end; `branches` and `parts` hold what was read, in reverse. -/
def branches : Nat → List Tree → List Tree → Read Tree
  | 0, _, _ => failure
  | fuel + 1, done, parts => do
    skip
    match ← rest with
    | [] | ')' :: _ => pure (Tree.ofBranches (Tree.ofParts parts :: done))
    | '|' :: cs =>
      resume cs
      branches fuel (Tree.ofParts parts :: done) []
    | '(' :: _ =>
      let verbose := (← get).verbose
      match ← openGroup with
      | .directive change =>
        modify fun r => { r with verbose := verboseAfter r.verbose change }
        branches fuel done (.flags change :: parts)
      | .capture index =>
        let sub ← branches fuel [] []
        if ← accept ")" then
          modify fun r => { r with verbose := verbose }
          branches fuel done (.capture index sub :: parts)
        else failure
      | .plain change =>
        modify fun r => { r with verbose := verboseAfter r.verbose change }
        let sub ← branches fuel [] []
        if ← accept ")" then
          modify fun r => { r with verbose := verbose }
          branches fuel done (.group change sub :: parts)
        else failure
    | '[' :: _ =>
      match ← bracket (← rest).length with
      | .bracket negated body => branches fuel done (.bracket negated body :: parts)
      | _ => failure
    | c :: _ =>
      if c = '?' ∨ c = '*' ∨ c = '+' ∨ c = '{' then
        let parts ← repetition parts
        branches fuel done parts
      else
        let part ← primitive
        branches fuel done (part :: parts)

end Read

/-- Read an expression; nothing may be left over. -/
def read? (cs : List Char) : Option Tree := do
  let (tree, r) ← (Read.branches (cs.length + 1) [] []).run ⟨cs, false, 0, []⟩
  if r.rest.isEmpty && tree.depth ≤ Tree.deepest then some tree else none

end Keyload.Regex
