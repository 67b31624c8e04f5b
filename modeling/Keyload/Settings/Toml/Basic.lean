import Keyload.Settings.Toml.Moment
import Keyload.Settings.Toml.Tree

/-!
# Settings files

A whole file in TOML, read into a table. A text that breaks a rule of the format anywhere is refused.
-/
namespace Keyload.Settings.Toml

/-- One more than the nesting of lists and tables in a value, and than the parts of a key. -/
def nestingLimit : Nat := 80

/-- A character of an unquoted key. -/
def isKeyChar (c : Char) : Bool := c.isAlphanum || c == '_' || c == '-'

/-- One part of a key. -/
def readKeyPart : Read String := do
  let fuel := (← Read.rest).length + 1
  if ← Read.accept "\"" then readBasic [] fuel
  else if ← Read.accept "'" then readLiteral
  else
    let cs ← Read.many isKeyChar
    if cs.isEmpty then failure else pure (String.ofList cs)

/-- The parts of a key after the first. -/
def readKeyParts : Nat → Read (List String)
  | 0 => failure
  | fuel + 1 => do
    skipSpaces
    if ← Read.accept "." then
      skipSpaces
      let part ← readKeyPart
      let parts ← readKeyParts fuel
      pure (part :: parts)
    else pure []

/-- A key: its first part and the others. -/
def readKey : Read (String × List String) := do
  let part ← readKeyPart
  let parts ← readKeyParts (nestingLimit - 1)
  pure (part, parts)

/-- The elements of a list, up to the closing bracket. -/
def readItems (item : Read Value) : Nat → Read (List Value)
  | 0 => failure
  | fuel + 1 => do
    skipLines (← Read.rest).length
    if ← Read.accept "]" then pure []
    else
      let v ← item
      skipLines (← Read.rest).length
      if ← Read.accept "," then
        let vs ← readItems item fuel
        pure (v :: vs)
      else
        Read.expect "]"
        pure [v]

/-- A key, the equals sign and a value, set in a table. -/
def readEntry (value : Read Value) (es : Node.Entries) : Read Node.Entries := do
  let (key, path) ← readKey
  skipSpaces
  Read.expect "="
  skipSpaces
  let v ← value
  match Node.assign v key path es with
  | some es => pure es
  | none => failure

/-- The entries of a table in braces, up to the closing one. -/
def readBraced (value : Read Value) (es : Node.Entries) : Nat → Read Node.Entries
  | 0 => failure
  | fuel + 1 => do
    let es ← readEntry value es
    skipSpaces
    if ← Read.accept "," then
      skipSpaces
      readBraced value es fuel
    else
      Read.expect "\x7d"
      pure es

/-- A value nested at most so deep. -/
def readValue : Nat → Read Value
  | 0 => failure
  | depth + 1 => do
    let fuel := (← Read.rest).length + 1
    match ← readString? with
    | some s => pure (.text s)
    | none =>
      if ← Read.accept "[" then
        let items ← readItems (readValue depth) fuel
        pure (.list items)
      else if ← Read.accept "\x7b" then
        skipSpaces
        if ← Read.accept "\x7d" then pure (.table [])
        else
          let es ← readBraced (readValue depth) [] fuel
          pure (.table (Node.entryValues es))
      else readBare

/-- The keys of a path with its last one apart. -/
def splitKey (key : String) : List String → List String × String
  | [] => ([], key)
  | next :: rest =>
    let (init, last) := splitKey next rest
    (key :: init, last)

/-- The header of a table after its first bracket: the entries with the table opened, and its path. -/
def readHeader (es : Node.Entries) : Read (Node.Entries × List String) := do
  let repeated ← Read.accept "["
  skipSpaces
  let (key, path) ← readKey
  Read.expect (if repeated then "]]" else "]")
  let (init, last) := splitKey key path
  match Node.within (if repeated then Node.openNext last else Node.openTable last) init es with
  | some es => pure (es, key :: path)
  | none => failure

/-- The lines of a file: entries go into the table of the last header, which `path` leads to. -/
def readLinesOf (es : Node.Entries) (path : List String) : Nat → Read Node.Entries
  | 0 => failure
  | fuel + 1 => do
    skipLines (← Read.rest).length
    if (← Read.rest).isEmpty then pure es
    else if ← Read.accept "[" then
      let (es, path) ← readHeader es
      endLine
      readLinesOf es path fuel
    else
      let (key, keys) ← readKey
      skipSpaces
      Read.expect "="
      skipSpaces
      let v ← readValue nestingLimit
      endLine
      match Node.within (Node.assign v key keys) path es with
      | some es => readLinesOf es path fuel
      | none => failure

/-- The entries of a file; a byte order mark at its start is skipped. -/
def read? (text : String) : Option (List (String × Value)) :=
  let cs :=
    match text.toList with
    | c :: rest => if c.toNat = 0xfeff then rest else c :: rest
    | [] => []
  match (readLinesOf [] [] (cs.length + 1)).run cs with
  | some (es, _) => some (Node.entryValues es)
  | none => none

end Keyload.Settings.Toml
