import Keyload.Fault
import Keyload.Settings.Value

/-!
# Scalars of a settings file

Strings, numbers and truth values as they are written in TOML. A reading step fails, or yields a value
and leaves the rest of the text.
-/
namespace Keyload.Settings.Toml

/-- A reading step over the text that is left. -/
abbrev Read := StateT (List Char) Option

namespace Read

/-- The text that is left. -/
def rest : Read (List Char) := get

/-- Drop a text, if it comes next. -/
def accept (text : String) : Read Bool := do
  let cs ← rest
  if text.toList.isPrefixOf cs then
    set (cs.drop text.length)
    pure true
  else pure false

/-- Drop a text that has to come next. -/
def expect (text : String) : Read Unit := do
  unless ← accept text do failure

/-- The next character. -/
def pop : Read Char := do
  match ← rest with
  | c :: cs => set cs; pure c
  | [] => failure

/-- The characters up to the first that does not satisfy `p`. -/
def many (p : Char → Bool) : Read (List Char) := do
  let cs ← rest
  set (cs.dropWhile p)
  pure (cs.takeWhile p)

end Read

/-- Tabs and spaces. -/
def isSpace (c : Char) : Bool := c == ' ' || c == '\t'

/-- A character that may stand in a comment or a string: no control character but the tab. -/
def isPlain (c : Char) : Bool := c == '\t' || (0x20 ≤ c.toNat && c.toNat != 0x7f)

/-- Skip tabs and spaces. -/
def skipSpaces : Read Unit := do
  let _ ← Read.many isSpace

/-- Skip a comment, if one comes next. -/
def skipComment : Read Unit := do
  if ← Read.accept "#" then
    let _ ← Read.many isPlain

/-- Drop a line end, if one comes next. -/
def acceptLineEnd : Read Bool := do
  if ← Read.accept "\n" then pure true else Read.accept "\r\n"

/-- Skip spaces, line ends and comments, at most `fuel` lines of them. -/
def skipLines : Nat → Read Unit
  | 0 => pure ()
  | fuel + 1 => do
    skipSpaces
    skipComment
    if ← acceptLineEnd then skipLines fuel

/-- What follows an entry of a line: spaces, a comment, and the end of the line or of the text. -/
def endLine : Read Unit := do
  skipSpaces
  skipComment
  unless (← Read.rest).isEmpty do
    unless ← acceptLineEnd do failure

/-- The value of a hexadecimal digit. -/
def hexDigit? (c : Char) : Option Nat :=
  if '0' ≤ c ∧ c ≤ '9' then some (c.toNat - '0'.toNat)
  else if 'a' ≤ c ∧ c ≤ 'f' then some (c.toNat - 'a'.toNat + 10)
  else if 'A' ≤ c ∧ c ≤ 'F' then some (c.toNat - 'A'.toNat + 10)
  else none

/-- A code point of `n` hexadecimal digits. -/
def readPoint (n : Nat) : Read Char := do
  let cs ← Read.rest
  let digits := cs.take n
  let some ds := digits.mapM hexDigit? | failure
  let value := ds.foldl (fun acc d => acc * 16 + d) 0
  if ds.length = n ∧ value.isValidChar then
    set (cs.drop n)
    pure (Char.ofNat value)
  else failure

/-- The character that follows a backslash. -/
def readEscape : Read Char := do
  match ← Read.pop with
  | 'b' => pure '\x08'
  | 't' => pure '\t'
  | 'n' => pure '\n'
  | 'f' => pure '\x0c'
  | 'r' => pure '\r'
  | '"' => pure '"'
  | '\\' => pure '\\'
  | 'u' => readPoint 4
  | 'U' => readPoint 8
  | _ => failure

/-- The rest of a quoted string of one line; `done` is reversed. -/
def readBasic (done : List Char) : Nat → Read String
  | 0 => failure
  | fuel + 1 => do
    match ← Read.pop with
    | '"' => pure (String.ofList done.reverse)
    | '\\' => do
      let c ← readEscape
      readBasic (c :: done) fuel
    | c => if isPlain c then readBasic (c :: done) fuel else failure

/-- The rest of a literal string of one line. -/
def readLiteral : Read String := do
  let cs ← Read.many fun c => isPlain c && c != '\''
  Read.expect "'"
  pure (String.ofList cs)

/-- Whether a backslash before this text joins two lines: spaces and then a line end. -/
def joinsLines (cs : List Char) : Bool :=
  match cs.dropWhile isSpace with
  | '\n' :: _ => true
  | '\r' :: '\n' :: _ => true
  | _ => false

/-- Drop spaces and line ends. -/
def dropBlankLines : List Char → List Char
  | '\r' :: '\n' :: rest => dropBlankLines rest
  | c :: rest => if isSpace c || c == '\n' then dropBlankLines rest else c :: rest
  | [] => []

/-- The rest of a string over several lines, closed by three of `quote`; one or two of them right before
the end belong to the string. Line ends become line feeds; `escapes` tells whether a backslash is one. -/
def readLong (quote : Char) (escapes : Bool) (done : List Char) : Nat → Read String
  | 0 => failure
  | fuel + 1 => do
    let cs ← Read.rest
    let quotes := (cs.takeWhile (· == quote)).length
    if 3 ≤ quotes then
      let kept := min (quotes - 3) 2
      set (cs.drop (kept + 3))
      pure (String.ofList (List.replicate kept quote ++ done).reverse)
    else
      match ← Read.pop with
      | '\r' => do
        Read.expect "\n"
        readLong quote escapes ('\n' :: done) fuel
      | '\\' =>
        if !escapes then readLong quote escapes ('\\' :: done) fuel
        else if joinsLines (← Read.rest) then do
          set (dropBlankLines (← Read.rest))
          readLong quote escapes done fuel
        else do
          let c ← readEscape
          readLong quote escapes (c :: done) fuel
      | c =>
        if isPlain c || c == '\n' then readLong quote escapes (c :: done) fuel else failure

/-- A string of any kind, if one comes next. -/
def readString? : Read (Option String) := do
  let fuel := (← Read.rest).length + 1
  if ← Read.accept "\"\"\"" then
    let _ ← acceptLineEnd
    some <$> readLong '"' true [] fuel
  else if ← Read.accept "'''" then
    let _ ← acceptLineEnd
    some <$> readLong '\'' false [] fuel
  else if ← Read.accept "\"" then some <$> readBasic [] fuel
  else if ← Read.accept "'" then some <$> readLiteral
  else pure none

/-- Digits without the underscores between them: each underscore stands between two digits. -/
def ungroup? (isDigit : Char → Bool) : List Char → Option (List Char)
  | [] => none
  | [c] => if isDigit c then some [c] else none
  | c :: '_' :: rest => if isDigit c then (ungroup? isDigit rest).map (c :: ·) else none
  | c :: rest => if isDigit c then (ungroup? isDigit rest).map (c :: ·) else none

/-- An ASCII decimal digit. -/
def isDecimal (c : Char) : Bool := (Decimal.digit? c).isSome

/-- Decimal digits, grouped or not, without a leading zero. -/
def readWhole? (cs : List Char) : Option (List Char) :=
  match ungroup? isDecimal cs with
  | some ['0'] => some ['0']
  | some ('0' :: _) => none
  | ds => ds

/-- An integer that fits 64 bits with a sign. -/
def signed? (negative : Bool) (n : Nat) : Option Value :=
  if negative then if n ≤ Word.signedLimit then some (.whole (-(n : Int))) else none
  else if n < Word.signedLimit then some (.whole n) else none

/-- The number that digits of a base spell. -/
def spellIn (base : Nat) (cs : List Char) : Nat :=
  cs.foldl (fun acc c => acc * base + (hexDigit? c).getD 0) 0

/-- An integer in a base that a mark announces. -/
def readMarked? (base : Nat) (cs : List Char) : Option Value := do
  let ds ← ungroup? (fun c => (hexDigit? c).any (· < base)) cs
  signed? false (spellIn base ds)

/-- A floating-point number; one too large to be finite is refused unless it is negative. -/
def checkReal (x : Floating) : Option Value :=
  if x = .infinite false then none else some (.real x)

/-- Digits, then a fraction, an exponent, or both. -/
def readReal? (negative : Bool) (cs : List Char) : Option Value := do
  let inWhole := fun c => isDecimal c || c == '_'
  let whole ← readWhole? (cs.takeWhile inWhole)
  let (part, rest) ←
    match cs.dropWhile inWhole with
    | '.' :: after => do
      let part ← ungroup? isDecimal (after.takeWhile inWhole)
      pure (part, after.dropWhile inWhole)
    | after => pure ([], after)
  let digits := whole ++ part
  let exponent ←
    match rest with
    | [] => if part.isEmpty then failure else pure 0
    | c :: tail =>
      if c = 'e' ∨ c = 'E' then do
        let (minus, ds) := Floating.cutSign tail
        let ds ← ungroup? isDecimal ds
        let n ← Decimal.spell? 0 ds
        pure (if minus then -(n : Int) else n)
      else failure
  let n ← Decimal.spell? 0 digits
  checkReal (Floating.ofDecimal negative n (exponent - part.length))

/-- A number from all of its characters. -/
def readNumber? (cs : List Char) : Option Value :=
  match cs with
  | '0' :: 'x' :: ds => readMarked? 16 ds
  | '0' :: 'o' :: ds => readMarked? 8 ds
  | '0' :: 'b' :: ds => readMarked? 2 ds
  | _ =>
    let (negative, ds) := Floating.cutSign cs
    if ds = "inf".toList then some (.real (.infinite negative))
    else if ds = "nan".toList then some (.real .undefined)
    else
      match readWhole? ds with
      | some digits => (Decimal.spell? 0 digits).bind (signed? negative)
      | none => readReal? negative ds

/-- A character of an unquoted scalar. -/
def isScalarChar (c : Char) : Bool :=
  c.isAlphanum || c == '_' || c == '+' || c == '-' || c == '.'

/-- A truth value or a number. -/
def readWord : Read Value := do
  let cs ← Read.many isScalarChar
  if cs = "true".toList then pure (.truth true)
  else if cs = "false".toList then pure (.truth false)
  else
    match readNumber? cs with
    | some v => pure v
    | none => failure

end Keyload.Settings.Toml
