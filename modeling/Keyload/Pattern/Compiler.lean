import Keyload.Pattern.Basic
import Keyload.Pattern.Builder

/-!
# Compiling patterns

A pattern line is cut at `/`; empty segments do not count. A segment is `:name` for a builder rule,
`!expression` for a name drawn for every key, `%format` for numbered names, or a fixed name; rules and
formats take a number of instances in brackets at the end. The last segment, and no other, names the
values of its keys after a `;`.
-/
namespace Keyload.Pattern

/-- What patterns are compiled against: the builder rules, and lengths that override the values. -/
structure Compiler where
  builders : BuilderTable
  valueSpec : Option ValueSpec
  deriving Repr

/-- A step of compiling. It may draw names into the rules, and keeps them when it fails later. -/
abbrev Compile (σ : Type) := ExceptT DefinitionError (StateT Compiler (Draw σ))

namespace Compiler

variable {σ : Type} [RandomSource σ]

/-- A compiler for the declared builder rules, in the order they are visited. -/
def new (rules : List (String × BuilderDefinition)) (valueSpec : Option ValueSpec) :
    ExceptT DefinitionError (Draw σ) Compiler := do
  let builders ← BuilderTable.empty.add rules
  pure ⟨builders, valueSpec⟩

/-- The builder rule of a name. -/
def builder? (c : Compiler) (name : String) : Option Builder := c.builders.find? name

/-- A step that neither draws nor touches the rules. -/
def ofOutcome {α : Type} (x : Outcome DefinitionError α) : Compile σ α :=
  ExceptT.mk fun c g => x.run.map fun r => ((r, c), g)

/-- Split `name[n]` into the name and the count; the count is optional. -/
def splitCount (segment : List Char) :
    Except DefinitionError (List Char × Option Nat) :=
  match Text.dropLast? ']' segment with
  | none => .ok (segment, none)
  | some body =>
    match Text.cutLast '[' body with
    | none => .error (.invalidCount (String.ofList segment))
    | some (name, digits) =>
      match Decimal.word? digits with
      | some n => .ok (name, some n)
      | none => .error (.invalidCount (String.ofList segment))

/-- The name and the count of a segment. -/
def takeCount (segment : List Char) : Compile σ (List Char × Option Nat) :=
  match splitCount segment with
  | .ok r => pure r
  | .error e => throw e

/-- The values that the text after a `;` asks for; it must be valid even where lengths override it. -/
def valueSource (text : String) : Compile σ ValueSource := do
  let r ← ofOutcome (Regex.compile text)
  match (← get).valueSpec with
  | some spec => pure (.digits spec)
  | none => pure (.regex r)

/-- The level of a builder rule, which first grows to the names asked for. -/
def builderLevel (source : String) (b : Builder) (count : Nat) : Compile σ Level := do
  match b.checkCount count with
  | .error e => throw e
  | .ok () =>
    let b ← (fun c g => do
      let (b, g) ← b.grow count g
      pure ((.ok b, { c with builders := c.builders.insert b }), g) : Compile σ Builder)
    match b.level source count with
    | .ok l => pure l
    | .error f => ofOutcome (Outcome.stop f)

/-- The level of a segment without its value. -/
def level (pattern : String) (segment : List Char) : Compile σ Level := do
  let source := String.ofList segment
  match segment with
  | ':' :: rest =>
    let (name, count) ← takeCount rest
    match (← get).builder? (String.ofList name) with
    | none => throw (.unknownRule pattern (String.ofList name))
    | some b => builderLevel source b (count.getD b.count)
  | '!' :: rest =>
    let r ← ofOutcome (Regex.compile (String.ofList rest))
    pure ⟨source, .random r, 1, 1, none⟩
  | '%' :: rest =>
    let (format, count) ← takeCount rest
    let format := String.ofList format
    let f ← ofOutcome ((Format.read format).adapt fun flaw =>
      DefinitionError.invalidFormat format flaw.message)
    pure ⟨source, .format f, count.getD 1, 0, none⟩
  | _ => pure ⟨source, .names #[source], 1, 1, none⟩

/-- The levels of the segments; `ended` tells whether values were named before. -/
def levels (pattern : String) : Bool → List (List Char) → Compile σ (List Level)
  | _, [] => pure []
  | ended, segment :: rest => do
    if ended then throw (.leafNotLast pattern)
    let (path, text) := match Text.cutFirst ';' segment with
      | some (path, text) => (path, some text)
      | none => (segment, none)
    let value ← match text with
      | some text => some <$> valueSource (String.ofList text)
      | none => pure none
    let l ← level pattern path
    let ls ← levels pattern value.isSome rest
    pure ({ l with value := value } :: ls)

/-- The segments of a pattern line, empty ones left out. -/
def segments (source : String) : List (List Char) :=
  (Text.splitAll '/' source.toList).filter fun s => !s.isEmpty

/-- Compile a pattern. -/
def compile (source : String) : Compile σ Pattern := do
  let ls ← levels source false (segments source)
  match ls.getLast? with
  | none => throw (.emptyPattern source)
  | some l => if l.isLeaf then pure ⟨source, ls⟩ else throw (.missingValue source)

/-- Compile several patterns in order; the first error counts. -/
def compileAll : List String → Compile σ (List Pattern)
  | [] => pure []
  | source :: rest => do
    let p ← compile source
    let ps ← compileAll rest
    pure (p :: ps)

end Compiler

end Keyload.Pattern
