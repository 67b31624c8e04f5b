import Keyload.Pattern.Level
import Keyload.Text.Lower

/-!
# Builder rules

A builder rule is a named list of instance names that patterns refer to: fixed values, or texts drawn
from an expression. Drawn names are kept, and more are appended when a pattern asks for more, so that
every pattern sees the same ones.
-/
namespace Keyload.Pattern

/-- A builder rule as it is declared. -/
structure BuilderDefinition where
  values : List String
  /-- The expression that names are drawn from when there are no values. -/
  pattern : Option String
  count : Nat
  /-- The bound of every count, zero when there is none. -/
  max : Nat
  deriving DecidableEq, Repr

/-- A builder rule and the names it has so far. -/
structure Builder where
  name : String
  count : Nat
  max : Nat
  /-- What further names are drawn from; fixed values have none. -/
  generator : Option Regex
  instances : Array String
  deriving Repr

namespace Builder

/-- Whether the rule may be used with `count` instances. -/
def checkCount (b : Builder) (count : Nat) : Except DefinitionError Unit :=
  if 0 < b.max ∧ b.max < count then .error (.countExceedsMax b.name count b.max)
  else if b.generator.isNone ∧ b.instances.size < count then
    .error (.countExceedsMax b.name count b.instances.size)
  else .ok ()

variable {σ : Type} [RandomSource σ]

/-- Append `n` drawn names. -/
def extend (r : Regex) : Nat → Array String → Draw σ (Array String)
  | 0, names => pure names
  | n + 1, names => do
    let name ← r.draw
    extend r n (names.push name)

/-- A rule whose own count is allowed. -/
def checked (b : Builder) : ExceptT DefinitionError (Draw σ) Builder :=
  match b.checkCount b.count with
  | .ok () => pure b
  | .error e => throw e

/-- The rule that a definition declares. -/
def ofDefinition (name : String) (d : BuilderDefinition) :
    ExceptT DefinitionError (Draw σ) Builder := do
  if 0 < d.max ∧ d.max < d.count then throw (.countExceedsMax name d.count d.max)
  if !d.values.isEmpty then checked ⟨name, d.count, d.max, none, d.values.toArray⟩
  else
    match d.pattern with
    | some source =>
      let r ← ExceptT.mk (Draw.lift (Regex.compile source).run)
      let names ← (extend r d.count #[] : Draw σ _)
      checked ⟨name, d.count, d.max, some r, names⟩
    | none => throw (.emptyRule name)

/-- The rule with at least `count` names, if it can draw them. -/
def grow (b : Builder) (count : Nat) : Draw σ Builder :=
  match b.generator with
  | some r => do
    let names ← extend r (count - b.instances.size) b.instances
    pure { b with instances := names }
  | none => pure b

/-- The level of the first `count` names, once the rule has them. -/
def level (b : Builder) (source : String) (count : Nat) : Except Fault Level :=
  if count ≤ b.instances.size then
    .ok ⟨source, .names (b.instances.extract 0 count), count, b.max, none⟩
  else .error .outOfRange

end Builder

/-! ## Tables -/

/-- Builder rules by name. -/
structure BuilderTable where
  rules : List Builder
  deriving Repr

namespace BuilderTable

/-- No rules. -/
def empty : BuilderTable := ⟨[]⟩

/-- Whether a rule has a name. -/
def named (name : String) (b : Builder) : Bool := b.name == name

/-- The rule of a name; case does not matter. -/
def find? (t : BuilderTable) (name : String) : Option Builder :=
  t.rules.find? (named (Text.lower name))

/-- Put a rule in, in place of one of the same name. -/
def insert (t : BuilderTable) (b : Builder) : BuilderTable :=
  if t.rules.any (named b.name) then
    ⟨t.rules.map fun old => if named b.name old then b else old⟩
  else ⟨t.rules ++ [b]⟩

variable {σ : Type} [RandomSource σ]

/-- Add the declared rules, in the order they are visited, under their names in lower case. -/
def add (t : BuilderTable) :
    List (String × BuilderDefinition) → ExceptT DefinitionError (Draw σ) BuilderTable
  | [] => pure t
  | (name, d) :: rest => do
    let b ← Builder.ofDefinition (Text.lower name) d
    add (t.insert b) rest

end BuilderTable

end Keyload.Pattern
