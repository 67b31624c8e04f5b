import Keyload.Churn.Slots
import Keyload.KeySpace.Basic
import Keyload.Settings.Basic
import Keyload.Store.Operation

/-!
# Activities

What keeps a store busy once its keys are there: values of random keys are replaced, whole subtrees are
removed and built again, and random prefixes are read. Each activity needs a key space of one pattern. A
step of an activity is one operation, or the puts of a subtree, which are drawn one after another as
they are sent.
-/
namespace Keyload.Churn

/-- Putting new values for random leaf keys. -/
structure ValueChurn where
  leaf : Pattern.Level
  keys : Array String
  keys_pos : 0 < keys.size
  deriving Repr

/-- Removing subtrees below one level and building them again. -/
structure LevelChurn where
  pattern : Pattern
  level : Nat
  prefixes : Array String
  slots : Slots
  deriving Repr

/-- Reading random prefixes of one level; above the leaves a read covers the subtree. -/
structure LevelRead where
  prefixes : Array String
  leaf : Bool
  serializable : Bool
  keysOnly : Bool
  prefixes_pos : 0 < prefixes.size
  deriving Repr

/-- The prefixes of a level, of which there has to be one. -/
def populated (ks : KeySpace) (level : Nat) :
    Outcome DefinitionError { keys : Array String // 0 < keys.size } :=
  ExceptT.mk <| (ks.prefixes level).map fun keys =>
    if h : 0 < keys.size then .ok ⟨keys, h⟩ else .error (.emptyLevel level)

/-- The only pattern of a key space. -/
def onlyPattern (ks : KeySpace) (activity : String) : Outcome DefinitionError Pattern :=
  ExceptT.mk (.ok (ks.single activity))

namespace ValueChurn

/-- The churn of a key space with one pattern. -/
def new (ks : KeySpace) : Outcome DefinitionError ValueChurn := do
  let pattern ← onlyPattern ks "Value churn"
  let ⟨keys, h⟩ ← populated ks (pattern.depth - 1)
  match pattern.leaf? with
  | some leaf => pure ⟨leaf, keys, h⟩
  | none => throw (.emptyLevel (pattern.depth - 1))

variable {σ : Type} [RandomSource σ]

/-- The next put. -/
def next (a : ValueChurn) : Draw σ Operation := do
  let i ← Uniform.below a.keys.size
  let value ← a.leaf.drawValue
  pure (.put (a.keys[i]?.getD "") value)

end ValueChurn

namespace LevelChurn

/-- The churn of a level above the leaves. -/
def new (ks : KeySpace) (level pct : Nat) : Outcome DefinitionError LevelChurn := do
  let pattern ← onlyPattern ks "Level churn"
  if pattern.depth ≤ level + 1 then throw (.levelTooDeep "Level churn" level pattern.depth)
  let ⟨prefixes, _⟩ ← populated ks level
  let slots ← ExceptT.lift (Slots.new prefixes.size pct)
  pure ⟨pattern, level, prefixes, slots⟩

/-- A cursor before the keys of a subtree. -/
def subtree (a : LevelChurn) (base : String) : Cursor := (Cursor.start none).startingAt base (a.level + 1)

end LevelChurn

namespace LevelRead

/-- The reads of a level. -/
def new (ks : KeySpace) (settings : Settings.Reads) : Outcome DefinitionError LevelRead := do
  let pattern ← onlyPattern ks "Get level"
  match pattern.levels[settings.level]? with
  | none => throw (.levelTooDeep "Get level" settings.level pattern.depth)
  | some level =>
    let ⟨prefixes, h⟩ ← populated ks settings.level
    pure ⟨prefixes, level.isLeaf, settings.serializable, settings.keysOnly, h⟩

/-- The read of a key. -/
def operation (a : LevelRead) (key : String) : Operation :=
  .get key (!a.leaf) a.serializable a.keysOnly

variable {σ : Type} [RandomSource σ]

/-- The next read. -/
def next (a : LevelRead) : Draw σ Operation := do
  let i ← Uniform.below a.prefixes.size
  pure (a.operation (a.prefixes[i]?.getD ""))

end LevelRead

/-- An activity. -/
inductive Activity where
  | value (a : ValueChurn)
  | level (a : LevelChurn)
  | read (a : LevelRead)
  deriving Repr

/-- What a step of an activity sends. -/
inductive Step where
  /-- One operation. -/
  | send (op : Operation)
  /-- The puts of a subtree, which are still to be drawn. -/
  | build (subtree : Cursor)
  /-- Nothing, now and later. -/
  | nothing
  deriving DecidableEq, Repr

namespace Activity

/-- The name of an activity. -/
def name : Activity → String
  | value _ => "value_churn"
  | level _ => "level_churn"
  | read _ => "get_level"

/-- The slots of an activity that churns subtrees. -/
def slots? : Activity → Option Slots
  | level a => some a.slots
  | _ => none

variable {σ : Type} [RandomSource σ]

/-- Begin a step. -/
def next : Activity → Draw σ (Step × Activity)
  | value a => do
    let op ← a.next
    pure (.send op, value a)
  | read a => do
    let op ← a.next
    pure (.send op, read a)
  | level a => do
    let (step, slots) ← a.slots.next
    let after := level { a with slots }
    match step with
    | none => pure (.nothing, after)
    | some (.delete i) => pure (.send (.delete (a.prefixes[i]?.getD "") true), after)
    | some (.recreate i) => pure (.build (a.subtree (a.prefixes[i]?.getD "")), after)

/-- The put of an entry. -/
def putOf (e : Entry) : Operation := .put e.key (e.value.getD "")

/-- The next put of a subtree, and what is left of it. -/
def draw (levels : List Pattern.Level) (c : Cursor) : Draw σ (Option Operation × Cursor) := do
  let (entry, c) ← c.advance levels
  pure (entry.map putOf, c)

/-- The levels that a subtree is built from. -/
def levels : Activity → List Pattern.Level
  | level a => a.pattern.levels
  | _ => []

end Activity

end Keyload.Churn
