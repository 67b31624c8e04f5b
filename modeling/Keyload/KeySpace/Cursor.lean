import Keyload.Number.Sum
import Keyload.Pattern.Basic

/-!
# Cursors

A cursor walks the key tree of one pattern depth first, in the order in which instances are declared,
and draws every name when its node is first reached. It rests on a stack of open nodes, so it can stop
after any entry and go on later.
-/
namespace Keyload

/-- A key, or a prefix of keys, at a level of the tree; only a key has a value. -/
structure Entry where
  level : Nat
  key : String
  value : Option String
  deriving DecidableEq, Repr

/-- An open node: the level of its children, the number of the next one, and the text before its name. -/
structure Frame where
  level : Nat
  next : Nat
  base : String
  deriving DecidableEq, Repr

/-- A position in the key tree of a pattern. -/
structure Cursor where
  /-- The level whose entries are wanted in place of the leaves. -/
  stop : Option Nat
  /-- The open nodes, innermost first. -/
  stack : List Frame
  deriving DecidableEq, Repr

namespace Cursor

open Pattern (Level)

/-- A cursor before the children, at `level`, of the node `base`. -/
def below (base : String) (level : Nat) (stop : Option Nat) : Cursor := ⟨stop, [⟨level, 0, base⟩]⟩

/-- A cursor before the first entry of the whole tree. -/
def start (stop : Option Nat) : Cursor := below "" 0 stop

/-- Go back to before the children, at `level`, of the node `base`. -/
def startingAt (c : Cursor) (base : String) (level : Nat) : Cursor := below base level c.stop

/-- Want the entries at `level` in place of the leaves. -/
def stopAt (c : Cursor) (level : Nat) : Cursor := { c with stop := some level }

/-- The steps that remain in a subtree whose children stand at the first of the levels. -/
def subtreeWork : List Level → Nat
  | [] => 1
  | l :: rest => l.count * (1 + subtreeWork rest) + 1

/-- The steps that remain for an open node. -/
def frameWork (levels : List Level) (f : Frame) : Nat :=
  match levels.drop f.level with
  | [] => 1
  | l :: rest => (l.count - f.next) * (1 + subtreeWork rest) + 1

/-- The steps that remain for a stack. -/
def work (levels : List Level) (stack : List Frame) : Nat := sumAll (stack.map (frameWork levels))

theorem work_cons (levels : List Level) (f : Frame) (rest : List Frame) :
    work levels (f :: rest) = frameWork levels f + work levels rest := rfl

theorem frameWork_pos (levels : List Level) (f : Frame) : 0 < frameWork levels f := by
  unfold frameWork
  split <;> omega

/-- Opening a child takes a step off what remains. -/
theorem frameWork_child (levels : List Level) (f : Frame) (l : Level) (key : String)
    (hl : levels[f.level]? = some l) (hn : f.next < l.count) :
    frameWork levels ⟨f.level + 1, 0, key⟩ + frameWork levels { f with next := f.next + 1 } <
      frameWork levels f := by
  obtain ⟨h, rfl⟩ := List.getElem?_eq_some_iff.1 hl
  have hd : levels.drop f.level = levels[f.level] :: levels.drop (f.level + 1) :=
    List.drop_eq_getElem_cons h
  have hc : frameWork levels ⟨f.level + 1, 0, key⟩ = subtreeWork (levels.drop (f.level + 1)) := by
    unfold frameWork
    cases levels.drop (f.level + 1) <;> simp [subtreeWork]
  have hs : levels[f.level].count - f.next = (levels[f.level].count - (f.next + 1)) + 1 := by omega
  rw [hc]
  simp only [frameWork, hd, hs, Nat.add_mul]
  omega

variable {σ : Type} [RandomSource σ]

/-- The next entry and the open nodes after it. -/
def advanceStack (levels : List Level) (stop : Option Nat) :
    List Frame → Draw σ (Option Entry × List Frame)
  | [] => pure (none, [])
  | f :: rest =>
    match hl : levels[f.level]? with
    | none => advanceStack levels stop rest
    | some l =>
      if hn : f.next < l.count then do
        let name ← l.instanceName f.next
        let key := f.base ++ "/" ++ name
        let after := { f with next := f.next + 1 } :: rest
        if stop = some f.level then pure (some ⟨f.level, key, none⟩, after)
        else if l.isLeaf then do
          let value ← l.drawValue
          pure (some ⟨f.level, key, some value⟩, after)
        else advanceStack levels stop (⟨f.level + 1, 0, key⟩ :: after)
      else advanceStack levels stop rest
termination_by stack => work levels stack
decreasing_by
  · rw [work_cons]
    have := frameWork_pos levels f
    omega
  · simp only [work_cons]
    have := frameWork_child levels f l (f.base ++ "/" ++ name) hl hn
    omega
  · rw [work_cons]
    have := frameWork_pos levels f
    omega

/-- The next entry, if there is one, and the position after it. -/
def advance (c : Cursor) (levels : List Level) : Draw σ (Option Entry × Cursor) := do
  let (entry, stack) ← advanceStack levels c.stop c.stack
  pure (entry, { c with stack })

/-- Add at most `n` entries to those before; also whether the end was met. -/
def take (levels : List Level) : Nat → Cursor → Array Entry → Draw σ (Array Entry × Bool)
  | 0, _, es => pure (es, false)
  | n + 1, c, es => do
    match ← c.advance levels with
    | (none, _) => pure (es, true)
    | (some e, c) => take levels n c (es.push e)

/-- All entries that are still to come. -/
def rest (c : Cursor) (levels : List Level) : Draw σ (Array Entry) := do
  let (es, _) ← take levels (work levels c.stack) c #[]
  pure es

end Cursor

end Keyload
