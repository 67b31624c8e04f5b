import Keyload.KeySpace.Basic

/-!
# Prefix lists

The prefix lists that were asked for. A level's list is drawn when it is first asked for and kept from then
on; whoever asks again gets what was kept.
-/
namespace Keyload

/-- A key space, and the lists of the levels that were asked for. -/
structure PrefixLists where
  keySpace : KeySpace
  kept : List (Nat × Array String)

namespace PrefixLists

/-- No level was asked for. -/
def new (ks : KeySpace) : PrefixLists := ⟨ks, []⟩

/-- Every key or prefix at a level; a list that can not be drawn is not kept. -/
def prefixes (level : Nat) : StateM PrefixLists (Except Fault (Array String)) := fun t =>
  match t.kept.lookup level with
  | some keys => (.ok keys, t)
  | none =>
    match t.keySpace.prefixes level with
    | .ok keys => (.ok keys, { t with kept := (level, keys) :: t.kept })
    | .error f => (.error f, t)

/-- The entries of a level as a text, one to a line. -/
def keyList (level : Nat) : StateM PrefixLists (Except Fault String) := do
  let keys ← prefixes level
  pure (keys.map KeySpace.listing)

end PrefixLists

end Keyload
