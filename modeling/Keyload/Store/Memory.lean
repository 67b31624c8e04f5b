import Std.Data.TreeMap.Basic
import Keyload.Number.Sum
import Keyload.Store.Feed
import Keyload.Store.Operation

/-!
# The store in memory

A finite map from keys to values, ordered by key, with the history of its changes. It can be told to
fail puts and to cancel its watches.
-/
namespace Keyload

/-- The state of a store. -/
structure Memory where
  data : Std.TreeMap String ByteArray
  /-- Puts still to fail. -/
  failing : Nat
  feed : Feed

namespace Memory

/-- An empty store. -/
def empty : Memory := ⟨∅, 0, #[]⟩

/-- The number of keys. -/
def size (m : Memory) : Nat := m.data.size

/-- The keys in order. -/
def keys (m : Memory) : List String := m.data.keys

/-- The value of a key. -/
def get? (m : Memory) (key : String) : Option ByteArray := m.data[key]?

/-- Whether a key starts with a text. -/
def startsWith (base key : String) : Bool := base.toList.isPrefixOf key.toList

/-- The entries from a key on, in order. -/
def entriesFrom (m : Memory) (base : String) : List (String × ByteArray) :=
  m.data.toList.filter fun (k, _) => (compare k base).isGE

/-- The entries whose keys start with a text: a scan from the text on, up to the first key that does not. -/
def below (m : Memory) (base : String) : List (String × ByteArray) :=
  (m.entriesFrom base).takeWhile fun (k, _) => startsWith base k

/-- The number of keys that start with a text. -/
def countBelow (m : Memory) (base : String) : Nat := (m.below base).length

/-- Make the next puts fail. -/
def failPuts (m : Memory) (n : Nat) : Memory := { m with failing := n }

/-- Cancel every open watch. -/
def cancelWatches (m : Memory) : Memory := { m with feed := m.feed.push .canceled }

/-- Write a value, whatever puts are to fail. -/
def write (m : Memory) (key : String) (value : ByteArray) : Memory :=
  { m with data := m.data.insert key value, feed := m.feed.push (.changed ⟨.put, key, value⟩) }

/-- Remove a key and tell so. -/
def remove (m : Memory) (key : String) : Memory :=
  { m with
    data := m.data.erase key
    feed := m.feed.push (.changed ⟨.delete, key, ByteArray.empty⟩) }

/-- The bytes of an entry that a read counts. -/
def entrySize (keysOnly : Bool) (key : String) (value : ByteArray) : Nat :=
  key.utf8ByteSize + if keysOnly then 0 else value.size

/-- The answer to a read. -/
def read (m : Memory) (key : String) (below keysOnly : Bool) : Answer :=
  if below then
    let found := m.below key
    .get true found.length (sumAll (found.map fun (k, v) => entrySize keysOnly k v))
  else
    match m.get? key with
    | some v => .get false 1 (entrySize keysOnly key v)
    | none => .get false 0 0

/-- The keys that a delete removes. -/
def doomed (m : Memory) (key : String) (below : Bool) : List String :=
  if below then (m.below key).map Prod.fst else if m.data.contains key then [key] else []

/-- Carry out an operation. -/
def execute (m : Memory) : Operation → Except StoreError Answer × Memory
  | .put key value =>
    if 0 < m.failing then
      (.error (.backend s!"injected put failure for {key}"), { m with failing := m.failing - 1 })
    else
      let bytes := value.toUTF8
      (.ok (.put (key.utf8ByteSize + bytes.size)), m.write key bytes)
  | .get key below _ keysOnly => (.ok (m.read key below keysOnly), m)
  | .delete key below =>
    let keys := m.doomed key below
    (.ok (.delete keys.length), keys.foldl remove m)

/-- Open a watch. -/
def watch (m : Memory) (key : String) (withPrefix : Bool) : Watching := m.feed.watch key withPrefix

end Memory

end Keyload
