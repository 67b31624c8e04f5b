/-!
# Operations

The requests a store understands and what it answers.
-/
namespace Keyload

/-- A request to a store. -/
inductive Operation where
  | put (key value : String)
  /-- Read one key, or all keys that start with `key`. -/
  | get (key : String) (below serializable keysOnly : Bool)
  /-- Remove one key, or all keys that start with `key`. -/
  | delete (key : String) (below : Bool)
  deriving DecidableEq, Repr

/-- The kinds of operations that are counted apart. -/
inductive Kind where
  | put
  | delete
  | get
  | prefixGet
  deriving DecidableEq, Repr

namespace Kind

/-- The name of a kind. -/
def name : Kind → String
  | .put => "put"
  | .delete => "delete"
  | .get => "get"
  | .prefixGet => "prefix_get"

end Kind

namespace Operation

/-- The kind of an operation. -/
def kind : Operation → Kind
  | .put _ _ => .put
  | .get _ true _ _ => .prefixGet
  | .get _ false _ _ => .get
  | .delete _ _ => .delete

/-- The key of an operation. -/
def key : Operation → String
  | .put k _ => k
  | .get k _ _ _ => k
  | .delete k _ => k

end Operation

/-- What a store answers to an operation that succeeds; sizes are in bytes. -/
inductive Answer where
  | put (bytes : Nat)
  | get (below : Bool) (count bytes : Nat)
  | delete (deleted : Nat)
  deriving DecidableEq, Repr

end Keyload
