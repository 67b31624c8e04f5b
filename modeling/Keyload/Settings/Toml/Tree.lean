import Keyload.Settings.Value

/-!
# Tables of a settings file

The tables of a file while it is read. How a table came about decides what may still be added: one with
a header of its own is never opened again, one that dotted keys made takes only dotted keys, and one
that merely lies on the way to another may get its header later.
-/
namespace Keyload.Settings.Toml

/-- How a table came about. -/
inductive Origin where
  /-- By a header of its own, or by braces. -/
  | header
  /-- On the way to a header. -/
  | passed
  /-- By a dotted key. -/
  | dotted
  deriving DecidableEq, Repr

/-- What is under a key. -/
inductive Node where
  | closed (value : Value)
  | table (origin : Origin) (entries : List (String × Node))
  /-- Tables with one header each, the last one first. -/
  | tables (latest : List (String × Node)) (earlier : List Value)
  deriving Repr, Inhabited

namespace Node

/-- The entries with `node` under `key`, in its old place if there was one. -/
def insert (key : String) (node : Node) : List (String × Node) → List (String × Node)
  | [] => [(key, node)]
  | (k, n) :: rest => if k = key then (k, node) :: rest else (k, n) :: insert key node rest

mutual

/-- The value of a node when the file has ended. -/
def toValue : Node → Value
  | closed v => v
  | table _ es => .table (entryValues es)
  | tables es earlier => .list (earlier.reverse ++ [.table (entryValues es)])

/-- The values of entries. -/
def entryValues : List (String × Node) → List (String × Value)
  | [] => []
  | (k, n) :: rest => (k, toValue n) :: entryValues rest

end

/-- The entries of a table. -/
abbrev Entries := List (String × Node)

/-- Change the entries at the end of a path of headers; tables that are missing are made. -/
def within (f : Entries → Option Entries) : List String → Entries → Option Entries
  | [], es => f es
  | key :: path, es =>
    match es.lookup key with
    | none => (within f path []).map fun inner => insert key (table .passed inner) es
    | some (table origin inner) =>
      (within f path inner).map fun inner => insert key (table origin inner) es
    | some (tables latest earlier) =>
      (within f path latest).map fun latest => insert key (tables latest earlier) es
    | some (closed _) => none

/-- Set the value of a dotted key; the tables on the way are not ones with a header, and the last of them
was made by dotted keys. -/
def assign (value : Value) (key : String) : List String → Entries → Option Entries
  | [], es => if (es.lookup key).isSome then none else some (insert key (closed value) es)
  | next :: path, es =>
    match es.lookup key with
    | none =>
      (assign value next path []).map fun inner => insert key (table .dotted inner) es
    | some (table .dotted inner) =>
      (assign value next path inner).map fun inner => insert key (table .dotted inner) es
    | some (table .passed inner) =>
      if path.isEmpty then none
      else (assign value next path inner).map fun inner => insert key (table .passed inner) es
    | some (tables latest earlier) =>
      if path.isEmpty then none
      else
        (assign value next path latest).map fun latest => insert key (tables latest earlier) es
    | some _ => none

/-- Open the table of a header: it is new, or so far only passed. -/
def openTable (key : String) (es : Entries) : Option Entries :=
  match es.lookup key with
  | none => some (insert key (table .header []) es)
  | some (table .passed inner) => some (insert key (table .header inner) es)
  | some _ => none

/-- Open a further table under a header in double brackets. -/
def openNext (key : String) (es : Entries) : Option Entries :=
  match es.lookup key with
  | none => some (insert key (tables [] []) es)
  | some (tables latest earlier) =>
    some (insert key (tables [] (.table (entryValues latest) :: earlier)) es)
  | some _ => none

end Node

end Keyload.Settings.Toml
