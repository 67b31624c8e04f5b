import Keyload.Number.Floating
import Keyload.Text.Lower

/-!
# Setting values

The values that a source of settings can hold, and laying one over another: tables merge key by key,
any other value takes the place of what was there. Keys are lower-cased on the way.
-/
namespace Keyload.Settings

/-- A value of a setting; the keys of a table are distinct. -/
inductive Value where
  | absent
  | truth (b : Bool)
  | whole (i : Int)
  | real (x : Floating)
  | text (s : String)
  | list (items : List Value)
  | table (entries : List (String × Value))
  deriving Repr, Inhabited

namespace Value

/-- The value under a key. -/
def lookup? (key : String) : List (String × Value) → Option Value := List.lookup key

/-- The entries with `value` under `key`, in its old place if there was one. -/
def insert (key : String) (value : Value) : List (String × Value) → List (String × Value)
  | [] => [(key, value)]
  | (k, v) :: rest => if k = key then (k, value) :: rest else (k, v) :: insert key value rest

/-- The entries of a table; none of any other value. -/
def entries : Value → List (String × Value)
  | table es => es
  | _ => []

mutual

/-- Lay a value over the entry of a key. -/
def put (target : List (String × Value)) (key : String) : Value → List (String × Value)
  | table es =>
    let name := Text.lower key
    match lookup? name target with
    | some (table old) => insert name (table (putAll old es)) target
    | some _ => if es.isEmpty then target else insert name (table (putAll [] es)) target
    | none => insert name (table (putAll [] es)) target
  | value => insert (Text.lower key) value target

/-- Lay entries over entries. -/
def putAll (target : List (String × Value)) : List (String × Value) → List (String × Value)
  | [] => target
  | (key, value) :: rest => putAll (put target key value) rest

end

/-- A value under a path of keys. -/
def nest : List String → Value → Value
  | [], v => v
  | key :: rest, v => table [(key, nest rest v)]

/-- Lay a value over what a path leads to. -/
def putPath (target : List (String × Value)) (path : List String) (value : Value) :
    List (String × Value) :=
  match path with
  | [] => target
  | key :: rest => put target key (nest rest value)

end Value

end Keyload.Settings
