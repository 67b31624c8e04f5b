/-!
# Splitting text

Cutting a text at a mark: at every one, at the first, at the last.
-/
namespace Keyload.Text

/-- The parts between the marks: one more than there are marks. -/
def splitAll (mark : Char) : List Char → List (List Char)
  | [] => [[]]
  | c :: rest =>
    if c = mark then [] :: splitAll mark rest
    else
      match splitAll mark rest with
      | [] => [[c]]
      | part :: parts => (c :: part) :: parts

/-- The text before and after the first mark. -/
def cutFirst (mark : Char) : List Char → Option (List Char × List Char)
  | [] => none
  | c :: rest =>
    if c = mark then some ([], rest)
    else (cutFirst mark rest).map fun (a, b) => (c :: a, b)

/-- The text before and after the last mark. -/
def cutLast (mark : Char) : List Char → Option (List Char × List Char)
  | [] => none
  | c :: rest =>
    match cutLast mark rest with
    | some (a, b) => some (c :: a, b)
    | none => if c = mark then some ([], rest) else none

/-- The text without its last character, if that is the mark. -/
def dropLast? (mark : Char) (cs : List Char) : Option (List Char) :=
  match cs.reverse with
  | c :: rest => if c = mark then some rest.reverse else none
  | [] => none

end Keyload.Text
