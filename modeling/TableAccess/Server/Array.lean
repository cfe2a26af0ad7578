import TableAccess.Number.Printer
import TableAccess.Server.Conversion

/-!
# Texts of arrays

An array is written between braces with commas between its elements.  Elements that are texts
stand between quotes, with a backslash before every quote and backslash inside; such a text can
be read back without loss.
-/

namespace TableAccess.Server

open TableAccess.Number (Layout intText)

/-- Items with commas between them. -/
def commaJoin : List (List Char) → List Char
  | [] => []
  | [s] => s
  | s :: t :: r => s ++ ',' :: commaJoin (t :: r)

/-- Items between braces. -/
def braced (items : List (List Char)) : List Char := '\x7b' :: (commaJoin items ++ ['\x7d'])

/-- A text between quotes. -/
def quotedElement (s : List Char) : List Char :=
  '"' :: ((s.flatMap fun c => if c = '"' ∨ c = '\\' then ['\\', c] else [c]) ++ ['"'])

/-- The array of texts. -/
def textArray (items : List (List Char)) : List Char := braced (items.map quotedElement)

/-- The types of elements that are written as they are. -/
inductive ScalarType where
  | boolean
  | integer (w : Word)
  | double
deriving DecidableEq

/-- The text of an element of a type. -/
def scalarText? (t : ScalarType) (d : Datum) : Option (List Char) :=
  match t, d with
  | .boolean, .bool b => some (toString b).toList
  | .integer w, d => (d.inWord? w).map intText
  | .double, .double x => some (Layout.plain.text x)
  | _, _ => none

/-- The data of an array of at most one dimension.  Without one there are no data and no first
index; with one the first index must be one. -/
def plainItems? : Cell → Option (List Datum)
  | .array 0 _ _ => some []
  | .array 1 first items => if first = 1 then some items else none
  | .array _ _ _ => none
  | .datum _ => none

end TableAccess.Server
