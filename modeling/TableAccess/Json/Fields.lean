import TableAccess.Json.Parser

/-!
# Reading records from JSON

A record is an object with known keys: each known value has a reader of its own, and values of
other keys are passed over by their shape.  A record may also be an array of its values in
order.  The readers give the fields in the order in which they stand; what a record makes of
missing or repeated ones is its own affair.
-/

namespace TableAccess.Json

/-- A reader takes something from the front of a text and gives what follows it. -/
abbrev Reader (α : Type) : Type := List Char → Option (α × List Char)

/-- Read, then convert what was read. -/
def Reader.map? (reader : Reader α) (f : α → Option β) : Reader β := fun s =>
  match reader s with
  | some (a, r) => (f a).map (·, r)
  | none => none

/-- A whole value, read strictly. -/
def valueReader : Reader Json := readValue .strict maxDepth

/-- A string. -/
def stringReader : Reader String := valueReader.map? fun
  | .string s => some s
  | _ => none

/-- A member of an object: a known value, or nothing for one that is passed over. -/
def readField (known : String → Option (Reader α)) (s : List Char) :
    Option (Option α × List Char) :=
  match readKey? .strict s with
  | none => none
  | some (key, r) =>
    match known key with
    | some value => (value r).map fun (a, r) => (some a, r)
    | none => (skipValue? r).map fun r => (none, r)

/-- The known values of an object, in order. -/
def readFields (known : String → Option (Reader α)) : Reader (List α) := fun s =>
  match expect? '\x7b' s with
  | none => none
  | some r =>
    (readSequence (readField known) '\x7d' r).map fun (fields, r) => (fields.filterMap id, r)

/-- The values of an array after its first one, each by the reader of its place. -/
def readRest : List (Reader α) → Reader (List α)
  | [], s => (expect? ']' s).map ([], ·)
  | reader :: readers, s =>
    match skipSpace s with
    | ']' :: r => some ([], r)
    | ',' :: r =>
      match reader r with
      | none => none
      | some (a, r) => (readRest readers r).map fun (as, r) => (a :: as, r)
    | _ => none

/-- The values of an array, each by the reader of its place; there may be fewer values than
readers, but not more. -/
def readPlaces (readers : List (Reader α)) : Reader (List α) := fun s =>
  match expect? '[' s, readers with
  | none, _ => none
  | some r, [] => (expect? ']' r).map ([], ·)
  | some r, reader :: readers =>
    match skipSpace r with
    | ']' :: r => some ([], r)
    | r =>
      match reader r with
      | none => none
      | some (a, r) => (readRest readers r).map fun (as, r) => (a :: as, r)

/-- The text starts with the character, after blanks. -/
def startsWith (c : Char) (s : List Char) : Bool := (skipSpace s).head? == some c

/-- The name of a choice: a string, or an object whose only key it is and whose value is null. -/
def choiceReader : Reader String := fun s =>
  if startsWith '"' s then stringReader s
  else do
    let r ← expect? '\x7b' s
    let (name, r) ← readKey? .strict r
    let (v, r) ← valueReader r
    let r ← expect? '\x7d' r
    match v with
    | .null => some (name, r)
    | _ => none

end TableAccess.Json
