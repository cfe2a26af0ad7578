/-!
# Quoted identifiers

A name stands between two quote characters, and every quote character inside is doubled.  Scanning
reads such an identifier at the front of a text: a doubled quote stands for one, a single quote
ends the identifier.
-/

namespace TableAccess.Sql

/-- The name with every quote doubled. -/
def doubled (quote : Char) (name : List Char) : List Char :=
  name.flatMap fun c => if c = quote then [quote, quote] else [c]

/-- The name between quotes. -/
def quoteIdentifier (quote : Char) (name : List Char) : List Char :=
  quote :: (doubled quote name ++ [quote])

/-- The rest of an identifier after its opening quote, and what follows the closing one. -/
def scanQuoted (quote : Char) : List Char → Option (List Char × List Char)
  | [] => none
  | c :: r =>
    if c = quote then
      match r with
      | d :: r =>
        if d = quote then (scanQuoted quote r).map fun (name, rest) => (quote :: name, rest)
        else some ([], d :: r)
      | [] => some ([], [])
    else (scanQuoted quote r).map fun (name, rest) => (c :: name, rest)

/-- An identifier at the front of a text, and what follows it. -/
def scanIdentifier (quote : Char) : List Char → Option (List Char × List Char)
  | [] => none
  | c :: r => if c = quote then scanQuoted quote r else none

/-- The statement for all rows of a table. -/
def selectAllFrom (quote : Char) (table : String) : String :=
  "SELECT * FROM " ++ String.ofList (quoteIdentifier quote table.toList)

end TableAccess.Sql
