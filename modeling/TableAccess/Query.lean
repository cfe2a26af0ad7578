import TableAccess.Error
import TableAccess.Text.Alphanumeric
import TableAccess.Text.Ascii
import TableAccess.Text.Blank

/-!
# The query language of embedded databases

One statement is understood: `SELECT * FROM table`, with keywords in any case, blanks between
the words, and an optional semicolon at the end.  The table may stand in quotes of four kinds;
without quotes its name is made of alphanumeric characters, underscores, points and dollar
signs.  Every other text is refused with a reason.
-/

namespace TableAccess.Query

open TableAccess.Text

/-- Why a text is not a query. -/
inductive Reason where
  | notSelect
  | projection
  | noFrom
  | noTable
  | unbalancedQuotes
  | mismatchedQuotes
  | condition
  | ordering
  | join
  | trailingText
  | badCharacter
deriving DecidableEq

def Reason.message : Reason → String
  | .notSelect => "only SELECT * FROM <table> is supported"
  | .projection => "column projection is not supported; use SELECT *"
  | .noFrom => "expected FROM after SELECT *"
  | .noTable => "missing table name"
  | .unbalancedQuotes => "unbalanced quotes around table name"
  | .mismatchedQuotes => "mismatched quotes around table name"
  | .condition => "WHERE clauses are not supported"
  | .ordering => "ordering is not supported"
  | .join => "joins are not supported"
  | .trailingText => "unexpected text after table name"
  | .badCharacter => "unexpected character in unquoted table name"

/-- The characters that quote a table name. -/
def isQuote (c : Char) : Bool := c == '"' || c == '\'' || c == '\x60' || c == '[' || c == ']'

/-- The characters of an unquoted table name. -/
def isNameChar (c : Char) : Bool := isAlphanumeric c || c == '_' || c == '.' || c == '$'

/-- The quote that closes a name which `c` opens. -/
def closing? (c : Char) : Option Char :=
  if c == '"' || c == '\'' || c == '\x60' then some c else if c == '[' then some ']' else none

/-- What follows a keyword and the blanks after it; at least one blank must follow. -/
def takeKeyword? (keyword : List Char) (s : List Char) : Option (List Char) :=
  let head := s.take keyword.length
  let tail := s.drop keyword.length
  if sameIgnoringCase head keyword && startsBlank tail then some (trimStart tail) else none

/-- Why text after the table name is refused. -/
def trailingReason (s : List Char) : Reason :=
  let upper := (trimStart s).map upperAscii
  let starts := fun (word : String) => word.toList.isPrefixOf upper
  if starts "WHERE" then .condition
  else if starts "ORDER" then .ordering
  else if starts "JOIN" || containsPiece " JOIN ".toList upper || starts "INNER" || starts "LEFT"
    then .join
  else .trailingText

/-- A name in quotes, after the opening one. -/
def quotedTable (close : Char) (s : List Char) : Except Reason (List Char) :=
  let name := s.takeWhile (· != close)
  match s.dropWhile (· != close) with
  | [] => .error .unbalancedQuotes
  | _ :: [] =>
    if name.any isQuote then .error .mismatchedQuotes
    else if name.isEmpty then .error .noTable
    else .ok name
  | _ :: after => .error (trailingReason after)

/-- A name without quotes. -/
def bareTable (s : List Char) : Except Reason (List Char) :=
  if s.contains ',' then .error .join
  else if s.any isBlank then .error (trailingReason (s.dropWhile fun c => !isBlank c))
  else if s.any isQuote then .error .unbalancedQuotes
  else if !s.all isNameChar then .error .badCharacter
  else .ok s

/-- The table name, which goes to the end of the text. -/
def table : List Char → Except Reason (List Char)
  | [] => .error .noTable
  | c :: r =>
    match closing? c with
    | some close => quotedTable close r
    | none => bareTable (c :: r)

/-- What follows the star and the blanks after it; at least one blank must follow. -/
def takeStar? : List Char → Option (List Char)
  | '*' :: r => if startsBlank r then some (trimStart r) else none
  | _ => none

/-- Without blanks around, the semicolon at the end and blanks before that. -/
def statement (s : List Char) : List Char :=
  let s := trim s
  if s.getLast? == some ';' then trimEnd s.dropLast else s

/-- The table that a query selects. -/
def read (s : List Char) : Except Reason (List Char) :=
  match takeKeyword? "SELECT".toList (statement s) with
  | none => .error .notSelect
  | some r =>
    match takeStar? r with
    | none => .error .projection
    | some r =>
      match takeKeyword? "FROM".toList r with
      | none => .error .noFrom
      | some r => table r

/-- The table that a query selects; a refused query is reported unchanged. -/
def parse (q : String) : Except Error String :=
  match read q.toList with
  | .ok name => .ok (String.ofList name)
  | .error reason => .error (.unsupportedQuery q reason.message)

end TableAccess.Query
