import TableAccess.Number.Digits
import TableAccess.Text.Ascii
import TableAccess.Sql.Identifier

/-!
# Statements of stores

The few statements that a store understands: all columns or one column of a table, the removal of
all rows of a table, and a row of parameters.  A statement is read token by token; what does not
fit is reported with the token where reading stopped.
-/

namespace TableAccess.Sqlite

open TableAccess.Number (isDigit ofDigits)

/-- A token of a statement. -/
inductive Token where
  | word (s : List Char)
  /-- A name between quotes, with the text in which it stood. -/
  | name (s : List Char) (written : List Char)
  | parameter (n : Nat) (written : List Char)
  | sign (c : Char)
deriving DecidableEq

namespace Token

/-- The text in which the token stood. -/
def written : Token → List Char
  | .word s => s
  | .name _ w => w
  | .parameter _ w => w
  | .sign c => [c]

/-- The token is a keyword, in letters of any case. -/
def isKeyword (keyword : String) : Token → Bool
  | .word s => Text.sameIgnoringCase s keyword.toList
  | _ => false

/-- The name that the token stands for. -/
def name? : Token → Option String
  | .word s => some (String.ofList s)
  | .name s _ => some (String.ofList s)
  | _ => none

end Token

/-- The characters between tokens. -/
def isGap (c : Char) : Bool :=
  c == ' ' || c == '\t' || c == '\n' || c == '\x0c' || c == '\r'

/-- The characters of words. -/
def isWordChar (c : Char) : Bool := c.isAlphanum || c == '_' || c == '$' || 128 ≤ c.toNat

/-- The first token and what follows it. -/
def firstToken (c : Char) (r : List Char) : Token × List Char :=
  if c == '"' || c == '\x60' || c == '\'' then
    match Sql.scanIdentifier c (c :: r) with
    | some (s, rest) => (.name s ((c :: r).take ((c :: r).length - rest.length)), rest)
    | none => (.sign c, r)
  else if c == '[' then
    match r.dropWhile (· != ']') with
    | _ :: rest => (.name (r.takeWhile (· != ']')) (c :: (r.takeWhile (· != ']') ++ [']'])), rest)
    | [] => (.sign c, r)
  else if c == '?' then
    let digits := r.takeWhile isDigit
    (.parameter (ofDigits digits) (c :: digits), r.dropWhile isDigit)
  else if isWordChar c then (.word (c :: r.takeWhile isWordChar), r.dropWhile isWordChar)
  else (.sign c, r)

/-- The tokens of a statement, in at most `fuel` steps. -/
def tokensWithin : Nat → List Char → List Token
  | 0, _ => []
  | fuel + 1, s =>
    match s.dropWhile isGap with
    | [] => []
    | c :: r =>
      let (token, rest) := firstToken c r
      token :: tokensWithin fuel rest

/-- The tokens of a statement; every token takes at least one character. -/
def tokens (s : List Char) : List Token := tokensWithin s.length s

/-- A statement. -/
inductive Statement where
  /-- Nothing at all. -/
  | nothing
  | all (table : String)
  | column (column table : String)
  | clear (table : String)
  /-- Parameters by their numbers, with the names of their columns. -/
  | parameters (items : List (Nat × String))
deriving DecidableEq

/-- Why a text is no statement. -/
inductive SyntaxProblem where
  | near (token : String)
  | incomplete
deriving DecidableEq

def SyntaxProblem.message : SyntaxProblem → String
  | .near token => "near \"" ++ token ++ "\": syntax error"
  | .incomplete => "incomplete input"

namespace Statement

/-- The problem with the first of the tokens that remain. -/
def problemAt : List Token → SyntaxProblem
  | [] => .incomplete
  | t :: _ => .near (String.ofList t.written)

/-- A statement may end in semicolons. -/
def atEnd (statement : Statement) (ts : List Token) : Except SyntaxProblem Statement :=
  match ts.dropWhile (· == .sign ';') with
  | [] => .ok statement
  | t :: r => .error (problemAt (t :: r))

/-- A table name after a keyword, at the end of the statement. -/
def fromTable (make : String → Statement) : List Token → Except SyntaxProblem Statement
  | [] => .error .incomplete
  | t :: r =>
    if t.isKeyword "FROM" then
      match r with
      | [] => .error .incomplete
      | u :: r =>
        match u.name? with
        | some table => atEnd (make table) r
        | none => .error (problemAt (u :: r))
    else .error (problemAt (t :: r))

/-- Parameters with commas between them, each with an optional name. -/
def parameterList (before : List (Nat × String)) : List Token → Except SyntaxProblem Statement
  | .parameter n _ :: .word as :: t :: .sign ',' :: r =>
    match Text.sameIgnoringCase as "AS".toList, t.name? with
    | true, some name => parameterList (before ++ [(n, name)]) r
    | false, _ => .error (.near (String.ofList as))
    | true, none => .error (problemAt [t])
  | .parameter n w :: .sign ',' :: r => parameterList (before ++ [(n, String.ofList w)]) r
  | .parameter n _ :: .word as :: t :: r =>
    match Text.sameIgnoringCase as "AS".toList, t.name? with
    | true, some name => atEnd (.parameters (before ++ [(n, name)])) r
    | false, _ => .error (.near (String.ofList as))
    | true, none => .error (problemAt [t])
  | .parameter n w :: r => atEnd (.parameters (before ++ [(n, String.ofList w)])) r
  | ts => .error (problemAt ts)

/-- What follows the keyword of a selection. -/
def selection : List Token → Except SyntaxProblem Statement
  | [] => .error .incomplete
  | .sign '*' :: r => fromTable .all r
  | .parameter n w :: r => parameterList [] (.parameter n w :: r)
  | t :: r =>
    match t.name? with
    | some name => fromTable (.column name) r
    | none => .error (problemAt (t :: r))

/-- The statement of tokens. -/
def ofTokens : List Token → Except SyntaxProblem Statement
  | [] => .ok .nothing
  | t :: r =>
    if t.isKeyword "SELECT" then selection r
    else if t.isKeyword "DELETE" then fromTable .clear r
    else .error (problemAt (t :: r))

/-- The statement of a text. -/
def read (s : String) : Except SyntaxProblem Statement := ofTokens (tokens s.toList)

end Statement

end TableAccess.Sqlite
