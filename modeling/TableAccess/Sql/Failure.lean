import TableAccess.Error
import TableAccess.Text.Ascii

/-!
# Failures of SQL statements

A database reports a failure with a code and a message; other failures come from the client.
Failures about tables or columns that do not exist are told apart from all others by a few codes,
or by a few phrases of the message for databases whose codes do not tell.
-/

namespace TableAccess.Sql

/-- Why a statement failed. -/
inductive Failure where
  /-- The database reports a failure.  The text is its message with what the client adds. -/
  | reported (code : Option String) (message text : String)
  /-- The client failed on its own. -/
  | client (text : String)
deriving DecidableEq

/-- The full text of a failure. -/
def Failure.text : Failure → String
  | .reported _ _ text => text
  | .client text => text

/-- The codes of undefined tables and columns. -/
def undefinedCodes : List String := ["42P01", "42703", "42S02", "42S22"]

/-- The phrases of undefined tables and columns. -/
def undefinedPhrases : List String := ["no such table", "no such column"]

/-- The report is about a table or column that does not exist. -/
def isUndefined (code : Option String) (message : String) : Bool :=
  (code.any fun c => undefinedCodes.contains c) ||
    undefinedPhrases.any fun phrase => Text.containsPiece phrase.toList message.toList

/-- The error for a failed query. -/
def Failure.toError (query : String) : Failure → Error
  | .reported code message text =>
    if isUndefined code message then .schema message else .query query text
  | .client text => .query query text

end TableAccess.Sql
