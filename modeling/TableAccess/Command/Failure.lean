import TableAccess.Error

/-!
# Failures of the command line

A failure has a context and the causes behind it, the nearest first.  It is reported with the
causes indented below the context, and numbered if there is more than one.
-/

namespace TableAccess.Command

/-- Why a command failed. -/
structure Failure where
  context : String
  causes : List String
deriving DecidableEq

namespace Failure

/-- The causes of an error: its message and, for files, what the system said. -/
def causesOf : Error → List String
  | .io path cause => [(Error.io path cause).message, cause]
  | e => [e.message]

/-- A failure that an error caused. -/
def ofError (context : String) (e : Error) : Failure := ⟨context, causesOf e⟩

/-- The lines of a text. -/
def lines (s : String) : List String := (s.toList.splitOn '\n').map String.ofList

/-- Lines with the first one behind a lead and the others indented. -/
def indented (lead indent : String) : List String → List String
  | [] => []
  | s :: r => (lead ++ s) :: r.map (indent ++ ·)

/-- Causes with their numbers. -/
def numbered (index : Nat) : List String → List String
  | [] => []
  | cause :: r =>
    let number := toString index
    let lead := "".pushn ' ' (5 - number.length) ++ number ++ ": "
    indented lead "       " (lines cause) ++ numbered (index + 1) r

/-- The causes as they are reported. -/
def causeLines : List String → List String
  | [] => []
  | [cause] => ["", "Caused by:"] ++ indented "    " "    " (lines cause)
  | causes => ["", "Caused by:"] ++ numbered 0 causes

/-- The lines of the report. -/
def report (f : Failure) : List String :=
  indented "Error: " "" (lines f.context) ++ causeLines f.causes

end Failure

end TableAccess.Command
