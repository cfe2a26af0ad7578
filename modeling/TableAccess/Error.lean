/-!
# Errors

What can go wrong between a caller and a backend, by cause, and the message of each.
-/

namespace TableAccess

/-- The failures of resolving, connecting to and querying a backend. -/
inductive Error where
  /-- The backing store cannot be reached. -/
  | connection (message : String)
  /-- A connection record lacks a required field. -/
  | missingParameter (field : String)
  /-- A database file cannot be read as one. -/
  | corrupt (path message : String)
  /-- A table or column does not exist, or data does not fit its table. -/
  | schema (message : String)
  /-- The query has a shape that the engine does not execute. -/
  | unsupportedQuery (query reason : String)
  /-- The backend refused the query. -/
  | query (query message : String)
  /-- A cursor has no result to fetch from. -/
  | noActiveQuery
  /-- A data operation was called without a connection. -/
  | notConnected
  /-- No backend belongs to a descriptor. -/
  | unsupportedBackend (message : String)
  /-- A file cannot be written. -/
  | io (path cause : String)
deriving DecidableEq

namespace Error

def tableNotFound (table : String) : Error := .schema ("table '" ++ table ++ "' not found")

/-- The message of an error. -/
def message : Error → String
  | .connection m => "connection error: " ++ m
  | .missingParameter field =>
    "connection error: missing required connection parameter: " ++ field
  | .corrupt path m => "corrupt database " ++ path ++ ": " ++ m
  | .schema m => "schema error: " ++ m
  | .unsupportedQuery q reason => "unsupported query \x60" ++ q ++ "\x60: " ++ reason
  | .query q m => "query failed: " ++ m ++ " (query: \x60" ++ q ++ "\x60)"
  | .noActiveQuery => "no query has been executed on this cursor"
  | .notConnected => "database not connected"
  | .unsupportedBackend m => "unsupported backend: " ++ m
  | .io path cause => "I/O error on " ++ path ++ ": " ++ cause

/-- The error arose while a connection was being made. -/
def isConnectionError : Error → Bool
  | .connection _ | .missingParameter _ => true
  | _ => false

end Error

/-- A step behind another one has a result exactly if the first has one that leads to it. -/
theorem map_eq_ok_iff {ε α β : Type} {x : Except ε α} {g : α → β} {b : β} :
    x.map g = .ok b ↔ ∃ a, x = .ok a ∧ g a = b := by
  cases x <;> simp [Except.map]

/-- It fails exactly as the first does. -/
theorem map_eq_error_iff {ε α β : Type} {x : Except ε α} {g : α → β} {e : ε} :
    x.map g = .error e ↔ x = .error e := by
  cases x <;> simp [Except.map]

end TableAccess
