import TableAccess.Cursor

/-!
# Runs of cursors

A run is a sequence of calls on one cursor.  A call that fails leaves the cursor as it is.
-/

namespace TableAccess

namespace Cursor

/-- A call on a cursor. -/
inductive Call where
  | execute (query : String)
  | selectTable (name : String)
  | fetchOne
  | fetchAll
deriving DecidableEq

/-- What a call gives. -/
inductive Answer where
  | selected
  | row (r : Option Row)
  | rows (rs : List Row)
  | failed (e : Error)
deriving DecidableEq

namespace Answer

/-- The rows that a call returned. -/
def returned : Answer → List Row
  | .row (some r) => [r]
  | .rows rs => rs
  | _ => []

/-- The answer says that no row is left. -/
def isEnd : Answer → Bool
  | .row none => true
  | .rows _ => true
  | _ => false

end Answer

/-- The cursor after an attempt to select, and the answer. -/
def settleSelection (c : Cursor) : Except Error Cursor → Cursor × Answer
  | .ok after => (after, .selected)
  | .error e => (c, .failed e)

/-- The cursor after an attempt to fetch, and the answer. -/
def settleFetch (c : Cursor) (answer : α → Answer) : Except Error (α × Cursor) → Cursor × Answer
  | .ok (a, after) => (after, answer a)
  | .error e => (c, .failed e)

/-- Carry out a call. -/
def call (c : Cursor) : Call → Cursor × Answer
  | .execute q => c.settleSelection (c.execute q)
  | .selectTable name => c.settleSelection (c.selectTable name)
  | .fetchOne => c.settleFetch .row c.fetchOne
  | .fetchAll => c.settleFetch .rows c.fetchAll

/-- Carry out calls one after the other.  Gives the cursor at the end and the answers in order. -/
def run (c : Cursor) : List Call → Cursor × List Answer
  | [] => (c, [])
  | call :: r =>
    let (next, answer) := c.call call
    let (last, answers) := run next r
    (last, answer :: answers)

/-- The rows of answers, in order. -/
def returned (answers : List Answer) : List Row := answers.flatMap Answer.returned

/-- The name of the table that a call asks for. -/
def Call.target? : Call → Option String
  | .execute q => (Query.parse q).toOption
  | .selectTable name => some name
  | .fetchOne => none
  | .fetchAll => none

/-- The table that a call selects in a database; other calls select nothing. -/
def Call.selects? (call : Call) (db : Database) : Option Table := call.target?.bind db.table?

end Cursor

end TableAccess
