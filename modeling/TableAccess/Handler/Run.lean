import TableAccess.Handler.Basic

/-!
# Runs of handlers

A run is a sequence of operations on one handler, each in the surroundings that it finds.
-/

namespace TableAccess

namespace Handler

/-- An operation on a handler. -/
inductive Operation where
  | connect
  | close
  | tables
  | query (q : String) (parameters : List Value)
  | selectAll (table : String)
  | exportTable (table path : String)
deriving DecidableEq

/-- What an operation gives. -/
inductive Answer where
  | done
  | names (names : List String)
  | rows (rows : List Row)
  | result (result : Result)
  | count (n : Nat)
deriving DecidableEq

end Handler

/-- The outcome with its result in another form. -/
def Outcome.map (f : α → β) (o : Outcome α) : Outcome β :=
  ⟨o.result.map f, o.handler, o.files, o.events, o.contacts⟩

namespace Handler

/-- Carry out an operation. -/
def step (h : Handler) (w : World) : Operation → Outcome Answer
  | .connect => (h.connect w).map fun _ => .done
  | .close => (h.close w).map fun _ => .done
  | .tables => (h.tables w).map .names
  | .query q parameters => (h.query w q parameters).map .rows
  | .selectAll table => (h.selectAll w table).map .result
  | .exportTable table path => (h.exportTable w table path).map .count

/-- Carry out operations one after the other, each in its own surroundings.  Gives their outcomes
in order and the handler at the end. -/
def run (h : Handler) : List (World × Operation) → List (Outcome Answer) × Handler
  | [] => ([], h)
  | (w, operation) :: r =>
    let outcome := h.step w operation
    let (outcomes, last) := run outcome.handler r
    (outcome :: outcomes, last)

end Handler

end TableAccess
