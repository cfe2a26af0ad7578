import TableAccess.Proofs.Cursor.Run

/-!
# Calls that fail

A cursor is changed in place: what a call has assigned when it fails stays assigned.  This module
carries the calls out in that way, statement by statement, and shows that they do what they do on
values.  Every check stands in front of the first assignment, so a call that fails has changed
nothing, and later calls give what they would have given without it.
-/

namespace TableAccess

namespace Cursor

variable {c after : Cursor} {call : Call} {e : Error}

/-! ### Calls in place -/

/-- Select all rows of a table, from the first one. -/
def selectInPlace (name : String) : EStateM Error Cursor Unit := do
  match (← get).database.table? name with
  | some t => modify fun c => { c with selection := some ⟨t, 0⟩ }
  | none => throw (.tableNotFound name)

/-- Select what a query asks for. -/
def executeInPlace (query : String) : EStateM Error Cursor Unit := do
  match Query.parse query with
  | .ok name => selectInPlace name
  | .error e => throw e

/-- The selection to fetch from. -/
def active : EStateM Error Cursor Selection := do
  match (← get).selection with
  | some s => pure s
  | none => throw .noActiveQuery

/-- Move the position of the selection. -/
def moveTo (position : Nat) : EStateM Error Cursor Unit :=
  modify fun c => { c with selection := c.selection.map fun s => { s with position := position } }

/-- The next row, if one remains. -/
def fetchOneInPlace : EStateM Error Cursor (Option Row) := do
  let s ← active
  match s.table.rows[s.position]? with
  | none => pure none
  | some values =>
    moveTo (s.position + 1)
    pure (some (Row.ofColumns s.table.columns values))

/-- All rows that remain. -/
def fetchAllInPlace : EStateM Error Cursor (List Row) := do
  let s ← active
  moveTo s.table.rows.length
  pure s.remaining

/-- Carry out a call. -/
def callInPlace : Call → EStateM Error Cursor Answer
  | .execute q => do
    executeInPlace q
    pure .selected
  | .selectTable name => do
    selectInPlace name
    pure .selected
  | .fetchOne => do pure (.row (← fetchOneInPlace))
  | .fetchAll => do pure (.rows (← fetchAllInPlace))

/-- Carry out calls one after the other, each on the cursor that the one before it left, whether
that failed or not. -/
def runInPlace (c : Cursor) : List Call → Cursor × List Answer
  | [] => (c, [])
  | call :: r =>
    match callInPlace call c with
    | .ok answer next => ((runInPlace next r).1, answer :: (runInPlace next r).2)
    | .error e next => ((runInPlace next r).1, .failed e :: (runInPlace next r).2)

/-! ### Calls in place are calls on values -/

/-- A cursor and an answer as the end of a call in place. -/
def settled : Cursor × Answer → EStateM.Result Error Cursor Answer
  | (c, .failed e) => .error e c
  | (c, .selected) => .ok .selected c
  | (c, .row r) => .ok (.row r) c
  | (c, .rows rs) => .ok (.rows rs) c

theorem selectInPlace_eq (c : Cursor) (name : String) :
    selectInPlace name c =
      match c.selectTable name with
      | .ok after => .ok () after
      | .error e => .error e c := by
  rw [selectTable]
  show (match c.database.table? name with
    | some t => modify fun c => { c with selection := some ⟨t, 0⟩ }
    | none => throw (Error.tableNotFound name) : EStateM Error Cursor Unit) c = _
  cases c.database.table? name <;> rfl

theorem executeInPlace_eq (c : Cursor) (q : String) :
    executeInPlace q c =
      match c.execute q with
      | .ok after => .ok () after
      | .error e => .error e c := by
  rw [execute, executeInPlace]
  cases Query.parse q with
  | ok name => exact selectInPlace_eq c name
  | error e => rfl

theorem active_eq (c : Cursor) :
    active c =
      match c.selection with
      | some s => .ok s c
      | none => .error .noActiveQuery c := by
  show (match c.selection with
    | some s => pure s
    | none => throw .noActiveQuery : EStateM Error Cursor Selection) c = _
  cases c.selection <;> rfl

theorem bind_active_of_selection {α : Type} {s : Selection} (h : c.selection = some s)
    (next : Selection → EStateM Error Cursor α) : (active >>= next) c = next s c := by
  show EStateM.bind active next c = _
  rw [EStateM.bind, active_eq, h]

theorem bind_active_of_idle {α : Type} (h : c.selection = none)
    (next : Selection → EStateM Error Cursor α) :
    (active >>= next) c = .error .noActiveQuery c := by
  show EStateM.bind active next c = _
  rw [EStateM.bind, active_eq, h]

theorem fetchOneInPlace_eq (c : Cursor) :
    fetchOneInPlace c =
      match c.fetchOne with
      | .ok (row, after) => .ok row after
      | .error e => .error e c := by
  rw [fetchOne, fetchOneInPlace]
  cases hc : c.selection with
  | none => rw [bind_active_of_idle hc]
  | some s =>
    rw [bind_active_of_selection hc]
    simp only
    cases s.table.rows[s.position]? with
    | none => rfl
    | some values =>
      show EStateM.Result.ok _ { c with selection := c.selection.map _ } = _
      rw [hc]
      rfl

theorem fetchAllInPlace_eq (c : Cursor) :
    fetchAllInPlace c =
      match c.fetchAll with
      | .ok (rows, after) => .ok rows after
      | .error e => .error e c := by
  rw [fetchAll, fetchAllInPlace]
  cases hc : c.selection with
  | none => rw [bind_active_of_idle hc]
  | some s =>
    rw [bind_active_of_selection hc]
    show EStateM.Result.ok _ { c with selection := c.selection.map _ } = _
    rw [hc]
    rfl

/-- What is assigned on the way to a failure is nothing: the checks come first. -/
theorem callInPlace_eq (c : Cursor) (call : Call) : callInPlace call c = settled (c.call call) := by
  cases call with
  | execute q =>
    show EStateM.bind (executeInPlace q) _ c = _
    rw [Cursor.call, EStateM.bind, executeInPlace_eq]
    cases c.execute q <;> rfl
  | selectTable name =>
    show EStateM.bind (selectInPlace name) _ c = _
    rw [Cursor.call, EStateM.bind, selectInPlace_eq]
    cases c.selectTable name <;> rfl
  | fetchOne =>
    show EStateM.bind fetchOneInPlace _ c = _
    rw [Cursor.call, EStateM.bind, fetchOneInPlace_eq]
    cases c.fetchOne <;> rfl
  | fetchAll =>
    show EStateM.bind fetchAllInPlace _ c = _
    rw [Cursor.call, EStateM.bind, fetchAllInPlace_eq]
    cases c.fetchAll <;> rfl

theorem settled_eq_error_iff {p : Cursor × Answer} :
    settled p = .error e after ↔ p = (after, .failed e) := by
  obtain ⟨c, a⟩ := p
  cases a <;> simp [settled, and_comm]

theorem runInPlace_cons (c : Cursor) (call : Call) (calls : List Call) :
    c.runInPlace (call :: calls) =
      (((c.call call).1.runInPlace calls).1,
        (c.call call).2 :: ((c.call call).1.runInPlace calls).2) := by
  rw [runInPlace, callInPlace_eq]
  obtain ⟨next, a⟩ := c.call call
  cases a <;> rfl

theorem runInPlace_eq (c : Cursor) (calls : List Call) : c.runInPlace calls = c.run calls := by
  induction calls generalizing c with
  | nil => rfl
  | cons call calls ih => rw [runInPlace_cons, ih, run_cons]

/-! ### What a failing call leaves -/

/-- The answer of a call that failed. -/
def Answer.isFailure : Answer → Bool
  | .failed _ => true
  | _ => false

/-- Why a call fails: its query is not in the grammar, the table it asks for is missing, or no table
was selected to fetch from. -/
inductive Refusal (c : Cursor) : Call → Error → Prop
  | grammar {q : String} {reason : Query.Reason} (h : Query.read q.toList = .error reason) :
      Refusal c (.execute q) (.unsupportedQuery q reason.message)
  | missing {call : Call} {name : String} (hcall : call.target? = some name)
      (h : c.database.table? name = none) : Refusal c call (.tableNotFound name)
  | idle {call : Call} (hcall : call = .fetchOne ∨ call = .fetchAll) (h : c.state = .idle) :
      Refusal c call .noActiveQuery

theorem target?_execute (q : String) :
    (∃ name, Query.parse q = .ok name ∧ (Call.execute q).target? = some name) ∨
      ∃ reason, Query.read q.toList = .error reason ∧ (Call.execute q).target? = none := by
  rw [Call.target?, Query.parse]
  cases Query.read q.toList with
  | ok name => exact Or.inl ⟨_, rfl, rfl⟩
  | error reason => exact Or.inr ⟨reason, rfl, rfl⟩

/-- A call that is refused fails and leaves the cursor as it is. -/
theorem call_of_refusal (h : Refusal c call e) : c.call call = (c, .failed e) := by
  cases h with
  | grammar h =>
    rw [Cursor.call, execute, Query.parse, h]
    rfl
  | @missing _ name hcall h =>
    cases call with
    | execute q =>
      rcases target?_execute q with ⟨found, hparse, htarget⟩ | ⟨reason, -, htarget⟩
      · obtain rfl := Option.some.inj (htarget.symm.trans hcall)
        rw [Cursor.call, execute, hparse]
        exact congrArg c.settleSelection (selectTable_of_no_table h)
      · cases htarget.symm.trans hcall
    | selectTable found =>
      obtain rfl := Option.some.inj hcall
      exact congrArg c.settleSelection (selectTable_of_no_table h)
    | fetchOne => cases hcall
    | fetchAll => cases hcall
  | idle hcall h =>
    have hselection : c.selection = none := (state_eq_idle_iff c).mp h
    rcases hcall with rfl | rfl
    · exact call_fetchOne_of_idle hselection
    · exact call_fetchAll_of_idle hselection

/-- A call is refused, or it does not fail. -/
theorem refused_or_not_failed (c : Cursor) (call : Call) :
    (∃ e, Refusal c call e) ∨ (c.call call).2.isFailure = false := by
  cases htarget : call.target? with
  | some name =>
    cases htable : c.database.table? name with
    | none => exact Or.inl ⟨_, .missing htarget htable⟩
    | some t =>
      have hselects : call.selects? c.database = some t := by
        rw [Call.selects?, htarget, Option.bind_some, htable]
      exact Or.inr (by rw [call_of_selects hselects]; rfl)
  | none =>
    cases call with
    | execute q =>
      rcases target?_execute q with ⟨name, -, hname⟩ | ⟨reason, hreason, -⟩
      · cases htarget.symm.trans hname
      · exact Or.inl ⟨_, .grammar hreason⟩
    | selectTable name => cases htarget
    | fetchOne =>
      cases hc : c.selection with
      | none => exact Or.inl ⟨_, .idle (Or.inl rfl) ((state_eq_idle_iff c).mpr hc)⟩
      | some s =>
        cases hrow : s.table.rows[s.position]? with
        | none => exact Or.inr (by rw [call_fetchOne_of_end hc hrow]; rfl)
        | some values => exact Or.inr (by rw [call_fetchOne_of_row hc hrow]; rfl)
    | fetchAll =>
      cases hc : c.selection with
      | none => exact Or.inl ⟨_, .idle (Or.inr rfl) ((state_eq_idle_iff c).mpr hc)⟩
      | some s => exact Or.inr (by rw [call_fetchAll hc]; rfl)

theorem call_eq_failed_iff : c.call call = (after, .failed e) ↔ after = c ∧ Refusal c call e := by
  constructor
  · intro h
    rcases refused_or_not_failed c call with ⟨e', hrefusal⟩ | hnot
    · cases (call_of_refusal hrefusal).symm.trans h
      exact ⟨rfl, hrefusal⟩
    · rw [h] at hnot
      cases hnot
  · rintro ⟨rfl, hrefusal⟩
    exact call_of_refusal hrefusal

/-! ### The law of failures -/

/-- The calls of a run that did not fail. -/
def succeeded (c : Cursor) (calls : List Call) : List Call :=
  ((calls.zip (c.runInPlace calls).2).filter fun p => !p.2.isFailure).map Prod.fst

/-- What holds of a cursor and of the calls that fail on it. -/
structure FailureLaw (c : Cursor) : Prop where
  /-- What is assigned call by call is what the calls give as values. -/
  inPlace : ∀ calls, c.runInPlace calls = c.run calls
  fails_iff : ∀ call e, (∃ after, callInPlace call c = .error e after) ↔ Refusal c call e
  unchanged : ∀ call e after, callInPlace call c = .error e after → after = c
  /-- Whatever is called next, a failed call in front of it adds its own answer and nothing else. -/
  continued : ∀ call e after, callInPlace call c = .error e after → ∀ rest,
    c.runInPlace (call :: rest) = ((c.runInPlace rest).1, .failed e :: (c.runInPlace rest).2)
  /-- Without all the calls that fail, a run ends as before and gives the other answers. -/
  withoutFailures : ∀ calls, c.runInPlace (c.succeeded calls) =
    ((c.runInPlace calls).1, (c.runInPlace calls).2.filter fun a => !a.isFailure)

theorem callInPlace_eq_error_iff :
    callInPlace call c = .error e after ↔ after = c ∧ Refusal c call e := by
  rw [callInPlace_eq, settled_eq_error_iff, call_eq_failed_iff]

theorem runInPlace_of_refusal (h : Refusal c call e) (rest : List Call) :
    c.runInPlace (call :: rest) = ((c.runInPlace rest).1, .failed e :: (c.runInPlace rest).2) := by
  rw [runInPlace_cons, call_of_refusal h]

theorem runInPlace_succeeded (c : Cursor) (calls : List Call) :
    c.runInPlace (c.succeeded calls) =
      ((c.runInPlace calls).1, (c.runInPlace calls).2.filter fun a => !a.isFailure) := by
  induction calls generalizing c with
  | nil => rfl
  | cons call calls ih =>
    rcases refused_or_not_failed c call with ⟨e, hrefusal⟩ | hkept
    · have hrun := runInPlace_of_refusal hrefusal calls
      have hsame : c.succeeded (call :: calls) = c.succeeded calls := by
        rw [succeeded, hrun]
        rfl
      rw [hsame, ih, hrun]
      rfl
    · have hcons : c.succeeded (call :: calls) = call :: (c.call call).1.succeeded calls := by
        rw [succeeded, runInPlace_cons, List.zip_cons_cons,
          List.filter_cons_of_pos (by simp [hkept])]
        rfl
      rw [hcons, runInPlace_cons, ih, runInPlace_cons, List.filter_cons_of_pos (by simp [hkept])]

/-- **A call that fails changes nothing.**  Whatever calls led to a cursor, the next call fails
exactly if it is refused, has assigned nothing until then, and leaves no trace in any call after
it. -/
theorem failureLaw_of_run (db : Database) (before : List Call) :
    FailureLaw ((ofDatabase db).runInPlace before).1 where
  inPlace := runInPlace_eq _
  fails_iff call e := by
    constructor
    · rintro ⟨after, h⟩
      exact (callInPlace_eq_error_iff.mp h).2
    · intro h
      exact ⟨_, callInPlace_eq_error_iff.mpr ⟨rfl, h⟩⟩
  unchanged call e after h := (callInPlace_eq_error_iff.mp h).1
  continued call e after h := runInPlace_of_refusal (callInPlace_eq_error_iff.mp h).2
  withoutFailures := runInPlace_succeeded _

/-- A cursor behind the first of two rows. -/
def halfway : Cursor := ((ofDatabase twoRows).runInPlace [.selectTable "T", .fetchOne]).1

/-- Neither a missing table nor a query of another form moves the cursor, and a cursor that has not
selected anything stays so if it is asked for rows. -/
theorem failureLaw_halfway :
    halfway = ⟨twoRows, some ⟨⟨"T", ["a"], [[.integer 1], [.null]]⟩, 1⟩⟩ ∧
      callInPlace (.selectTable "U") halfway = .error (.tableNotFound "U") halfway ∧
      (∃ e, callInPlace (.execute "SELECT a FROM T") halfway = .error e halfway) ∧
      halfway.runInPlace [.selectTable "U", .fetchOne] =
        (⟨twoRows, some ⟨⟨"T", ["a"], [[.integer 1], [.null]]⟩, 2⟩⟩,
          [.failed (.tableNotFound "U"), .row (some ⟨[⟨"a", .null⟩]⟩)]) ∧
      callInPlace .fetchAll (ofDatabase twoRows) = .error .noActiveQuery (ofDatabase twoRows) := by
  have hlaw : FailureLaw halfway := failureLaw_of_run twoRows [.selectTable "T", .fetchOne]
  have hnew : FailureLaw (ofDatabase twoRows) := failureLaw_of_run twoRows []
  obtain ⟨after, hmissing⟩ := (hlaw.fails_iff (.selectTable "U") _).mpr (.missing rfl rfl)
  obtain rfl := hlaw.unchanged _ _ _ hmissing
  obtain ⟨after, hgrammar⟩ := (hlaw.fails_iff (.execute "SELECT a FROM T") _).mpr (.grammar rfl)
  obtain rfl := hlaw.unchanged _ _ _ hgrammar
  obtain ⟨after, hidle⟩ := (hnew.fails_iff .fetchAll _).mpr (.idle (Or.inr rfl) rfl)
  obtain rfl := hnew.unchanged _ _ _ hidle
  exact ⟨rfl, hmissing, ⟨_, hgrammar⟩, hlaw.continued _ _ _ hmissing [.fetchOne], hidle⟩

end Cursor

end TableAccess
