import TableAccess.Proofs.Document.Reachable
import TableAccess.Proofs.Handler.Memory
import TableAccess.Proofs.Query.Grammar

/-!
# What a query selects from a database

A query names a table, and the rows are those that the name finds directly.  Quotes give a name to
a query as it is, whatever stands in it, so they reach every table but those whose names are empty
or have a quote in them.  These have no query at all, and are found by their names only.
-/

namespace TableAccess

/-! ### Names that a query can have -/

namespace Query

open TableAccess.Text

/-- The name is not empty and has no quote in it. -/
structure Quotable (name : String) : Prop where
  nonempty : name ≠ ""
  noQuote : ∀ c ∈ name.toList, isQuote c = false

/-- The query with the name between two quotes. -/
def quotedQuery (quotes : Char × Char) (name : String) : String :=
  String.ofList ("SELECT * FROM ".toList ++ quotes.1 :: (name.toList ++ [quotes.2]))

theorem toList_quotedQuery (quotes : Char × Char) (name : String) :
    (quotedQuery quotes name).toList =
      "SELECT * FROM ".toList ++ quotes.1 :: (name.toList ++ [quotes.2]) := String.toList_ofList

theorem parse_eq_ok_iff {q name : String} :
    parse q = .ok name ↔ Selects name.toList q.toList := by
  rw [selects_iff_core, ← read_eq_ok_iff, parse]
  cases read q.toList with
  | error reason => simp
  | ok found =>
    rw [Except.ok.injEq, Except.ok.injEq]
    constructor
    · intro h
      rw [← h, String.toList_ofList]
    · intro h
      rw [h, String.ofList_toList]

/-- No text names a table whose name is empty or has a quote in it. -/
theorem quotable_of_tableText {name : String} {t : List Char} (h : TableText name.toList t) :
    Quotable name := by
  cases h with
  | bare hne hall =>
    refine ⟨fun hname => hne (String.toList_eq_nil_iff.mpr hname), fun c hc => ?_⟩
    cases hquote : isQuote c with
    | false => rfl
    | true =>
      have hname := hall c hc
      rw [not_isNameChar_of_isQuote hquote] at hname
      cases hname
  | quoted _ hne hall => exact ⟨fun hname => hne (String.toList_eq_nil_iff.mpr hname), hall⟩

theorem quotable_of_parse {q name : String} (h : parse q = .ok name) : Quotable name := by
  have hselects := parse_eq_ok_iff.mp h
  generalize q.toList = s at hselects
  cases hselects with
  | intro _ hcore _ _ =>
    cases hcore with
    | intro _ _ _ _ _ _ _ _ ht => exact quotable_of_tableText ht

/-- Between any two quotes that belong together, a name is read as it is. -/
theorem parse_quotedQuery {name : String} (h : Quotable name) {quotes : Char × Char}
    (hquotes : quotes ∈ quotePairs) : parse (quotedQuery quotes name) = .ok name := by
  have hblank : Blanks [' '] := by
    intro c hc
    rw [List.mem_singleton.mp hc]
    decide
  have hnone : Blanks [] := by
    intro c hc
    cases hc
  have hnonempty : name.toList ≠ [] := fun hnil => h.nonempty (String.toList_eq_nil_iff.mp hnil)
  have htable : TableText name.toList (quotes.1 :: (name.toList ++ [quotes.2])) :=
    .quoted hquotes hnonempty h.noQuote
  have hselect : sameIgnoringCase "SELECT".toList "SELECT".toList = true := by decide
  have hfrom : sameIgnoringCase "FROM".toList "FROM".toList = true := by decide
  have hne : [' '] ≠ [] := List.cons_ne_nil _ _
  have hcore := Core.intro hselect hblank hne hblank hne hfrom hblank hne htable
  have hselects := Selects.intro hnone hcore hnone Ending.nothing
  have hwords : "SELECT * FROM ".toList =
      "SELECT".toList ++ ([' '] ++ '*' :: ([' '] ++ ("FROM".toList ++ [' ']))) := by decide
  rw [parse_eq_ok_iff, toList_quotedQuery, hwords]
  simpa only [List.append_assoc, List.cons_append, List.nil_append, List.append_nil] using hselects

/-- A name can be selected exactly if it can stand in quotes. -/
theorem exists_parse_iff {name : String} : (∃ q, parse q = .ok name) ↔ Quotable name := by
  constructor
  · intro h
    obtain ⟨q, hq⟩ := h
    exact quotable_of_parse hq
  · intro h
    exact ⟨quotedQuery ('"', '"') name, parse_quotedQuery h List.mem_cons_self⟩

end Query

/-! ### Whole rows -/

/-- The name of a column finds the value in its place. -/
theorem Row.get?_ofColumns {columns : List String} {values : List Value} (hnodup : columns.Nodup)
    (hlength : columns.length = values.length) {j : Nat} {c : String}
    (hc : columns[j]? = some c) : (Row.ofColumns columns values).get? c = values[j]? := by
  induction columns generalizing values j with
  | nil => cases hc
  | cons first columns ih =>
    cases values with
    | nil => cases hlength
    | cons v values =>
      cases j with
      | zero =>
        cases hc
        simp [Row.get?, Row.ofColumns]
      | succ j =>
        rw [List.getElem?_cons_succ] at hc
        obtain ⟨hnew, hrest⟩ := List.nodup_cons.mp hnodup
        have hother : ¬ (first == c) = true := by
          intro hsame
          rw [beq_iff_eq.mp hsame] at hnew
          exact hnew (List.mem_of_getElem? hc)
        have hlater := ih hrest (Nat.succ.inj hlength) hc
        rw [List.getElem?_cons_succ, ← hlater]
        simp only [Row.get?, Row.ofColumns, List.zipWith_cons_cons, List.find?_cons, hother]

/-- The rows are those of the table: each has all its columns in their order, with the values of
the row at the same place, and the name of a column finds the value in its place. -/
structure Table.HasRows (t : Table) (rows : List Row) : Prop where
  length : rows.length = t.rows.length
  row : ∀ (i : Nat) (values : List Value), t.rows[i]? = some values →
    ∃ r : Row, rows[i]? = some r ∧ r.columns = t.columns ∧ r.values = values ∧
      ∀ (j : Nat) (c : String), t.columns[j]? = some c → ∃ v, values[j]? = some v ∧ r.get? c = some v

variable {db : Database} {t : Table}

theorem Table.hasRows_rowList (hnodup : t.columns.Nodup)
    (hwidths : ∀ row ∈ t.rows, row.length = t.columns.length) : t.HasRows t.rowList := by
  constructor
  · exact Cursor.length_rowList t
  · intro i values hvalues
    have hlength : t.columns.length = values.length :=
      (hwidths values (List.mem_of_getElem? hvalues)).symm
    refine ⟨Row.ofColumns t.columns values, ?_, Row.columns_ofColumns hlength,
      Row.values_ofColumns hlength, ?_⟩
    · rw [Table.rowList, List.getElem?_map, hvalues]
      rfl
    · intro j c hc
      have hj : j < values.length := by
        rw [← hlength]
        exact (List.getElem?_eq_some_iff.mp hc).1
      have hv : values[j]? = some values[j] := List.getElem?_eq_getElem hj
      exact ⟨values[j], hv, by rw [Row.get?_ofColumns hnodup hlength hc, hv]⟩

/-! ### Queries of a database -/

namespace Database

theorem WellFormed.hasRows (h : db.WellFormed) (ht : t ∈ db.tables) : t.HasRows t.rowList :=
  t.hasRows_rowList (h.columns t ht) (h.widths t ht)

theorem selectAll_of_mem (h : db.WellFormed) (ht : t ∈ db.tables) :
    db.selectAll t.name = .ok ⟨t.columns, t.rowList⟩ := by
  rw [selectAll_eq, (table?_eq_some_iff h).mpr ⟨ht, rfl⟩]

theorem selectAll_of_not_mem {name : String} (hname : name ∉ db.tableNames) :
    db.selectAll name = .error (.tableNotFound name) := by
  rw [selectAll_eq]
  cases htable : db.table? name with
  | none => rfl
  | some t =>
    have hsome : (db.table? name).isSome = true := by rw [htable]; rfl
    exact absurd (table?_isSome_iff.mp hsome) hname

theorem execute_of_parse {q name : String} (hq : Query.parse q = .ok name) :
    db.execute q [] = (db.selectAll name).map Result.rows := by
  rw [execute_eq db q [] rfl, hq]

theorem execute_of_mem (h : db.WellFormed) (ht : t ∈ db.tables) {q : String}
    (hq : Query.parse q = .ok t.name) : db.execute q [] = .ok t.rowList := by
  rw [execute_of_parse hq, selectAll_of_mem h ht]
  rfl

/-- A query that succeeds has no parameters, and gives the rows of the table that it names. -/
theorem exists_of_execute_eq_ok (h : db.WellFormed) {q : String} {parameters : List Value}
    {rows : List Row} (hrows : db.execute q parameters = .ok rows) :
    ∃ u ∈ db.tables, Query.parse q = .ok u.name ∧ rows = u.rowList := by
  cases hparameters : parameters.isEmpty with
  | false =>
    rw [execute, hparameters] at hrows
    cases hrows
  | true =>
    rw [execute_eq db q parameters hparameters] at hrows
    cases hq : Query.parse q with
    | error e =>
      rw [hq] at hrows
      cases hrows
    | ok name =>
      rw [hq] at hrows
      simp only [selectAll_eq] at hrows
      cases htable : db.table? name with
      | none =>
        rw [htable] at hrows
        cases hrows
      | some u =>
        rw [htable] at hrows
        cases hrows
        obtain ⟨hu, hname⟩ := (table?_eq_some_iff h).mp htable
        exact ⟨u, hu, by rw [hname], rfl⟩

/-- What callers of a database rely on: a query gives what selecting its table gives, with all rows
of exactly that table; quotes reach every table whose name can stand in them; and a table whose
name cannot is given by no query, but still by its name. -/
structure QueryLaw (db : Database) : Prop where
  agree : ∀ q name, Query.parse q = .ok name →
    db.execute q [] = (db.selectAll name).map Result.rows
  missing : ∀ q name, Query.parse q = .ok name → name ∉ db.tableNames →
    db.selectAll name = .error (.tableNotFound name) ∧
      db.execute q [] = .error (.tableNotFound name)
  selected : ∀ t ∈ db.tables, ∃ rows, db.selectAll t.name = .ok ⟨t.columns, rows⟩ ∧
    t.HasRows rows ∧ ∀ q, Query.parse q = .ok t.name → db.execute q [] = .ok rows
  quoted : ∀ t ∈ db.tables, Query.Quotable t.name → ∀ quotes ∈ Query.quotePairs,
    ∃ rows, db.execute (Query.quotedQuery quotes t.name) [] = .ok rows ∧ t.HasRows rows
  unquoted : ∀ t ∈ db.tables, ¬ Query.Quotable t.name →
    (∀ q, Query.parse q ≠ .ok t.name) ∧
      ∀ q parameters rows, db.execute q parameters = .ok rows →
        ∃ u ∈ db.tables, u.name ≠ t.name ∧ Query.parse q = .ok u.name ∧ u.HasRows rows

/-- **A query gives what the name of its table gives**, in every well-formed database. -/
theorem queryLaw_of_wellFormed {db : Database} (h : db.WellFormed) : db.QueryLaw := by
  constructor
  case agree =>
    intro q name hq
    exact execute_of_parse hq
  case missing =>
    intro q name hq hname
    have hselect := selectAll_of_not_mem hname
    refine ⟨hselect, ?_⟩
    rw [execute_of_parse hq, hselect]
    rfl
  case selected =>
    intro t ht
    refine ⟨t.rowList, selectAll_of_mem h ht, h.hasRows ht, ?_⟩
    intro q hq
    exact execute_of_mem h ht hq
  case quoted =>
    intro t ht hname quotes hquotes
    have hq := Query.parse_quotedQuery hname hquotes
    exact ⟨t.rowList, execute_of_mem h ht hq, h.hasRows ht⟩
  case unquoted =>
    intro t ht hname
    have hnone : ∀ q, Query.parse q ≠ .ok t.name := by
      intro q hq
      exact hname (Query.exists_parse_iff.mp ⟨q, hq⟩)
    refine ⟨hnone, ?_⟩
    intro q parameters rows hrows
    obtain ⟨u, hu, hq, hsame⟩ := exists_of_execute_eq_ok h hrows
    refine ⟨u, hu, ?_, hq, ?_⟩
    · intro hother
      rw [hother] at hq
      exact hnone q hq
    · rw [hsame]
      exact h.hasRows hu

/-- Tables whose names are hard to write: one that looks like a query, one with a quote in it, and
one that is empty. -/
def oddlyNamed : Database :=
  ⟨[⟨"a; SELECT * FROM b", ["id", "note"], [[.integer 1, .text "x"], [.integer 2, .null]]⟩,
    ⟨"it's", ["id"], [[.integer 3]]⟩, ⟨"", [], [[]]⟩]⟩

theorem wellFormed_oddlyNamed : oddlyNamed.WellFormed := by
  constructor <;> decide

theorem queryLaw_oddlyNamed : oddlyNamed.WellFormed ∧ oddlyNamed.QueryLaw :=
  ⟨wellFormed_oddlyNamed, queryLaw_of_wellFormed wellFormed_oddlyNamed⟩

end Database

end TableAccess
