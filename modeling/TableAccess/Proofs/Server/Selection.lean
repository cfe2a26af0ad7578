import TableAccess.Proofs.Sqlite.Selection
import TableAccess.Server.Engine

/-!
# Selecting whole tables of servers

The statement for a whole table is made of fixed words and the name of the table, which is quoted.
Whatever characters stand in the name, the statement is these words and one identifier that stands
for that name: a name cannot close its identifier, add to the statement or pass for another name.
-/

namespace TableAccess.Server

open TableAccess.Sql (quoteIdentifier scanIdentifier selectAllFrom Standing)

namespace Dialect

/-- No quote stands in the words in front of the name. -/
theorem ne_quote_of_words (d : Dialect) : ∀ c ∈ "SELECT * FROM ".toList, c ≠ d.quote := by
  have hall : ("SELECT * FROM ".toList.all fun c => c != d.quote) = true := by cases d <;> rfl
  exact fun c hc => bne_iff_ne.mp (List.all_eq_true.mp hall c hc)

theorem outsideOf_selectAllFrom (d : Dialect) (name : String) :
    Standing.outside.outsideOf d.quote (selectAllFrom d.quote name).toList =
      "SELECT * FROM ".toList := by
  obtain ⟨hafter, houtside⟩ := Standing.after_plain d.ne_quote_of_words
  rw [Sqlite.toList_selectAllFrom, Standing.outsideOf_append, hafter, houtside,
    (Standing.after_quoteIdentifier d.quote name.toList).2, List.append_nil]

/-- A whole table is what the statement for it gives as a query. -/
theorem result_selectAll (d : Dialect) (w : World) (link : Link) (name : String) :
    (d.selectAll w link name).result.map Result.rows =
      (d.query w link (selectAllFrom d.quote name) []).result := by
  rw [selectAll, query]
  cases ask d w.server link (selectAllFrom d.quote name) [] with
  | mk fetched next => cases fetched <;> rfl

end Dialect

/-- What holds of the quoted name of a table and of the statement that is sent for it. -/
structure StatementLaw (d : Dialect) (name : String) : Prop where
  /-- Scanning takes the whole quoted name, up to its last character, and gives the name. -/
  scanned : scanIdentifier d.quote (quoteIdentifier d.quote name.toList) = some (name.toList, [])
  /-- No other text is scanned as that name. -/
  scanned_only : ∀ s, scanIdentifier d.quote s = some (name.toList, []) →
    s = quoteIdentifier d.quote name.toList
  distinct : ∀ other : String,
    quoteIdentifier d.quote other.toList = quoteIdentifier d.quote name.toList → other = name
  /-- Read character by character, the identifier is open from its first quote to its last one. -/
  closed : Standing.outside.after d.quote (quoteIdentifier d.quote name.toList) = .afterQuote ∧
    Standing.outside.outsideOf d.quote (quoteIdentifier d.quote name.toList) = []
  statement : (selectAllFrom d.quote name).toList =
    "SELECT * FROM ".toList ++ quoteIdentifier d.quote name.toList
  /-- Only the words of the statement stand outside of identifiers. -/
  outside : Standing.outside.outsideOf d.quote (selectAllFrom d.quote name).toList =
    "SELECT * FROM ".toList
  /-- This statement is the one that is sent for the table. -/
  sent : ∀ w link, (d.selectAll w link name).result.map Result.rows =
    (d.query w link (selectAllFrom d.quote name) []).result

/-- **A quoted name can neither break out nor change**, whichever characters stand in it and
whichever of the two quotes the server takes. -/
theorem statementLaw_of_name (d : Dialect) (name : String) : StatementLaw d name where
  scanned := Sql.scanIdentifier_eq_some_nil_iff.mpr rfl
  scanned_only _ h := Sql.scanIdentifier_eq_some_nil_iff.mp h
  distinct _ h := String.toList_injective (Sql.quoteIdentifier_inj.mp h)
  closed := Standing.after_quoteIdentifier d.quote name.toList
  statement := Sqlite.toList_selectAllFrom d.quote name
  outside := d.outsideOf_selectAllFrom name
  sent w link := d.result_selectAll w link name

end TableAccess.Server
