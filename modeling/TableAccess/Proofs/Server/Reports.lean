import Mathlib.Data.List.Infix
import TableAccess.Proofs.Server.Loss

/-!
# Failures that servers report

Servers say with a code what a failure is about, and four codes stand for tables and columns that do
not exist.  The message is for people and may repeat whatever a user wrote.  It is searched all the
same, for the phrases of databases without such codes.  So a failure is taken for one about a table
or column if it has one of the codes, or if one of the phrases stands anywhere in its message, and
its code alone decides exactly as long as none does.
-/

namespace TableAccess

/-! ### Pieces of texts -/

theorem Text.containsPiece_iff {piece s : List Char} :
    Text.containsPiece piece s = true ↔ piece <:+: s := by
  induction s with
  | nil => simp [containsPiece]
  | cons c s ih =>
    rw [containsPiece, Bool.or_eq_true, ih, List.isPrefixOf_iff_prefix, List.infix_cons_iff]

namespace Server

/-! ### Reports -/

namespace Report

variable {report : Report}

/-- The code of the report is one of those of tables and columns that do not exist. -/
def HasUndefinedCode (report : Report) : Prop :=
  ∃ code ∈ ["42P01", "42703", "42S02", "42S22"], report.code = some code

/-- A phrase about tables or columns that do not exist stands somewhere in the message. -/
def MentionsUndefined (report : Report) : Prop :=
  ∃ phrase ∈ ["no such table", "no such column"], phrase.toList <:+: report.message.toList

theorem isUndefined_iff : Sql.isUndefined report.code report.message = true ↔
    report.HasUndefinedCode ∨ report.MentionsUndefined := by
  have hcode : (report.code.any fun c => Sql.undefinedCodes.contains c) = true ↔
      report.HasUndefinedCode := by
    rw [HasUndefinedCode]
    cases report.code with
    | none => simp
    | some code => simp [Sql.undefinedCodes]
  have hphrase : (Sql.undefinedPhrases.any fun phrase =>
      Text.containsPiece phrase.toList report.message.toList) = true ↔
        report.MentionsUndefined := by
    rw [List.any_eq_true]
    constructor
    · rintro ⟨phrase, hphrase, hpiece⟩
      exact ⟨phrase, hphrase, Text.containsPiece_iff.mp hpiece⟩
    · rintro ⟨phrase, hphrase, hpiece⟩
      exact ⟨phrase, hphrase, Text.containsPiece_iff.mpr hpiece⟩
  rw [Sql.isUndefined, Bool.or_eq_true, hcode, hphrase]

end Report

/-- The error of a report by its code alone. -/
inductive ByCode (d : Dialect) (q : String) (report : Report) : Error → Prop
  | schema (h : report.HasUndefinedCode) : ByCode d q report (.schema report.message)
  | query (h : ¬ report.HasUndefinedCode) : ByCode d q report (.query q (d.reportText report))

/-- What becomes of a report on a query. -/
structure ReportLaw (d : Dialect) (q : String) (report : Report) (e : Error) : Prop where
  undefined : report.HasUndefinedCode ∨ report.MentionsUndefined → e = .schema report.message
  /-- The error of every other report has the query and the whole text of the client. -/
  other : ¬ (report.HasUndefinedCode ∨ report.MentionsUndefined) →
    e = .query q (d.reportText report)
  /-- The wording of the message has no influence exactly as long as it has no such phrase, or the
  code is one of the four. -/
  byCode_iff : ByCode d q report e ↔ report.HasUndefinedCode ∨ ¬ report.MentionsUndefined

variable {d : Dialect} {w : World} {link : Link} {record : ConnectionRecord} {q : String}
  {parameters : List Value} {report : Report}

theorem reportLaw_toError (d : Dialect) (q : String) (report : Report) :
    ReportLaw d q report ((d.failure report).toError q) := by
  have herror : (d.failure report).toError q =
      if Sql.isUndefined report.code report.message then .schema report.message
      else .query q (d.reportText report) := rfl
  by_cases hundefined : report.HasUndefinedCode ∨ report.MentionsUndefined
  · have hschema : (d.failure report).toError q = .schema report.message := by
      rw [herror, if_pos (Report.isUndefined_iff.mpr hundefined)]
    rw [hschema]
    refine ⟨fun _ => rfl, fun h => absurd hundefined h, ?_⟩
    constructor
    · intro h
      cases h with
      | schema hcode => exact Or.inl hcode
    · rintro (hcode | hmention)
      · exact .schema hcode
      · exact .schema (hundefined.resolve_right hmention)
  · have hquery : (d.failure report).toError q = .query q (d.reportText report) := by
      rw [herror, if_neg fun h => hundefined (Report.isUndefined_iff.mp h)]
    rw [hquery]
    obtain ⟨hcode, hmention⟩ := not_or.mp hundefined
    refine ⟨fun h => absurd h hundefined, fun _ => rfl, ?_⟩
    exact iff_of_true (.query hcode) (Or.inr hmention)

/-! ### Reports to a handler -/

theorem ask_of_failure (hlink : link.isAlive = true)
    (hparameters : d.parameterFailure? 1 parameters = none)
    (hanswer : w.server.answer q = .failure report) :
    ask d w.server link q parameters = (.error (d.failure report), link) := by
  rw [ask, hparameters]
  simp only [hlink, hanswer, if_true]

theorem result_query_of_failure (hlink : link.isAlive = true)
    (hparameters : d.parameterFailure? 1 parameters = none)
    (hanswer : w.server.answer q = .failure report) :
    (Handler.query ⟨.server d record, some link⟩ w q parameters).result =
      .error ((d.failure report).toError q) := by
  show (d.query w link q parameters).result = _
  rw [Dialect.query, ask_of_failure hlink hparameters hanswer]

theorem result_selectAll_of_failure {table : String} (hlink : link.isAlive = true)
    (hanswer : w.server.answer (Sql.selectAllFrom d.quote table) = .failure report) :
    (Handler.selectAll ⟨.server d record, some link⟩ w table).result =
      .error ((d.failure report).toError (Sql.selectAllFrom d.quote table)) := by
  show (d.selectAll w link table).result = _
  rw [Dialect.selectAll, ask_of_failure hlink rfl hanswer]

theorem result_tables_of_failure (hlink : link.isAlive = true)
    (htables : w.server.tables = .error report) :
    (Handler.tables ⟨.server d record, some link⟩ w).result =
      .error ((d.failure report).toError d.tableQuery) := by
  show (d.tables w link).result = _
  have hask : askTables d w.server link = .error (d.failure report) := by
    rw [askTables, htables, if_pos hlink]
  rw [Dialect.tables, hask]

/-- **Which error a report becomes**, with any code and any message, on a query, on a selection and
on the listing of the tables. -/
theorem reportLaw_of_failure (hlink : link.isAlive = true)
    (hparameters : d.parameterFailure? 1 parameters = none)
    (hanswer : w.server.answer q = .failure report) :
    (∃ e, ReportLaw d q report e ∧
      (Handler.query ⟨.server d record, some link⟩ w q parameters).result = .error e ∧
      ∀ table, Sql.selectAllFrom d.quote table = q →
        (Handler.selectAll ⟨.server d record, some link⟩ w table).result = .error e) ∧
      ∀ report, w.server.tables = .error report → ∃ e, ReportLaw d d.tableQuery report e ∧
        (Handler.tables ⟨.server d record, some link⟩ w).result = .error e := by
  refine ⟨⟨_, reportLaw_toError d q report,
    result_query_of_failure hlink hparameters hanswer, ?_⟩, ?_⟩
  · rintro table rfl
    exact result_selectAll_of_failure hlink hanswer
  · intro report htables
    exact ⟨_, reportLaw_toError d d.tableQuery report, result_tables_of_failure hlink htables⟩

/-- A report of a trigger, in words of its own. -/
def soldOut : Report := ⟨some "45000", some 1644, "no such table is free: 7"⟩

/-- A server that reports it on every reservation. -/
def restaurantServer : Server :=
  ⟨false, none, .ok [some "reservations"],
    [("INSERT INTO reservations VALUES (7)", .failure soldOut)]⟩

/-- The law holds of the report. -/
theorem reportLaw_soldOut :
    restaurantServer.answer "INSERT INTO reservations VALUES (7)" = .failure soldOut ∧
      ∃ e, ReportLaw .mysql "INSERT INTO reservations VALUES (7)" soldOut e ∧
        (Handler.query ⟨.server .mysql guest, some ⟨true⟩⟩ (Handler.alone restaurantServer)
          "INSERT INTO reservations VALUES (7)" []).result = .error e := by
  have hanswer : (Handler.alone restaurantServer).server.answer
      "INSERT INTO reservations VALUES (7)" = .failure soldOut := rfl
  obtain ⟨⟨e, he, hquery, -⟩, -⟩ :=
    @reportLaw_of_failure .mysql (Handler.alone restaurantServer) ⟨true⟩ guest _ [] _ rfl rfl
      hanswer
  exact ⟨hanswer, e, he, hquery⟩

/-- Its code is none of the four, and still it becomes an error about a table. -/
theorem query_soldOut :
    (Handler.query ⟨.server .mysql guest, some ⟨true⟩⟩ (Handler.alone restaurantServer)
        "INSERT INTO reservations VALUES (7)" []).result =
        .error (.schema "no such table is free: 7") ∧
      ¬ soldOut.HasUndefinedCode ∧
      ¬ ByCode .mysql "INSERT INTO reservations VALUES (7)" soldOut
        (.schema "no such table is free: 7") := by
  have hcode : ¬ soldOut.HasUndefinedCode := by
    rintro ⟨code, hcode, hsome⟩
    cases hsome
    revert hcode
    decide
  refine ⟨by decide +kernel, hcode, ?_⟩
  intro h
  cases h with
  | schema h => exact hcode h

end Server

end TableAccess
