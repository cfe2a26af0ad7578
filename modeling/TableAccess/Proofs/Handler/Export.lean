import TableAccess.Proofs.Csv.RoundTrip
import TableAccess.Proofs.FileTree.Write
import TableAccess.Proofs.Handler.Lifecycle
import TableAccess.Proofs.Query.Selection

/-!
# Exports from databases in memory

An export is refused before any file is touched, or writes one file as a whole.  Between the two
stands only the question whether the file can be created: the database that is held came through
the checks of its reader, so each row has a cell for each column, and the writer of records never
stops in the middle.
-/

namespace TableAccess

variable {db : Database} {t : Table} {files : FileTree} {table out path : String}

/-! ### Writing a result -/

namespace Csv

variable {result : Result}

theorem save_of_target {place : Place} (h : files.target out = .ok place)
    (hproblem : (output result).problem = none) :
    save files out result =
      (.ok result.rows.length, files.set place (.file (.bytes (bytes (output result).text)))) := by
  rw [save, FileTree.write_eq_ok_iff.mpr ⟨place, h, rfl⟩, written, hproblem]

theorem save_of_no_target {e : FileError} (h : files.target out = .error e) :
    save files out result = (.error (.io out e.message), files) := by
  rw [save, FileTree.write, h]

/-- The bytes start with the columns, whether rows follow or not. -/
theorem header_prefix_bytes (result : Result) :
    Text.encode (recordText (result.columns.map String.toList)) <+:
      bytes (output result).text := by
  rw [bytes, output, Text.encode_append]
  exact List.prefix_append _ _

end Csv

/-- A row that was selected from a well-formed database has a cell for each column. -/
theorem Database.WellFormed.size_of_mem_rowList (h : db.WellFormed) (ht : t ∈ db.tables) :
    ∀ row ∈ t.rowList, row.size = t.columns.length := by
  intro row hrow
  show row.cells.length = t.columns.length
  rw [← Cursor.columns_of_mem_rowList h ht hrow, Row.columns, List.length_map]

/-- The bytes are those of the writer of records for the whole table. -/
structure Table.FillsFile (t : Table) (bytes : List UInt8) : Prop where
  written : bytes = Csv.bytes (Csv.output ⟨t.columns, t.rowList⟩).text
  /-- There is a header, even if no rows follow. -/
  header : Text.encode (Csv.recordText (t.columns.map String.toList)) <+: bytes
  /-- A reader of records finds the columns and the rows. -/
  records : t.columns ≠ [] → Csv.readBytes bytes =
    some (t.columns :: t.rowList.map fun row => row.values.map Value.field)

theorem Database.WellFormed.fillsFile (h : db.WellFormed) (ht : t ∈ db.tables) :
    t.FillsFile (Csv.bytes (Csv.output ⟨t.columns, t.rowList⟩).text) where
  written := rfl
  header := Csv.header_prefix_bytes ⟨t.columns, t.rowList⟩
  records hcolumns := Csv.readBytes_bytes hcolumns (h.size_of_mem_rowList ht)

/-! ### The database that is held -/

theorem MemoryKind.wellFormed_of_parse {kind : MemoryKind} {bytes : List UInt8}
    (h : kind.parse bytes path = .ok db) : db.WellFormed := by
  cases kind with
  | document => exact Document.wellFormed_of_parse h
  | dbase =>
    rw [MemoryKind.parse] at h
    split at h
    case h_1 => cases h
    case h_2 t _ =>
      split at h
      case h_1 => cases h
      case h_2 found hadd =>
        cases h
        exact Database.wellFormed_empty.addTable hadd

namespace Handler

variable {kind : MemoryKind} {w : World} {steps : List (World × Operation)}

theorem handler_some_inj {found : Database}
    (h : kind.handler path (some db) = kind.handler path (some found)) : db = found := by
  cases kind with
  | document =>
    cases h
    rfl
  | dbase =>
    cases h
    rfl

/-- Whatever happened to a handler, the database that it holds is well-formed. -/
theorem wellFormed_of_held
    (h : ((ofTarget (kind.target path)).run steps).2 = kind.handler path (some db)) :
    db.WellFormed := by
  have hconnected : ((ofTarget (kind.target path)).run steps).2.isConnected = true := by
    rw [h, isConnected_handler]
    rfl
  obtain ⟨w, hlast⟩ := (isConnected_run_iff rfl steps).mp hconnected
  obtain ⟨content, found, -, hparse, hrun⟩ := exists_held_of_connectsLast hlast
  rw [handler_some_inj (h.symm.trans hrun)]
  exact MemoryKind.wellFormed_of_parse hparse

/-! ### One export -/

theorem exported_of_not_mem (h : table ∉ db.tableNames) :
    exported db files table out = (.error (.tableNotFound table), files) := by
  rw [exported, if_neg (fun hin => h (List.contains_iff_mem.mp hin))]

theorem exported_of_mem (h : db.WellFormed) (ht : t ∈ db.tables) :
    exported db files t.name out = Csv.save files out ⟨t.columns, t.rowList⟩ := by
  have hname : t.name ∈ db.tableNames := List.mem_map_of_mem ht
  rw [exported, if_pos (List.contains_iff_mem.mpr hname), Database.selectAll_of_mem h ht]

/-- What an export of a table does: if the file can be created, it holds the records of the table
afterwards and no other file has changed, and if it cannot, nothing has changed. -/
structure ExportsTable (t : Table) (files : FileTree) (out : String) (done : Outcome Answer) :
    Prop where
  whole : (Csv.output ⟨t.columns, t.rowList⟩).problem = none
  created : ∀ place, files.target out = .ok place → done.result = .ok (.count t.rows.length) ∧
    ∃ bytes, t.FillsFile bytes ∧ files.Wrote done.files out place (.bytes bytes)
  refused : ∀ e, files.target out = .error e →
    done.result = .error (.io out e.message) ∧ done.files = files

theorem exportsTable_of_mem (kind : MemoryKind) (path : String) (h : db.WellFormed)
    (ht : t ∈ db.tables) (w : World) (out : String) :
    ExportsTable t w.files out
      ((kind.handler path (some db)).step w (.exportTable t.name out)) := by
  obtain ⟨events, hstep⟩ := exists_step_of_export kind path db w t.name out
  rw [hstep, exported_of_mem h ht]
  have hwhole : (Csv.output ⟨t.columns, t.rowList⟩).problem = none :=
    Csv.problem_output (h.size_of_mem_rowList ht)
  constructor
  case whole => exact hwhole
  case created =>
    intro place hplace
    rw [Csv.save_of_target hplace hwhole]
    refine ⟨?_, _, h.fillsFile ht, FileTree.wrote_set hplace _⟩
    show Except.ok (Answer.count t.rowList.length) = _
    rw [Cursor.length_rowList]
  case refused =>
    intro e he
    rw [Csv.save_of_no_target he]
    exact ⟨rfl, rfl⟩

/-! ### The law of exports -/

/-- The handler lists the table. -/
def Lists (h : Handler) (w : World) (table : String) : Prop :=
  ∃ names, (h.step w .tables).result = .ok (.names names) ∧ table ∈ names

/-- What callers rely on when a table is exported: nothing happens without a connection or to a
table that is not listed, and a table that is listed is written as a whole, as it would be selected,
unless the file cannot be created. -/
structure ExportLaw (kind : MemoryKind) (path : String) (last : Handler) (w : World)
    (table out : String) : Prop where
  notConnected : last.isConnected = false →
    (last.step w (.exportTable table out)).result = .error .notConnected ∧
      (last.step w (.exportTable table out)).files = w.files
  unlisted : last.isConnected = true → ¬ last.Lists w table →
    (last.step w (.exportTable table out)).result = .error (.tableNotFound table) ∧
      (last.step w (.exportTable table out)).files = w.files
  listed : last.Lists w table → ∃ db t, last = kind.handler path (some db) ∧ t ∈ db.tables ∧
    t.name = table ∧
    (last.step w (.selectAll table)).result = .ok (.result ⟨t.columns, t.rowList⟩) ∧
    ExportsTable t w.files out (last.step w (.exportTable table out))
  /-- Only a file that cannot be created is reported as such. -/
  io : ∀ p cause, (last.step w (.exportTable table out)).result = .error (.io p cause) →
    last.Lists w table ∧ ∃ e, w.files.target out = .error e ∧ p = out ∧ cause = e.message

theorem exportLaw_of_none (kind : MemoryKind) (path : String) (w : World) (table out : String) :
    ExportLaw kind path (kind.handler path none) w table out := by
  have hnone := isConnected_handler kind path none
  have hstep : ∀ operation, operation.isSwitch = false → (kind.handler path none).step w operation =
      ⟨.error .notConnected, kind.handler path none, w.files, [], []⟩ :=
    fun operation hop => step_of_not_connected hnone hop
  constructor
  case notConnected =>
    intro _
    rw [hstep (.exportTable table out) rfl]
    exact ⟨rfl, rfl⟩
  case unlisted =>
    intro hconnected
    rw [hnone] at hconnected
    cases hconnected
  case listed =>
    intro hlisted
    obtain ⟨names, hnames, -⟩ := hlisted
    rw [hstep .tables rfl] at hnames
    cases hnames
  case io =>
    intro p cause hio
    rw [hstep (.exportTable table out) rfl] at hio
    cases hio

theorem lists_iff : (kind.handler path (some db)).Lists w table ↔ table ∈ db.tableNames := by
  obtain ⟨events, htables⟩ := exists_step_of_question kind path db w .tables
  have hresult : ((kind.handler path (some db)).step w .tables).result =
      .ok (.names db.tableNames) := congrArg Outcome.result htables
  constructor
  · intro h
    obtain ⟨names, hnames, hin⟩ := h
    rw [hresult] at hnames
    cases hnames
    exact hin
  · intro h
    exact ⟨db.tableNames, hresult, h⟩

theorem exportLaw_of_some (hdb : db.WellFormed) (kind : MemoryKind) (path : String) (w : World)
    (table out : String) : ExportLaw kind path (kind.handler path (some db)) w table out := by
  constructor
  case notConnected =>
    intro hnone
    rw [isConnected_handler] at hnone
    cases hnone
  case unlisted =>
    intro _ hlisted
    obtain ⟨events, hstep⟩ := exists_step_of_export kind path db w table out
    rw [hstep, exported_of_not_mem (fun hin => hlisted (lists_iff.mpr hin))]
    exact ⟨rfl, rfl⟩
  case listed =>
    intro hlisted
    obtain ⟨t, ht, rfl⟩ := List.mem_map.mp (lists_iff.mp hlisted)
    obtain ⟨events, hselect⟩ := exists_step_of_question kind path db w (.selectAll t.name)
    have hresult := congrArg Outcome.result hselect
    rw [Question.answer, Database.selectAll_of_mem hdb ht] at hresult
    exact ⟨db, t, rfl, ht, rfl, hresult, exportsTable_of_mem kind path hdb ht w out⟩
  case io =>
    intro p cause hio
    by_cases hname : table ∈ db.tableNames
    · refine ⟨lists_iff.mpr hname, ?_⟩
      obtain ⟨t, ht, rfl⟩ := List.mem_map.mp hname
      have hexport := exportsTable_of_mem kind path hdb ht w out
      cases htarget : w.files.target out with
      | ok place =>
        rw [(hexport.created place htarget).1] at hio
        cases hio
      | error e =>
        rw [(hexport.refused e htarget).1] at hio
        cases hio
        exact ⟨e, rfl, rfl, rfl⟩
    · obtain ⟨events, hstep⟩ := exists_step_of_export kind path db w table out
      rw [hstep, exported_of_not_mem hname] at hio
      cases hio

/-- **An export writes its whole table or nothing**, after any run of a handler, for any table and
any path, whatever the files are. -/
theorem exportLaw_of_run (kind : MemoryKind) (path : String) (steps : List (World × Operation))
    (w : World) (table out : String) :
    ExportLaw kind path ((ofTarget (kind.target path)).run steps).2 w table out := by
  obtain ⟨held, hheld⟩ := exists_held_run kind path steps
  rw [hheld]
  cases held with
  | none => exact exportLaw_of_none kind path w table out
  | some db => exact exportLaw_of_some (wellFormed_of_held hheld) kind path w table out

/-- The document is opened. -/
def openSmall : List (World × Operation) := [(holding small, .connect)]

/-- A table is exported over the document that it came from.  Nothing is exported into a directory
that is not there, under the name of another table, or without a connection. -/
theorem exportLaw_openSmall :
    ∃ last, ((ofTarget (MemoryKind.document.target "m.mvo")).run openSmall).2 = last ∧
      (last.step (holding small) (.exportTable "T" "m.mvo")).result = .ok (.count 1) ∧
      (∃ bytes, (last.step (holding small) (.exportTable "T" "m.mvo")).files.read "m.mvo" =
        .ok (.bytes bytes) ∧ Csv.readBytes bytes = some [["a"], ["b"]]) ∧
      (last.step (holding small) (.exportTable "T" "sub/t.csv")).result =
        .error (.io "sub/t.csv" "No such file or directory (os error 2)") ∧
      (last.step (holding small) (.exportTable "U" "m.mvo")).result =
        .error (.tableNotFound "U") ∧
      ((ofTarget (MemoryKind.document.target "m.mvo")).step (holding small)
        (.exportTable "T" "m.mvo")).result = .error .notConnected := by
  have hnew := exportLaw_of_run .document "m.mvo" [] (holding small) "T" "m.mvo"
  have hlaw := exportLaw_of_run .document "m.mvo" openSmall (holding small)
  have hrun : ((ofTarget (MemoryKind.document.target "m.mvo")).run openSmall).2 =
      MemoryKind.document.handler "m.mvo" (some smallDatabase) := connect_small.2
  rw [hrun] at hlaw
  have hlists : ∀ table,
      (MemoryKind.document.handler "m.mvo" (some smallDatabase)).Lists (holding small) table ↔
        table ∈ ["T"] := fun table => lists_iff
  have hexports : ∀ out, ExportsTable ⟨"T", ["a"], [[.text "b"]]⟩ (holding small).files out
      ((MemoryKind.document.handler "m.mvo" (some smallDatabase)).step (holding small)
        (.exportTable "T" out)) := by
    intro out
    obtain ⟨db, t, hdb, ht, -, -, hexports⟩ :=
      (hlaw "T" out).listed ((hlists "T").mpr (List.mem_singleton.mpr rfl))
    obtain rfl : smallDatabase = db := handler_some_inj hdb
    obtain rfl : t = _ := List.mem_singleton.mp ht
    exact hexports
  obtain ⟨hcount, bytes, hfills, hwrote⟩ := (hexports "m.mvo").created _ rfl
  have hunlisted := ((hlaw "U" "m.mvo").unlisted rfl (mt (hlists "U").mp (by decide))).1
  exact ⟨_, hrun, hcount, ⟨bytes, hwrote.reads, hfills.records (by decide)⟩,
    ((hexports "sub/t.csv").refused _ rfl).1, hunlisted, (hnew.notConnected rfl).1⟩

end Handler

end TableAccess
