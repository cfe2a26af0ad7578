import TableAccess.Command.Failure
import TableAccess.Document.Writer
import TableAccess.Handler.Shown

/-!
# Browsing a database

The command connects to a database, shows the first rows of its first table, and exports that
table into a file of the working directory.
-/

namespace TableAccess.Command

/-- How far a command came: what it printed, the files, and the log events. -/
structure Progress where
  printed : List String
  files : FileTree
  events : List Event

/-- Where a command ended. -/
structure Ending where
  failure : Option Failure
  progress : Progress

/-- How many rows are shown. -/
def previewRows : Nat := 3

/-- A row as an object; of cells with the same name the last one counts. -/
def rowJson (r : Row) : Json :=
  .object (Json.ofEntries (r.cells.map fun c => (c.column, Document.cellJson c.value)))

/-- The lines that show a row. -/
def rowLines (r : Row) : List String := Failure.lines (String.ofList (rowJson r).pretty)

/-- The file of the export of a table. -/
def exportPath (table : String) : String := table ++ "_export.csv"

namespace Progress

/-- What an outcome adds to the progress. -/
def after (p : Progress) (o : Outcome α) : Progress :=
  { p with files := o.files, events := p.events ++ o.events }

def print (p : Progress) (lines : List String) : Progress :=
  { p with printed := p.printed ++ lines }

def log (p : Progress) (events : List Event) : Progress := { p with events := p.events ++ events }

/-- The command ends well. -/
def ended (p : Progress) : Ending := ⟨none, p⟩

/-- The command ends with a failure, and the handler goes away. -/
def failed (p : Progress) (h : Handler) (context : String) (e : Error) : Ending :=
  ⟨some (.ofError context e), p.log h.dropEvents⟩

end Progress

/-- The event before connecting. -/
def connectingEvent (h : Handler) : Event :=
  .info "connecting"
    [("backend", .text h.target.backend.name), ("target", .text h.target.label)]

/-- The event of the tables. -/
def tablesEvent (names : List String) : Event :=
  .info "tables found" [("tables", .text (shownList (names.map Text.quoted)))]

/-- Export a table and finish. -/
def browseExport (w : World) (h : Handler) (table : String) (p : Progress) : Ending :=
  let exported := h.exportTable { w with files := p.files } table (exportPath table)
  let p := p.after exported
  match exported.result with
  | .error e => p.failed exported.handler ("failed to export " ++ table) e
  | .ok rows =>
    let p := p.print
      ["exported " ++ toString rows ++ " rows from " ++ table ++ " to " ++ exportPath table]
    (p.after (exported.handler.close { w with files := p.files })).ended

/-- Show the first rows of a table, then export it. -/
def browseTable (w : World) (h : Handler) (table : String) (p : Progress) : Ending :=
  let selected := h.selectAll { w with files := p.files } table
  let p := p.after selected
  match selected.result with
  | .error e => p.failed selected.handler ("failed to query " ++ table) e
  | .ok result =>
    browseExport w selected.handler table
      (p.print ((result.rows.take previewRows).flatMap rowLines))

/-- Look for the tables and go on with the first one. -/
def browseTables (w : World) (h : Handler) (p : Progress) : Ending :=
  let listed := h.tables { w with files := p.files }
  let p := p.after listed
  match listed.result with
  | .error e => p.failed listed.handler "failed to list tables" e
  | .ok [] =>
    let p := p.log [tablesEvent [], .warn "no tables found in the database" []]
    (p.after (listed.handler.close { w with files := p.files })).ended
  | .ok (table :: names) =>
    browseTable w listed.handler table (p.log [tablesEvent (table :: names)])

/-- Browse what an argument describes. -/
def browse (w : World) (argument : String)
    (wording : Descriptor.Wording := Descriptor.plainWording) : Ending :=
  let start : Progress := ⟨[], w.files, []⟩
  match Descriptor.parse argument wording with
  | .error e => ⟨some (.ofError ("cannot read connection argument " ++ argument) e), start⟩
  | .ok descriptor =>
    match Handler.ofDescriptor descriptor with
    | .error e => ⟨some (.ofError ("no handler for " ++ descriptor.label) e), start⟩
    | .ok h =>
      let connected := h.connect w
      let p := (start.log [connectingEvent h]).after connected
      match connected.result with
      | .error e => p.failed connected.handler ("failed to connect to " ++ h.target.label) e
      | .ok () => browseTables w connected.handler p

end TableAccess.Command
