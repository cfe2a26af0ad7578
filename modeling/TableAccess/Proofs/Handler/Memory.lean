import TableAccess.Proofs.Cursor.Run
import TableAccess.Proofs.Handler.Run
import TableAccess.Proofs.Text.Utf8

/-!
# Handlers of files that are held in memory

A document or a table file is read when its handler connects, and at no other time.  From then on
the handler answers from what it read, until it connects again or closes.
-/

namespace TableAccess

/-! ### What a database answers -/

theorem Query.parse_eq_error {q : String} {e : Error} (h : Query.parse q = .error e) :
    ∃ reason, e = .unsupportedQuery q reason := by
  rw [parse] at h
  split at h
  · cases h
  · cases h
    exact ⟨_, rfl⟩

namespace Database

variable {db : Database} {e : Error}

theorem selectAll_eq (db : Database) (name : String) :
    db.selectAll name =
      match db.table? name with
      | none => .error (.tableNotFound name)
      | some t => .ok ⟨t.columns, t.rowList⟩ := by
  rw [selectAll]
  cases htable : db.table? name with
  | none =>
    rw [Cursor.selectTable_of_no_table htable]
    rfl
  | some t =>
    rw [Cursor.selectTable_of_table htable]
    rfl

theorem execute_eq (db : Database) (q : String) (parameters : List Value)
    (hparameters : parameters.isEmpty = true) :
    db.execute q parameters =
      match Query.parse q with
      | .error e => .error e
      | .ok name => (db.selectAll name).map Result.rows := by
  rw [execute, if_pos hparameters, Cursor.execute]
  cases Query.parse q with
  | error e => rfl
  | ok name =>
    simp only [selectAll_eq]
    cases htable : db.table? name with
    | none =>
      rw [Cursor.selectTable_of_no_table htable]
      rfl
    | some t =>
      rw [Cursor.selectTable_of_table htable]
      rfl

theorem selectAll_eq_error {name : String} (h : db.selectAll name = .error e) :
    e = .tableNotFound name := by
  rw [selectAll_eq] at h
  cases htable : db.table? name with
  | none =>
    rw [htable] at h
    cases h
    rfl
  | some t =>
    rw [htable] at h
    cases h

/-- A query fails because of its text or its parameters, or because its table is missing. -/
theorem execute_eq_error {q : String} {parameters : List Value}
    (h : db.execute q parameters = .error e) :
    (∃ reason, e = .unsupportedQuery q reason) ∨ ∃ name, e = .tableNotFound name := by
  cases hparameters : parameters.isEmpty with
  | false =>
    rw [execute, hparameters] at h
    cases h
    exact Or.inl ⟨_, rfl⟩
  | true =>
    rw [execute_eq db q parameters hparameters] at h
    cases hparse : Query.parse q with
    | error problem =>
      rw [hparse] at h
      cases h
      exact Or.inl (Query.parse_eq_error hparse)
    | ok name =>
      rw [hparse] at h
      cases hselect : db.selectAll name with
      | error problem =>
        simp only [hselect] at h
        cases h
        exact Or.inr ⟨name, selectAll_eq_error hselect⟩
      | ok result =>
        simp only [hselect] at h
        cases h

end Database

theorem Csv.save_eq_error {files : FileTree} {path : String} {result : Result} {e : Error}
    (h : (Csv.save files path result).1 = .error e) : ∃ cause, e = .io path cause := by
  rw [save] at h
  split at h
  · cases h
    exact ⟨_, rfl⟩
  · split at h
    · cases h
      exact ⟨_, rfl⟩
    · cases h

/-! ### The handlers -/

/-- The kinds of files that are held in memory. -/
inductive MemoryKind where
  | document
  | dbase
deriving DecidableEq

namespace MemoryKind

def format : MemoryKind → MemoryFormat
  | .document => .document
  | .dbase => .dbase

def target : MemoryKind → String → Target
  | .document, path => .document path
  | .dbase, path => .dbase path

/-- A handler of a file, with what it holds. -/
def handler : MemoryKind → String → Option Database → Handler
  | .document, path, held => ⟨.document path, held⟩
  | .dbase, path, held => ⟨.dbase path, held⟩

/-- The database in the bytes of a file with that path. -/
def parse : MemoryKind → List UInt8 → String → Except Error Database
  | .document, bytes, path => Document.parse bytes path
  | .dbase, bytes, path =>
    match Dbase.parse bytes path with
    | .error e => .error e
    | .ok t =>
      match Database.empty.addTable (t.toTable (Dbase.tableName path)) with
      | .error e => .error (.corrupt path e.message)
      | .ok db => .ok db

end MemoryKind

namespace Handler

variable {kind : MemoryKind} {path : String} {db : Database} {w : World}

theorem exists_held_of_target {h : Handler} (ht : h.target = kind.target path) :
    ∃ held, h = kind.handler path held := by
  obtain ⟨target, session⟩ := h
  obtain rfl : target = kind.target path := ht
  cases kind with
  | document => exact ⟨session, rfl⟩
  | dbase => exact ⟨session, rfl⟩

theorem ofTarget_eq (kind : MemoryKind) (path : String) :
    ofTarget (kind.target path) = kind.handler path none := by
  cases kind <;> rfl

/-- What is loaded of a file is in its bytes. -/
theorem load_of_read {files : FileTree} {content : Content}
    (hread : files.read path = .ok content) :
    kind.format.load files path = kind.parse content.toBytes path := by
  cases kind with
  | document =>
    show Document.load files path = Document.parse content.toBytes path
    rw [Document.load, hread]
  | dbase =>
    show Dbase.loadDatabase files path = MemoryKind.dbase.parse content.toBytes path
    rw [Dbase.loadDatabase, Dbase.load, hread]
    rfl

theorem exists_load_of_unread {files : FileTree} {e : FileError}
    (hread : files.read path = .error e) :
    ∃ message, kind.format.load files path = .error (.connection message) := by
  cases kind with
  | document =>
    show ∃ message, Document.load files path = .error (.connection message)
    rw [Document.load, hread]
    exact ⟨_, rfl⟩
  | dbase =>
    show ∃ message, Dbase.loadDatabase files path = .error (.connection message)
    rw [Dbase.loadDatabase, Dbase.load, hread]
    exact ⟨_, rfl⟩

/-- Loading succeeds exactly if the file can be read and there is a database in its bytes. -/
theorem load_eq_ok_iff {files : FileTree} :
    kind.format.load files path = .ok db ↔
      ∃ content, files.read path = .ok content ∧ kind.parse content.toBytes path = .ok db := by
  constructor
  · intro hload
    cases hread : files.read path with
    | ok content => exact ⟨content, rfl, by rw [← load_of_read hread, hload]⟩
    | error e =>
      obtain ⟨message, hmessage⟩ := exists_load_of_unread hread
      rw [hmessage] at hload
      cases hload
  · rintro ⟨content, hread, hparse⟩
    rw [load_of_read hread, hparse]

theorem result_start (f : MemoryFormat) (path : String) (w : World) :
    (f.start path w).result = f.load w.files path := by
  rw [MemoryFormat.start]
  cases f.load w.files path with
  | error e => rfl
  | ok db => rfl

/-- Connecting holds the database that is loaded, and after a failure none. -/
theorem connect_cases (kind : MemoryKind) (path : String) (held : Option Database) (w : World) :
    (∃ db, kind.format.load w.files path = .ok db ∧
      ((kind.handler path held).step w .connect).result = .ok .done ∧
      ((kind.handler path held).step w .connect).handler = kind.handler path (some db)) ∨
    ∃ e, kind.format.load w.files path = .error e ∧
      ((kind.handler path held).step w .connect).result = .error e ∧
      ((kind.handler path held).step w .connect).handler = kind.handler path none := by
  rw [← result_start]
  cases kind with
  | document => exact step_connect (MemoryKind.document.handler path held) w
  | dbase => exact step_connect (MemoryKind.dbase.handler path held) w

/-! ### Questions and exports -/

/-- What can be asked about the content of a file. -/
inductive Question where
  | tables
  | query (q : String) (parameters : List Value)
  | selectAll (table : String)
deriving DecidableEq

namespace Question

def operation : Question → Operation
  | .tables => .tables
  | .query q parameters => .query q parameters
  | .selectAll table => .selectAll table

/-- What a database answers. -/
def answer (db : Database) : Question → Except Error Answer
  | .tables => .ok (.names db.tableNames)
  | .query q parameters => (db.execute q parameters).map .rows
  | .selectAll table => (db.selectAll table).map .result

end Question

/-- What an export from a database gives, and the files after it. -/
def exported (db : Database) (files : FileTree) (table out : String) :
    Except Error Nat × FileTree :=
  if db.tableNames.contains table then
    match db.selectAll table with
    | .error e => (.error e, files)
    | .ok result => Csv.save files out result
  else (.error (.tableNotFound table), files)

theorem query_eq (f : MemoryFormat) (w : World) (db : Database) (q : String)
    (parameters : List Value) :
    ∃ events, f.query w db q parameters = ⟨db.execute q parameters, db, w.files, events, []⟩ := by
  rw [MemoryFormat.query]
  cases db.execute q parameters with
  | error e => exact ⟨_, rfl⟩
  | ok rows => exact ⟨_, rfl⟩

/-- A connected handler answers from its database, and nothing else happens. -/
theorem exists_step_of_question (kind : MemoryKind) (path : String) (db : Database) (w : World)
    (question : Question) :
    ∃ events, (kind.handler path (some db)).step w question.operation =
      ⟨question.answer db, kind.handler path (some db), w.files, events, []⟩ := by
  cases question with
  | tables => cases kind <;> exact ⟨_, rfl⟩
  | selectAll table => cases kind <;> exact ⟨_, rfl⟩
  | query q parameters =>
    obtain ⟨events, hquery⟩ := query_eq kind.format w db q parameters
    have hstep : (kind.handler path (some db)).step w (.query q parameters) =
        ⟨(kind.format.query w db q parameters).result.map .rows,
          kind.handler path (some (kind.format.query w db q parameters).session),
          (kind.format.query w db q parameters).files,
          (kind.format.query w db q parameters).events,
          (kind.format.query w db q parameters).contacts⟩ := by
      cases kind <;> rfl
    refine ⟨events, ?_⟩
    rw [Question.operation, hstep, hquery]
    rfl

/-- An export writes what its database holds, whatever the files hold, and leaves the database as
it is. -/
theorem exists_step_of_export (kind : MemoryKind) (path : String) (db : Database) (w : World)
    (table out : String) :
    ∃ events, (kind.handler path (some db)).step w (.exportTable table out) =
      ⟨(exported db w.files table out).1.map .count, kind.handler path (some db),
        (exported db w.files table out).2, events, []⟩ := by
  have htables : ∃ events, (kind.handler path (some db)).tables w =
      ⟨.ok db.tableNames, kind.handler path (some db), w.files, events, []⟩ := by
    cases kind <;> exact ⟨_, rfl⟩
  obtain ⟨listed, htables⟩ := htables
  have hselect : (kind.handler path (some db)).selectAll w table =
      ⟨db.selectAll table, kind.handler path (some db), w.files, [], []⟩ := by
    cases kind <;> rfl
  rw [step, exportTable, htables, exported]
  by_cases hname : db.tableNames.contains table = true
  · simp only [if_pos hname]
    rw [hselect, exportResult]
    cases db.selectAll table with
    | error e => exact ⟨_, rfl⟩
    | ok result =>
      simp only
      cases Csv.save w.files out result with
      | mk saved files =>
        cases saved with
        | error e => exact ⟨_, rfl⟩
        | ok rows => exact ⟨_, rfl⟩
  · simp only [if_neg hname]
    exact ⟨_, rfl⟩

theorem answer_ne_notConnected (db : Database) (question : Question) :
    question.answer db ≠ .error .notConnected := by
  cases question with
  | tables => exact nofun
  | query q parameters =>
    rw [Question.answer]
    cases hexecute : db.execute q parameters with
    | ok rows => exact nofun
    | error e =>
      rcases Database.execute_eq_error hexecute with ⟨reason, rfl⟩ | ⟨name, rfl⟩
      · exact nofun
      · exact nofun
  | selectAll table =>
    rw [Question.answer]
    cases hselect : db.selectAll table with
    | ok result => exact nofun
    | error e =>
      rw [Database.selectAll_eq_error hselect]
      exact nofun

theorem exported_ne_notConnected (db : Database) (files : FileTree) (table out : String) :
    (exported db files table out).1 ≠ .error .notConnected := by
  rw [exported]
  split
  · cases hselect : db.selectAll table with
    | error e =>
      rw [Database.selectAll_eq_error hselect]
      exact nofun
    | ok result =>
      intro hsave
      obtain ⟨cause, hcause⟩ := Csv.save_eq_error hsave
      cases hcause
  · exact nofun

/-- Whatever is asked of a connected handler or exported from it, the handler stays as it is and
does not say that it is not connected. -/
theorem step_of_held (kind : MemoryKind) (path : String) (db : Database) (w : World)
    {operation : Operation} (hop : operation.isSwitch = false) :
    ((kind.handler path (some db)).step w operation).handler = kind.handler path (some db) ∧
      ((kind.handler path (some db)).step w operation).result ≠ .error .notConnected := by
  have hquestion : ∀ question : Question,
      ((kind.handler path (some db)).step w question.operation).handler =
          kind.handler path (some db) ∧
        ((kind.handler path (some db)).step w question.operation).result ≠
          .error .notConnected := by
    intro question
    obtain ⟨events, hstep⟩ := exists_step_of_question kind path db w question
    rw [hstep]
    exact ⟨rfl, answer_ne_notConnected db question⟩
  cases operation with
  | connect => cases hop
  | close => cases hop
  | tables => exact hquestion .tables
  | query q parameters => exact hquestion (.query q parameters)
  | selectAll table => exact hquestion (.selectAll table)
  | exportTable table out =>
    obtain ⟨events, hstep⟩ := exists_step_of_export kind path db w table out
    rw [hstep]
    refine ⟨rfl, ?_⟩
    have hexported := exported_ne_notConnected db w.files table out
    cases hsaved : (exported db w.files table out).1 with
    | ok rows => exact nofun
    | error e =>
      intro h
      cases h
      exact hexported hsaved

end Handler

end TableAccess
