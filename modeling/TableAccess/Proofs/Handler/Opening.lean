import TableAccess.Proofs.Dbase.Footprint
import TableAccess.Proofs.Handler.Lifecycle
import TableAccess.Proofs.Query.Selection

/-!
# Opening table files

A table file is read and then put, under the name of the file, into a database that was made for
documents.  The rows that were read always fit, but that database refuses a column that occurs
twice, and it refuses a name with a dollar sign in front, which means something in documents and
nothing in table files.  A file that passes is shown as the one table that was read.
-/

namespace TableAccess

namespace Dbase

variable {t : Table} {files : FileTree} {path : String} {db : Database}

/-! ### From a table to a database -/

/-- Where a table comes from is only told when it cannot be read. -/
theorem parse_of_parse {bytes : List UInt8} {origin : String} (h : parse bytes origin = .ok t)
    (other : String) : parse bytes other = .ok t := by
  obtain ⟨blocks, hfile, rfl⟩ := exists_isFile_of_parse h
  rw [parse, ofBytes_of_isFile hfile]

/-- The rows of a table that was read have a value for each column. -/
theorem widths_of_load (h : load files path = .ok t) :
    ∀ row ∈ t.rows, row.length = t.columns.length := by
  rw [load] at h
  split at h
  case h_1 => cases h
  case h_2 content _ =>
    obtain ⟨blocks, hfile, rfl⟩ := exists_isFile_of_parse h
    intro row hrow
    obtain ⟨record, -, rfl⟩ := List.mem_map.mp hrow
    rw [length_readCells, Table.columns]
    exact (List.length_map _).symm

/-- Why a table cannot be held under a name, if its rows fit. -/
def Table.obstacle? (t : Table) (name : String) : Option Database.AddProblem :=
  if isMetadataName name then some .reserved
  else (firstRepeated? [] t.columns).map .repeatedColumn

theorem obstacle?_eq_none_iff {name : String} :
    t.obstacle? name = none ↔ t.columns.Nodup ∧ isMetadataName name = false := by
  rw [Table.obstacle?]
  cases isMetadataName name with
  | true => exact iff_of_false nofun fun h => nomatch h.2
  | false =>
    rw [if_neg nofun, Option.map_eq_none_iff, firstRepeated?_eq_none_iff]
    exact ⟨fun h => ⟨h.1, rfl⟩, fun h => ⟨h.1, fun _ _ => List.not_mem_nil⟩⟩

theorem addProblem?_toTable (h : load files path = .ok t) (name : String) :
    Database.empty.addProblem? (t.toTable name) = t.obstacle? name := by
  have hname : (t.toTable name).name = name := rfl
  have hcolumns : (t.toTable name).columns = t.columns := rfl
  have hwidths : firstMisfit? t.columns.length 0 (t.toTable name).rows = none :=
    firstMisfit?_eq_none_iff.mpr (widths_of_load h)
  have hnew : (Database.empty.table? name).isSome = false := rfl
  rw [Database.addProblem?, hname, hcolumns, hwidths, hnew, if_neg Bool.false_ne_true,
    Table.obstacle?]
  cases firstRepeated? [] t.columns <;> rfl

/-- A table that was read becomes the database of its file, unless its name or a column stands in
the way. -/
theorem loadDatabase_of_load (h : load files path = .ok t) :
    loadDatabase files path =
      match t.obstacle? (tableName path) with
      | none => .ok ⟨[t.toTable (tableName path)]⟩
      | some problem =>
        .error (.corrupt path
          (Error.schema (problem.message (t.toTable (tableName path)))).message) := by
  rw [loadDatabase, h]
  simp only [Database.addTable, addProblem?_toTable h]
  cases t.obstacle? (tableName path) <;> rfl

theorem loadDatabase_of_error {e : Error} (h : load files path = .error e) :
    loadDatabase files path = .error e := by
  rw [loadDatabase, h]

end Dbase

namespace Handler

variable {path stem : String} {w : World} {t : Dbase.Table}

/-! ### The law of opening -/

/-- What becomes of connecting the handler of a table file whose name has a stem. -/
structure OpeningLaw (path stem : String) (h : Handler) (w : World) : Prop where
  /-- The file is opened exactly if it can be read, no column occurs twice, and its name does not
  look like a key for metadata. -/
  opened_iff : (h.step w .connect).result = .ok .done ↔
    ∃ t, Dbase.load w.files path = .ok t ∧ t.columns.Nodup ∧ isMetadataName stem = false
  unread : ∀ e, Dbase.load w.files path = .error e → (h.step w .connect).result = .error e
  /-- A table that was read is refused as a corrupt file, with what stands in its way. -/
  refused : ∀ t problem, Dbase.load w.files path = .ok t → t.obstacle? stem = some problem →
    (h.step w .connect).result =
      .error (.corrupt path (Error.schema (problem.message (t.toTable stem))).message)
  /-- Whatever is asked or exported since and whatever happens to the files, the one table is
  shown under the stem, with the columns and rows that were read. -/
  shown : ∀ t, Dbase.load w.files path = .ok t → (h.step w .connect).result = .ok .done →
    ∀ steps, Quiet steps → ∀ v,
      (((h.step w .connect).handler.run steps).2.step v .tables).result = .ok (.names [stem]) ∧
      (((h.step w .connect).handler.run steps).2.step v (.selectAll stem)).result =
        .ok (.result ⟨t.columns, (t.toTable stem).rowList⟩) ∧
      (t.toTable stem).HasRows (t.toTable stem).rowList

theorem tableName_of_stem (hstem : Path.stem? path = some stem) : Dbase.tableName path = stem := by
  rw [Dbase.tableName, hstem]
  rfl

/-! ### Connecting -/

theorem connect_of_loaded {kind : MemoryKind} {db : Database}
    (hload : kind.format.load w.files path = .ok db) (held : Option Database) :
    ((kind.handler path held).step w .connect).result = .ok .done ∧
      ((kind.handler path held).step w .connect).handler = kind.handler path (some db) := by
  rcases connect_cases kind path held w with ⟨db', hdb, hdone, hhandler⟩ | ⟨e, herror, -, -⟩
  · obtain rfl := Except.ok.inj (hload.symm.trans hdb)
    exact ⟨hdone, hhandler⟩
  · rw [hload] at herror
    cases herror

theorem connect_of_failed {kind : MemoryKind} {e : Error}
    (hload : kind.format.load w.files path = .error e) (held : Option Database) :
    ((kind.handler path held).step w .connect).result = .error e := by
  rcases connect_cases kind path held w with ⟨db, hdb, -, -⟩ | ⟨e', herror, hresult, -⟩
  · rw [hload] at hdb
    cases hdb
  · rw [hresult, Except.error.inj (herror.symm.trans hload)]

/-- What a connect loads from a file that was read. -/
theorem load_of_stem (hstem : Path.stem? path = some stem) (ht : Dbase.load w.files path = .ok t) :
    MemoryKind.dbase.format.load w.files path =
      match t.obstacle? stem with
      | none => .ok ⟨[t.toTable stem]⟩
      | some problem =>
        .error (.corrupt path (Error.schema (problem.message (t.toTable stem))).message) := by
  rw [← tableName_of_stem hstem]
  exact Dbase.loadDatabase_of_load ht

theorem connect_of_unread {e : Error} (he : Dbase.load w.files path = .error e)
    (held : Option Database) :
    ((MemoryKind.dbase.handler path held).step w .connect).result = .error e := by
  have hload : MemoryKind.dbase.format.load w.files path = .error e :=
    Dbase.loadDatabase_of_error he
  exact connect_of_failed hload held

theorem connect_of_obstacle (hstem : Path.stem? path = some stem)
    (ht : Dbase.load w.files path = .ok t) {problem : Database.AddProblem}
    (hproblem : t.obstacle? stem = some problem) (held : Option Database) :
    ((MemoryKind.dbase.handler path held).step w .connect).result =
      .error (.corrupt path (Error.schema (problem.message (t.toTable stem))).message) := by
  have hload := load_of_stem hstem ht
  rw [hproblem] at hload
  exact connect_of_failed hload held

theorem connect_of_free (hstem : Path.stem? path = some stem)
    (ht : Dbase.load w.files path = .ok t) (hfree : t.obstacle? stem = none)
    (held : Option Database) :
    ((MemoryKind.dbase.handler path held).step w .connect).result = .ok .done ∧
      ((MemoryKind.dbase.handler path held).step w .connect).handler =
        MemoryKind.dbase.handler path (some ⟨[t.toTable stem]⟩) := by
  have hload := load_of_stem hstem ht
  rw [hfree] at hload
  exact connect_of_loaded hload held

/-- What is shown by a handler that holds one table. -/
theorem step_of_single (path : String) (u : Table) (v : World) :
    ((MemoryKind.dbase.handler path (some ⟨[u]⟩)).step v .tables).result = .ok (.names [u.name]) ∧
      ((MemoryKind.dbase.handler path (some ⟨[u]⟩)).step v (.selectAll u.name)).result =
        .ok (.result ⟨u.columns, u.rowList⟩) := by
  have hfound : (Database.mk [u]).table? u.name = some u :=
    List.find?_cons_of_pos (beq_self_eq_true u.name)
  obtain ⟨_, htables⟩ := exists_step_of_question .dbase path ⟨[u]⟩ v .tables
  obtain ⟨_, hselect⟩ := exists_step_of_question .dbase path ⟨[u]⟩ v (.selectAll u.name)
  constructor
  · exact congrArg Outcome.result htables
  · refine (congrArg Outcome.result hselect).trans ?_
    rw [Question.answer, Database.selectAll_eq, hfound]
    rfl

/-- **A table file that can be read is opened, unless a column occurs twice or its name starts with
a dollar sign**, whatever the handler did before. -/
theorem openingLaw_of_stem (hstem : Path.stem? path = some stem)
    (before : List (World × Operation)) (w : World) :
    OpeningLaw path stem ((ofTarget (.dbase path)).run before).2 w := by
  obtain ⟨held, hheld⟩ := exists_held_run .dbase path before
  have hhandler : ((ofTarget (.dbase path)).run before).2 = MemoryKind.dbase.handler path held :=
    hheld
  rw [hhandler]
  have hfree : ∀ t, Dbase.load w.files path = .ok t →
      ((MemoryKind.dbase.handler path held).step w .connect).result = .ok .done →
      t.obstacle? stem = none := by
    intro t ht hdone
    cases hproblem : t.obstacle? stem with
    | none => rfl
    | some problem =>
      rw [connect_of_obstacle hstem ht hproblem held] at hdone
      cases hdone
  constructor
  case opened_iff =>
    constructor
    · intro hdone
      cases ht : Dbase.load w.files path with
      | error e =>
        rw [connect_of_unread ht held] at hdone
        cases hdone
      | ok t => exact ⟨t, rfl, Dbase.obstacle?_eq_none_iff.mp (hfree t ht hdone)⟩
    · rintro ⟨t, ht, hpassed⟩
      exact (connect_of_free hstem ht (Dbase.obstacle?_eq_none_iff.mpr hpassed) held).1
  case unread => exact fun e he => connect_of_unread he held
  case refused => exact fun t problem ht hproblem => connect_of_obstacle hstem ht hproblem held
  case shown =>
    intro t ht hdone steps hsteps v
    have hpassed := hfree t ht hdone
    rw [(connect_of_free hstem ht hpassed held).2, run_of_quiet .dbase path _ hsteps]
    obtain ⟨htables, hselect⟩ := step_of_single path (t.toTable stem) v
    exact ⟨htables, hselect,
      Table.hasRows_rowList (Dbase.obstacle?_eq_none_iff.mp hpassed).1 (Dbase.widths_of_load ht)⟩

/-! ### Two letters -/

/-- Surroundings with two letters in a file of that name. -/
def letterFile (name : String) : World :=
  { holding [] with
    files := ⟨[(["work".toList], .directory),
      (["work".toList, name.toList], .file (.bytes Dbase.letters))], ["work".toList]⟩ }

theorem load_letterFile (hread : (letterFile stem).files.read path = .ok (.bytes Dbase.letters)) :
    Dbase.load (letterFile stem).files path = .ok ⟨[.character "A" 1], [[.text "y"]]⟩ := by
  rw [Dbase.load, hread]
  exact Dbase.parse_of_parse Dbase.parse_letters path

/-- A connect that found no file does not stand in the way of a later one. -/
theorem openingLaw_letters :
    Path.stem? "a.dbf" = some "a" ∧
      (((ofTarget (.dbase "a.dbf")).run [(letterFile "b.dbf", .connect)]).2.step
        (letterFile "a.dbf") .connect).result = .ok .done ∧
      ((((ofTarget (.dbase "a.dbf")).run [(letterFile "b.dbf", .connect)]).2.step
        (letterFile "a.dbf") .connect).handler.step (letterFile "b.dbf") (.selectAll "a")).result =
          .ok (.result ⟨["A"], [⟨[⟨"A", .text "y"⟩]⟩]⟩) := by
  have hstem : Path.stem? "a.dbf" = some "a" := by decide
  have hload : Dbase.load (letterFile "a.dbf").files "a.dbf" =
      .ok ⟨[.character "A" 1], [[.text "y"]]⟩ := load_letterFile rfl
  have hlaw := openingLaw_of_stem hstem [(letterFile "b.dbf", .connect)] (letterFile "a.dbf")
  have hdone := hlaw.opened_iff.mpr ⟨_, hload, by decide, by decide⟩
  have hshown := hlaw.shown _ hload hdone [] (List.forall_mem_nil _) (letterFile "b.dbf")
  exact ⟨hstem, hdone, hshown.2.1⟩

/-- The same two letters cannot be opened under a name with a dollar sign in front. -/
theorem connect_dollarName :
    Path.stem? "$a.dbf" = some "$a" ∧
      (∃ t, Dbase.load (letterFile "$a.dbf").files "$a.dbf" = .ok t ∧ t.columns.Nodup) ∧
      ((ofTarget (.dbase "$a.dbf")).step (letterFile "$a.dbf") .connect).result =
        .error (.corrupt "$a.dbf"
          "schema error: table name '$a' is reserved for metadata") := by
  have hstem : Path.stem? "$a.dbf" = some "$a" := by decide
  have hload : Dbase.load (letterFile "$a.dbf").files "$a.dbf" =
      .ok ⟨[.character "A" 1], [[.text "y"]]⟩ := load_letterFile rfl
  refine ⟨hstem, ⟨_, hload, by decide⟩, ?_⟩
  exact connect_of_obstacle hstem hload rfl none

end Handler

end TableAccess
