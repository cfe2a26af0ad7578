import TableAccess.Proofs.Handler.Export
import TableAccess.Proofs.Sqlite.Selection

/-!
# What handlers of files list

Listing the tables and selecting a whole one change no file, whatever the target is.  So as long as
nothing else changes its file, the handler of a file shows the same tables at every question: those
of the file as it was when the handler connected.
-/

namespace TableAccess

variable {w : World} {files : FileTree} {path table out : String}

/-! ### Questions that change no file -/

/-- Neither listing the tables nor selecting a whole one changes a file. -/
structure Engine.KeepsFiles {σ : Type} (engine : Engine σ) : Prop where
  tables : ∀ w s, (engine.tables w s).files = w.files
  selectAll : ∀ w s table, (engine.selectAll w s table).files = w.files

theorem Sqlite.keepsFiles (path : String) : (engine path).KeepsFiles where
  tables w s := by
    show (askTables path w s).files = w.files
    rw [askTables]
    split <;> rfl
  selectAll w s table := by
    show (askAll path w s table).files = w.files
    have hfiles := files_run_selectAllFrom w.files path s table
    rw [askAll]
    split
    case h_1 hrun =>
      rw [hrun] at hfiles
      exact hfiles
    case h_2 hrun =>
      rw [hrun] at hfiles
      exact hfiles

theorem Server.keepsFiles (d : Dialect) (record : ConnectionRecord) :
    (d.engine record).KeepsFiles where
  tables w link := by
    show (d.tables w link).files = w.files
    rw [Dialect.tables]
    split <;> rfl
  selectAll w link table := by
    show (d.selectAll w link table).files = w.files
    rw [Dialect.selectAll]
    split <;> rfl

theorem Target.keepsFiles (t : Target) : t.engine.KeepsFiles := by
  cases t with
  | document path => exact ⟨fun _ _ => rfl, fun _ _ _ => rfl⟩
  | dbase path => exact ⟨fun _ _ => rfl, fun _ _ _ => rfl⟩
  | sqlite path => exact Sqlite.keepsFiles path
  | access path => exact ⟨fun _ s => (nomatch s), fun _ s => (nomatch s)⟩
  | server d record => exact Server.keepsFiles d record

namespace Csv

/-- A file that is created stays, whether all rows fit the columns or not. -/
theorem save_eq (files : FileTree) (out : String) (result : Result) :
    save files out result =
      match files.target out with
      | .error e => (.error (.io out e.message), files)
      | .ok place => ((written result).mapError (.io out),
          files.set place (.file (.bytes (bytes (output result).text)))) := by
  rw [save, FileTree.write]
  cases files.target out with
  | error e => rfl
  | ok place => cases written result <;> rfl

end Csv

namespace Handler

theorem files_ask {α : Type} (h : Handler) (w : World)
    {question : h.target.Session → Reply h.target.Session α}
    (hquestion : ∀ s, (question s).files = w.files) : (h.ask w question).files = w.files := by
  rw [ask]
  split
  · rfl
  · exact hquestion _

theorem files_tables (h : Handler) (w : World) : (h.tables w).files = w.files :=
  h.files_ask w fun s => h.target.keepsFiles.tables w s

theorem files_selectAll (h : Handler) (w : World) (table : String) :
    (h.selectAll w table).files = w.files :=
  h.files_ask w fun s => h.target.keepsFiles.selectAll w s table

/-- An export changes no file, or writes a result to its path. -/
theorem files_exportTable (h : Handler) (w : World) (table out : String) :
    (h.exportTable w table out).files = w.files ∨
      ∃ result place, w.files.target out = .ok place ∧ (h.exportTable w table out).files =
        w.files.set place (.file (.bytes (Csv.bytes (Csv.output result).text))) := by
  rw [exportTable]
  simp only [files_tables]
  split
  case h_1 => exact Or.inl rfl
  case h_2 =>
    split
    case isFalse => exact Or.inl rfl
    case isTrue =>
      have hselected := (h.tables w).handler.files_selectAll w table
      simp only [exportResult]
      split
      case h_1 => exact Or.inl hselected
      case h_2 result _ =>
        rw [hselected]
        cases htarget : w.files.target out with
        | error e =>
          rw [Csv.save_of_no_target htarget]
          exact Or.inl rfl
        | ok place =>
          refine Or.inr ⟨result, place, rfl, ?_⟩
          rw [Csv.save_eq, htarget]
          cases Csv.written result <;> rfl

end Handler

/-! ### Listings -/

/-- The names of tables in the order in which they are listed, and what a name stands for. -/
structure Listing where
  names : List String
  whole : String → Option Result

namespace Listing

def ofDatabase (db : Database) : Listing :=
  ⟨db.tableNames, fun name => (db.table? name).map fun t => ⟨t.columns, t.rowList⟩⟩

def ofStore (s : Sqlite.Store) : Listing :=
  ⟨Sqlite.tableNames s, fun name => (s.relation? name).map Sqlite.Table.result⟩

end Listing

/-- The listing of the file of a target. -/
def Target.listing? (files : FileTree) : Target → Option Listing
  | .document path => (Document.load files path).toOption.map .ofDatabase
  | .dbase path => (Dbase.loadDatabase files path).toOption.map .ofDatabase
  | .sqlite path => ((files.read path).toOption.bind Content.toStore?).map .ofStore
  | .access _ => none
  | .server _ _ => none

/-- A session that has the listing to tell. -/
def Target.Fits (files : FileTree) (l : Listing) : (t : Target) → t.Session → Prop
  | .document _, db => l = .ofDatabase db
  | .dbase _, db => l = .ofDatabase db
  | .sqlite path, s => ∃ store, Sqlite.Session.current s files path = .ok store ∧ l = .ofStore store
  | .access _, _ => False
  | .server _ _, _ => False

namespace Database

theorem toOption_selectAll (db : Database) (name : String) :
    (db.selectAll name).toOption = (Listing.ofDatabase db).whole name := by
  rw [selectAll_eq]
  show _ = (db.table? name).map _
  cases db.table? name <;> rfl

end Database

namespace Sqlite

variable {s : Session} {store : Store}

/-- A table comes before every view. -/
theorem Store.relation?_of_table? {name : String} {t : Table} (h : store.table? name = some t) :
    store.relation? name = some t := by
  rw [relation?]
  cases store.views.length with
  | zero => exact h
  | succ fuel => rw [source?, h]

theorem toOption_selectAll (store : Store) (name : String) :
    (selectAll store name).toOption = (Listing.ofStore store).whole name := by
  rw [selectAll]
  show _ = (store.relation? name).map _
  cases store.relation? name <;> rfl

/-- A session that has seen the store finds it again. -/
theorem current_seen (h : s.current files path = .ok store) :
    Session.current ⟨store⟩ files path = .ok store := by
  rw [Session.current] at h ⊢
  cases hread : files.read path with
  | error e => rfl
  | ok content =>
    rw [hread] at h
    exact h

theorem askTables_of_current (h : s.current w.files path = .ok store) : ∃ events,
    askTables path w s = ⟨.ok (tableNames store), ⟨store⟩, w.files, events, []⟩ := by
  rw [askTables, h]
  exact ⟨_, rfl⟩

theorem askAll_of_current (h : s.current w.files path = .ok store) (table : String) :
    ∃ result, askAll path w s table = ⟨result, ⟨store⟩, w.files, [], []⟩ ∧
      result.toOption = (Listing.ofStore store).whole table := by
  rw [askAll, run_selectAllFrom h, ← toOption_selectAll]
  cases selectAll store table with
  | error e => exact ⟨_, rfl, rfl⟩
  | ok result => exact ⟨_, rfl, rfl⟩

/-- What comes of starting a session is decided by what the file is read as. -/
theorem result_start (path : String) (w : World) :
    (start path w).result =
      match w.files.read path with
      | .error _ => .error (.connection ("SQLite database not found: " ++ path))
      | .ok content =>
        match content.toStore? with
        | none => .error (.corrupt path notStoreFailure.text)
        | some store => .ok ⟨store⟩ := by
  rw [start, openFile, FileTree.isFile, FileTree.read]
  cases w.files.find path with
  | error e => rfl
  | ok found =>
    obtain ⟨place, node⟩ := found
    cases node with
    | directory => rfl
    | file content =>
      simp only [if_true]
      cases content.toStore? with
      | none => rfl
      | some store => rfl

end Sqlite

namespace Target

variable {t : Target} {l : Listing}

/-- A session starts exactly if the file has a listing, and then it has that listing to tell. -/
theorem start_of_file (hfile : t.backend.isFileBased = true) :
    match t.listing? w.files with
    | none => ∃ e, (t.engine.start w).result = .error e
    | some l => ∃ s, (t.engine.start w).result = .ok s ∧ t.Fits w.files l s := by
  cases t with
  | document path =>
    have hstart : ((Target.document path).engine.start w).result =
        Document.load w.files path :=
      Handler.result_start .document path w
    rw [hstart, listing?]
    cases Document.load w.files path with
    | error e => exact ⟨e, rfl⟩
    | ok db => exact ⟨db, rfl, rfl⟩
  | dbase path =>
    have hstart : ((Target.dbase path).engine.start w).result =
        Dbase.loadDatabase w.files path :=
      Handler.result_start .dbase path w
    rw [hstart, listing?]
    cases Dbase.loadDatabase w.files path with
    | error e => exact ⟨e, rfl⟩
    | ok db => exact ⟨db, rfl, rfl⟩
  | sqlite path =>
    have hstart : (Target.sqlite path).engine.start w = Sqlite.start path w := rfl
    rw [hstart, listing?, Sqlite.result_start]
    cases hread : w.files.read path with
    | error e => exact ⟨_, rfl⟩
    | ok content =>
      cases hstore : content.toStore? with
      | none =>
        simp only [Except.toOption, Option.bind_some, hstore, Option.map_none]
        exact ⟨_, rfl⟩
      | some store =>
        simp only [Except.toOption, Option.bind_some, hstore, Option.map_some]
        refine ⟨⟨store⟩, rfl, store, ?_, rfl⟩
        rw [Sqlite.Session.current, hread]
        simp only [hstore]
  | access path =>
    show ∃ e, (Access.start path w).result = .error e
    rw [Access.start]
    split <;> exact ⟨_, rfl⟩
  | server d record => cases d <;> cases hfile

theorem tables_of_fits {s : t.Session} (h : t.Fits w.files l s) :
    (t.engine.tables w s).result = .ok l.names ∧
      t.Fits w.files l (t.engine.tables w s).session := by
  cases t with
  | document path =>
    subst h
    exact ⟨rfl, rfl⟩
  | dbase path =>
    subst h
    exact ⟨rfl, rfl⟩
  | sqlite path =>
    obtain ⟨store, hstore, rfl⟩ := h
    obtain ⟨events, hreply⟩ := Sqlite.askTables_of_current hstore
    have htables : (Target.sqlite path).engine.tables w s = _ := hreply
    rw [htables]
    exact ⟨rfl, store, Sqlite.current_seen hstore, rfl⟩
  | access path => exact h.elim
  | server d record => exact h.elim

theorem selectAll_of_fits {s : t.Session} (h : t.Fits w.files l s) (table : String) :
    (t.engine.selectAll w s table).result.toOption = l.whole table ∧
      t.Fits w.files l (t.engine.selectAll w s table).session := by
  cases t with
  | document path =>
    subst h
    exact ⟨Database.toOption_selectAll s table, rfl⟩
  | dbase path =>
    subst h
    exact ⟨Database.toOption_selectAll s table, rfl⟩
  | sqlite path =>
    obtain ⟨store, hstore, rfl⟩ := h
    obtain ⟨result, hreply, hresult⟩ := Sqlite.askAll_of_current hstore table
    have hselect : (Target.sqlite path).engine.selectAll w s table = _ := hreply
    rw [hselect]
    exact ⟨hresult, store, Sqlite.current_seen hstore, rfl⟩
  | access path => exact h.elim
  | server d record => exact h.elim

/-! ### What is listed can be selected -/

theorem isSome_whole_of_store {store : Sqlite.Store} {name : String}
    (hname : name ∈ (Listing.ofStore store).names) :
    ((Listing.ofStore store).whole name).isSome = true := by
  have hlisted := (List.mem_filter.mp (List.mem_mergeSort.mp hname)).1
  obtain ⟨u, hu, rfl⟩ := List.mem_map.mp hlisted
  have hfound : (store.table? u.name).isSome = true :=
    List.find?_isSome.mpr ⟨u, hu, beq_self_eq_true _⟩
  obtain ⟨found, hfound⟩ := Option.isSome_iff_exists.mp hfound
  show ((store.relation? u.name).map _).isSome = true
  rw [Sqlite.Store.relation?_of_table? hfound]
  rfl

theorem isSome_whole_of_database {db : Database} {name : String}
    (hname : name ∈ (Listing.ofDatabase db).names) :
    ((Listing.ofDatabase db).whole name).isSome = true := by
  show ((db.table? name).map _).isSome = true
  rw [Option.isSome_map, Database.table?_isSome_iff]
  exact hname

/-- Every name in the listing of a file stands for a table. -/
theorem isSome_whole {name : String} (h : t.listing? files = some l) (hname : name ∈ l.names) :
    (l.whole name).isSome = true := by
  cases t with
  | document path =>
    obtain ⟨db, -, rfl⟩ := Option.map_eq_some_iff.mp h
    exact isSome_whole_of_database hname
  | dbase path =>
    obtain ⟨db, -, rfl⟩ := Option.map_eq_some_iff.mp h
    exact isSome_whole_of_database hname
  | sqlite path =>
    obtain ⟨store, -, rfl⟩ := Option.map_eq_some_iff.mp h
    exact isSome_whole_of_store hname
  | access path => cases h
  | server d record => cases h

end Target

/-! ### Handlers that have a listing to tell -/

namespace Handler

variable {h : Handler} {l : Listing}

/-- The handler holds a session that has the listing to tell. -/
def Shows (h : Handler) (files : FileTree) (l : Listing) : Prop :=
  ∃ (t : Target) (s : t.Session), h = ⟨t, some s⟩ ∧ t.Fits files l s

theorem connect_of_listing {t : Target} (hlisting : t.listing? w.files = some l)
    (hfile : t.backend.isFileBased = true) :
    ((ofTarget t).connect w).result = .ok () ∧ ((ofTarget t).connect w).handler.Shows w.files l := by
  have hstart := Target.start_of_file (w := w) hfile
  rw [hlisting] at hstart
  obtain ⟨s, hs, hfits⟩ := hstart
  have hengine : ((ofTarget t).target.engine.start w).result = .ok s := hs
  rw [connect]
  simp only [hengine]
  exact ⟨trivial, t, s, rfl, hfits⟩

theorem connect_of_no_listing {t : Target} (hlisting : t.listing? w.files = none)
    (hfile : t.backend.isFileBased = true) : ∃ e, ((ofTarget t).connect w).result = .error e := by
  have hstart := Target.start_of_file (w := w) hfile
  rw [hlisting] at hstart
  obtain ⟨e, he⟩ := hstart
  have hengine : ((ofTarget t).target.engine.start w).result = .error e := he
  rw [connect]
  simp only [hengine]
  exact ⟨e, rfl⟩

theorem tables_of_shows (hh : h.Shows w.files l) :
    (h.tables w).result = .ok l.names ∧ (h.tables w).handler.Shows w.files l := by
  obtain ⟨t, s, rfl, hfits⟩ := hh
  obtain ⟨hresult, hsession⟩ := Target.tables_of_fits hfits
  exact ⟨hresult, t, _, rfl, hsession⟩

theorem selectAll_of_shows (hh : h.Shows w.files l) (table : String) :
    (h.selectAll w table).result.toOption = l.whole table ∧
      (h.selectAll w table).handler.Shows w.files l := by
  obtain ⟨t, s, rfl, hfits⟩ := hh
  obtain ⟨hresult, hsession⟩ := Target.selectAll_of_fits hfits table
  exact ⟨hresult, t, _, rfl, hsession⟩

theorem result_selectAll_of_shows (hh : h.Shows w.files l) {result : Result}
    (hwhole : l.whole table = some result) : (h.selectAll w table).result = .ok result := by
  have hselected := (selectAll_of_shows hh table).1
  rw [hwhole] at hselected
  cases hresult : (h.selectAll w table).result with
  | error e =>
    rw [hresult] at hselected
    cases hselected
  | ok found =>
    rw [hresult] at hselected
    cases hselected
    rfl

/-- An export of a name that is not listed changes no file. -/
theorem exportTable_of_not_listed (hh : h.Shows w.files l) (hname : table ∉ l.names)
    (out : String) : (h.exportTable w table out).result = .error (.tableNotFound table) ∧
      (h.exportTable w table out).files = w.files := by
  have hlisted := (tables_of_shows hh).1
  have hcontains : ¬ l.names.contains table = true := fun h => hname (List.contains_iff_mem.mp h)
  rw [exportTable]
  simp only [hlisted, if_neg hcontains, files_tables, and_self]

/-- An export saves what is listed under the name of the table. -/
theorem exportTable_of_shows (hh : h.Shows w.files l) {result : Result}
    (hname : table ∈ l.names) (hwhole : l.whole table = some result) (out : String) :
    (h.exportTable w table out).result = (Csv.save w.files out result).1 ∧
      (h.exportTable w table out).files = (Csv.save w.files out result).2 := by
  obtain ⟨hlisted, hnext⟩ := tables_of_shows hh
  have hselect := result_selectAll_of_shows hnext hwhole
  have hfiles := (h.tables w).handler.files_selectAll w table
  rw [exportTable]
  simp only [hlisted, files_tables, List.contains_iff_mem.mpr hname, if_true, exportResult, hselect,
    hfiles]
  split
  case h_1 hsave =>
    rw [hsave]
    exact ⟨rfl, rfl⟩
  case h_2 hsave =>
    rw [hsave]
    exact ⟨rfl, rfl⟩

end Handler

namespace Sqlite

variable {s : Session} {store : Store}

theorem shows_of_current (h : s.current w.files path = .ok store) :
    Handler.Shows ⟨.sqlite path, some s⟩ w.files (.ofStore store) :=
  ⟨.sqlite path, s, rfl, store, h, rfl⟩

theorem whole_ofStore {t : Table} (ht : store.relation? table = some t) :
    (Listing.ofStore store).whole table = some t.result := by
  show (store.relation? table).map Table.result = _
  rw [ht]
  rfl

/-- A table or view that is selected by its name. -/
theorem result_selectAll_of_current (h : s.current w.files path = .ok store) {t : Table}
    (ht : store.relation? table = some t) :
    (Handler.selectAll ⟨.sqlite path, some s⟩ w table).result = .ok t.result :=
  Handler.result_selectAll_of_shows (shows_of_current h) (whole_ofStore ht)

end Sqlite

end TableAccess
