import TableAccess.Command.Browse
import TableAccess.Proofs.Connection.Resolution
import TableAccess.Proofs.FileTree.Place
import TableAccess.Proofs.Handler.Listing
import TableAccess.Proofs.Handler.Opening

/-!
# Which files browsing changes

Browsing looks into files and writes at most one, the export of the first table.  The name of that
table is the front of the path of the export as it is, so the slashes in it decide where the
export goes: without any it is a file of the working directory, and otherwise it is wherever they
lead.
-/

namespace TableAccess.Command

variable {w : World} {argument table : String} {t : Target} {h : Handler} {p : Progress}
  {l : Listing} {files : FileTree} {wording : Descriptor.Wording}

/-! ### The steps of browsing -/

/-- The command failed, and the files are these. -/
structure Ending.Fails (e : Ending) (files : FileTree) : Prop where
  failure : e.failure.isSome = true
  files : e.progress.files = files

theorem with_files (hp : p.files = w.files) : { w with files := p.files } = w := by
  rw [hp]

/-- What the export does to the files is all that happens to them, and the command fails with the
export or not at all. -/
theorem browseExport_spec (h : Handler) (table : String) (hp : p.files = w.files) :
    (browseExport w h table p).progress.files =
        (h.exportTable w table (exportPath table)).files ∧
      (browseExport w h table p).failure.isNone =
        (h.exportTable w table (exportPath table)).result.isOk := by
  rw [browseExport, with_files hp]
  cases hresult : (h.exportTable w table (exportPath table)).result with
  | error e => exact ⟨rfl, rfl⟩
  | ok rows => exact ⟨rfl, rfl⟩

/-- The first rows are shown, or the command fails. -/
theorem browseTable_cases (h : Handler) (table : String) (hp : p.files = w.files) :
    ((∃ e, (h.selectAll w table).result = .error e) ∧ (browseTable w h table p).Fails w.files) ∨
      (∃ result, (h.selectAll w table).result = .ok result) ∧ ∃ q : Progress, q.files = w.files ∧
        browseTable w h table p = browseExport w (h.selectAll w table).handler table q := by
  have hfiles := h.files_selectAll w table
  rw [browseTable, with_files hp]
  cases hresult : (h.selectAll w table).result with
  | error e => exact Or.inl ⟨⟨e, rfl⟩, rfl, hfiles⟩
  | ok result => exact Or.inr ⟨⟨result, rfl⟩, _, hfiles, rfl⟩

/-- There are no tables, or the first one is shown, or the command fails. -/
theorem browseTables_cases (h : Handler) (hp : p.files = w.files) :
    ((∃ e, (h.tables w).result = .error e) ∧ (browseTables w h p).Fails w.files) ∨
      ((h.tables w).result = .ok [] ∧ (browseTables w h p).failure = none ∧
        (browseTables w h p).progress.files = w.files) ∨
      ∃ table names, (h.tables w).result = .ok (table :: names) ∧ ∃ q : Progress,
        q.files = w.files ∧ browseTables w h p = browseTable w (h.tables w).handler table q := by
  have hfiles := h.files_tables w
  rw [browseTables, with_files hp]
  cases hresult : (h.tables w).result with
  | error e => exact Or.inl ⟨⟨e, rfl⟩, rfl, hfiles⟩
  | ok names =>
    cases names with
    | nil => exact Or.inr (Or.inl ⟨rfl, rfl, hfiles⟩)
    | cons table names => exact Or.inr (Or.inr ⟨table, names, rfl, _, hfiles, rfl⟩)

/-- The argument is a path or a record of the target. -/
def Opens (argument : String) (t : Target) : Prop :=
  ∃ descriptor, Descriptor.parse argument = .ok descriptor ∧ Target.ofDescriptor descriptor = .ok t

theorem browse_of_unopened (hopen : ∀ t, ¬ Opens argument t) :
    (browse w argument wording).Fails w.files := by
  rw [browse]
  cases hparse : Descriptor.parse argument wording with
  | error e => exact ⟨rfl, rfl⟩
  | ok descriptor =>
    simp only [Handler.ofDescriptor]
    cases htarget : Target.ofDescriptor descriptor with
    | error e => exact ⟨rfl, rfl⟩
    | ok t =>
      exact absurd ⟨descriptor, (Descriptor.parse_eq_ok_iff wording).mp hparse, htarget⟩ (hopen t)

/-- The handler of the target connects, or the command fails. -/
theorem browse_cases (w : World) (wording : Descriptor.Wording) (hopen : Opens argument t) :
    ((∃ e, ((Handler.ofTarget t).connect w).result = .error e) ∧
        (browse w argument wording).Fails w.files) ∨
      ((Handler.ofTarget t).connect w).result = .ok () ∧ ∃ q : Progress, q.files = w.files ∧
        browse w argument wording =
          browseTables w ((Handler.ofTarget t).connect w).handler q := by
  obtain ⟨descriptor, hparse, htarget⟩ := hopen
  have hhandler : Handler.ofDescriptor descriptor = .ok (.ofTarget t) := by
    rw [Handler.ofDescriptor, htarget]
    rfl
  have hfiles : ((Handler.ofTarget t).connect w).files = w.files := Handler.files_connect _ w
  rw [browse, (Descriptor.parse_eq_ok_iff wording).mpr hparse]
  simp only [hhandler]
  cases hresult : ((Handler.ofTarget t).connect w).result with
  | error e => exact Or.inl ⟨⟨e, rfl⟩, rfl, hfiles⟩
  | ok done => exact Or.inr ⟨rfl, _, hfiles, rfl⟩

/-! ### Where an export goes -/

theorem toList_exportPath (table : String) :
    (exportPath table).toList = table.toList ++ "_export.csv".toList := String.toList_append

theorem isName_export {s : List Char} (h : '/' ∉ s) :
    Path.IsName (s ++ "_export.csv".toList) := by
  have hlength : 11 ≤ (s ++ "_export.csv".toList).length := by simp
  constructor
  · intro hmem
    rcases List.mem_append.mp hmem with hs | hend
    · exact h hs
    · exact absurd hend (by decide)
  · rw [Path.isVoid, Bool.or_eq_false_iff, List.isEmpty_eq_false_iff, beq_eq_false_iff_ne]
    constructor
    · intro heq
      rw [heq] at hlength
      exact absurd hlength (by decide)
    · intro heq
      rw [heq] at hlength
      exact absurd hlength (by decide)
  · intro heq
    rw [heq] at hlength
    exact absurd hlength (by decide)

/-- All that happened between two trees is that a result was written to the path of the export of a
table. -/
structure Exported (before after : FileTree) (table : String) (result : Result) (place : Place) :
    Prop where
  wrote : before.Wrote after (exportPath table) place
    (.bytes (Csv.bytes (Csv.output result).text))
  /-- It is the file of that name in the working directory exactly if there is no slash in the
  name of the table. -/
  inside_iff : place = before.workingDirectory ++ [(exportPath table).toList] ↔
    '/' ∉ table.toList
  /-- What stands before the last slash leads to the directory of the export. -/
  elsewhere : ∀ folder leaf, table.toList = folder ++ '/' :: leaf → '/' ∉ leaf →
    ∃ d, before.directory folder = .ok d ∧ place = d ++ [leaf ++ "_export.csv".toList]

theorem exported_of_target {place : Place} (h : files.target (exportPath table) = .ok place)
    (result : Result) :
    Exported files
      (files.set place (.file (.bytes (Csv.bytes (Csv.output result).text)))) table result place := by
  have hplace := (FileTree.place_of_target h).1
  have helsewhere : ∀ folder leaf, table.toList = folder ++ '/' :: leaf → '/' ∉ leaf →
      ∃ d, files.directory folder = .ok d ∧ place = d ++ [leaf ++ "_export.csv".toList] := by
    intro folder leaf hsplit hleaf
    apply FileTree.eq_of_place_folder (isName_export hleaf) _ hplace
    rw [toList_exportPath, hsplit, List.append_assoc, List.cons_append]
  refine ⟨FileTree.wrote_set h _, ⟨?_, ?_⟩, helsewhere⟩
  · intro hinside hslash
    obtain ⟨folder, leaf, hsplit, hleaf⟩ := Path.exists_last_of_mem hslash
    obtain ⟨d, -, hd⟩ := helsewhere folder leaf hsplit hleaf
    have hlast : leaf ++ "_export.csv".toList = (exportPath table).toList :=
      List.singleton_inj.mp (List.append_inj_right' (hd.symm.trans hinside) rfl)
    rw [toList_exportPath, List.append_cancel_right_eq] at hlast
    rw [hlast] at hleaf
    exact hleaf hslash
  · intro hslash
    have hname := isName_export hslash
    rw [← toList_exportPath] at hname
    exact FileTree.eq_of_place_name hname hplace

/-! ### Browsing as a whole -/

/-- The first table of what the handler of an argument lists. -/
def FirstTable (w : World) (argument table : String) : Prop :=
  ∃ t names, Opens argument t ∧ ((Handler.ofTarget t).connect w).result = .ok () ∧
    (((Handler.ofTarget t).connect w).handler.tables w).result = .ok (table :: names)

/-- What browsing a listing comes to, and whether it succeeds. -/
inductive Browsed (before after : FileTree) (l : Listing) : Bool → Prop
  | noTables (hnames : l.names = []) (hfiles : after = before) : Browsed before after l true
  | notCreated {table : String} {others : List String} {e : FileError}
      (hnames : l.names = table :: others)
      (htarget : before.target (exportPath table) = .error e) (hfiles : after = before) :
      Browsed before after l false
  /-- The whole first table is written, or as much of it as has cells for all columns. -/
  | exported {table : String} {others : List String} {result : Result} {place : Place}
      (hnames : l.names = table :: others) (hwhole : l.whole table = some result)
      (hexported : Exported before after table result place) :
      Browsed before after l (Csv.output result).problem.isNone

/-- What browsing does to the files. -/
structure BrowseLaw (w : World) (argument : String) (ending : Ending) : Prop where
  /-- At most one file is created or changed: the export of the first table. -/
  frame : ending.progress.files = w.files ∨ ∃ table result place,
    FirstTable w argument table ∧ Exported w.files ending.progress.files table result place
  /-- What comes of every file, and that nothing comes of a file that cannot be read. -/
  file : ∀ t, Opens argument t → t.backend.isFileBased = true →
    match t.listing? w.files with
    | none => ending.Fails w.files
    | some l => Browsed w.files ending.progress.files l ending.failure.isNone
  /-- The table of a table file has the name of that file, in which there is no slash. -/
  tableFile : ∀ path table, Opens argument (.dbase path) → FirstTable w argument table →
    '/' ∉ table.toList

theorem opens_unique {u : Target} (ht : Opens argument t) (hu : Opens argument u) : t = u := by
  obtain ⟨descriptor, hparse, htarget⟩ := ht
  obtain ⟨other, hparse', htarget'⟩ := hu
  obtain rfl : descriptor = other := Except.ok.inj (hparse.symm.trans hparse')
  exact Except.ok.inj (htarget.symm.trans htarget')

theorem browse_frame (w : World) (argument : String) (wording : Descriptor.Wording) :
    (browse w argument wording).progress.files = w.files ∨ ∃ table result place,
      FirstTable w argument table ∧
        Exported w.files (browse w argument wording).progress.files table result place := by
  by_cases hopen : ∃ t, Opens argument t
  · obtain ⟨t, ht⟩ := hopen
    rcases browse_cases w wording ht with ⟨-, hfails⟩ | ⟨hconnect, q, hq, hbrowse⟩
    · exact Or.inl hfails.files
    · rw [hbrowse]
      rcases browseTables_cases _ hq with ⟨-, hfails⟩ | ⟨-, -, hfiles⟩ |
        ⟨table, names, hnames, q', hq', htables⟩
      · exact Or.inl hfails.files
      · exact Or.inl hfiles
      · rw [htables]
        rcases browseTable_cases _ _ hq' with ⟨-, hfails⟩ | ⟨-, q'', hq'', htable⟩
        · exact Or.inl hfails.files
        · rw [htable, (browseExport_spec _ _ hq'').1]
          rcases Handler.files_exportTable _ w table (exportPath table) with hfiles |
            ⟨result, place, htarget, hfiles⟩
          · exact Or.inl hfiles
          · rw [hfiles]
            exact Or.inr ⟨table, result, place, ⟨t, names, ht, hconnect, hnames⟩,
              exported_of_target htarget result⟩
  · exact Or.inl (browse_of_unopened fun t ht => hopen ⟨t, ht⟩).files

theorem isOk_written (result : Result) :
    (Csv.written result).isOk = (Csv.output result).problem.isNone := by
  rw [Csv.written]
  cases (Csv.output result).problem <;> rfl

/-- A handler that shows a listing exports the first table of it. -/
theorem browsed_of_shows (hh : h.Shows w.files l) (hp : p.files = w.files)
    (hwhole : ∀ name ∈ l.names, (l.whole name).isSome = true) :
    Browsed w.files (browseTables w h p).progress.files l (browseTables w h p).failure.isNone := by
  obtain ⟨hlisted, hnext⟩ := Handler.tables_of_shows hh
  rcases browseTables_cases h hp with ⟨⟨e, he⟩, -⟩ | ⟨hnone, hfailure, hfiles⟩ |
    ⟨table, names, hnames, q, hq, htables⟩
  · cases hlisted.symm.trans he
  · rw [hfailure]
    exact .noTables (Except.ok.inj (hlisted.symm.trans hnone)) hfiles
  · have hnames : l.names = table :: names := Except.ok.inj (hlisted.symm.trans hnames)
    have hmem : table ∈ l.names := by
      rw [hnames]
      exact List.mem_cons_self
    obtain ⟨result, hresult⟩ := Option.isSome_iff_exists.mp (hwhole table hmem)
    obtain ⟨hselected, hlast⟩ := Handler.selectAll_of_shows hnext table
    rw [htables]
    rcases browseTable_cases _ table hq with ⟨⟨e, he⟩, -⟩ | ⟨-, q', hq', htable⟩
    · rw [he, hresult] at hselected
      cases hselected
    · obtain ⟨hsave, hfiles⟩ := Handler.exportTable_of_shows hlast hmem hresult (exportPath table)
      obtain ⟨hprogress, hfailure⟩ := browseExport_spec _ table hq'
      rw [htable, hprogress, hfailure, hsave, hfiles, Csv.save_eq]
      cases htarget : w.files.target (exportPath table) with
      | error e => exact .notCreated hnames htarget rfl
      | ok place =>
        have hok : ((Csv.written result).mapError (Error.io (exportPath table))).isOk =
            (Csv.output result).problem.isNone := by
          rw [← isOk_written]
          cases Csv.written result <;> rfl
        simp only [hok]
        exact .exported hnames hresult (exported_of_target htarget result)

theorem browse_file (hopen : Opens argument t) (hfile : t.backend.isFileBased = true) :
    match t.listing? w.files with
    | none => (browse w argument wording).Fails w.files
    | some l => Browsed w.files (browse w argument wording).progress.files l
        (browse w argument wording).failure.isNone := by
  cases hlisting : t.listing? w.files with
  | none =>
    obtain ⟨e, he⟩ := Handler.connect_of_no_listing hlisting hfile
    rcases browse_cases w wording hopen with ⟨-, hfails⟩ | ⟨hconnect, -⟩
    · exact hfails
    · cases hconnect.symm.trans he
  | some l =>
    obtain ⟨hok, hshows⟩ := Handler.connect_of_listing hlisting hfile
    rcases browse_cases w wording hopen with ⟨⟨e, he⟩, -⟩ | ⟨-, q, hq, hbrowse⟩
    · cases hok.symm.trans he
    · rw [hbrowse]
      exact browsed_of_shows hshows hq fun name hname => Target.isSome_whole hlisting hname

theorem not_mem_tableName (path : String) : '/' ∉ (Dbase.tableName path).toList := by
  rw [Dbase.tableName]
  cases hstem : Path.stem? path with
  | none => exact List.not_mem_nil
  | some stem => exact Path.not_mem_stem hstem

theorem names_of_tableFile {path : String}
    (h : (Target.dbase path).listing? files = some l) : l.names = [Dbase.tableName path] := by
  obtain ⟨db, hload, rfl⟩ := Option.map_eq_some_iff.mp h
  rw [Dbase.loadDatabase] at hload
  cases hread : Dbase.load files path with
  | error e =>
    rw [hread] at hload
    cases hload
  | ok found =>
    rw [hread] at hload
    simp only at hload
    cases hadd : Database.empty.addTable (found.toTable (Dbase.tableName path)) with
    | error e =>
      rw [hadd] at hload
      cases hload
    | ok added =>
      rw [hadd] at hload
      cases hload
      obtain ⟨-, rfl⟩ := Database.addTable_eq_ok_iff.mp hadd
      rfl

theorem not_mem_firstTable {path : String} (hopen : Opens argument (.dbase path))
    (hfirst : FirstTable w argument table) : '/' ∉ table.toList := by
  obtain ⟨t, names, ht, hconnect, hnames⟩ := hfirst
  obtain rfl := opens_unique ht hopen
  cases hlisting : (Target.dbase path).listing? w.files with
  | none =>
    obtain ⟨e, he⟩ := Handler.connect_of_no_listing hlisting rfl
    cases hconnect.symm.trans he
  | some l =>
    obtain ⟨-, hshows⟩ := Handler.connect_of_listing hlisting rfl
    have hlisted := Except.ok.inj ((Handler.tables_of_shows hshows).1.symm.trans hnames)
    rw [names_of_tableFile hlisting] at hlisted
    cases hlisted
    exact not_mem_tableName path

/-- **Browsing writes at most the export of the first table**, whatever the files are and whatever
the argument describes, and the slashes in the name of that table decide where. -/
theorem browseLaw_of_argument (w : World) (argument : String) (wording : Descriptor.Wording) :
    BrowseLaw w argument (browse w argument wording) where
  frame := browse_frame w argument wording
  file _ hopen hfile := browse_file hopen hfile
  tableFile _ _ hopen hfirst := not_mem_firstTable hopen hfirst

/-- A document in a directory with another directory, and its first table has the name of a path
into that. -/
def nestedFiles : FileTree :=
  ⟨[(["work".toList], .directory), (["work".toList, "sub".toList], .directory),
      (["work".toList, "a.mvo".toList],
        .file (.bytes (Text.encode "\x7b\"sub/x\":\x7b\"columns\":[\"id\"],\"rows\":[[1],[2]]\x7d\x7d".toList)))],
    ["work".toList]⟩

def nestedDatabase : Database := ⟨[⟨"sub/x", ["id"], [[.integer 1], [.integer 2]]⟩]⟩

theorem listing?_nested :
    (Target.document "a.mvo").listing? nestedFiles = some (.ofDatabase nestedDatabase) := by
  have hload : (Document.load nestedFiles "a.mvo").toOption = some nestedDatabase := by
    decide +kernel
  rw [Target.listing?, hload]
  rfl

/-- The law at that document, at one that is not there, and at a table file of two letters. -/
theorem browseLaw_nested :
    (∃ ending, browse ⟨nestedFiles, .absent, ⟨2023, 4, 30, rfl⟩⟩ "a.mvo" = ending ∧
      Browsed nestedFiles ending.progress.files (.ofDatabase nestedDatabase)
        ending.failure.isNone) ∧
      (browse ⟨nestedFiles, .absent, ⟨2023, 4, 30, rfl⟩⟩ "b.mvo").Fails nestedFiles ∧
      FirstTable (Handler.letterFile "a.dbf") "a.dbf" "a" ∧ '/' ∉ "a".toList := by
  have hnested := browseLaw_of_argument ⟨nestedFiles, .absent, ⟨2023, 4, 30, rfl⟩⟩ "a.mvo"
    Descriptor.plainWording
  have hmissing := browseLaw_of_argument ⟨nestedFiles, .absent, ⟨2023, 4, 30, rfl⟩⟩ "b.mvo"
    Descriptor.plainWording
  have hletters := browseLaw_of_argument (Handler.letterFile "a.dbf") "a.dbf"
    Descriptor.plainWording
  have hfirst : FirstTable (Handler.letterFile "a.dbf") "a.dbf" "a" :=
    ⟨.dbase "a.dbf", [], ⟨_, rfl, rfl⟩, by decide +kernel, by decide +kernel⟩
  have hbrowsed := hnested.file (.document "a.mvo") ⟨_, rfl, rfl⟩ rfl
  have hfails := hmissing.file (.document "b.mvo") ⟨_, rfl, rfl⟩ rfl
  rw [listing?_nested] at hbrowsed
  exact ⟨⟨_, rfl, hbrowsed⟩, hfails, hfirst, hletters.tableFile "a.dbf" "a" ⟨_, rfl, rfl⟩ hfirst⟩

/-- Browsing it succeeds, and creates a file outside the working directory. -/
theorem browse_nested :
    (browse ⟨nestedFiles, .absent, ⟨2023, 4, 30, rfl⟩⟩ "a.mvo").failure = none ∧
      nestedFiles.node? ["work".toList, "sub".toList, "x_export.csv".toList] = none ∧
      (browse ⟨nestedFiles, .absent, ⟨2023, 4, 30, rfl⟩⟩ "a.mvo").progress.files.node?
          ["work".toList, "sub".toList, "x_export.csv".toList] =
        some (.file (.bytes (Text.encode "id\n1\n2\n".toList))) ∧
      (browse ⟨nestedFiles, .absent, ⟨2023, 4, 30, rfl⟩⟩ "a.mvo").progress.files.node?
          ["work".toList, "sub/x_export.csv".toList] = none := by
  decide +kernel

end TableAccess.Command
