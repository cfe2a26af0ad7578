import TableAccess.Document.Writer
import TableAccess.Proofs.Document.Reader
import TableAccess.Proofs.Json.RoundTrip

/-!
# What a saved document gives back

A database is saved as a JSON value, and loading starts from what is read of that: the value of the
database with each floating point number as it is read.  Out of it the reader makes the tables
again, with a text in the place of each date.  Without floating point numbers, saving those gives
the same value, and so the same bytes.
-/

namespace TableAccess

/-- The value that is loaded where `v` was saved, if that is no floating point number. -/
def Value.loaded : Value → Value
  | .date d => .text (String.ofList d.text)
  | v => v

/-- The table that is loaded where `t` was saved, without floating point numbers. -/
def Table.loaded (t : Table) : Table := ⟨t.name, t.columns, t.rows.map (List.map Value.loaded)⟩

/-- The database that is loaded where `db` was saved, without floating point numbers. -/
def Database.loaded (db : Database) : Database := ⟨db.tables.map Table.loaded⟩

/-- The value that is loaded where any `v` was saved: a floating point number as it is read, or
nothing if it is not finite. -/
def Value.reloaded : Value → Value
  | .null => .null
  | .integer i => .integer i
  | .float x => match Json.reread? x with
    | some y => .float y
    | none => .null
  | .text s => .text s
  | .date d => .text (String.ofList d.text)

def Table.reloaded (t : Table) : Table :=
  ⟨t.name, t.columns, t.rows.map (List.map Value.reloaded)⟩

/-- The database that is loaded where any `db` was saved. -/
def Database.reloaded (db : Database) : Database := ⟨db.tables.map Table.reloaded⟩

/-- No cell of the database is a floating point number. -/
def Database.FloatFree (db : Database) : Prop :=
  ∀ t ∈ db.tables, ∀ row ∈ t.rows, ∀ v ∈ row, ∀ x, v ≠ .float x

namespace Document

open Json (Writable fitsWord_toInt)

variable {db : Database} {t : Table} {v : Value}

/-! ### The value that is saved -/

theorem writable_cellJson {depth : Nat} (v : Value) : Writable depth (cellJson v) := by
  cases v with
  | null => exact .null
  | integer i => exact .integer (fitsWord_toInt i)
  | float x =>
    show Writable depth (if x.isFinite then .number (.float x) else .null)
    split
    · exact .float x
    · exact .null
  | text s => exact .string s
  | date d => exact .string _

theorem writable_bodyJson {depth : Nat} (t : Table) : Writable (depth + 3) (bodyJson t) := by
  have hcolumns : Writable (depth + 2) (.array (t.columns.map .string)) := by
    refine .array fun item hitem => ?_
    obtain ⟨c, _, rfl⟩ := List.mem_map.mp hitem
    exact .string c
  have hrows : Writable (depth + 2) (.array (t.rows.map fun row => .array (row.map cellJson))) := by
    refine .array fun item hitem => ?_
    obtain ⟨row, hrow, rfl⟩ := List.mem_map.mp hitem
    refine .array fun cell hcell => ?_
    obtain ⟨v, hv, rfl⟩ := List.mem_map.mp hcell
    exact writable_cellJson v
  have hkeys : ["columns", "rows"].Nodup := by decide
  refine .object hkeys fun m hm => ?_
  rcases List.mem_cons.mp hm with rfl | hm
  · exact hcolumns
  · rw [List.mem_singleton.mp hm]
    exact hrows

/-- The members of a document: the version and the tables. -/
def entries (db : Database) : List (String × Json) :=
  ("$version", .ofInt formatVersion) :: db.tables.map fun t => (t.name, bodyJson t)

theorem keys_entries (db : Database) :
    (entries db).map Prod.fst = "$version" :: db.tableNames := by
  rw [entries, List.map_cons, List.map_map]
  rfl

theorem isMetadataName_version : isMetadataName "$version" = true := by decide

/-- The version is no name of a table, so no member replaces another one. -/
theorem nodup_entries (h : db.WellFormed) : ((entries db).map Prod.fst).Nodup := by
  rw [keys_entries, List.nodup_cons]
  refine ⟨fun hversion => ?_, h.names⟩
  obtain ⟨t, ht, hname⟩ := List.mem_map.mp hversion
  have hmetadata := h.noMetadata t ht
  rw [hname, isMetadataName_version] at hmetadata
  cases hmetadata

theorem toJson_eq (h : db.WellFormed) : toJson db = .object (entries db) := by
  rw [toJson, ← entries, Json.ofEntries_eq_self (nodup_entries h)]

theorem writable_toJson {depth : Nat} (h : db.WellFormed) : Writable (depth + 4) (toJson db) := by
  rw [toJson_eq h]
  refine .object (nodup_entries h) fun m hm => ?_
  rcases List.mem_cons.mp hm with rfl | hm
  · exact .integer ⟨by decide, by decide⟩
  · obtain ⟨t, ht, rfl⟩ := List.mem_map.mp hm
    exact writable_bodyJson t

/-! ### The value that is read -/

theorem reread_cellJson (v : Value) : Json.reread (cellJson v) = cellJson v.reloaded := by
  cases v with
  | null => simp only [cellJson, Json.reread, Value.reloaded]
  | integer i => simp only [cellJson, Json.ofInt, Json.reread, Value.reloaded]
  | float x =>
    rw [Value.reloaded]
    show Json.reread (if x.isFinite then .number (.float x) else .null) = _
    split
    case isTrue hx =>
      obtain ⟨y, hy, hfinite, -⟩ := Json.exists_reread hx
      rw [Json.reread, hy]
      show _ = if y.isFinite then Json.number (.float y) else .null
      rw [if_pos hfinite]
    case isFalse hx =>
      rw [Json.reread, Json.reread?, if_neg hx]
      rfl
  | text s => simp only [cellJson, Json.reread, Value.reloaded]
  | date d => simp only [cellJson, Json.reread, Value.reloaded]

theorem reread_bodyJson (t : Table) : Json.reread (bodyJson t) = bodyJson t.reloaded := by
  have hcolumns : (t.columns.map Json.string).map Json.reread = t.columns.map Json.string := by
    rw [List.map_map]
    refine List.map_congr_left fun c _ => ?_
    rw [Function.comp_apply, Json.reread]
  have hrow : ∀ row : List Value,
      Json.reread (.array (row.map cellJson)) = .array ((row.map Value.reloaded).map cellJson) := by
    intro row
    rw [Json.reread, List.map_map, List.map_map]
    exact congrArg Json.array (List.map_congr_left fun v _ => reread_cellJson v)
  have hrows : (t.rows.map fun row => Json.array (row.map cellJson)).map Json.reread =
      t.reloaded.rows.map fun row => .array (row.map cellJson) := by
    rw [Table.reloaded, List.map_map, List.map_map]
    exact List.map_congr_left fun row _ => hrow row
  simp only [bodyJson, Json.reread, List.map_cons, List.map_nil, hcolumns, hrows]
  rfl

theorem wellFormed_reloaded (h : db.WellFormed) : db.reloaded.WellFormed := by
  have hnames : db.reloaded.tableNames = db.tableNames := List.map_map
  refine ⟨by rw [hnames]; exact h.names, ?_, ?_, ?_⟩
  · intro u hu
    obtain ⟨t, ht, rfl⟩ := List.mem_map.mp hu
    exact h.noMetadata t ht
  · intro u hu
    obtain ⟨t, ht, rfl⟩ := List.mem_map.mp hu
    exact h.columns t ht
  · intro u hu row hrow
    obtain ⟨t, ht, rfl⟩ := List.mem_map.mp hu
    obtain ⟨values, hvalues, rfl⟩ := List.mem_map.mp hrow
    rw [List.length_map]
    exact h.widths t ht values hvalues

/-- What is read of a saved database is the value of the database that is loaded. -/
theorem reread_toJson (h : db.WellFormed) : Json.reread (toJson db) = toJson db.reloaded := by
  rw [toJson_eq h, toJson_eq (wellFormed_reloaded h), Json.reread]
  simp only [entries, List.map_cons, List.map_map, Database.reloaded]
  congr 2
  · simp only [Json.ofInt, Json.reread]
  · refine List.map_congr_left fun t _ => ?_
    simp only [Function.comp_apply, reread_bodyJson]
    rfl

/-- The bytes of a document hold that value. -/
theorem ofBytes?_bytes_reloaded (h : db.WellFormed) :
    Json.ofBytes? (bytes db) = some (toJson db.reloaded) := by
  rw [← reread_toJson h]
  exact Json.ofBytes?_pretty (writable_toJson h)

/-! ### The tables that are loaded -/

theorem cellValue_reloaded (v : Value) : CellValue (cellJson v.reloaded) v.reloaded := by
  cases v with
  | null => exact .null
  | integer i => exact .integer rfl
  | float x =>
    by_cases hx : x.isFinite = true
    · obtain ⟨y, hy, hfinite, -⟩ := Json.exists_reread hx
      rw [Value.reloaded, hy]
      show CellValue (if y.isFinite then .number (.float y) else .null) (.float y)
      rw [if_pos hfinite]
      exact .float y
    · rw [Value.reloaded, Json.reread?, if_neg hx]
      exact .null
  | text s => exact .string s
  | date d => exact .string _

theorem valueRows_reloaded (t : Table) :
    ValueRows (t.reloaded.rows.map (List.map cellJson)) t.reloaded.rows := by
  rw [ValueRows, List.forall₂_map_left_iff, List.forall₂_same]
  intro row hrow
  obtain ⟨values, -, rfl⟩ := List.mem_map.mp hrow
  rw [List.forall₂_map_left_iff, List.forall₂_same]
  intro w hw
  obtain ⟨v, -, rfl⟩ := List.mem_map.mp hw
  exact cellValue_reloaded v

theorem givesTable_reloaded (hcolumns : t.columns.Nodup)
    (hwidths : ∀ row ∈ t.rows, row.length = t.columns.length) :
    GivesTable (t.name, bodyJson t.reloaded) t.reloaded := by
  have hvalues := valueRows_reloaded t
  have hrows : t.reloaded.rows.map (fun row => Json.array (row.map cellJson)) =
      (t.reloaded.rows.map (List.map cellJson)).map .array := by
    rw [List.map_map]
    rfl
  refine ⟨_, t.reloaded.rows.map (List.map cellJson), rfl, ⟨?_, hcolumns, ?_, ?_, ?_⟩, rfl, hvalues⟩
  · exact List.mem_cons_self
  · rw [← hrows]
    exact Or.inl (List.mem_cons_of_mem _ List.mem_cons_self)
  · rw [List.forall_mem_map, Table.reloaded, List.forall_mem_map]
    intro row hrow
    rw [List.length_map, List.length_map]
    exact hwidths row hrow
  · exact exists_valueRows_iff.mp ⟨_, hvalues⟩

/-- The value that is read describes the database that is loaded. -/
theorem gives_reloaded (h : db.WellFormed) : Gives (toJson db.reloaded) db.reloaded := by
  have hentries : tableEntries (entries db.reloaded) =
      db.tables.map fun t => (t.name, bodyJson t.reloaded) := by
    rw [tableEntries, entries, List.filter_cons_of_neg (by simp [isMetadataName_version]),
      List.filter_eq_self.mpr, Database.reloaded, List.map_map]
    · rfl
    · rw [List.forall_mem_map]
      intro t ht
      rw [(wellFormed_reloaded h).noMetadata t ht]
      rfl
  refine ⟨entries db.reloaded, toJson_eq (wellFormed_reloaded h), ?_⟩
  rw [hentries, Database.reloaded, List.forall₂_map_left_iff, List.forall₂_map_right_iff,
    List.forall₂_same]
  intro t ht
  exact givesTable_reloaded (h.columns t ht) (h.widths t ht)

theorem ofJson_reloaded (h : db.WellFormed) : ofJson (toJson db.reloaded) = .ok db.reloaded := by
  have hkeys := Json.distinctKeys_of_ofBytes? (ofBytes?_bytes_reloaded h)
  exact (ofJson_eq_ok_iff hkeys).mpr (gives_reloaded h)

/-- The bytes that are saved load, whatever the cells of the database are. -/
theorem parse_bytes_reloaded (h : db.WellFormed) (origin : String) :
    parse (bytes db) origin = .ok db.reloaded := by
  rw [parse, ofBytes, ofBytes?_bytes_reloaded h]
  simp only [ofJson_reloaded h]

/-! ### Without floating point numbers -/

theorem reloaded_of_not_float (h : ∀ x, v ≠ .float x) : v.reloaded = v.loaded := by
  cases v with
  | null => rfl
  | integer i => rfl
  | float x => exact absurd rfl (h x)
  | text s => rfl
  | date d => rfl

theorem reloaded_of_floatFree (h : db.FloatFree) : db.reloaded = db.loaded := by
  rw [Database.reloaded, Database.loaded]
  congr 1
  refine List.map_congr_left fun t ht => ?_
  rw [Table.reloaded, Table.loaded]
  congr 1
  exact List.map_congr_left fun row hrow =>
    List.map_congr_left fun v hv => reloaded_of_not_float (h t ht row hrow v hv)

theorem cellJson_loaded (v : Value) : cellJson v.loaded = cellJson v := by
  cases v <;> rfl

theorem bodyJson_loaded (t : Table) : bodyJson t.loaded = bodyJson t := by
  have hrow : ∀ row : List Value, (row.map Value.loaded).map cellJson = row.map cellJson := by
    intro row
    rw [List.map_map]
    exact List.map_congr_left fun v _ => cellJson_loaded v
  have hrows : t.loaded.rows.map (fun row => Json.array (row.map cellJson)) =
      t.rows.map fun row => Json.array (row.map cellJson) := by
    rw [Table.loaded, List.map_map]
    exact List.map_congr_left fun row _ => congrArg Json.array (hrow row)
  rw [bodyJson, hrows]
  rfl

theorem entries_loaded (db : Database) : entries db.loaded = entries db := by
  rw [entries, Database.loaded, List.map_map, entries]
  refine congrArg _ (List.map_congr_left fun t _ => ?_)
  show (t.name, bodyJson t.loaded) = (t.name, bodyJson t)
  rw [bodyJson_loaded]

theorem toJson_loaded (db : Database) : toJson db.loaded = toJson db := by
  rw [toJson, ← entries, entries_loaded]
  rfl

theorem bytes_loaded (db : Database) : bytes db.loaded = bytes db := by
  rw [bytes, text, toJson_loaded]
  rfl

theorem ofBytes?_bytes (h : db.WellFormed) (hfloat : db.FloatFree) :
    Json.ofBytes? (bytes db) = some (toJson db) := by
  rw [ofBytes?_bytes_reloaded h, reloaded_of_floatFree hfloat, toJson_loaded]

theorem ofJson_toJson (h : db.WellFormed) (hfloat : db.FloatFree) :
    ofJson (toJson db) = .ok db.loaded := by
  have hload := ofJson_reloaded h
  rwa [reloaded_of_floatFree hfloat, toJson_loaded] at hload

/-- **Loading a document undoes saving it.**  For a database that was built by adding tables and
has no floating point numbers, the bytes that are saved load as the same tables in the same order,
with a text in the place of each date.  What was loaded saves to the same bytes again, and loading
those changes nothing more. -/
theorem parse_bytes {db : Database} (h : db.Built) (hfloat : db.FloatFree) (origin : String) :
    parse (bytes db) origin = .ok db.loaded ∧ bytes db.loaded = bytes db ∧
      parse (bytes db.loaded) origin = .ok db.loaded := by
  have hparse : parse (bytes db) origin = .ok db.loaded := by
    rw [parse, ofBytes, ofBytes?_bytes h.wellFormed hfloat]
    simp only [ofJson_toJson h.wellFormed hfloat]
  have hbytes := bytes_loaded db
  exact ⟨hparse, hbytes, by rw [hbytes, hparse]⟩

/-- A name with a quote, a date, a control character and the smallest number. -/
def offices : Table :=
  ⟨"Offices \"É\"", ["id", "opened"],
    [[.integer (-9223372036854775808), .date ⟨1999, 12, 31, rfl⟩], [.null, .text "a\n\x01"]]⟩

/-- An empty name and rows without cells. -/
def archive : Table := ⟨"", [], [[], []]⟩

theorem built_offices : Database.Built ⟨[offices, archive]⟩ := by
  have hfirst : Database.empty.addTable offices = .ok ⟨[offices]⟩ := rfl
  have hsecond : Database.addTable ⟨[offices]⟩ archive = .ok ⟨[offices, archive]⟩ := rfl
  exact .add (.add .empty hfirst) hsecond

theorem floatFree_offices : Database.FloatFree ⟨[offices, archive]⟩ := by
  simp [Database.FloatFree, offices, archive]

theorem parse_bytes_offices :
    Database.Built ⟨[offices, archive]⟩ ∧ Database.FloatFree ⟨[offices, archive]⟩ ∧
      parse (bytes ⟨[offices, archive]⟩) "offices.mvo" =
        .ok ⟨[⟨"Offices \"É\"", ["id", "opened"],
          [[.integer (-9223372036854775808), .text "1999-12-31"], [.null, .text "a\n\x01"]]⟩,
          archive]⟩ := by
  refine ⟨built_offices, floatFree_offices, ?_⟩
  rw [(parse_bytes built_offices floatFree_offices "offices.mvo").1]
  rfl

end Document

end TableAccess
