import Mathlib.Data.List.Nodup
import TableAccess.Proofs.Cursor.Run
import TableAccess.Proofs.Document.Reader
import TableAccess.Proofs.Text.Utf8

/-!
# Databases that a program can hold

A database comes from a document or starts empty, and grows by tables that are added or refused.
The reader of documents checks each table by itself and takes distinct names from the distinct
keys of the object, while adding a table checks its name against the others.  Both lead to
well-formed databases, so a name finds one table, and a cursor gives rows with all columns.
-/

namespace TableAccess

variable {db : Database} {t : Table}

namespace Document

variable {members : List (String × Json)} {tables : List Table}

/-! ### What the reader of documents makes sure of -/

theorem exists_of_mem_forall₂ {α β : Type} {R : α → β → Prop} {as : List α} {bs : List β} {b : β}
    (h : List.Forall₂ R as bs) (hb : b ∈ bs) : ∃ a ∈ as, R a b := by
  induction h with
  | nil => cases hb
  | @cons a first as bs hfirst _ ih =>
    rcases List.mem_cons.mp hb with rfl | hb
    · exact ⟨a, List.mem_cons_self, hfirst⟩
    · obtain ⟨other, hother, hR⟩ := ih hb
      exact ⟨other, List.mem_cons_of_mem a hother, hR⟩

theorem names_of_givesTable (h : List.Forall₂ GivesTable members tables) :
    tables.map Table.name = members.map Prod.fst := by
  induction h with
  | nil => rfl
  | cons hfirst _ ih =>
    obtain ⟨_, _, _, _, hname, _⟩ := hfirst
    rw [List.map_cons, List.map_cons, ih, hname]

theorem aligned_of_givesTable {m : String × Json} (h : GivesTable m t) :
    t.columns.Nodup ∧ ∀ row ∈ t.rows, row.length = t.columns.length := by
  obtain ⟨body, rows, -, hbody, -, hvalues⟩ := h
  refine ⟨hbody.distinct, ?_⟩
  intro row hrow
  obtain ⟨cells, hcells, hvalue⟩ := exists_of_mem_forall₂ hvalues hrow
  rw [← hvalue.length_eq, hbody.widths cells hcells]

/-- A value with distinct keys describes a well-formed database: the names of the tables are the
keys that are not kept for metadata. -/
theorem wellFormed_of_gives {json : Json} (hkeys : json.DistinctKeys) (h : Gives json db) :
    db.WellFormed := by
  obtain ⟨members, rfl, htables⟩ := h
  have haligned : ∀ t ∈ db.tables,
      t.columns.Nodup ∧ ∀ row ∈ t.rows, row.length = t.columns.length := by
    intro t ht
    obtain ⟨m, -, hm⟩ := exists_of_mem_forall₂ htables ht
    exact aligned_of_givesTable hm
  refine ⟨?_, ?_, fun t ht => (haligned t ht).1, fun t ht => (haligned t ht).2⟩
  · rw [Database.tableNames, names_of_givesTable htables]
    exact hkeys.nodup.sublist (List.filter_sublist.map Prod.fst)
  · intro t ht
    obtain ⟨m, hm, _, _, _, _, hname, _⟩ := exists_of_mem_forall₂ htables ht
    rw [hname]
    exact (mem_tableEntries.mp hm).2

theorem wellFormed_of_parse {bytes : List UInt8} {origin : String}
    (h : parse bytes origin = .ok db) : db.WellFormed := by
  cases hjson : Json.ofBytes? bytes with
  | none =>
    rw [parse, ofBytes, hjson] at h
    cases h
  | some json =>
    exact wellFormed_of_gives (Json.distinctKeys_of_ofBytes? hjson) ((parse_eq_ok_iff hjson).mp h)

end Document

namespace Database

/-! ### All ways to a database -/

/-- The databases that can be held: a new one, one from a document, and what becomes of them when
tables are added, whether each is accepted or refused. -/
inductive Reachable : Database → Prop where
  | empty : Reachable Database.empty
  | parsed {db : Database} {bytes : List UInt8} {origin : String}
      (h : Document.parse bytes origin = .ok db) : Reachable db
  | afterAdding {db : Database} (h : Reachable db) (t : Table) : Reachable (db.afterAdding t)

theorem WellFormed.afterAdding (h : db.WellFormed) (t : Table) : (db.afterAdding t).WellFormed := by
  cases hadd : db.addTable t with
  | error e =>
    have hsame : db.afterAdding t = db := by simp [Database.afterAdding, hadd, Except.toOption]
    rw [hsame]
    exact h
  | ok db' =>
    have hnew : db.afterAdding t = db' := by simp [Database.afterAdding, hadd, Except.toOption]
    rw [hnew]
    exact h.addTable hadd

theorem Reachable.wellFormed (h : db.Reachable) : db.WellFormed := by
  induction h with
  | empty => exact wellFormed_empty
  | parsed hparse => exact Document.wellFormed_of_parse hparse
  | afterAdding _ t ih => exact ih.afterAdding t

/-! ### What a name finds -/

/-- A name finds a table exactly if it is the table of that name. -/
theorem table?_eq_some_iff (h : db.WellFormed) {name : String} :
    db.table? name = some t ↔ t ∈ db.tables ∧ t.name = name := by
  constructor
  · intro hfind
    refine ⟨List.mem_of_find?_eq_some hfind, ?_⟩
    exact beq_iff_eq.mp (List.find?_some (p := fun u : Table => u.name == name) hfind)
  · rintro ⟨ht, rfl⟩
    cases hfind : db.table? t.name with
    | none =>
      have hnone := List.find?_eq_none.mp hfind t ht
      simp at hnone
    | some u =>
      have hu : u ∈ db.tables := List.mem_of_find?_eq_some hfind
      have hname : u.name = t.name :=
        beq_iff_eq.mp (List.find?_some (p := fun u : Table => u.name == t.name) hfind)
      rw [List.inj_on_of_nodup_map h.names hu ht hname]

end Database

namespace Cursor

variable {c : Cursor}

/-! ### The rows that a cursor gives -/

/-- The selected table is one of the database. -/
def SelectsWithin (c : Cursor) : Prop := ∀ s, c.selection = some s → s.table ∈ c.database.tables

/-- A call that selects nothing stays with the selected table. -/
theorem table_call_of_selects_none {call : Call} (h : call.selects? c.database = none) :
    (c.call call).1.selection.map Selection.table = c.selection.map Selection.table := by
  rcases call_cases h with ⟨a, hcall, -⟩ | ⟨s, values, hc, -, hcall⟩ | ⟨s, hc, hcall⟩
  · rw [hcall]
  · rw [hcall, hc]
    rfl
  · rw [hcall, hc]
    rfl

theorem selectsWithin_call (h : c.SelectsWithin) (call : Call) :
    (c.call call).1.SelectsWithin := by
  intro s hs
  rw [database_call]
  cases hselect : call.selects? c.database with
  | some t =>
    rw [call_of_selects hselect] at hs
    cases hs
    exact mem_tables_of_selects hselect
  | none =>
    have htable := table_call_of_selects_none hselect
    rw [hs, Option.map_some] at htable
    obtain ⟨s', hs', hsame⟩ := Option.map_eq_some_iff.mp htable.symm
    rw [← hsame]
    exact h s' hs'

theorem selectsWithin_run (h : c.SelectsWithin) (calls : List Call) :
    (c.run calls).1.SelectsWithin := by
  induction calls generalizing c with
  | nil => exact h
  | cons call calls ih => exact ih (selectsWithin_call h call)

/-- A row that a call returns has the columns of the selected table and the values of one of its
rows. -/
theorem exists_of_mem_returned (hdb : c.database.WellFormed) (hc : c.SelectsWithin) {call : Call}
    {r : Row} (hr : r ∈ (c.call call).2.returned) :
    ∃ t ∈ c.database.tables, c.columns? = some t.columns ∧ r.columns = t.columns ∧
      r.values ∈ t.rows := by
  cases hselect : call.selects? c.database with
  | some t =>
    rw [call_of_selects hselect] at hr
    cases hr
  | none =>
    have hrow : ∃ s, c.selection = some s ∧ r ∈ s.table.rowList := by
      rcases call_cases hselect with ⟨a, hcall, hempty⟩ | ⟨s, values, hs, hvalues, hcall⟩ |
        ⟨s, hs, hcall⟩
      · rw [hcall, hempty] at hr
        cases hr
      · rw [hcall] at hr
        rw [List.mem_singleton.mp hr]
        exact ⟨s, hs, List.mem_map_of_mem (List.mem_of_getElem? hvalues)⟩
      · rw [hcall] at hr
        exact ⟨s, hs, List.mem_of_mem_drop hr⟩
    obtain ⟨s, hs, hmem⟩ := hrow
    have htable : s.table ∈ c.database.tables := hc s hs
    have hvalues : r.values ∈ s.table.rowList.map Row.values := List.mem_map_of_mem hmem
    rw [values_rowList hdb htable] at hvalues
    refine ⟨s.table, htable, ?_, columns_of_mem_rowList hdb htable hmem, hvalues⟩
    rw [columns?, hs]
    rfl

end Cursor

namespace Database

/-! ### The law of databases -/

/-- What callers rely on: the tables can be told apart, a listed name finds the one table of that
name, and whatever was called on a cursor before, the rows of its next call are whole rows of the
selected table, with a cell for each column. -/
structure Lawful (db : Database) : Prop where
  wellFormed : db.WellFormed
  found : ∀ name ∈ db.tableNames, ∃ t, db.table? name = some t ∧
    ∀ u, u ∈ db.tables ∧ u.name = name ↔ u = t
  rows : ∀ calls call, ∀ r ∈ (((Cursor.ofDatabase db).run calls).1.call call).2.returned,
    ∃ t ∈ db.tables, ((Cursor.ofDatabase db).run calls).1.columns? = some t.columns ∧
      r.columns = t.columns ∧ r.values ∈ t.rows

/-- **Every database that can be held is lawful**, whatever bytes it was read from and whatever
tables were added or refused since. -/
theorem lawful_of_reachable {db : Database} (h : db.Reachable) : db.Lawful := by
  have hdb := h.wellFormed
  refine ⟨hdb, ?_, ?_⟩
  · intro name hname
    obtain ⟨t, ht, hsame⟩ := List.mem_map.mp hname
    have hfind : db.table? name = some t := (table?_eq_some_iff hdb).mpr ⟨ht, hsame⟩
    refine ⟨t, hfind, ?_⟩
    intro u
    rw [← table?_eq_some_iff hdb, hfind, Option.some_inj]
    exact eq_comm
  · intro calls call r hr
    have hdatabase : ((Cursor.ofDatabase db).run calls).1.database = db :=
      Cursor.database_run _ _
    have hwithin : ((Cursor.ofDatabase db).run calls).1.SelectsWithin := by
      refine Cursor.selectsWithin_run ?_ calls
      rintro s ⟨⟩
    have hrow := Cursor.exists_of_mem_returned (by rw [hdatabase]; exact hdb) hwithin hr
    rwa [hdatabase] at hrow

/-- A document that gives a table twice, with metadata between. -/
def twiceGiven : List Char :=
  "\x7b\"A\":\x7b\"columns\":[\"x\"]\x7d,\"$v\":[],\"A\":\x7b\"columns\":[\"id\"],\"rows\":[[1],[null]]\x7d\x7d".toList

/-- Its database after a table that is accepted and one whose name is taken. -/
def extended : Database :=
  ⟨[⟨"A", ["id"], [[.integer 1], [.null]]⟩, ⟨"", ["x", "y"], [[.null, .text "$"]]⟩]⟩

theorem reachable_extended : extended.Reachable := by
  have hparse : Document.parse (Text.encode twiceGiven) "a.mvo" =
      .ok ⟨[⟨"A", ["id"], [[.integer 1], [.null]]⟩]⟩ := by
    rw [Document.parse, Document.ofBytes, Json.ofBytes?, Text.decode_encode]
    rfl
  have haccepted := (Reachable.parsed hparse).afterAdding ⟨"", ["x", "y"], [[.null, .text "$"]]⟩
  exact haccepted.afterAdding ⟨"A", ["z"], []⟩

theorem lawful_extended : extended.Reachable ∧ extended.Lawful :=
  ⟨reachable_extended, lawful_of_reachable reachable_extended⟩

end Database

end TableAccess
