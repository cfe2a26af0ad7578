import Mathlib.Data.List.Forall2
import TableAccess.Document.Reader
import TableAccess.Proofs.Document.Basic
import TableAccess.Proofs.Json.Keys
import TableAccess.Proofs.Number.Digits

/-!
# What a document describes

A document is described here as a JSON value alone: by the members that its objects have, without
the order in which a reader looks at them.  The reader gives a database exactly for the values of
that form, and the database is the one that the value describes.
-/

namespace TableAccess.Document

variable {json : Json} {v : Value} {name : String} {t : Table} {tables : List Table}
  {body members : List (String × Json)} {db : Database}

/-! ### Cells -/

/-- The values that stand for the scalars of a document. -/
inductive CellValue : Json → Value → Prop where
  | null : CellValue .null .null
  | bool (b : Bool) : CellValue (.bool b) (.integer (if b then 1 else 0))
  | integer {i : Int} {n : Int64} (h : n.toInt = i) : CellValue (.number (.integer i)) (.integer n)
  | wide {i : Int} (h : i < -9223372036854775808 ∨ 9223372036854775807 < i) :
      CellValue (.number (.integer i)) (.float (.ofInt i))
  | float (x : Number.Binary64) : CellValue (.number (.float x)) (.float x)
  | string (s : String) : CellValue (.string s) (.text s)

/-- The value is no array and no object. -/
def IsScalar : Json → Prop
  | .array _ | .object _ => False
  | _ => True

theorem valueOf?_eq_some_iff : valueOf? json = some v ↔ CellValue json v := by
  constructor
  · intro h
    cases json with
    | null =>
      cases h
      exact .null
    | bool b =>
      cases h
      exact .bool b
    | number n =>
      cases n with
      | integer i =>
        simp only [valueOf?, Option.some.injEq] at h
        split at h
        case h_1 n hn =>
          rw [← h]
          exact .integer (Number.toInt64?_eq_some_iff.mp hn)
        case h_2 hn =>
          rw [← h]
          exact .wide (Number.toInt64?_eq_none_iff.mp hn)
      | float x =>
        cases h
        exact .float x
    | string s =>
      cases h
      exact .string s
    | array items => cases h
    | object members => cases h
  · intro h
    cases h with
    | null => rfl
    | bool b => rfl
    | integer hn => rw [valueOf?, Number.toInt64?_eq_some_iff.mpr hn]
    | wide hi => rw [valueOf?, Number.toInt64?_eq_none_iff.mpr hi]
    | float x => rfl
    | string s => rfl

/-- Every scalar stands for a value, whatever number it may be. -/
theorem exists_cellValue_iff : (∃ v, CellValue json v) ↔ IsScalar json := by
  simp only [← valueOf?_eq_some_iff]
  cases json with
  | null => exact ⟨fun _ => trivial, fun _ => ⟨_, rfl⟩⟩
  | bool b => exact ⟨fun _ => trivial, fun _ => ⟨_, rfl⟩⟩
  | number n =>
    refine ⟨fun _ => trivial, fun _ => ?_⟩
    cases n with
    | integer i => exact ⟨_, rfl⟩
    | float x => exact ⟨_, rfl⟩
  | string s => exact ⟨fun _ => trivial, fun _ => ⟨_, rfl⟩⟩
  | array items =>
    constructor
    · rintro ⟨v, h⟩
      cases h
    · exact False.elim
  | object members =>
    constructor
    · rintro ⟨v, h⟩
      cases h
    · exact False.elim

/-! ### Lists, item by item -/

theorem mapM_eq_some_iff {α β : Type} {f : α → Option β} {as : List α} {bs : List β} :
    as.mapM f = some bs ↔ List.Forall₂ (fun a b => f a = some b) as bs := by
  induction as generalizing bs with
  | nil => simp [eq_comm]
  | cons a as ih =>
    rw [List.mapM_cons, List.forall₂_cons_left_iff]
    constructor
    · intro h
      obtain ⟨b, hb, hrest⟩ := Option.bind_eq_some_iff.mp h
      obtain ⟨others, hothers, hsame⟩ := Option.bind_eq_some_iff.mp hrest
      cases hsame
      exact ⟨b, others, hb, ih.mp hothers, rfl⟩
    · rintro ⟨b, others, hb, hothers, rfl⟩
      rw [hb, ih.mpr hothers]
      rfl

theorem exists_forall₂_iff {α β : Type} {R : α → β → Prop} {as : List α} :
    (∃ bs, List.Forall₂ R as bs) ↔ ∀ a ∈ as, ∃ b, R a b := by
  induction as with
  | nil => simp
  | cons a as ih =>
    rw [List.forall_mem_cons, ← ih]
    constructor
    · rintro ⟨_, h⟩
      cases h with
      | cons ha has => exact ⟨⟨_, ha⟩, _, has⟩
    · rintro ⟨⟨b, hb⟩, bs, hbs⟩
      exact ⟨b :: bs, .cons hb hbs⟩

/-! ### Columns and rows -/

theorem columnNames_eq_ok_iff {items : List Json} {columns : List String} :
    columnNames items = .ok columns ↔ items = columns.map .string := by
  induction items generalizing columns with
  | nil =>
    rw [columnNames, Except.ok.injEq]
    exact ⟨fun h => by rw [← h]; rfl, fun h => (List.map_eq_nil_iff.mp h.symm).symm⟩
  | cons item items ih =>
    cases item with
    | string s =>
      rw [columnNames, map_eq_ok_iff]
      constructor
      · rintro ⟨rest, hrest, rfl⟩
        rw [ih.mp hrest, List.map_cons]
      · intro h
        cases columns with
        | nil => cases h
        | cons c rest =>
          obtain ⟨hc, hrest⟩ := List.cons.inj h
          cases hc
          exact ⟨rest, ih.mpr hrest, rfl⟩
    | _ =>
      constructor
      · intro h
        cases h
      · intro h
        cases columns <;> cases h

/-- The values of the cells of some rows. -/
def ValueRows (rows : List (List Json)) (values : List (List Value)) : Prop :=
  List.Forall₂ (List.Forall₂ CellValue) rows values

theorem exists_valueRows_iff {rows : List (List Json)} :
    (∃ values, ValueRows rows values) ↔ ∀ row ∈ rows, ∀ cell ∈ row, IsScalar cell := by
  simp only [ValueRows, exists_forall₂_iff, exists_cellValue_iff]

theorem rowValues_eq_ok_iff {columns index : Nat} {row : Json} {values : List Value} :
    rowValues columns index row = .ok values ↔
      ∃ cells, row = .array cells ∧ cells.length = columns ∧
        List.Forall₂ CellValue cells values := by
  have hcells : ∀ cells : List Json,
      cells.mapM valueOf? = some values ↔ List.Forall₂ CellValue cells values := by
    intro cells
    simp only [mapM_eq_some_iff, valueOf?_eq_some_iff]
  constructor
  · intro h
    unfold rowValues at h
    split at h
    case h_2 => cases h
    case h_1 cells =>
      split at h
      case isFalse => cases h
      case isTrue hwidth =>
        split at h
        case h_2 => cases h
        case h_1 found hfound =>
          cases h
          exact ⟨cells, rfl, hwidth, (hcells cells).mp hfound⟩
  · rintro ⟨cells, rfl, hwidth, hvalues⟩
    rw [rowValues, if_pos hwidth, (hcells cells).mpr hvalues]

theorem allRows_eq_ok_iff {columns index : Nat} {items : List Json}
    {values : List (List Value)} :
    allRows columns index items = .ok values ↔
      ∃ rows, items = rows.map .array ∧ (∀ row ∈ rows, row.length = columns) ∧
        ValueRows rows values := by
  induction items generalizing index values with
  | nil =>
    rw [allRows, Except.ok.injEq]
    constructor
    · rintro rfl
      exact ⟨[], rfl, by simp, .nil⟩
    · rintro ⟨rows, hrows, -, hvalues⟩
      rw [List.map_eq_nil_iff.mp hrows.symm] at hvalues
      cases hvalues
      rfl
  | cons item items ih =>
    constructor
    · intro h
      rw [allRows] at h
      split at h
      case h_2 => cases h
      case h_1 first hfirst =>
        obtain ⟨rest, hrest, rfl⟩ := map_eq_ok_iff.mp h
        obtain ⟨cells, rfl, hwidth, hcells⟩ := rowValues_eq_ok_iff.mp hfirst
        obtain ⟨rows, rfl, hwidths, hrows⟩ := ih.mp hrest
        exact ⟨cells :: rows, rfl, List.forall_mem_cons.mpr ⟨hwidth, hwidths⟩, .cons hcells hrows⟩
    · rintro ⟨rows, hitems, hwidths, hvalues⟩
      cases hvalues with
      | nil => cases hitems
      | @cons cells first rows rest hcells hrows =>
        obtain ⟨rfl, rfl⟩ := List.cons.inj hitems
        obtain ⟨hwidth, hwidths⟩ := List.forall_mem_cons.mp hwidths
        have hfirst : rowValues columns index (.array cells) = .ok first :=
          rowValues_eq_ok_iff.mpr ⟨cells, rfl, hwidth, hcells⟩
        have hrest : allRows columns (index + 1) (rows.map .array) = .ok rest :=
          ih.mpr ⟨rows, rfl, hwidths, hrows⟩
        rw [allRows, hfirst, hrest]
        rfl

/-! ### Bodies of tables -/

/-- The members of a table body: columns with names of their own, and rows of scalars that are as
long as there are columns, or no rows at all. -/
structure IsBody (body : List (String × Json)) (columns : List String)
    (rows : List (List Json)) : Prop where
  columnsGiven : ("columns", .array (columns.map .string)) ∈ body
  distinct : columns.Nodup
  rowsGiven : ("rows", .array (rows.map .array)) ∈ body ∨ "rows" ∉ body.map Prod.fst ∧ rows = []
  widths : ∀ row ∈ rows, row.length = columns.length
  scalars : ∀ row ∈ rows, ∀ cell ∈ row, IsScalar cell

/-- The value can stand for a table. -/
def IsTableBody (json : Json) : Prop :=
  ∃ body columns rows, json = .object body ∧ IsBody body columns rows

/-- The table of a member: the key is its name, and the body has its columns and its rows. -/
def GivesTable (m : String × Json) (t : Table) : Prop :=
  ∃ body rows, m.2 = .object body ∧ IsBody body t.columns rows ∧ t.name = m.1 ∧
    ValueRows rows t.rows

theorem exists_givesTable_iff {m : String × Json} : (∃ t, GivesTable m t) ↔ IsTableBody m.2 := by
  constructor
  · rintro ⟨t, body, rows, hbody, hparts, -, -⟩
    exact ⟨body, t.columns, rows, hbody, hparts⟩
  · rintro ⟨body, columns, rows, hbody, hparts⟩
    obtain ⟨values, hvalues⟩ := exists_valueRows_iff.mpr hparts.scalars
    exact ⟨⟨m.1, columns, values⟩, body, rows, hbody, hparts, rfl, hvalues⟩

section Body

variable (hkeys : (body.map Prod.fst).Nodup) {columns : List String}

include hkeys

theorem columnsOf_eq_ok_iff :
    columnsOf body = .ok columns ↔ ("columns", .array (columns.map .string)) ∈ body := by
  rw [columnsOf, ← Json.find?_eq_some_iff hkeys]
  constructor
  · intro h
    split at h
    case h_1 items hitems => rw [hitems, columnNames_eq_ok_iff.mp h]
    case h_2 => cases h
    case h_3 => cases h
  · intro h
    rw [h]
    exact columnNames_eq_ok_iff.mpr rfl

theorem rowsOf_eq_ok_iff {items : List Json} :
    rowsOf body = .ok items ↔
      ("rows", .array items) ∈ body ∨ "rows" ∉ body.map Prod.fst ∧ items = [] := by
  rw [rowsOf, ← Json.find?_eq_some_iff hkeys, ← Json.find?_eq_none_iff]
  constructor
  · intro h
    split at h
    case h_1 found hfound =>
      cases h
      exact Or.inl hfound
    case h_2 => cases h
    case h_3 hnone =>
      cases h
      exact Or.inr ⟨hnone, rfl⟩
  · rintro (h | ⟨h, rfl⟩)
    · rw [h]
    · rw [h]

/-- The rows of a table body are arrays of scalars, each as long as there are columns. -/
theorem exists_rows_iff {values : List (List Value)} :
    (∃ items, rowsOf body = .ok items ∧ allRows columns.length 0 items = .ok values) ↔
      ∃ rows, (("rows", .array (rows.map .array)) ∈ body ∨
          "rows" ∉ body.map Prod.fst ∧ rows = []) ∧
        (∀ row ∈ rows, row.length = columns.length) ∧ ValueRows rows values := by
  simp only [rowsOf_eq_ok_iff hkeys, allRows_eq_ok_iff]
  constructor
  · rintro ⟨items, hitems, rows, rfl, hwidths, hvalues⟩
    exact ⟨rows, hitems.imp_right fun h => ⟨h.1, List.map_eq_nil_iff.mp h.2⟩, hwidths, hvalues⟩
  · rintro ⟨rows, hrows, hwidths, hvalues⟩
    refine ⟨rows.map .array, hrows.imp_right fun h => ⟨h.1, ?_⟩, rows, rfl, hwidths, hvalues⟩
    rw [h.2, List.map_nil]

end Body

/-- A table that was read has passed every check of its body. -/
theorem exists_of_tableOf {name : String} {body : Json} (h : tableOf name body = .ok t) :
    ∃ members columns items rows, body = .object members ∧ columnsOf members = .ok columns ∧
      columns.Nodup ∧ rowsOf members = .ok items ∧ allRows columns.length 0 items = .ok rows ∧
      t = ⟨name, columns, rows⟩ := by
  unfold tableOf at h
  split at h
  case h_2 => cases h
  case h_1 members =>
    simp only [bind, Except.bind] at h
    split at h
    case h_1 => cases h
    case h_2 columns hcolumns =>
      split at h
      case h_1 => cases h
      case h_2 hdistinct =>
        split at h
        case h_1 => cases h
        case h_2 items hitems =>
          split at h
          case h_1 => cases h
          case h_2 rows hrows =>
            cases h
            exact ⟨members, columns, items, rows, rfl, hcolumns,
              (firstRepeated?_eq_none_iff.mp hdistinct).1, hitems, hrows, rfl⟩

/-- A table is read from a body exactly if all its parts are there. -/
theorem tableOf_eq_ok_iff (hkeys : json.DistinctKeys) :
    tableOf name json = .ok t ↔ GivesTable (name, json) t := by
  constructor
  · intro h
    obtain ⟨body, columns, items, values, rfl, hcolumns, hdistinct, hitems, hvalues, rfl⟩ :=
      exists_of_tableOf h
    obtain ⟨rows, hrows, hwidths, hcells⟩ :=
      (exists_rows_iff hkeys.nodup).mp ⟨items, hitems, hvalues⟩
    refine ⟨body, rows, rfl, ⟨?_, hdistinct, hrows, hwidths, ?_⟩, rfl, hcells⟩
    · exact (columnsOf_eq_ok_iff hkeys.nodup).mp hcolumns
    · exact exists_valueRows_iff.mp ⟨values, hcells⟩
  · rintro ⟨body, rows, hbody, hparts, hname, hcells⟩
    cases hbody
    obtain ⟨items, hitems, hvalues⟩ :=
      (exists_rows_iff hkeys.nodup).mpr ⟨rows, hparts.rowsGiven, hparts.widths, hcells⟩
    have hcolumns : columnsOf body = .ok t.columns :=
      (columnsOf_eq_ok_iff hkeys.nodup).mpr hparts.columnsGiven
    have hdistinct : firstRepeated? [] t.columns = none :=
      firstRepeated?_eq_none_iff.mpr ⟨hparts.distinct, fun _ _ => List.not_mem_nil⟩
    simp only [tableOf, bind, Except.bind, hcolumns, hdistinct, hitems, hvalues]
    have htable : t.name = name := hname
    rw [← htable]

/-! ### Whole documents -/

/-- The members that stand for tables. -/
def tableEntries (members : List (String × Json)) : List (String × Json) :=
  members.filter fun m => !isMetadataName m.1

theorem mem_tableEntries {m : String × Json} :
    m ∈ tableEntries members ↔ m ∈ members ∧ isMetadataName m.1 = false := by
  rw [tableEntries, List.mem_filter, Bool.not_eq_true']

/-- The metadata is passed over. -/
theorem tablesOf_tableEntries (members : List (String × Json)) :
    tablesOf (tableEntries members) = tablesOf members := by
  induction members with
  | nil => rfl
  | cons m members ih =>
    obtain ⟨name, body⟩ := m
    cases hname : isMetadataName name with
    | true =>
      rw [tableEntries, List.filter_cons_of_neg (by simp [hname]), tablesOf, hname, if_pos rfl]
      exact ih
    | false =>
      rw [tableEntries, List.filter_cons_of_pos (by simp [hname]), tablesOf, tablesOf, hname]
      rw [← ih, tableEntries]

theorem tablesOf_cons {name : String} {body : Json} (hname : isMetadataName name = false)
    (h : tablesOf ((name, body) :: members) = .ok tables) :
    ∃ t rest, tableOf name body = .ok t ∧ tablesOf members = .ok rest ∧ tables = t :: rest := by
  rw [tablesOf, hname, if_neg Bool.false_ne_true] at h
  split at h
  case h_2 => cases h
  case h_1 t ht =>
    cases hrest : tablesOf members with
    | error problem =>
      rw [hrest] at h
      cases h
    | ok rest =>
      rw [hrest] at h
      cases h
      exact ⟨t, rest, ht, rfl, rfl⟩

theorem tablesOf_eq_ok_iff (hkeys : ∀ m ∈ members, m.2.DistinctKeys) :
    tablesOf members = .ok tables ↔ List.Forall₂ GivesTable (tableEntries members) tables := by
  induction members generalizing tables with
  | nil =>
    rw [tablesOf, Except.ok.injEq, eq_comm]
    exact List.forall₂_nil_left_iff.symm
  | cons m members ih =>
    obtain ⟨name, body⟩ := m
    obtain ⟨hfirst, hrest⟩ := List.forall_mem_cons.mp hkeys
    cases hname : isMetadataName name with
    | true =>
      rw [tablesOf, hname, if_pos rfl, ih hrest, tableEntries, tableEntries,
        List.filter_cons_of_neg (by simp [hname])]
    | false =>
      rw [tableEntries, List.filter_cons_of_pos (by simp [hname]), List.forall₂_cons_left_iff]
      constructor
      · intro h
        obtain ⟨t, others, ht, hothers, rfl⟩ := tablesOf_cons hname h
        exact ⟨t, others, (tableOf_eq_ok_iff hfirst).mp ht, (ih hrest).mp hothers, rfl⟩
      · rintro ⟨t, others, ht, hothers, rfl⟩
        have hread : tableOf name body = .ok t := (tableOf_eq_ok_iff hfirst).mpr ht
        rw [tablesOf, hname, if_neg Bool.false_ne_true, hread]
        exact map_eq_ok_iff.mpr ⟨others, (ih hrest).mpr hothers, rfl⟩

/-- The value is an object in which every member that is no metadata can stand for a table. -/
def IsDocument (json : Json) : Prop :=
  ∃ members, json = .object members ∧
    ∀ m ∈ members, isMetadataName m.1 = false → IsTableBody m.2

/-- The tables of a document are those of its members in order, without the metadata. -/
def Gives (json : Json) (db : Database) : Prop :=
  ∃ members, json = .object members ∧ List.Forall₂ GivesTable (tableEntries members) db.tables

theorem exists_gives_iff : (∃ db, Gives json db) ↔ IsDocument json := by
  constructor
  · rintro ⟨db, members, rfl, htables⟩
    refine ⟨members, rfl, fun m hm hname => ?_⟩
    have hall := exists_forall₂_iff.mp ⟨db.tables, htables⟩
    exact exists_givesTable_iff.mp (hall m (mem_tableEntries.mpr ⟨hm, hname⟩))
  · rintro ⟨members, rfl, hbodies⟩
    have hall : ∀ m ∈ tableEntries members, ∃ t, GivesTable m t := by
      intro m hm
      obtain ⟨hin, hname⟩ := mem_tableEntries.mp hm
      exact exists_givesTable_iff.mpr (hbodies m hin hname)
    obtain ⟨tables, htables⟩ := exists_forall₂_iff.mpr hall
    exact ⟨⟨tables⟩, members, rfl, htables⟩

theorem ofJson_eq_ok_iff (hkeys : json.DistinctKeys) : ofJson json = .ok db ↔ Gives json db := by
  cases json with
  | object members =>
    have hmembers : ∀ m ∈ members, m.2.DistinctKeys := fun m hm => hkeys.of_mem hm
    rw [ofJson, map_eq_ok_iff]
    constructor
    · rintro ⟨tables, htables, rfl⟩
      exact ⟨members, rfl, (tablesOf_eq_ok_iff hmembers).mp htables⟩
    · rintro ⟨_, hsame, htables⟩
      cases hsame
      exact ⟨db.tables, (tablesOf_eq_ok_iff hmembers).mpr htables, rfl⟩
  | _ =>
    constructor
    · intro h
      cases h
    · rintro ⟨_, hsame, _⟩
      cases hsame

theorem ofBytes_of_ofBytes? {bytes : List UInt8} (h : Json.ofBytes? bytes = some json) :
    ofBytes bytes = ofJson json := by
  rw [ofBytes, h]

theorem parse_eq_ok_iff {bytes : List UInt8} {origin : String}
    (h : Json.ofBytes? bytes = some json) :
    parse bytes origin = .ok db ↔ Gives json db := by
  rw [← ofJson_eq_ok_iff (Json.distinctKeys_of_ofBytes? h), parse, ofBytes_of_ofBytes? h]
  cases ofJson json with
  | ok found => simp
  | error problem => simp

end TableAccess.Document
