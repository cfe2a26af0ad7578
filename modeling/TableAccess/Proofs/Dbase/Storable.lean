import TableAccess.Dbase.File
import TableAccess.Proofs.Dbase.RoundTrip
import TableAccess.Proofs.Dbase.Sizes
import TableAccess.Proofs.FileTree.Write

/-!
# The tables that can be written

A table can be written if its fields can be described, the header has room for its sizes, and every
value suits its cell.  This module says so without the writer: which values a cell stores, which
tables are storable, and what the first obstacle of a table is, where the fields come before the
rows, a row before the next one, and the width of a row before its cells.  The writer takes
the storable tables, reports the first obstacle of every other one, and then touches no file.
-/

namespace TableAccess.Dbase

variable {f : Field} {v : Value} {fields : List Field} {row : List Value}
  {rows : List (List Value)} {index count : Nat} {changed : Date} {t : Table}
  {problem : WriteProblem}

/-! ### The first item of a list without a property -/

/-- The item stands at the position, lacks the property, and all items before it have it. -/
def FirstWithout {α : Type} (p : α → Prop) (items : List α) (position : Nat) (a : α) : Prop :=
  items[position]? = some a ∧ ¬ p a ∧ ∀ k < position, ∀ b, items[k]? = some b → p b

theorem not_firstWithout_nil {α : Type} {p : α → Prop} {position : Nat} {a : α} :
    ¬ FirstWithout p [] position a := by
  rintro ⟨hat, -⟩
  cases hat

theorem firstWithout_cons_of_not {α : Type} {p : α → Prop} {items : List α} {position : Nat}
    {a b : α} (h : ¬ p b) : FirstWithout p (b :: items) position a ↔ position = 0 ∧ a = b := by
  constructor
  · rintro ⟨hat, -, hbefore⟩
    cases position with
    | zero => exact ⟨rfl, (Option.some.inj hat).symm⟩
    | succ position => exact absurd (hbefore 0 (Nat.succ_pos position) b rfl) h
  · rintro ⟨rfl, rfl⟩
    exact ⟨rfl, h, nofun⟩

theorem firstWithout_cons_of_pos {α : Type} {p : α → Prop} {items : List α} {position : Nat}
    {a b : α} (h : p b) :
    FirstWithout p (b :: items) position a ↔
      ∃ rest, position = rest + 1 ∧ FirstWithout p items rest a := by
  constructor
  · rintro ⟨hat, hlacks, hbefore⟩
    cases position with
    | zero =>
      cases hat
      exact absurd h hlacks
    | succ position =>
      refine ⟨position, rfl, hat, hlacks, fun k hk c hc => ?_⟩
      exact hbefore (k + 1) (Nat.succ_lt_succ hk) c hc
  · rintro ⟨rest, rfl, hat, hlacks, hbefore⟩
    refine ⟨hat, hlacks, fun k hk c hc => ?_⟩
    cases k with
    | zero =>
      cases hc
      exact h
    | succ k => exact hbefore k (Nat.lt_of_succ_lt_succ hk) c hc

/-- Either all items have the property or there is a first one without it. -/
theorem exists_firstWithout_iff {α : Type} {p : α → Prop} {items : List α} :
    (∃ position a, FirstWithout p items position a) ↔ ¬ ∀ a ∈ items, p a := by
  induction items with
  | nil => simp [not_firstWithout_nil]
  | cons b items ih =>
    by_cases h : p b
    · simp only [firstWithout_cons_of_pos h, List.forall_mem_cons, h, true_and, ← ih]
      constructor
      · rintro ⟨-, a, rest, -, hrest⟩
        exact ⟨rest, a, hrest⟩
      · rintro ⟨rest, a, hrest⟩
        exact ⟨rest + 1, a, rest, rfl, hrest⟩
    · simp [firstWithout_cons_of_not h, h]

/-! ### Cells -/

/-- The kind of the field has a form for the value, and for numbers in digits the cell has room
for them. -/
def Field.Stores (f : Field) (v : Value) : Prop :=
  match f.kind with
  | .character | .other _ => True
  | .integer => v = .null ∨ ∃ i, v = .integer i ∧ -2147483648 ≤ i.toInt ∧ i.toInt ≤ 2147483647
  | .logical => v = .null ∨ ∃ i, v = .integer i
  | .date => v = .null ∨ ∃ d, v = .date d
  | .numeric | .float => v = .null ∨
      ∃ digits, digitsOf? f.decimals.toNat v = some digits ∧ (Text.encode digits).length ≤ f.width

theorem exists_encode_integer_iff (hk : f.kind = .integer) :
    (∃ raw, f.encode v = .ok raw) ↔ f.Stores v := by
  rw [Field.Stores, hk]
  constructor
  · rintro ⟨raw, h⟩
    rcases encode_integer_cases hk h with ⟨hv, -⟩ | ⟨i, hv, hfits, -⟩
    · exact Or.inl hv
    · exact Or.inr ⟨i, hv, fitsInt32_iff.mp hfits⟩
  · unfold Field.encode
    rw [hk]
    rintro (rfl | ⟨i, rfl, hfits⟩)
    · exact ⟨_, rfl⟩
    · exact ⟨_, if_pos (fitsInt32_iff.mpr hfits)⟩

theorem exists_encode_logical_iff (hk : f.kind = .logical) :
    (∃ raw, f.encode v = .ok raw) ↔ f.Stores v := by
  rw [Field.Stores, hk]
  constructor
  · rintro ⟨raw, h⟩
    rcases encode_logical_cases hk h with ⟨hv, -⟩ | ⟨i, hv, -⟩
    · exact Or.inl hv
    · exact Or.inr ⟨i, hv⟩
  · unfold Field.encode
    rw [hk]
    rintro (rfl | ⟨i, rfl⟩)
    · exact ⟨_, rfl⟩
    · exact ⟨_, rfl⟩

theorem exists_encode_date_iff (hk : f.kind = .date) :
    (∃ raw, f.encode v = .ok raw) ↔ f.Stores v := by
  rw [Field.Stores, hk]
  constructor
  · rintro ⟨raw, h⟩
    rcases encode_date_cases hk h with ⟨hv, -⟩ | ⟨d, hv, -⟩
    · exact Or.inl hv
    · exact Or.inr ⟨d, hv⟩
  · unfold Field.encode
    rw [hk]
    rintro (rfl | ⟨d, rfl⟩)
    · exact ⟨_, rfl⟩
    · exact ⟨_, rfl⟩

theorem exists_numberCell_iff {width : Nat} {digits : List Char} (h : Text.IsAscii digits) :
    (∃ raw, numberCell width digits = .ok raw) ↔ (Text.encode digits).length ≤ width := by
  rw [Text.length_encode_of_isAscii h, numberCell]
  by_cases hwidth : width < digits.length
  · simp [hwidth]
  · simp [hwidth, Nat.not_lt.mp hwidth]

theorem exists_encode_number_iff (hk : f.IsNumber) :
    (∃ raw, f.encode v = .ok raw) ↔ v = .null ∨
      ∃ digits, digitsOf? f.decimals.toNat v = some digits ∧
        (Text.encode digits).length ≤ f.width := by
  by_cases hv : v = .null
  · subst hv
    exact iff_of_true ⟨_, encode_number_null hk⟩ (Or.inl rfl)
  · rw [encode_number_of_ne_null hk hv]
    cases hdigits : digitsOf? f.decimals.toNat v with
    | none => simp [hv]
    | some digits =>
      simp only [hv, false_or, Option.some.injEq, exists_eq_left']
      exact exists_numberCell_iff (isAscii_of_digitsOf? hdigits)

/-- A cell can be written exactly if its field stores the value. -/
theorem exists_encode_iff : (∃ raw, f.encode v = .ok raw) ↔ f.Stores v := by
  cases hk : f.kind with
  | integer => exact exists_encode_integer_iff hk
  | logical => exact exists_encode_logical_iff hk
  | date => exact exists_encode_date_iff hk
  | numeric =>
    rw [Field.Stores, hk]
    exact exists_encode_number_iff (Or.inl hk)
  | float =>
    rw [Field.Stores, hk]
    exact exists_encode_number_iff (Or.inr hk)
  | character =>
    rw [Field.Stores, hk]
    exact iff_of_true ⟨_, encode_character hk v⟩ trivial
  | other code =>
    rw [Field.Stores, hk]
    exact iff_of_true ⟨_, encode_other hk v⟩ trivial

theorem exists_encode_error_iff : (∃ reason, f.encode v = .error reason) ↔ ¬ f.Stores v := by
  rw [← exists_encode_iff]
  cases f.encode v with
  | ok raw => simp
  | error reason => simp

/-! ### Rows -/

/-- The field of the cell stores its value. -/
def StoresCell (cell : Field × Value) : Prop := cell.1.Stores cell.2

/-- The row has a value for each field, and each is stored by its field. -/
structure StoresRow (fields : List Field) (row : List Value) : Prop where
  width : row.length = fields.length
  cells : ∀ cell ∈ fields.zip row, StoresCell cell

/-- The first cell that cannot be written is the one that is reported. -/
theorem writeCells_eq_error_iff :
    writeCells index fields row = .error problem ↔
      ∃ j cell reason, FirstWithout StoresCell (fields.zip row) j cell ∧
        cell.1.encode cell.2 = .error reason ∧ problem = .cell index cell.1.name reason := by
  induction fields generalizing row with
  | nil => simp [writeCells, not_firstWithout_nil]
  | cons f fields ih =>
    cases row with
    | nil => simp [writeCells, not_firstWithout_nil]
    | cons v values =>
      rw [writeCells, List.zip_cons_cons]
      cases hcell : f.encode v with
      | error reason =>
        have hrefused : ¬ StoresCell (f, v) := exists_encode_error_iff.mp ⟨reason, hcell⟩
        simp [firstWithout_cons_of_not hrefused, hcell, eq_comm]
      | ok raw =>
        have hstored : StoresCell (f, v) := exists_encode_iff.mp ⟨raw, hcell⟩
        simp only [map_eq_error_iff, ih, firstWithout_cons_of_pos hstored]
        constructor
        · rintro ⟨j, cell, reason, hfirst, hreason, rfl⟩
          exact ⟨j + 1, cell, reason, ⟨j, rfl, hfirst⟩, hreason, rfl⟩
        · rintro ⟨-, cell, reason, ⟨j, -, hfirst⟩, hreason, rfl⟩
          exact ⟨j, cell, reason, hfirst, hreason, rfl⟩

/-- Why a row cannot be written: it has another width, or a first value that is not stored. -/
inductive RowObstacle (fields : List Field) (index : Nat) (row : List Value) : WriteProblem → Prop
  | width (h : row.length ≠ fields.length) :
      RowObstacle fields index row (.rowWidth index row.length fields.length)
  | cell (h : row.length = fields.length) {j : Nat} {f : Field} {v : Value} {reason : CellProblem}
      (first : FirstWithout StoresCell (fields.zip row) j (f, v))
      (refused : f.encode v = .error reason) :
      RowObstacle fields index row (.cell index f.name reason)

theorem writeRecord_eq_error_iff :
    writeRecord fields index row = .error problem ↔ RowObstacle fields index row problem := by
  rw [writeRecord]
  by_cases hwidth : row.length = fields.length
  · rw [if_neg (Decidable.not_not.mpr hwidth), map_eq_error_iff, writeCells_eq_error_iff]
    constructor
    · rintro ⟨j, ⟨f, v⟩, reason, hfirst, hreason, rfl⟩
      exact .cell hwidth hfirst hreason
    · rintro (⟨hother⟩ | ⟨-, hfirst, hreason⟩)
      · exact absurd hwidth hother
      · exact ⟨_, _, _, hfirst, hreason, rfl⟩
  · rw [if_pos hwidth]
    constructor
    · intro h
      cases h
      exact .width hwidth
    · rintro (⟨-⟩ | ⟨hsame, -, -⟩)
      · rfl
      · exact absurd hsame hwidth

theorem exists_rowObstacle_iff :
    (∃ problem, RowObstacle fields index row problem) ↔ ¬ StoresRow fields row := by
  constructor
  · rintro ⟨problem, ⟨hwidth⟩ | ⟨-, hfirst, -⟩⟩ hrow
    · exact hwidth hrow.width
    · exact hfirst.2.1 (hrow.cells _ (List.mem_of_getElem? hfirst.1))
  · intro hrow
    by_cases hwidth : row.length = fields.length
    · have hcells : ¬ ∀ cell ∈ fields.zip row, StoresCell cell :=
        fun hcells => hrow ⟨hwidth, hcells⟩
      obtain ⟨j, ⟨f, v⟩, hfirst⟩ := exists_firstWithout_iff.mpr hcells
      obtain ⟨reason, hreason⟩ := exists_encode_error_iff.mpr hfirst.2.1
      exact ⟨_, .cell hwidth hfirst hreason⟩
    · exact ⟨_, .width hwidth⟩

/-- The first row that cannot be written is the one that is reported. -/
theorem writeRecords_eq_error_iff :
    writeRecords fields index rows = .error problem ↔
      ∃ i row, FirstWithout (StoresRow fields) rows i row ∧
        RowObstacle fields (index + i) row problem := by
  induction rows generalizing index with
  | nil => simp [writeRecords, not_firstWithout_nil]
  | cons row rows ih =>
    rw [writeRecords]
    cases hrecord : writeRecord fields index row with
    | error found =>
      have hobstacle := writeRecord_eq_error_iff.mp hrecord
      have hrefused : ¬ StoresRow fields row := exists_rowObstacle_iff.mp ⟨found, hobstacle⟩
      simp only [firstWithout_cons_of_not hrefused, ← writeRecord_eq_error_iff]
      constructor
      · intro h
        cases h
        exact ⟨0, row, ⟨rfl, rfl⟩, hrecord⟩
      · rintro ⟨i, first, ⟨rfl, rfl⟩, hfirst⟩
        exact hrecord.symm.trans hfirst
    | ok record =>
      have hstored : StoresRow fields row := by
        by_contra hrow
        obtain ⟨found, hobstacle⟩ := exists_rowObstacle_iff.mpr hrow
        rw [writeRecord_eq_error_iff.mpr hobstacle] at hrecord
        cases hrecord
      simp only [map_eq_error_iff, ih, firstWithout_cons_of_pos hstored, Nat.add_right_comm _ 1,
        Nat.add_assoc]
      constructor
      · rintro ⟨i, first, hfirst, hobstacle⟩
        exact ⟨i + 1, first, ⟨i, rfl, hfirst⟩, hobstacle⟩
      · rintro ⟨-, first, ⟨i, rfl, hfirst⟩, hobstacle⟩
        exact ⟨i, first, hfirst, hobstacle⟩

/-! ### Fields -/

/-- The name of the field has from one to ten bytes. -/
def Field.IsNamed (f : Field) : Prop :=
  1 ≤ (Text.encode f.name.toList).length ∧ (Text.encode f.name.toList).length ≤ 10

theorem isStorableName_iff_isNamed : isStorableName f.name = true ↔ f.IsNamed := by
  have hempty : f.name.isEmpty = false ↔ 1 ≤ (Text.encode f.name.toList).length := by
    rw [String.isEmpty_eq_false_iff, ne_eq, ← String.toList_eq_nil_iff, Text.length_encode]
    cases f.name.toList with
    | nil => simp [Text.byteLength]
    | cons c s =>
      have hsize := c.utf8Size_pos
      simp only [reduceCtorEq, not_false_eq_true, true_iff, Text.byteLength]
      omega
  rw [isStorableName_iff, hempty, Field.IsNamed, nameRoom]
  omega

/-- The fields are there, they have names, and the header has room for their sizes and for so many
records. -/
structure Describable (fields : List Field) (count : Nat) : Prop where
  nonempty : fields ≠ []
  named : ∀ f ∈ fields, f.IsNamed
  record : 1 + cellsWidth fields ≤ 65535
  header : 33 + 32 * fields.length ≤ 65535
  count : count < 4294967296

theorem headerLength_eq (fields : List Field) : headerLength fields = 33 + 32 * fields.length := by
  rw [headerLength, blockLength]
  omega

/-- The first of the obstacles to a description of the fields. -/
inductive LayoutObstacle (fields : List Field) (count : Nat) : WriteProblem → Prop
  | noFields (h : fields = []) : LayoutObstacle fields count .noFields
  | fieldName {j : Nat} {f : Field} (first : FirstWithout Field.IsNamed fields j f) :
      LayoutObstacle fields count (.fieldName f.name)
  | recordLength (named : fields ≠ [] ∧ ∀ f ∈ fields, f.IsNamed)
      (h : 65535 < 1 + cellsWidth fields) :
      LayoutObstacle fields count (.recordLength (1 + cellsWidth fields))
  | tooManyFields (named : fields ≠ [] ∧ ∀ f ∈ fields, f.IsNamed)
      (record : 1 + cellsWidth fields ≤ 65535) (h : 65535 < 33 + 32 * fields.length) :
      LayoutObstacle fields count (.tooManyFields fields.length)
  | tooManyRecords (named : fields ≠ [] ∧ ∀ f ∈ fields, f.IsNamed)
      (record : 1 + cellsWidth fields ≤ 65535) (header : 33 + 32 * fields.length ≤ 65535)
      (h : 4294967296 ≤ count) : LayoutObstacle fields count (.tooManyRecords count)

theorem find?_eq_some_iff_firstWithout {α : Type} {p : α → Prop} {q : α → Bool} {items : List α}
    {a : α} (hq : ∀ b, q b = true ↔ ¬ p b) :
    items.find? q = some a ↔ ∃ j, FirstWithout p items j a := by
  induction items with
  | nil => simp [not_firstWithout_nil]
  | cons b items ih =>
    by_cases hb : p b
    · rw [List.find?_cons_of_neg (fun hqb => (hq b).mp hqb hb), ih]
      simp only [firstWithout_cons_of_pos hb]
      constructor
      · rintro ⟨j, hfirst⟩
        exact ⟨j + 1, j, rfl, hfirst⟩
      · rintro ⟨-, j, -, hfirst⟩
        exact ⟨j, hfirst⟩
    · rw [List.find?_cons_of_pos ((hq b).mpr hb)]
      simp [firstWithout_cons_of_not hb, eq_comm]

theorem not_isStorableName_iff (f : Field) : (!isStorableName f.name) = true ↔ ¬ f.IsNamed := by
  rw [← isStorableName_iff_isNamed, Bool.not_eq_true', Bool.not_eq_true]

theorem find?_isStorableName_eq_none_iff :
    (fields.find? fun f => !isStorableName f.name) = none ↔ ∀ f ∈ fields, f.IsNamed := by
  simp only [List.find?_eq_none, not_isStorableName_iff, not_not]

/-- Fields are refused with the first obstacle to their description. -/
theorem layoutProblem?_eq_some_iff :
    layoutProblem? fields count = some problem ↔ LayoutObstacle fields count problem := by
  rw [layoutProblem?, headerLength_eq, recordLength]
  constructor
  · intro h
    split at h
    case isTrue hempty =>
      cases h
      exact .noFields (List.isEmpty_iff.mp hempty)
    case isFalse hempty =>
      split at h
      case h_1 f hfind =>
        cases h
        obtain ⟨j, hfirst⟩ := (find?_eq_some_iff_firstWithout not_isStorableName_iff).mp hfind
        exact .fieldName hfirst
      case h_2 hfind =>
        have hnamed : fields ≠ [] ∧ ∀ f ∈ fields, f.IsNamed :=
          ⟨fun hnil => hempty (List.isEmpty_iff.mpr hnil),
            find?_isStorableName_eq_none_iff.mp hfind⟩
        split at h
        case isTrue hrecord =>
          cases h
          exact .recordLength hnamed hrecord
        case isFalse hrecord =>
          have hrecord := Nat.le_of_not_lt hrecord
          split at h
          case isTrue hheader =>
            cases h
            exact .tooManyFields hnamed hrecord hheader
          case isFalse hheader =>
            split at h
            case isFalse => cases h
            case isTrue hcount =>
              cases h
              exact .tooManyRecords hnamed hrecord (Nat.le_of_not_lt hheader) hcount
  · have hempty : fields ≠ [] → fields.isEmpty = false := by simp
    rintro (h | ⟨hfirst⟩ | ⟨hnamed, h⟩ | ⟨hnamed, hrecord, h⟩ | ⟨hnamed, hrecord, hheader, h⟩)
    · simp [h]
    · have hne : fields ≠ [] := by
        rintro rfl
        exact not_firstWithout_nil hfirst
      have hfind := (find?_eq_some_iff_firstWithout not_isStorableName_iff).mpr ⟨_, hfirst⟩
      simp [hempty hne, hfind]
    · have hfind := find?_isStorableName_eq_none_iff.mpr hnamed.2
      simp [hempty hnamed.1, hfind, h]
    · have hfind := find?_isStorableName_eq_none_iff.mpr hnamed.2
      simp [hempty hnamed.1, hfind, Nat.not_lt.mpr hrecord, h]
    · have hfind := find?_isStorableName_eq_none_iff.mpr hnamed.2
      have hmany : 4294967295 < count := h
      simp [hempty hnamed.1, hfind, Nat.not_lt.mpr hrecord, Nat.not_lt.mpr hheader, hmany]

theorem exists_layoutObstacle_iff :
    (∃ problem, LayoutObstacle fields count problem) ↔ ¬ Describable fields count := by
  constructor
  · rintro ⟨problem, hobstacle⟩ hfields
    cases hobstacle with
    | noFields h => exact hfields.nonempty h
    | fieldName first => exact first.2.1 (hfields.named _ (List.mem_of_getElem? first.1))
    | recordLength _ h => exact Nat.not_le.mpr h hfields.record
    | tooManyFields _ _ h => exact Nat.not_le.mpr h hfields.header
    | tooManyRecords _ _ _ h => exact Nat.not_le.mpr hfields.count h
  · intro hfields
    cases hlayout : layoutProblem? fields count with
    | some problem => exact ⟨problem, layoutProblem?_eq_some_iff.mp hlayout⟩
    | none =>
      have hfits := fits_of_layoutProblem? hlayout
      refine absurd ⟨hfits.nonempty, fun f hf => isStorableName_iff_isNamed.mp (hfits.names f hf),
        hfits.recordLength_le, ?_, Nat.lt_succ_of_le hfits.count_le⟩ hfields
      rw [← headerLength_eq]
      exact hfits.headerLength_le

/-! ### Tables -/

/-- The table can be written. -/
structure Storable (t : Table) : Prop where
  fields : Describable t.fields t.rows.length
  rows : ∀ row ∈ t.rows, StoresRow t.fields row

/-- The first thing that stands in the way of a table. -/
inductive Obstacle (t : Table) : WriteProblem → Prop
  | layout {problem : WriteProblem} (h : LayoutObstacle t.fields t.rows.length problem) :
      Obstacle t problem
  | row {problem : WriteProblem} (fields : Describable t.fields t.rows.length) {i : Nat}
      {row : List Value} (first : FirstWithout (StoresRow t.fields) t.rows i row)
      (h : RowObstacle t.fields i row problem) : Obstacle t problem

theorem exists_obstacle_iff : (∃ problem, Obstacle t problem) ↔ ¬ Storable t := by
  constructor
  · rintro ⟨problem, hlayout | ⟨-, hfirst, -⟩⟩ hstorable
    · exact exists_layoutObstacle_iff.mp ⟨problem, hlayout⟩ hstorable.fields
    · exact hfirst.2.1 (hstorable.rows _ (List.mem_of_getElem? hfirst.1))
  · intro hstorable
    by_cases hfields : Describable t.fields t.rows.length
    · have hrows : ¬ ∀ row ∈ t.rows, StoresRow t.fields row :=
        fun hrows => hstorable ⟨hfields, hrows⟩
      obtain ⟨i, row, hfirst⟩ := exists_firstWithout_iff.mpr hrows
      obtain ⟨problem, hobstacle⟩ := exists_rowObstacle_iff.mpr hfirst.2.1
      exact ⟨problem, .row hfields hfirst hobstacle⟩
    · obtain ⟨problem, hobstacle⟩ := exists_layoutObstacle_iff.mpr hfields
      exact ⟨problem, .layout hobstacle⟩

/-- A table is refused with its first obstacle. -/
theorem toBytes_eq_error_iff : toBytes changed t = .error problem ↔ Obstacle t problem := by
  rw [toBytes]
  cases hlayout : layoutProblem? t.fields t.rows.length with
  | some found =>
    have hfound := layoutProblem?_eq_some_iff.mp hlayout
    constructor
    · intro h
      cases h
      exact .layout hfound
    · rintro (hother | ⟨hfields, -, -⟩)
      · rw [← layoutProblem?_eq_some_iff, hlayout] at hother
        cases hother
        rfl
      · exact absurd hfields (exists_layoutObstacle_iff.mp ⟨found, hfound⟩)
  | none =>
    have hfields : Describable t.fields t.rows.length := by
      by_contra hfields
      obtain ⟨found, hfound⟩ := exists_layoutObstacle_iff.mpr hfields
      rw [layoutProblem?_eq_some_iff.mpr hfound] at hlayout
      cases hlayout
    simp only [map_eq_error_iff, writeRecords_eq_error_iff, Nat.zero_add]
    constructor
    · rintro ⟨i, row, hfirst, hobstacle⟩
      exact .row hfields hfirst hobstacle
    · rintro (hother | ⟨-, hfirst, hobstacle⟩)
      · exact absurd hfields (exists_layoutObstacle_iff.mp ⟨problem, hother⟩)
      · exact ⟨_, _, hfirst, hobstacle⟩

theorem encode_eq_error_iff {e : Error} :
    encode changed t = .error e ↔ ∃ problem, Obstacle t problem ∧ e = .schema problem.message := by
  rw [encode]
  cases hbytes : toBytes changed t with
  | error problem =>
    have hobstacle := toBytes_eq_error_iff.mp hbytes
    constructor
    · intro h
      cases h
      exact ⟨problem, hobstacle, rfl⟩
    · rintro ⟨other, hother, rfl⟩
      rw [toBytes_eq_error_iff.mpr hother] at hbytes
      cases hbytes
      rfl
  | ok bytes =>
    constructor
    · intro h
      cases h
    · rintro ⟨other, hother, -⟩
      rw [toBytes_eq_error_iff.mpr hother] at hbytes
      cases hbytes

/-- What writing a table amounts to, to bytes and into any file of any tree. -/
structure WriteLaw (changed : Date) (t : Table) : Prop where
  accepted_iff : (∃ bytes, encode changed t = .ok bytes) ↔ Storable t
  refused_iff : ∀ e, encode changed t = .error e ↔
    ∃ problem, Obstacle t problem ∧ e = .schema problem.message
  obstacle_iff : (∃ problem, Obstacle t problem) ↔ ¬ Storable t
  /-- An obstacle among the rows is told with the position of the first row that is not stored, and
  with the name of its first field that does not store its value if the width is right. -/
  row : Describable t.fields t.rows.length → ∀ i row,
    FirstWithout (StoresRow t.fields) t.rows i row →
      (row.length ≠ t.fields.length → encode changed t = .error (.schema
        ("row " ++ toString i ++ " has " ++ toString row.length ++ " values for " ++
          toString t.fields.length ++ " fields"))) ∧
      (row.length = t.fields.length → ∀ j f v, FirstWithout StoresCell (t.fields.zip row) j (f, v) →
        ∃ reason, f.encode v = .error reason ∧ encode changed t = .error (.schema
          ("row " ++ toString i ++ ", field '" ++ f.name ++ "': " ++ reason.message)))
  /-- A table that is refused is refused before any file is touched. -/
  untouched : ¬ Storable t → ∀ files path, (write files path changed t).2 = files ∧
    ∃ problem, Obstacle t problem ∧
      (write files path changed t).1 = .error (.schema problem.message)
  written : ∀ bytes, encode changed t = .ok bytes → ∀ files path,
    (∀ place, files.target path = .ok place → (write files path changed t).1 = .ok () ∧
      files.Wrote (write files path changed t).2 path place (.bytes bytes)) ∧
    (∀ e, files.target path = .error e →
      write files path changed t = (.error (.io path e.message), files))

/-- **A table is written exactly if it is storable.**  Every other table is refused with its first
obstacle, and nothing happens to the files. -/
theorem writeLaw_of_table (changed : Date) (t : Table) : WriteLaw changed t where
  accepted_iff := by
    rw [← not_iff_not, ← exists_obstacle_iff]
    cases hencode : encode changed t with
    | ok bytes =>
      refine iff_of_false (not_not.mpr ⟨bytes, rfl⟩) ?_
      rintro ⟨problem, hobstacle⟩
      rw [encode_eq_error_iff.mpr ⟨problem, hobstacle, rfl⟩] at hencode
      cases hencode
    | error e =>
      obtain ⟨problem, hobstacle, -⟩ := encode_eq_error_iff.mp hencode
      exact iff_of_true nofun ⟨problem, hobstacle⟩
  refused_iff e := encode_eq_error_iff
  obstacle_iff := exists_obstacle_iff
  row hfields i row hfirst := by
    constructor
    · intro hwidth
      exact encode_eq_error_iff.mpr ⟨_, .row hfields hfirst (.width hwidth), rfl⟩
    · intro hwidth j f v hcell
      obtain ⟨reason, hreason⟩ := exists_encode_error_iff.mpr hcell.2.1
      exact ⟨reason, hreason, encode_eq_error_iff.mpr
        ⟨_, .row hfields hfirst (.cell hwidth hcell hreason), rfl⟩⟩
  untouched hstorable files path := by
    obtain ⟨problem, hobstacle⟩ := exists_obstacle_iff.mpr hstorable
    have hencode : encode changed t = .error (.schema problem.message) :=
      encode_eq_error_iff.mpr ⟨problem, hobstacle, rfl⟩
    have hwrite : write files path changed t = (.error (.schema problem.message), files) := by
      rw [write, hencode]
    rw [hwrite]
    exact ⟨rfl, problem, hobstacle, rfl⟩
  written bytes hencode files path := by
    constructor
    · intro place hplace
      have hwrite : write files path changed t =
          (.ok (), files.set place (.file (.bytes bytes))) := by
        rw [write, hencode]
        simp only [FileTree.write_eq_ok_iff.mpr ⟨place, hplace, rfl⟩]
      rw [hwrite]
      exact ⟨rfl, FileTree.wrote_set hplace (.bytes bytes)⟩
    · intro e he
      rw [write, hencode]
      simp only [FileTree.write, he]

/-- A column of whole numbers with a text in its second row. -/
def misfit : Table := ⟨[.integer "N"], [[.integer 7], [.text "x"]]⟩

/-- A tree with a single file. -/
def oneFile (bytes : List UInt8) : FileTree :=
  ⟨[(["work".toList], .directory), (["work".toList, "n.dbf".toList], .file (.bytes bytes))],
    ["work".toList]⟩

theorem describable_misfit : Describable misfit.fields 2 where
  nonempty := by decide
  named := List.forall_mem_singleton.mpr ⟨by decide, by decide⟩
  record := by decide
  header := by decide
  count := by decide

theorem storesRow_seven : StoresRow misfit.fields [.integer 7] where
  width := rfl
  cells := List.forall_mem_singleton.mpr (Or.inr ⟨7, rfl, by decide, by decide⟩)

theorem not_storesCell_text : ¬ StoresCell (.integer "N", .text "x") := by
  rintro (h | ⟨i, h, -⟩)
  · cases h
  · cases h

theorem firstWithout_misfit :
    FirstWithout (StoresRow misfit.fields) misfit.rows 1 [.text "x"] := by
  refine ⟨rfl, ?_, ?_⟩
  · intro hrow
    exact not_storesCell_text (hrow.cells _ (List.mem_singleton.mpr rfl))
  · intro k hk row hat
    obtain rfl : k = 0 := Nat.lt_one_iff.mp hk
    cases hat
    exact storesRow_seven

/-- The text is refused with its row and its field, and the file that is there stays. -/
theorem writeLaw_misfit :
    ¬ Storable misfit ∧
      write (oneFile [1, 2, 3]) "n.dbf" ⟨2000, 2, 29, rfl⟩ misfit =
        (.error (.schema "row 1, field 'N': cannot store a text value in a I field"),
          oneFile [1, 2, 3]) := by
  have hlaw := writeLaw_of_table ⟨2000, 2, 29, rfl⟩ misfit
  have hfirst := firstWithout_misfit
  have hcell : FirstWithout StoresCell (misfit.fields.zip [.text "x"]) 0
      (.integer "N", .text "x") := ⟨rfl, not_storesCell_text, nofun⟩
  have hnot : ¬ Storable misfit := fun h => hfirst.2.1 (h.rows _ (List.mem_of_getElem? hfirst.1))
  obtain ⟨reason, hreason, hencode⟩ :=
    (hlaw.row describable_misfit 1 _ hfirst).2 rfl 0 _ _ hcell
  obtain ⟨hfiles, problem, hobstacle, hresult⟩ := hlaw.untouched hnot (oneFile [1, 2, 3]) "n.dbf"
  have hproblem := (hlaw.refused_iff _).mpr ⟨problem, hobstacle, rfl⟩
  cases hreason
  refine ⟨hnot, ?_⟩
  rw [← Prod.eta (write _ _ _ _), hfiles, hresult, Except.error.inj (hproblem.symm.trans hencode)]
  rfl

end TableAccess.Dbase
