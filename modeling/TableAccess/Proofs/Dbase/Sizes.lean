import Mathlib.Data.List.Forall2
import TableAccess.Proofs.Dbase.Acceptance
import TableAccess.Proofs.Dbase.RoundTrip

/-!
# The sizes of what is written

The header announces one size for every record: a flag byte and the widths of the fields.  The
writer does not cut a cell to the width of its field.  A text and the digits of a number fill the
width, but a whole number in four bytes, a letter for a truth value and the digits of a date take
what they need.  So a record has the announced size, with each cell at its announced place, exactly
if every value of its row happens to fill its field, and otherwise what stands behind moves.
-/

namespace TableAccess.Dbase

open TableAccess.Number
open TableAccess.Text (IsAscii)

variable {f : Field} {v : Value} {fields : List Field} {row : List Value} {index : Nat}
  {raw record bytes : List UInt8}

/-! ### Cells -/

/-- How many bytes a value takes in a cell of a field. -/
def Field.cellSize (f : Field) (v : Value) : Nat :=
  match f.kind with
  | .integer => 4
  | .logical => 1
  | .date =>
    match v with
    | .date d => d.compactText.length
    | _ => f.width
  | _ => f.width

/-- The value takes as many bytes as the field is wide. -/
def Field.Fills (f : Field) (v : Value) : Prop := f.cellSize v = f.width

instance (f : Field) (v : Value) : Decidable (f.Fills v) :=
  inferInstanceAs (Decidable (f.cellSize v = f.width))

/-- A field whose width suits its kind is filled by every value but dates whose years are not
written with four digits. -/
theorem Field.fills_of_hasWidth (hw : f.HasWidth)
    (hv : ∀ d, v = .date d → 0 ≤ d.year ∧ d.year ≤ 9999) : f.Fills v := by
  unfold Field.HasWidth at hw
  unfold Field.Fills Field.cellSize
  cases hk : f.kind with
  | integer =>
    rw [hk] at hw
    exact hw.symm
  | logical =>
    rw [hk] at hw
    exact hw.symm
  | date =>
    rw [hk] at hw
    cases v with
    | date d =>
      obtain ⟨h0, h9⟩ := hv d rfl
      show d.compactText.length = f.width
      rw [Date.length_compactText h0 h9, hw]
    | null => rfl
    | integer i => rfl
    | float x => rfl
    | text s => rfl
  | character => rfl
  | numeric => rfl
  | float => rfl
  | other code => rfl

theorem isAscii_of_digitsOf? {decimals : Nat} {digits : List Char}
    (h : digitsOf? decimals v = some digits) : IsAscii digits := by
  cases v with
  | integer i =>
    simp only [digitsOf?, Option.some.injEq] at h
    rw [← h]
    split
    · exact isAscii_intText i.toInt
    · exact isAscii_fixedText decimals _
  | float x =>
    simp only [digitsOf?, Option.some.injEq] at h
    rw [← h]
    exact isAscii_fixedText decimals x
  | null => cases h
  | text s => cases h
  | date d => cases h

theorem length_of_numberCell {width : Nat} {digits : List Char} (hascii : IsAscii digits)
    (h : numberCell width digits = .ok raw) : raw.length = width := by
  rw [numberCell] at h
  split at h
  case isTrue => cases h
  case isFalse hwidth =>
    cases h
    rw [List.length_append, length_blanks, Text.length_encode_of_isAscii hascii]
    omega

theorem length_of_encode_number (hk : f.IsNumber) (h : f.encode v = .ok raw) :
    raw.length = f.width := by
  by_cases hv : v = .null
  · rw [hv, encode_number_null hk] at h
    cases h
    exact length_blanks f.width
  · rw [encode_number_of_ne_null hk hv] at h
    split at h
    case h_1 digits hdigits => exact length_of_numberCell (isAscii_of_digitsOf? hdigits) h
    case h_2 => cases h

/-- A cell has the size that its field and its value settle. -/
theorem length_of_encode (h : f.encode v = .ok raw) : raw.length = f.cellSize v := by
  unfold Field.cellSize
  cases hk : f.kind with
  | numeric => exact length_of_encode_number (Or.inl hk) h
  | float => exact length_of_encode_number (Or.inr hk) h
  | integer =>
    rcases encode_integer_cases hk h with ⟨-, rfl⟩ | ⟨i, -, -, rfl⟩
    · exact length_littleEndian 4 _
    · exact length_littleEndian 4 _
  | logical =>
    rcases encode_logical_cases hk h with ⟨-, rfl⟩ | ⟨i, -, rfl⟩
    · rfl
    · rfl
  | date =>
    rcases encode_date_cases hk h with ⟨rfl, rfl⟩ | ⟨d, rfl, rfl⟩
    · exact length_blanks f.width
    · exact Text.length_encode_of_isAscii d.isAscii_compactText
  | character =>
    rw [encode_character hk] at h
    cases h
    exact length_textCell f.width v.fieldText
  | other code =>
    rw [encode_other hk] at h
    cases h
    exact length_textCell f.width v.fieldText

/-! ### Records -/

/-- How many bytes the cells of a row take. -/
def cellsSize : List Field → List Value → Nat
  | f :: fields, v :: values => f.cellSize v + cellsSize fields values
  | _, _ => 0

/-- Every value of a row fills its field. -/
def FillsRow (fields : List Field) (row : List Value) : Prop :=
  ∀ cell ∈ fields.zip row, cell.1.Fills cell.2

instance (fields : List Field) (row : List Value) : Decidable (FillsRow fields row) :=
  inferInstanceAs (Decidable (∀ cell ∈ fields.zip row, cell.1.Fills cell.2))

/-- The record of a row: a flag, and then the cell of each value behind the cells before it. -/
structure IsRecord (fields : List Field) (row : List Value) (record : List UInt8) : Prop where
  width : row.length = fields.length
  flag : record.head? = some liveFlag
  length : record.length = 1 + cellsSize fields row
  cell : ∀ (j : Nat) (f : Field) (v : Value), fields[j]? = some f → row[j]? = some v →
    f.encode v =
      .ok (slice (1 + cellsSize (fields.take j) (row.take j)) (f.cellSize v) record)

/-- The record has the announced size, and the cell of each value takes the whole width of its
field at the announced place, behind the widths of the fields before it. -/
structure IsAnnounced (fields : List Field) (row : List Value) (record : List UInt8) : Prop where
  length : record.length = 1 + cellsWidth fields
  cell : ∀ (j : Nat) (f : Field) (v : Value), fields[j]? = some f → row[j]? = some v →
    ∃ raw, f.encode v = .ok raw ∧ raw.length = f.width ∧
      slice (1 + cellsWidth (fields.take j)) f.width record = raw

theorem slice_append (front : List UInt8) (start size : Nat) (rest : List UInt8) :
    slice (front.length + start) size (front ++ rest) = slice start size rest := by
  rw [slice, slice, List.drop_append, List.drop_eq_nil_of_le (Nat.le_add_right _ _),
    Nat.add_sub_cancel_left, List.nil_append]

/-- The cells of a row stand one after the other. -/
theorem cells_of_writeCells (h : writeCells index fields row = .ok bytes)
    (hlength : row.length = fields.length) :
    bytes.length = cellsSize fields row ∧
      ∀ (j : Nat) (f : Field) (v : Value), fields[j]? = some f → row[j]? = some v →
        f.encode v =
          .ok (slice (cellsSize (fields.take j) (row.take j)) (f.cellSize v) bytes) := by
  induction fields generalizing row bytes with
  | nil =>
    cases h
    exact ⟨rfl, fun j f v hf => by cases hf⟩
  | cons f fields ih =>
    cases row with
    | nil => cases hlength
    | cons v values =>
      obtain ⟨cell, rest, hcell, hrest, rfl⟩ := writeCells_cons h
      obtain ⟨hsize, hcells⟩ := ih hrest (Nat.succ.inj hlength)
      have hfirst := length_of_encode hcell
      constructor
      · rw [List.length_append, hfirst, hsize, cellsSize]
      · intro j g w hg hw
        cases j with
        | zero =>
          cases hg
          cases hw
          show f.encode v = .ok (slice 0 (f.cellSize v) (cell ++ rest))
          rw [hcell, slice, List.drop_zero, ← hfirst, List.take_left]
        | succ j =>
          rw [List.getElem?_cons_succ] at hg hw
          rw [hcells j g w hg hw, List.take_succ_cons, List.take_succ_cons, cellsSize, ← hfirst,
            slice_append]

theorem isRecord_of_writeRecord (h : writeRecord fields index row = .ok record) :
    IsRecord fields row record := by
  obtain ⟨hlength, cells, hcells, rfl⟩ := writeRecord_eq h
  obtain ⟨hsize, hplaces⟩ := cells_of_writeCells hcells hlength
  refine ⟨hlength, rfl, ?_, ?_⟩
  · rw [List.length_cons, hsize, Nat.add_comm]
  · intro j f v hf hv
    rw [hplaces j f v hf hv]
    show _ = Except.ok (slice ([liveFlag].length + _) _ ([liveFlag] ++ cells))
    rw [slice_append]

/-- The records of rows, one for each. -/
theorem exists_records {rows : List (List Value)}
    (h : writeRecords fields index rows = .ok bytes) :
    ∃ records, bytes = records.flatten ∧ List.Forall₂ (IsRecord fields) rows records := by
  induction rows generalizing index bytes with
  | nil =>
    cases h
    exact ⟨[], rfl, .nil⟩
  | cons row rows ih =>
    obtain ⟨record, rest, hrecord, hrest, rfl⟩ := writeRecords_cons h
    obtain ⟨records, rfl, hrecords⟩ := ih hrest
    exact ⟨record :: records, rfl, .cons (isRecord_of_writeRecord hrecord) hrecords⟩

/-! ### The announced size -/

theorem cellsSize_of_fillsRow (hlength : row.length = fields.length) (h : FillsRow fields row) :
    cellsSize fields row = cellsWidth fields := by
  induction fields generalizing row with
  | nil =>
    rw [List.length_eq_zero_iff.mp hlength]
    rfl
  | cons f fields ih =>
    cases row with
    | nil => cases hlength
    | cons v values =>
      have hfirst : f.cellSize v = f.width := h (f, v) List.mem_cons_self
      have hrest := ih (Nat.succ.inj hlength) fun c hc => h c (List.mem_cons_of_mem (f, v) hc)
      rw [cellsSize, cellsWidth, hfirst, hrest]

theorem FillsRow.take (h : FillsRow fields row) (j : Nat) :
    FillsRow (fields.take j) (row.take j) := by
  intro cell hcell
  have htake : (fields.take j).zip (row.take j) = (fields.zip row).take j := List.take_zipWith.symm
  rw [htake] at hcell
  exact h cell (List.mem_of_mem_take hcell)

theorem isAnnounced_of_fillsRow (h : IsRecord fields row record) (hrow : FillsRow fields row) :
    IsAnnounced fields row record := by
  constructor
  · rw [h.length, cellsSize_of_fillsRow h.width hrow]
  · intro j f v hf hv
    -- the values before this one fill their fields as well, so its cell starts where announced
    have hbefore : cellsSize (fields.take j) (row.take j) = cellsWidth (fields.take j) := by
      refine cellsSize_of_fillsRow ?_ (hrow.take j)
      rw [List.length_take, List.length_take, h.width]
    have hfills : f.cellSize v = f.width := by
      refine hrow (f, v) (List.mem_iff_getElem?.mpr ⟨j, ?_⟩)
      rw [List.getElem?_zip_eq_some]
      exact ⟨hf, hv⟩
    have hcell := h.cell j f v hf hv
    have hsize := length_of_encode hcell
    rw [hbefore, hfills] at hcell hsize
    exact ⟨_, hcell, hsize, rfl⟩

theorem fillsRow_of_isAnnounced (h : IsAnnounced fields row record) : FillsRow fields row := by
  intro cell hcell
  obtain ⟨j, hj⟩ := List.mem_iff_getElem?.mp hcell
  obtain ⟨hf, hv⟩ := List.getElem?_zip_eq_some.mp hj
  obtain ⟨raw, hencode, hsize, -⟩ := h.cell j cell.1 cell.2 hf hv
  rw [Field.Fills, ← length_of_encode hencode, hsize]

/-- A record is as announced exactly if its row fills the fields. -/
theorem isAnnounced_iff_fillsRow (h : IsRecord fields row record) :
    IsAnnounced fields row record ↔ FillsRow fields row :=
  ⟨fillsRow_of_isAnnounced, isAnnounced_of_fillsRow h⟩

/-- Rows fill the fields that are as wide as their kinds need, if their dates have years that are
written with four digits. -/
theorem fillsRow_of_hasWidth (hfields : ∀ f ∈ fields, f.HasWidth)
    (hrow : ∀ d, .date d ∈ row → 0 ≤ d.year ∧ d.year ≤ 9999) : FillsRow fields row := by
  intro cell hcell
  obtain ⟨hf, hv⟩ := List.of_mem_zip hcell
  exact Field.fills_of_hasWidth (hfields cell.1 hf) fun d hd => hrow d (hd ▸ hv)

/-- Records of rows that fill their fields take the announced number of bytes together. -/
theorem length_flatten_of_isRecord {rows : List (List Value)} {records : List (List UInt8)}
    (h : List.Forall₂ (IsRecord fields) rows records) (hrows : ∀ row ∈ rows, FillsRow fields row) :
    records.flatten.length = rows.length * recordLength fields := by
  induction h with
  | nil => rw [List.flatten_nil, List.length_nil, List.length_nil, Nat.zero_mul]
  | cons hrecord hrecords ih =>
    obtain ⟨hrow, hrest⟩ := List.forall_mem_cons.mp hrows
    rw [List.flatten_cons, List.length_append, ih hrest, hrecord.length,
      cellsSize_of_fillsRow hrecord.width hrow, List.length_cons, Nat.succ_mul, recordLength,
      Nat.add_comm]

/-! ### The whole file -/

/-- What is written of a table: the header, one record for each row, and the mark of the end.  A
record has the size that the header announces, cell by cell, exactly if its row fills the
fields. -/
structure SizeLaw (t : Table) (bytes : List UInt8) : Prop where
  parts : ∃ head records, bytes = head ++ (records.flatten ++ [endMark]) ∧
    head.length = 32 + 32 * t.fields.length + 1 ∧
    List.Forall₂ (fun row record => IsRecord t.fields row record ∧
      (IsAnnounced t.fields row record ↔ FillsRow t.fields row)) t.rows records
  header : announcedHeader bytes = 32 + 32 * t.fields.length + 1
  record : announcedRecord bytes = 1 + cellsWidth t.fields
  count : announcedCount bytes = t.rows.length
  total : (∀ row ∈ t.rows, FillsRow t.fields row) →
    bytes.length = announcedHeader bytes + announcedCount bytes * announcedRecord bytes + 1
  /-- Fields that are as wide as their kinds need are filled, if the years of dates are written
  with four digits. -/
  suited : (∀ f ∈ t.fields, f.HasWidth) → ∀ row ∈ t.rows,
    (∀ d, .date d ∈ row → 0 ≤ d.year ∧ d.year ≤ 9999) → FillsRow t.fields row

/-- **The sizes of a table that was written.**  Whatever fields and values it has, the header has
its size and every row has its record; and if every value fills its field, the records and the
whole file have the sizes that the header announces. -/
theorem sizeLaw_of_encode {changed : Date} {t : Table} {bytes : List UInt8}
    (h : encode changed t = .ok bytes) : SizeLaw t bytes := by
  obtain ⟨hfits, written, hwritten, rfl⟩ := toBytes_eq (toBytes_of_encode h)
  obtain ⟨records, rfl, hrecords⟩ := exists_records hwritten
  have hhead : (header changed t.fields t.rows.length).length = headerLength t.fields :=
    length_header hfits
  have hheader : announcedHeader
      (header changed t.fields t.rows.length ++ (records.flatten ++ [endMark])) =
        headerLength t.fields := headerLength_header hfits _
  have hrecord : announcedRecord
      (header changed t.fields t.rows.length ++ (records.flatten ++ [endMark])) =
        recordLength t.fields := recordLength_header hfits _
  have hcount : announcedCount
      (header changed t.fields t.rows.length ++ (records.flatten ++ [endMark])) =
        t.rows.length := count_header hfits _
  refine ⟨?_, hheader, hrecord, hcount, ?_, ?_⟩
  · refine ⟨_, records, rfl, hhead, hrecords.imp fun row record hrow => ?_⟩
    exact ⟨hrow, isAnnounced_iff_fillsRow hrow⟩
  · intro hfills
    rw [hheader, hrecord, hcount, List.length_append, List.length_append, hhead,
      length_flatten_of_isRecord hrecords hfills, List.length_singleton, Nat.add_assoc]
  · intro hfields row _ hrow
    exact fillsRow_of_hasWidth hfields hrow

/-- A field of every kind that can be too narrow, each as wide as its kind needs. -/
def badges : Table :=
  ⟨[.integer "NO", .logical "VALID", .date "UNTIL", .numeric "PAY" 6 2],
    [[.integer (-7), .integer 1, .date ⟨2031, 12, 1, rfl⟩, .integer 12],
      [.null, .null, .null, .null]]⟩

theorem fillsRow_badges : ∀ row ∈ badges.rows, FillsRow badges.fields row := by
  decide

theorem sizeLaw_badges :
    ∃ bytes, encode ⟨2026, 1, 5, rfl⟩ badges = .ok bytes ∧ SizeLaw badges bytes ∧
      bytes.length = 161 + 2 * 20 + 1 := by
  have hencode : ∃ bytes, encode ⟨2026, 1, 5, rfl⟩ badges = .ok bytes := ⟨_, rfl⟩
  obtain ⟨bytes, h⟩ := hencode
  have hlaw := sizeLaw_of_encode h
  refine ⟨bytes, h, hlaw, ?_⟩
  rw [hlaw.total fillsRow_badges, hlaw.header, hlaw.record, hlaw.count]
  rfl

/-- Truth values in a field of two bytes: each takes one. -/
def flags : Table := ⟨[⟨"OK", .logical, 2, 0⟩], [[.integer 1], [.integer 0]]⟩

/-- The file of the truth values is two bytes shorter than its header says, and is refused when it
is read again. -/
theorem length_encode_flags :
    ∃ bytes, encode ⟨2026, 1, 5, rfl⟩ flags = .ok bytes ∧
      bytes.length + 2 = announcedHeader bytes + announcedCount bytes * announcedRecord bytes + 1 ∧
      (parse bytes "flags.dbf").toOption = none :=
  ⟨_, rfl, rfl, by decide +kernel⟩

end TableAccess.Dbase
