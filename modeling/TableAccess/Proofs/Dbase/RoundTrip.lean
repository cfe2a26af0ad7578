import TableAccess.Proofs.Dbase.Layout

/-!
# What a table file gives back

A table that could be written is read back field by field and row by row.  The fields come back
as they are, and every value comes back in its canonical form.
-/

namespace TableAccess.Dbase

open TableAccess.Number

variable {fields : List Field} {count : Nat} {changed : Date} {t : Table} {bytes : List UInt8}

/-! ### Tables that fit the header -/

/-- The header and the descriptions have room for the fields and for so many records. -/
structure Fits (fields : List Field) (count : Nat) : Prop where
  nonempty : fields ≠ []
  names : ∀ f ∈ fields, isStorableName f.name = true
  recordLength_le : recordLength fields ≤ 65535
  headerLength_le : headerLength fields ≤ 65535
  count_le : count ≤ 4294967295

theorem fits_of_layoutProblem? (h : layoutProblem? fields count = none) : Fits fields count := by
  rw [layoutProblem?] at h
  split at h
  case isTrue => cases h
  case isFalse hempty =>
    split at h
    case h_1 => cases h
    case h_2 hfind =>
      rw [List.find?_eq_none] at hfind
      split at h
      case isTrue => cases h
      case isFalse hrecord =>
        split at h
        case isTrue => cases h
        case isFalse hheader =>
          split at h
          case isTrue => cases h
          case isFalse hcount =>
            refine ⟨fun hnil => hempty (List.isEmpty_iff.mpr hnil), fun f hf => ?_,
              Nat.le_of_not_lt hrecord, Nat.le_of_not_lt hheader, Nat.le_of_not_lt hcount⟩
            have hname := hfind f hf
            rwa [Bool.not_eq_true', Bool.not_eq_false] at hname

/-- What a written table consists of. -/
theorem toBytes_eq (h : toBytes changed t = .ok bytes) :
    Fits t.fields t.rows.length ∧
      ∃ records, writeRecords t.fields 0 t.rows = .ok records ∧
        bytes = header changed t.fields t.rows.length ++ (records ++ [endMark]) := by
  rw [toBytes] at h
  split at h
  case h_1 => cases h
  case h_2 hlayout =>
    obtain ⟨records, hrecords, rfl⟩ := map_eq_ok_iff.mp h
    exact ⟨fits_of_layoutProblem? hlayout, records, hrecords, rfl⟩

/-! ### The header -/

/-- What stands before the numbers of the header. -/
def preamble (changed : Date) : List UInt8 :=
  [formatMark, yearByte changed.year, UInt8.ofNat changed.month, UInt8.ofNat changed.day]

theorem header_append (rest : List UInt8) :
    header changed fields count ++ rest =
      preamble changed ++ (littleEndian 4 count ++ (littleEndian 2 (headerLength fields) ++
        (littleEndian 2 (recordLength fields) ++ (zeros 20 ++
          (fields.flatMap Field.block ++ [terminator] ++ rest))))) := by
  simp only [header, preamble, List.cons_append, List.append_assoc, List.nil_append]

theorem length_header (h : Fits fields count) :
    (header changed fields count).length = headerLength fields := by
  have heq : header changed fields count ++ [] = _ := header_append []
  rw [List.append_nil] at heq
  rw [heq]
  simp only [List.length_append, length_littleEndian, length_blocks h.names, preamble, zeros,
    List.length_replicate, List.length_cons, List.length_nil, headerLength, blockLength]
  omega

theorem count_header (h : Fits fields count) (rest : List UInt8) :
    ofLittleEndian (slice 4 4 (header changed fields count ++ rest)) = count := by
  have hle := h.count_le
  have hstart : (preamble changed).length = 4 := rfl
  rw [header_append, slice_part hstart (length_littleEndian 4 count),
    ofLittleEndian_littleEndian (show count < 4294967296 by omega)]

theorem headerLength_header (h : Fits fields count) (rest : List UInt8) :
    ofLittleEndian (slice 8 2 (header changed fields count ++ rest)) = headerLength fields := by
  have hle := h.headerLength_le
  have hstart : (preamble changed ++ littleEndian 4 count).length = 8 := by
    rw [List.length_append, length_littleEndian]
    rfl
  rw [header_append, ← List.append_assoc, slice_part hstart (length_littleEndian 2 _),
    ofLittleEndian_littleEndian (show headerLength fields < 65536 by omega)]

theorem recordLength_header (h : Fits fields count) (rest : List UInt8) :
    ofLittleEndian (slice 10 2 (header changed fields count ++ rest)) = recordLength fields := by
  have hle := h.recordLength_le
  have hstart : (preamble changed ++ littleEndian 4 count ++
      littleEndian 2 (headerLength fields)).length = 10 := by
    rw [List.length_append, List.length_append, length_littleEndian, length_littleEndian]
    rfl
  rw [header_append, ← List.append_assoc, ← List.append_assoc,
    slice_part hstart (length_littleEndian 2 _),
    ofLittleEndian_littleEndian (show recordLength fields < 65536 by omega)]

/-- The descriptions stand between the numbers of the header and the records. -/
theorem area_header (h : Fits fields count) (rest : List UInt8) :
    slice blockLength (headerLength fields - blockLength) (header changed fields count ++ rest) =
      fields.flatMap Field.block ++ [terminator] := by
  have hstart : (preamble changed ++ littleEndian 4 count ++ littleEndian 2 (headerLength fields) ++
      littleEndian 2 (recordLength fields) ++ zeros 20).length = blockLength := by
    simp only [List.length_append, length_littleEndian, zeros, List.length_replicate]
    rfl
  have hsize : (fields.flatMap Field.block ++ [terminator]).length =
      headerLength fields - blockLength := by
    rw [List.length_append, length_blocks h.names, List.length_singleton, headerLength]
    omega
  rw [header_append, ← List.append_assoc, ← List.append_assoc, ← List.append_assoc,
    ← List.append_assoc, slice_part hstart hsize]

/-! ### The whole file -/

/-- Behind a header that was written, the checks that remain are those of the descriptions and of
the size of the records. -/
theorem ofBytes_header (h : Fits fields count) (data : List UInt8) :
    ofBytes (header changed fields count ++ data) =
      match readArea (fields.flatMap Field.block ++ [terminator]) with
      | .error problem => .error problem
      | .ok [] => .error .noFields
      | .ok (f :: r) =>
        if recordLength fields ≠ recordLength (f :: r) then
          .error (.recordLength (recordLength fields) (recordLength (f :: r)))
        else if data.length < count * recordLength fields then
          .error (.missingRecords data.length count (recordLength fields))
        else .ok ⟨f :: r, readRecords (f :: r) (recordLength fields - 1) count data⟩ := by
  have hlength : (header changed fields count).length = headerLength fields := length_header h
  have hhead : blockLength < headerLength fields := by
    rw [headerLength, blockLength]
    omega
  have htotal : headerLength fields ≤ (header changed fields count ++ data).length := by
    rw [List.length_append, hlength]
    exact Nat.le_add_right _ _
  have hdrop : (header changed fields count ++ data).drop (headerLength fields) = data := by
    rw [← hlength, List.drop_left]
  have hlong : ¬ (header changed fields count ++ data).length < blockLength := by omega
  have hvalid : ¬ (headerLength fields ≤ blockLength ∨
      (header changed fields count ++ data).length < headerLength fields) := by omega
  rw [ofBytes, count_header h, headerLength_header h, recordLength_header h, area_header h, hdrop]
  exact (if_neg hlong).trans (if_neg hvalid)

theorem ofBytes_toBytes (h : toBytes changed t = .ok bytes) (hf : ∀ f ∈ t.fields, f.Regular)
    (hv : ∀ row ∈ t.rows, HoldsRow t.fields row) :
    ofBytes bytes = .ok ⟨t.fields, t.rows.map (canonicalRow t.fields)⟩ := by
  obtain ⟨fields, rows⟩ := t
  obtain ⟨hfits, records, hrecords, rfl⟩ := toBytes_eq h
  obtain ⟨hsize, hread⟩ :=
    readRecords_writeRecords hrecords (fun f hm => (hf f hm).width) hv [endMark]
  have hdata : ¬ (records ++ [endMark]).length < rows.length * recordLength fields := by
    rw [List.length_append, hsize]
    exact Nat.not_lt.mpr (Nat.le_add_right _ _)
  have hcells : recordLength fields - 1 = cellsWidth fields := by
    rw [recordLength, Nat.add_sub_cancel_left]
  rw [ofBytes_header hfits, readArea_blocks hfits.names hf]
  cases fields with
  | nil => exact absurd rfl hfits.nonempty
  | cons f r =>
    simp only [ne_eq, not_true_eq_false, if_false, if_neg hdata, hcells, hread]

theorem toBytes_of_encode (h : encode changed t = .ok bytes) :
    toBytes changed t = .ok bytes := by
  rw [encode] at h
  split at h
  case h_1 written hwritten =>
    cases h
    exact hwritten
  case h_2 => cases h

/-- **Reading a table file undoes writing it.**  Whenever a table of regular fields can be
written, and its dates and numbers have texts that they can be read from, the file is read as the
same fields and one row for each row that was written, in the same order, every value in its
canonical form.  Of a text that form keeps the longest beginning that fits the field. -/
theorem parse_encode {changed : Date} {t : Table} {bytes : List UInt8} (origin : String)
    (h : encode changed t = .ok bytes) (hf : ∀ f ∈ t.fields, f.Regular)
    (hv : ∀ row ∈ t.rows, HoldsRow t.fields row) :
    parse bytes origin = .ok ⟨t.fields, t.rows.map (canonicalRow t.fields)⟩ ∧
      ∀ f ∈ t.fields, ∀ v, Text.LongestWithin f.width v.fieldText (f.kept v) := by
  have hbytes : toBytes changed t = .ok bytes := toBytes_of_encode h
  constructor
  · rw [parse, ofBytes_toBytes hbytes hf hv]
  · intro f _ v
    exact Text.longestWithin_takeBytes f.width v.fieldText

/-- Two people with a field of every kind; the second name does not fit its field. -/
def staff : Table :=
  ⟨[.character "NAME" 4, .numeric "AGE" 3 0, .date "SINCE", .logical "ACTIVE", .integer "ROOM",
      ⟨"NOTE", .other 77, 4, 0⟩],
    [[.text "Zoë", .integer (-41), .date ⟨2024, 2, 29, rfl⟩, .integer 7, .null, .text " x"],
      [.integer 12345, .null, .null, .null, .integer 300, .null]]⟩

theorem regular_staff : ∀ f ∈ staff.fields, f.Regular := by
  have hall : (staff.fields.all fun f =>
      f.name.toList.all fun c => c != '\x00' && !Text.isBlank c) = true := by decide
  have hsharp : ∀ f ∈ staff.fields, ∀ c ∈ f.name.toList, c ≠ '\x00' ∧ Text.isBlank c = false := by
    simpa using hall
  have hwidth : ∀ f ∈ staff.fields, f.HasWidth := by
    simp [staff, Field.HasWidth, Field.width, Field.character, Field.numeric, Field.date,
      Field.logical, Field.integer]
  have hkind : ∀ f ∈ staff.fields, FieldKind.ofCode f.kind.code = f.kind := by decide
  intro f hf
  have hblank := Text.sharp_of_forall fun c hc => (hsharp f hf c hc).2
  exact ⟨fun h0 => (hsharp f hf _ h0).1 rfl, hblank.1, hblank.2, hwidth f hf, hkind f hf⟩

theorem holdsRow_staff : ∀ row ∈ staff.rows, HoldsRow staff.fields row := by
  simp [staff, HoldsRow, Field.Holds, Field.character, Field.numeric, Field.date, Field.logical,
    Field.integer, -Prod.forall, -Prod.mk.injEq]

theorem parse_encode_staff :
    (∀ f ∈ staff.fields, f.Regular) ∧ (∀ row ∈ staff.rows, HoldsRow staff.fields row) ∧
      ∃ bytes, encode ⟨2026, 1, 5, rfl⟩ staff = .ok bytes ∧
        parse bytes "staff.dbf" = .ok ⟨staff.fields,
          [[.text "Zoë", .integer (-41), .date ⟨2024, 2, 29, rfl⟩, .integer 1, .integer 0,
              .text "x"],
            [.text "1234", .null, .null, .null, .integer 300, .text ""]]⟩ := by
  have hencode : ∃ bytes, encode ⟨2026, 1, 5, rfl⟩ staff = .ok bytes := ⟨_, rfl⟩
  obtain ⟨bytes, h⟩ := hencode
  refine ⟨regular_staff, holdsRow_staff, bytes, h, ?_⟩
  rw [(parse_encode "staff.dbf" h regular_staff holdsRow_staff).1]
  rfl

end TableAccess.Dbase
