import TableAccess.Proofs.Dbase.Access
import TableAccess.Proofs.Dbase.Layout

/-!
# The files that are table files

A file is a table file if its header, its descriptions and its records agree and are there in
full.  This module says so of the bytes alone, without following a reader, and shows that the
reader takes these files and no others.  What it gives of them are the described fields and one
row for each record that is not deleted.
-/

namespace TableAccess.Dbase

open TableAccess.Number (ofLittleEndian)

variable {bytes area : List UInt8} {blocks : List (List UInt8)} {fields : List Field}

/-! ### What a header announces -/

/-- The number of records. -/
def announcedCount (bytes : List UInt8) : Nat := ofLittleEndian (slice 4 4 bytes)

/-- The size of the header with the descriptions. -/
def announcedHeader (bytes : List UInt8) : Nat := ofLittleEndian (slice 8 2 bytes)

/-- The size of a record. -/
def announcedRecord (bytes : List UInt8) : Nat := ofLittleEndian (slice 10 2 bytes)

/-- Where the last record ends. -/
def recordsEnd (bytes : List UInt8) : Nat :=
  announcedHeader bytes + announcedCount bytes * announcedRecord bytes

/-! ### Table files -/

/-- The lengths that descriptions announce, added up. -/
def totalLength : List (List UInt8) → Nat
  | [] => 0
  | block :: r => (byteAt 16 block).toNat + totalLength r

/-- A table file with these descriptions: one or more of them and the terminator stand between
the fixed header and the end of the announced one, the announced length is that of a flag and the
cells, and the announced records are there. -/
structure IsFile (bytes : List UInt8) (blocks : List (List UInt8)) : Prop where
  fixed : 32 ≤ bytes.length
  header : 32 < announcedHeader bytes ∧ announcedHeader bytes ≤ bytes.length
  nonempty : blocks ≠ []
  block : ∀ block ∈ blocks, IsBlock block
  area : blocks.flatten ++ [terminator] <+: slice 32 (announcedHeader bytes - 32) bytes
  record : announcedRecord bytes = 1 + totalLength blocks
  records : announcedCount bytes * announcedRecord bytes ≤ bytes.length - announcedHeader bytes

/-- The records of a file, one after the other. -/
def recordList (bytes : List UInt8) : List (List UInt8) :=
  (List.range (announcedCount bytes)).map fun i =>
    slice (announcedHeader bytes + i * announcedRecord bytes) (announcedRecord bytes) bytes

/-- The records that are not deleted. -/
def liveRecords (bytes : List UInt8) : List (List UInt8) :=
  (recordList bytes).filter fun record => record.head? != some deletedFlag

/-- The fields of the descriptions, and the values of each live record. -/
def tableIn (bytes : List UInt8) (blocks : List (List UInt8)) : Table :=
  ⟨blocks.map fieldOf,
    (liveRecords bytes).map fun record => readCells (blocks.map fieldOf) (record.drop 1)⟩

/-! ### The descriptions -/

theorem totalLength_eq (blocks : List (List UInt8)) :
    totalLength blocks = cellsWidth (blocks.map fieldOf) := by
  induction blocks with
  | nil => rfl
  | cons block blocks ih =>
    rw [totalLength, ih]
    rfl

/-- Fields that were read are those of blocks in front of a terminator. -/
theorem exists_isBlock_of_readFields {position room : Nat}
    (hroom : area.length / blockLength = room) (h : readFields position room area = .ok fields) :
    ∃ (blocks : List (List UInt8)) (rest : List UInt8),
      area = blocks.flatten ++ terminator :: rest ∧ (∀ block ∈ blocks, IsBlock block) ∧
        fields = blocks.map fieldOf := by
  induction room generalizing area position fields with
  | zero =>
    cases area with
    | nil => cases h
    | cons b r =>
      rw [readFields] at h
      by_cases hend : b = terminator
      · rw [if_pos hend] at h
        cases h
        exact ⟨[], r, by rw [hend]; rfl, by simp, rfl⟩
      · rw [if_neg hend] at h
        cases h
  | succ room ih =>
    cases area with
    | nil => cases h
    | cons b r =>
      rw [readFields] at h
      by_cases hend : b = terminator
      · rw [if_pos hend] at h
        cases h
        exact ⟨[], r, by rw [hend]; rfl, by simp, rfl⟩
      · -- the block at the front describes the first field, and the others stand behind it
        rw [if_neg hend] at h
        have hlong : blockLength ≤ (b :: r).length := by
          rw [blockLength] at hroom ⊢
          omega
        have hrest : ((b :: r).drop blockLength).length / blockLength = room := by
          rw [List.length_drop]
          rw [blockLength] at hroom hlong ⊢
          omega
        simp only at h
        split at h
        case h_1 => cases h
        case h_2 hproblem =>
          obtain ⟨others, hothers, rfl⟩ := map_eq_ok_iff.mp h
          obtain ⟨blocks, rest, harea, hblocks, rfl⟩ := ih hrest hothers
          obtain ⟨hname, hlength⟩ := problem?_fieldOf_eq_none_iff.mp hproblem
          have hblock : IsBlock ((b :: r).take blockLength) := by
            refine ⟨?_, ?_, hname, hlength⟩
            · rw [List.length_take, Nat.min_eq_left hlong]
              rfl
            · intro hstart
              exact hend (Option.some.inj hstart)
          refine ⟨(b :: r).take blockLength :: blocks, rest, ?_, ?_, rfl⟩
          · rw [List.flatten_cons, List.append_assoc, ← harea, List.take_append_drop]
          · exact List.forall_mem_cons.mpr ⟨hblock, hblocks⟩

/-- The fields of an area are those of the blocks at its front, up to the first terminator that
stands where a block could start. -/
theorem readArea_eq_ok_iff :
    readArea area = .ok fields ↔
      ∃ blocks : List (List UInt8), blocks.flatten ++ [terminator] <+: area ∧
        (∀ block ∈ blocks, IsBlock block) ∧ fields = blocks.map fieldOf := by
  constructor
  · intro h
    obtain ⟨blocks, rest, rfl, hblocks, rfl⟩ := exists_isBlock_of_readFields rfl h
    refine ⟨blocks, ⟨rest, ?_⟩, hblocks, rfl⟩
    rw [List.append_assoc, List.singleton_append]
  · rintro ⟨blocks, ⟨rest, rfl⟩, hblocks, rfl⟩
    rw [List.append_assoc, List.singleton_append]
    exact readFields_of_isBlock hblocks 1 rest

/-! ### The records -/

theorem length_readCells (fields : List Field) (raw : List UInt8) :
    (readCells fields raw).length = fields.length := by
  induction fields generalizing raw with
  | nil => rfl
  | cons f fields ih => rw [readCells, List.length_cons, ih, List.length_cons]

/-- The records that are read are pieces of one size, without the deleted ones. -/
theorem readRecords_eq {size count : Nat} {data : List UInt8}
    (h : count * (size + 1) ≤ data.length) :
    readRecords fields size count data =
      (((List.range count).map fun i => slice (i * (size + 1)) (size + 1) data).filter
        fun record => record.head? != some deletedFlag).map
          fun record => readCells fields (record.drop 1) := by
  induction count generalizing data with
  | zero => rfl
  | succ count ih =>
    cases data with
    | nil =>
      rw [Nat.succ_mul] at h
      exact absurd h (by simp)
    | cons flag r =>
      have hrest : count * (size + 1) ≤ (r.drop size).length := by
        rw [Nat.succ_mul, List.length_cons] at h
        rw [List.length_drop]
        omega
      have hfirst : slice (0 * (size + 1)) (size + 1) (flag :: r) = flag :: r.take size := by
        rw [slice, Nat.zero_mul, List.drop_zero, List.take_succ_cons]
      have hnext : ∀ i, slice ((i + 1) * (size + 1)) (size + 1) (flag :: r) =
          slice (i * (size + 1)) (size + 1) (r.drop size) := by
        intro i
        rw [slice, slice, List.drop_drop, Nat.succ_mul, ← Nat.add_assoc, List.drop_succ_cons,
          Nat.add_comm size (i * (size + 1))]
      rw [readRecords, List.range_succ_eq_map, List.map_cons, List.map_map, hfirst, ih hrest]
      simp only [Function.comp_def, hnext]
      by_cases hflag : flag = deletedFlag
      · rw [if_pos hflag, List.filter_cons_of_neg (by simp [hflag])]
      · rw [if_neg hflag, List.filter_cons_of_pos (by simp [hflag]), List.map_cons]
        rfl

/-- The rows of a table file. -/
theorem readRecords_eq_rows (hrecord : announcedRecord bytes = recordLength fields)
    (hrecords : announcedCount bytes * announcedRecord bytes ≤
      bytes.length - announcedHeader bytes) :
    readRecords fields (announcedRecord bytes - 1) (announcedCount bytes)
        (bytes.drop (announcedHeader bytes)) =
      (liveRecords bytes).map fun record => readCells fields (record.drop 1) := by
  have hsize : announcedRecord bytes - 1 + 1 = announcedRecord bytes := by
    rw [hrecord, recordLength]
    omega
  have hslice : ∀ i, slice (i * announcedRecord bytes) (announcedRecord bytes)
      (bytes.drop (announcedHeader bytes)) =
        slice (announcedHeader bytes + i * announcedRecord bytes) (announcedRecord bytes) bytes := by
    intro i
    rw [slice, slice, List.drop_drop]
  rw [readRecords_eq (by rw [hsize, List.length_drop]; exact hrecords), hsize, liveRecords,
    recordList]
  simp only [hslice]

/-! ### The whole file -/

theorem ofBytes_of_isFile (h : IsFile bytes blocks) :
    ofBytes bytes = .ok (tableIn bytes blocks) := by
  obtain ⟨hlow, hhigh⟩ := h.header
  have hfixed : ¬ bytes.length < blockLength := Nat.not_lt.mpr h.fixed
  have hheader : ¬ (ofLittleEndian (slice 8 2 bytes) ≤ blockLength ∨
      bytes.length < ofLittleEndian (slice 8 2 bytes)) :=
    not_or.mpr ⟨Nat.not_le.mpr hlow, Nat.not_lt.mpr hhigh⟩
  have harea : readArea (slice blockLength (ofLittleEndian (slice 8 2 bytes) - blockLength) bytes) =
      .ok (blocks.map fieldOf) := readArea_eq_ok_iff.mpr ⟨blocks, h.area, h.block, rfl⟩
  have hrecord : announcedRecord bytes = recordLength (blocks.map fieldOf) := by
    rw [h.record, totalLength_eq, recordLength]
  have hlength : ¬ ofLittleEndian (slice 10 2 bytes) ≠ recordLength (blocks.map fieldOf) :=
    Decidable.not_not.mpr hrecord
  have hrecords : ¬ (bytes.drop (ofLittleEndian (slice 8 2 bytes))).length <
      ofLittleEndian (slice 4 4 bytes) * ofLittleEndian (slice 10 2 bytes) := by
    rw [List.length_drop]
    exact Nat.not_lt.mpr h.records
  have hrows := readRecords_eq_rows hrecord h.records
  rw [ofBytes, if_neg hfixed, if_neg hheader, harea]
  cases hblocks : blocks.map fieldOf with
  | nil => exact absurd (List.map_eq_nil_iff.mp hblocks) h.nonempty
  | cons f r =>
    rw [hblocks] at hlength hrows
    rw [tableIn, hblocks, ← hrows]
    simp only [if_neg hlength, if_neg hrecords]
    rfl

theorem exists_isFile_of_ofBytes {t : Table} (h : ofBytes bytes = .ok t) :
    ∃ blocks, IsFile bytes blocks := by
  rw [ofBytes] at h
  by_cases hfixed : bytes.length < blockLength
  · rw [if_pos hfixed] at h
    cases h
  · rw [if_neg hfixed] at h
    split at h
    case isTrue => cases h
    case isFalse hheader =>
      obtain ⟨hlow, hhigh⟩ := not_or.mp hheader
      split at h
      case h_1 => cases h
      case h_2 => cases h
      case h_3 f r harea =>
        obtain ⟨blocks, hprefix, hblocks, hfields⟩ := readArea_eq_ok_iff.mp harea
        simp only at h
        split at h
        case isTrue => cases h
        case isFalse hlength =>
          split at h
          case isTrue => cases h
          case isFalse hrecords =>
            refine ⟨blocks, Nat.le_of_not_lt hfixed,
              ⟨Nat.lt_of_not_le hlow, Nat.le_of_not_lt hhigh⟩, ?_, hblocks, hprefix, ?_, ?_⟩
            · rintro rfl
              cases hfields
            · rw [totalLength_eq, ← hfields]
              exact Decidable.not_not.mp hlength
            · rw [List.length_drop] at hrecords
              exact Nat.le_of_not_lt hrecords

/-- A table file that is cut off before the end of its last record is none. -/
theorem not_isFile_take {n : Nat} (h : n < recordsEnd bytes) (blocks : List (List UInt8)) :
    ¬ IsFile (bytes.take n) blocks := by
  intro hfile
  have hfixed := hfile.fixed
  have hheader := hfile.header.2
  have hrecords := hfile.records
  rw [List.length_take] at hfixed hheader hrecords
  -- the cut leaves the fixed header whole, so it still announces the same sizes
  have hn : 32 ≤ n := by omega
  have hcount : announcedCount (bytes.take n) = announcedCount bytes := by
    rw [announcedCount, announcedCount, slice_take (by omega)]
  have hlength : announcedHeader (bytes.take n) = announcedHeader bytes := by
    rw [announcedHeader, announcedHeader, slice_take (by omega)]
  have hrecord : announcedRecord (bytes.take n) = announcedRecord bytes := by
    rw [announcedRecord, announcedRecord, slice_take (by omega)]
  rw [hlength] at hheader
  rw [hcount, hlength, hrecord] at hrecords
  rw [recordsEnd] at h
  omega

/-- The bytes are refused as a corrupt file. -/
def Refused (bytes : List UInt8) (origin : String) : Prop :=
  ∃ message, parse bytes origin = .error (.corrupt origin message)

theorem refused_of_not_isFile (h : ∀ blocks, ¬ IsFile bytes blocks) (origin : String) :
    Refused bytes origin := by
  cases hread : ofBytes bytes with
  | error problem => exact ⟨problem.message, by rw [parse, hread]⟩
  | ok t =>
    obtain ⟨blocks, hfile⟩ := exists_isFile_of_ofBytes hread
    exact absurd hfile (h blocks)

/-- What reading some bytes amounts to. -/
structure ReadLaw (bytes : List UInt8) (origin : String) : Prop where
  /-- No access lies outside the bytes at hand. -/
  inRange : ofBytesChecked? bytes = some (ofBytes bytes)
  accepted_iff : (∃ t, parse bytes origin = .ok t) ↔ ∃ blocks, IsFile bytes blocks
  /-- One field for each description, and one row with a value for each field for each record
  that is not deleted. -/
  table : ∀ blocks, IsFile bytes blocks → parse bytes origin = .ok (tableIn bytes blocks) ∧
    ∀ row ∈ (tableIn bytes blocks).rows, row.length = blocks.length
  refused : (∀ blocks, ¬ IsFile bytes blocks) → Refused bytes origin
  cut : ∀ blocks, IsFile bytes blocks → ∀ n < recordsEnd bytes, Refused (bytes.take n) origin

/-- **The reader takes table files and nothing else.**  On any bytes it stays within them, and it
gives a table exactly if they are a table file.  Whatever part of the records is missing at the
end, the file is refused and never read as fewer rows. -/
theorem readLaw_of_bytes (bytes : List UInt8) (origin : String) : ReadLaw bytes origin := by
  refine ⟨ofBytesChecked?_eq bytes, ⟨?_, ?_⟩, ?_, fun h => refused_of_not_isFile h origin, ?_⟩
  · rintro ⟨t, ht⟩
    cases hread : ofBytes bytes with
    | error problem =>
      rw [parse, hread] at ht
      cases ht
    | ok found => exact exists_isFile_of_ofBytes hread
  · rintro ⟨blocks, hfile⟩
    exact ⟨tableIn bytes blocks, by rw [parse, ofBytes_of_isFile hfile]⟩
  · intro blocks hfile
    refine ⟨by rw [parse, ofBytes_of_isFile hfile], ?_⟩
    intro row hrow
    obtain ⟨record, -, rfl⟩ := List.mem_map.mp hrow
    rw [length_readCells, List.length_map]
  · intro blocks _ n hn
    exact refused_of_not_isFile (not_isFile_take hn) origin

end TableAccess.Dbase
