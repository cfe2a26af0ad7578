import Mathlib.Data.Finset.Defs
import Mathlib.Data.Finset.Insert
import TableAccess.Proofs.Dbase.Footprint

/-!
# Deleted records

A record is deleted by its flag and by nothing else.  Whatever flags the records of a table file are
given, the file stays a table file with the same fields, and its rows are those of the records that
are not flagged as deleted, each with the values that it has without any deletion.
-/

namespace TableAccess.Dbase

variable {bytes : List UInt8} {blocks : List (List UInt8)} {flags : Nat → UInt8} {t : Table}
  {i n p : Nat}

/-! ### Other flags -/

/-- The bytes with other flags for the first records. -/
def setFlags (flags : Nat → UInt8) (bytes : List UInt8) : Nat → List UInt8
  | 0 => bytes
  | n + 1 => (setFlags flags bytes n).set (recordPlace bytes n) (flags n)

/-- The bytes with other flags for all records. -/
def reflag (flags : Nat → UInt8) (bytes : List UInt8) : List UInt8 :=
  setFlags flags bytes (announcedCount bytes)

@[simp] theorem length_setFlags (flags : Nat → UInt8) (bytes : List UInt8) (n : Nat) :
    (setFlags flags bytes n).length = bytes.length := by
  induction n with
  | zero => rfl
  | succ n ih => rw [setFlags, List.length_set, ih]

/-- All bytes but the flags stay as they are. -/
theorem getElem?_setFlags_of_ne (h : ∀ i < n, recordPlace bytes i ≠ p) :
    (setFlags flags bytes n)[p]? = bytes[p]? := by
  induction n with
  | zero => rfl
  | succ n ih =>
    rw [setFlags, List.getElem?_set_ne (h n (Nat.lt_succ_self n)),
      ih fun i hi => h i (Nat.lt_succ_of_lt hi)]

theorem recordPlace_inj (h : 0 < announcedRecord bytes) {j : Nat}
    (hplace : recordPlace bytes i = recordPlace bytes j) : i = j :=
  eq_of_place_eq h h (Nat.add_left_cancel hplace)

/-- Every record has the flag that it was given. -/
theorem getElem?_setFlags_recordPlace (hpos : 0 < announcedRecord bytes) (hi : i < n)
    (hlong : recordPlace bytes i < bytes.length) :
    (setFlags flags bytes n)[recordPlace bytes i]? = some (flags i) := by
  induction n with
  | zero => exact absurd hi (Nat.not_lt_zero i)
  | succ n ih =>
    rw [setFlags]
    by_cases heq : i = n
    · rw [heq] at hlong ⊢
      exact List.getElem?_set_self (by rwa [length_setFlags])
    · rw [List.getElem?_set_ne fun hplace => heq (recordPlace_inj hpos hplace.symm)]
      exact ih (by omega)

/-! ### The file with other flags -/

theorem recordPlace_lt (h : IsFile bytes blocks) (hi : i < announcedCount bytes) :
    recordPlace bytes i < bytes.length := by
  have hpos := h.record_pos
  have hend := h.recordsEnd_le
  have hnext : (i + 1) * announcedRecord bytes ≤ announcedCount bytes * announcedRecord bytes :=
    Nat.mul_le_mul_right _ hi
  rw [Nat.succ_mul] at hnext
  rw [recordsEnd] at hend
  rw [recordPlace]
  omega

/-- In front of the records nothing changes. -/
theorem sameHeader_reflag (h : IsFile bytes blocks) (flags : Nat → UInt8) :
    SameHeader blocks.length bytes (reflag flags bytes) := by
  have hfront : ∀ p < announcedHeader bytes, (reflag flags bytes)[p]? = bytes[p]? := by
    intro p hp
    refine getElem?_setFlags_of_ne fun i _ => ?_
    rw [recordPlace]
    omega
  have hend := h.terminator_lt
  constructor
  case long =>
    rw [reflag, length_setFlags]
    exact h.recordsEnd_le
  case sizes =>
    intro p _ hp
    exact hfront p (by omega)
  case block =>
    intro j hj
    exact ⟨fun q hq _ => hfront _ (by omega), hfront _ (by omega), hfront _ (by omega),
      hfront _ (by omega)⟩
  case terminator => exact hfront _ hend

theorem head?_recordAt_reflag (h : IsFile bytes blocks) (hi : i < announcedCount bytes) :
    (recordAt i (reflag flags bytes)).head? = some (flags i) := by
  have hsame := sameHeader_reflag h flags
  have hpos : 0 < announcedRecord (reflag flags bytes) := by
    rw [hsame.record_eq]
    exact h.record_pos
  rw [head?_recordAt hpos, hsame.recordPlace_eq]
  exact getElem?_setFlags_recordPlace h.record_pos hi (recordPlace_lt h hi)

/-- The cells of a record stay as they are. -/
theorem drop_recordAt_reflag (h : IsFile bytes blocks) (i : Nat) :
    (recordAt i (reflag flags bytes)).drop 1 = (recordAt i bytes).drop 1 := by
  have hsame := sameHeader_reflag h flags
  have hcells : ∀ other : List UInt8, (recordAt i other).drop 1 =
      slice (recordPlace other i + 1) (announcedRecord other - 1) other := by
    intro other
    rw [recordAt, slice, slice, List.drop_take, List.drop_drop]
  rw [hcells, hcells, hsame.recordPlace_eq, hsame.record_eq]
  refine slice_congr fun q hq => getElem?_setFlags_of_ne fun j _ hplace => ?_
  -- a flag among the cells would be the flag of this record, which stands in front of them
  rw [recordPlace, recordPlace, Nat.add_assoc, Nat.add_assoc, Nat.add_left_cancel_iff] at hplace
  obtain rfl : j = i := eq_of_place_eq (q := 0) (r := 1 + q) h.record_pos (by omega) hplace
  omega

/-! ### The rows that are left -/

/-- The values of a record, deleted or not. -/
def rowAt (fields : List Field) (bytes : List UInt8) (i : Nat) : List Value :=
  readCells fields ((recordAt i bytes).drop 1)

theorem tableIn_eq (bytes : List UInt8) (blocks : List (List UInt8)) :
    tableIn bytes blocks = ⟨blocks.map fieldOf, ((List.range (announcedCount bytes)).filter fun i =>
      (recordAt i bytes).head? != some deletedFlag).map (rowAt (blocks.map fieldOf) bytes)⟩ := by
  rw [tableIn, liveRecords_eq_map, List.map_map]
  rfl

theorem parse_reflag (h : IsFile bytes blocks) (flags : Nat → UInt8) (origin : String) :
    parse (reflag flags bytes) origin = .ok ⟨blocks.map fieldOf,
      ((List.range (announcedCount bytes)).filter fun i => flags i != deletedFlag).map
        (rowAt (blocks.map fieldOf) bytes)⟩ := by
  have hsame := sameHeader_reflag h flags
  obtain ⟨others, hother, hfields⟩ := hsame.exists_isFile h
  have hlive : ((List.range (announcedCount bytes)).filter fun i =>
      (recordAt i (reflag flags bytes)).head? != some deletedFlag) =
        (List.range (announcedCount bytes)).filter fun i => flags i != deletedFlag := by
    refine List.filter_congr fun i hi => ?_
    rw [head?_recordAt_reflag h (List.mem_range.mp hi)]
    rfl
  have hrows : rowAt (blocks.map fieldOf) (reflag flags bytes) =
      rowAt (blocks.map fieldOf) bytes := by
    funext i
    rw [rowAt, rowAt, drop_recordAt_reflag h]
  rw [parse, ofBytes_of_isFile hother, tableIn_eq, hfields, hsame.count_eq, hlive, hrows]

/-- What the flags of a table file decide. -/
structure DeletionLaw (bytes : List UInt8) (t : Table) : Prop where
  /-- As the file is, its rows are those of the records that are not flagged as deleted. -/
  asIs : t.rows = ((List.range (announcedCount bytes)).filter fun i =>
    bytes[recordPlace bytes i]? ≠ some deletedFlag).map (rowAt t.fields bytes)
  /-- Without a deletion there is a row for each record. -/
  every : ∀ flags : Nat → UInt8, (∀ i < announcedCount bytes, flags i ≠ deletedFlag) →
    ∀ origin, parse (reflag flags bytes) origin =
      .ok ⟨t.fields, (List.range (announcedCount bytes)).map (rowAt t.fields bytes)⟩
  /-- With some records deleted the rows of the others are left, in the same order. -/
  rest : ∀ (deleted : Finset Nat) (flags : Nat → UInt8),
    (∀ i < announcedCount bytes, flags i = deletedFlag ↔ i ∈ deleted) →
    ∀ origin, parse (reflag flags bytes) origin = .ok ⟨t.fields,
      ((List.range (announcedCount bytes)).filter fun i => i ∉ deleted).map (rowAt t.fields bytes)⟩

/-- **Deleted records are passed over and nothing else changes.**  Of a table file with any set of
its records deleted the same fields are read, and the rows of all other records as they are read
when no record is deleted. -/
theorem deletionLaw_of_parse {origin : String} (h : parse bytes origin = .ok t) :
    DeletionLaw bytes t := by
  obtain ⟨blocks, hfile, rfl⟩ := exists_isFile_of_parse h
  constructor
  case asIs =>
    rw [tableIn_eq]
    refine congrArg (List.map _) (List.filter_congr fun i _ => ?_)
    rw [head?_recordAt hfile.record_pos, Bool.eq_iff_iff, bne_iff_ne, decide_eq_true_eq]
  case every =>
    intro flags hflags other
    rw [parse_reflag hfile, List.filter_eq_self.mpr fun i hi => ?_]
    · rfl
    · exact bne_iff_ne.mpr (hflags i (List.mem_range.mp hi))
  case rest =>
    intro deleted flags hflags other
    have hkept : ((List.range (announcedCount bytes)).filter fun i => flags i != deletedFlag) =
        (List.range (announcedCount bytes)).filter fun i => i ∉ deleted := by
      refine List.filter_congr fun i hi => ?_
      rw [Bool.eq_iff_iff, bne_iff_ne, decide_eq_true_eq, ne_eq, hflags i (List.mem_range.mp hi)]
    rw [parse_reflag hfile, hkept]
    rfl

/-- The other one of the two letters is deleted. -/
theorem deletionLaw_letters :
    parse letters "a.dbf" = .ok ⟨[.character "A" 1], [[.text "y"]]⟩ ∧
      parse (reflag (fun i => if i = 1 then deletedFlag else 0) letters) "a.dbf" =
        .ok ⟨[.character "A" 1], [[.text "x"]]⟩ := by
  refine ⟨parse_letters, ?_⟩
  rw [(deletionLaw_of_parse parse_letters).rest {1} _ (by decide)]
  decide +kernel

end TableAccess.Dbase
