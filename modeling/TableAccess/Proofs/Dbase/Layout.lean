import Mathlib.Data.List.TakeWhile
import TableAccess.Dbase.Reader
import TableAccess.Dbase.Writer
import TableAccess.Proofs.Dbase.Cell

/-!
# Descriptions and records in place

The writer joins pieces of fixed sizes, and the reader cuts the same sizes off again.  This
module follows the reader through the descriptions of the fields and through the records, one
piece at a time, so that only the sizes of the pieces matter and never their places in the file.
-/

namespace TableAccess.Dbase

open TableAccess.Number
open TableAccess.Text (isBlank FrontSharp BackSharp)

variable {f : Field} {fields : List Field} {blocks : List (List UInt8)} {index : Nat}

/-- A field that its description determines: the name has no zero character and no blanks
around it, the width suits the kind, and the code stands for the kind. -/
structure Field.Regular (f : Field) : Prop where
  noZero : '\x00' ∉ f.name.toList
  front : FrontSharp isBlank f.name.toList
  back : BackSharp isBlank f.name.toList
  width : f.HasWidth
  kind : FieldKind.ofCode f.kind.code = f.kind

theorem width_pos (h : f.HasWidth) : 0 < f.width := by
  unfold Field.HasWidth at h
  cases hk : f.kind <;> rw [hk] at h <;> omega

/-! ### Places in a list of bytes -/

theorem slice_part {start size : Nat} {before part after : List α} (hstart : before.length = start)
    (hsize : part.length = size) : slice start size (before ++ (part ++ after)) = part := by
  rw [slice, ← hstart, List.drop_left, ← hsize, List.take_left]

theorem byteAt_append (before : List UInt8) (i : Nat) (rest : List UInt8) :
    byteAt (before.length + i) (before ++ rest) = byteAt i rest := by
  rw [byteAt, byteAt, List.getD_eq_getElem?_getD,
    List.getElem?_append_right (Nat.le_add_right _ _), Nat.add_sub_cancel_left,
    ← List.getD_eq_getElem?_getD]

/-! ### The description of a field -/

theorem isStorableName_iff {name : String} :
    isStorableName name = true ↔
      name.isEmpty = false ∧ (Text.encode name.toList).length < nameRoom := by
  rw [isStorableName, Bool.and_eq_true, Bool.not_eq_true', decide_eq_true_eq, Text.length_encode]

/-- The name with the zero bytes behind it. -/
def paddedName (f : Field) : List UInt8 :=
  Text.encode f.name.toList ++ zeros (nameRoom - (Text.encode f.name.toList).length)

theorem block_eq (f : Field) :
    f.block = paddedName f ++
      (f.kind.code :: 0 :: 0 :: 0 :: 0 :: f.length :: f.decimals :: zeros 14) := rfl

theorem length_paddedName (h : isStorableName f.name = true) : (paddedName f).length = 11 := by
  have hroom : (Text.encode f.name.toList).length < 11 := (isStorableName_iff.mp h).2
  rw [paddedName, List.length_append, zeros, List.length_replicate, nameRoom]
  omega

theorem length_block (h : isStorableName f.name = true) : f.block.length = blockLength := by
  rw [block_eq, List.length_append, length_paddedName h]
  rfl

theorem takeWhile_paddedName (h : isStorableName f.name = true) :
    (paddedName f).takeWhile (· != 0) = Text.encode (f.name.toList.takeWhile (· != '\x00')) := by
  have hroom : (Text.encode f.name.toList).length < 11 := (isStorableName_iff.mp h).2
  obtain ⟨k, hk⟩ : ∃ k, nameRoom - (Text.encode f.name.toList).length = k + 1 :=
    Nat.exists_eq_add_one.mpr (Nat.sub_pos_of_lt hroom)
  rw [paddedName, hk, zeros, List.replicate_succ, Text.takeWhile_encode]

/-- The name that is read where a name was written: what stands before its first zero character,
without the blanks around it. -/
def shownName (name : String) : String :=
  String.ofList (Text.trim (name.toList.takeWhile (· != '\x00')))

/-- The field that is read where a field was described. -/
def Field.described (f : Field) : Field :=
  ⟨shownName f.name, .ofCode f.kind.code, f.length, f.decimals⟩

theorem nameOf_block_eq (h : isStorableName f.name = true) : nameOf f.block = shownName f.name := by
  have htake : f.block.take nameRoom = paddedName f := by
    rw [block_eq, nameRoom, ← length_paddedName h, List.take_left]
  rw [nameOf, htake, takeWhile_paddedName h, Text.decodeLossy_encode, shownName]

/-- A description gives what is read where the field was described. -/
theorem fieldOf_block_eq (h : isStorableName f.name = true) : fieldOf f.block = f.described := by
  have hat : ∀ i, byteAt (11 + i) f.block =
      byteAt i (f.kind.code :: 0 :: 0 :: 0 :: 0 :: f.length :: f.decimals :: zeros 14) := by
    intro i
    rw [block_eq, ← length_paddedName h, byteAt_append]
  have hcode : byteAt 11 f.block = f.kind.code := hat 0
  have hlength : byteAt 16 f.block = f.length := hat 5
  have hdecimals : byteAt 17 f.block = f.decimals := hat 6
  rw [fieldOf, nameOf_block_eq h, hcode, hlength, hdecimals, Field.described]

/-- A name is read as it was written exactly if there is no zero character in it and no blank
around it. -/
theorem shownName_eq_self_iff {name : String} :
    shownName name = name ↔
      '\x00' ∉ name.toList ∧ FrontSharp isBlank name.toList ∧ BackSharp isBlank name.toList := by
  have hall : (∀ c ∈ name.toList, (c != '\x00') = true) ↔ '\x00' ∉ name.toList := by
    simp only [bne_iff_ne, ne_eq]
    exact ⟨fun h h0 => h _ h0 rfl, fun h c hc h0 => h (h0 ▸ hc)⟩
  have htext : shownName name = name ↔
      Text.trim (name.toList.takeWhile (· != '\x00')) = name.toList := by
    rw [shownName, ← String.toList_inj, String.toList_ofList]
  rw [htext, ← hall, ← Text.dropEnds_eq_self_iff]
  constructor
  · intro h
    have hlong : name.toList.length ≤ (name.toList.takeWhile (· != '\x00')).length := by
      have hle := Text.length_dropEnds_le isBlank (name.toList.takeWhile (· != '\x00'))
      rwa [← Text.trim, h] at hle
    have hwhole : name.toList.takeWhile (· != '\x00') = name.toList :=
      (List.takeWhile_prefix _).eq_of_length_le hlong
    rw [hwhole] at h
    exact ⟨List.takeWhile_eq_self_iff.mp hwhole, h⟩
  · rintro ⟨hnone, htrim⟩
    rw [List.takeWhile_eq_self_iff.mpr hnone]
    exact htrim

theorem Field.Regular.shownName_eq (hf : f.Regular) : shownName f.name = f.name :=
  shownName_eq_self_iff.mpr ⟨hf.noZero, hf.front, hf.back⟩

theorem nameOf_block (h : isStorableName f.name = true) (hf : f.Regular) :
    nameOf f.block = f.name := by
  rw [nameOf_block_eq h, hf.shownName_eq]

/-- A description gives back the field. -/
theorem fieldOf_block (h : isStorableName f.name = true) (hf : f.Regular) :
    fieldOf f.block = f := by
  rw [fieldOf_block_eq h, Field.described, hf.shownName_eq, hf.kind]

/-- A description starts like the terminator exactly if the name starts with a carriage return. -/
theorem exists_block_eq_cons (h : isStorableName f.name = true) :
    ∃ b r, f.block = b :: r ∧ (b = terminator ↔ f.name.toList.head? = some '\r') := by
  have hne : f.name.toList ≠ [] := by
    intro hnil
    have hempty : f.name.isEmpty = false := (isStorableName_iff.mp h).1
    rw [String.isEmpty_eq_false_iff] at hempty
    exact hempty (String.toList_eq_nil_iff.mp hnil)
  obtain ⟨c, s, hc⟩ := List.exists_cons_of_ne_nil hne
  have hchar : String.utf8EncodeChar c ≠ [] := by
    intro hnil
    have hsize := c.utf8Size_pos
    rw [← String.length_utf8EncodeChar, hnil] at hsize
    exact absurd hsize (Nat.lt_irrefl 0)
  obtain ⟨b, r, hb⟩ := List.exists_cons_of_ne_nil hchar
  have hblock : ∃ r', f.block = b :: r' := by
    rw [block_eq, paddedName, hc, Text.encode_cons, hb]
    exact ⟨_, rfl⟩
  obtain ⟨r', hr'⟩ := hblock
  refine ⟨b, r', hr', ?_⟩
  rw [hc, List.head?_cons, Option.some.injEq]
  constructor
  · -- a byte as small as the terminator is the whole first character
    rintro rfl
    have hn : c.toNat = 13 :=
      Text.toNat_eq_of_mem_encodeChar (by rw [hb]; exact List.mem_cons_self) (by decide)
    exact Char.toNat_inj.mp hn
  · rintro rfl
    have hreturn : String.utf8EncodeChar '\r' = [terminator] := by decide
    rw [hreturn] at hb
    exact (List.cons.inj hb).1.symm

/-- A block of 32 bytes that describes a field: it does not start like the terminator, and its
name and its length are not empty. -/
structure IsBlock (block : List UInt8) : Prop where
  size : block.length = 32
  start : block.head? ≠ some terminator
  name : nameOf block ≠ ""
  length : byteAt 16 block ≠ 0

theorem isEmpty_eq_false_of_ne {s : String} (h : s ≠ "") : s.isEmpty = false := by
  rwa [String.isEmpty_eq_false_iff]

/-- A description without a problem has a name and a length. -/
theorem problem?_fieldOf_eq_none_iff {block : List UInt8} {position : Nat} :
    (fieldOf block).problem? position = none ↔ nameOf block ≠ "" ∧ byteAt 16 block ≠ 0 := by
  have hname : (fieldOf block).name = nameOf block := rfl
  have hlength : (fieldOf block).length = byteAt 16 block := rfl
  rw [Field.problem?, hname, hlength]
  by_cases h : nameOf block = ""
  · simp [h]
  · rw [isEmpty_eq_false_of_ne h]
    by_cases hzero : byteAt 16 block = 0
    · simp [hzero]
    · simp [h, hzero]

/-- The description of a field is a block. -/
theorem isBlock_block (h : isStorableName f.name = true) (hf : f.Regular) : IsBlock f.block := by
  refine ⟨length_block h, ?_, ?_, ?_⟩
  · intro hstart
    -- no name starts with a blank
    obtain ⟨b, r, hb, hterminator⟩ := exists_block_eq_cons h
    rw [hb] at hstart
    have hblank : isBlank '\r' = false := hf.front '\r' (hterminator.mp (Option.some.inj hstart))
    exact absurd hblank (by decide)
  · intro hname
    have hempty : f.name.isEmpty = false := (isStorableName_iff.mp h).1
    rw [← nameOf_block h hf, hname] at hempty
    cases hempty
  · intro hzero
    have hlength : byteAt 16 f.block = f.length := congrArg Field.length (fieldOf_block h hf)
    have hpos := width_pos hf.width
    rw [Field.width, ← hlength, hzero] at hpos
    exact absurd hpos (Nat.lt_irrefl 0)

/-! ### All descriptions -/

/-- A block of the right size is a field, or the end if it starts like the terminator. -/
theorem readFields_block {block : List UInt8} (hsize : block.length = blockLength) (position : Nat)
    (tail : List UInt8) :
    readFields position ((block ++ tail).length / blockLength) (block ++ tail) =
      if block.head? = some terminator then .ok []
      else match (fieldOf block).problem? position with
        | some problem => .error problem
        | none => (readFields (position + 1) (tail.length / blockLength) tail).map
            (fieldOf block :: ·) := by
  have hroom : (block ++ tail).length / blockLength = tail.length / blockLength + 1 := by
    rw [List.length_append, hsize, blockLength]
    omega
  obtain ⟨b, r, hb⟩ : ∃ b r, block = b :: r := by
    refine List.exists_cons_of_ne_nil ?_
    rintro rfl
    cases hsize
  have hcons : block ++ tail = b :: (r ++ tail) := by rw [hb, List.cons_append]
  have htake : (block ++ tail).take blockLength = block := by rw [← hsize, List.take_left]
  have hdrop : (block ++ tail).drop blockLength = tail := by rw [← hsize, List.drop_left]
  have hhead : block.head? = some terminator ↔ b = terminator := by
    rw [hb, List.head?_cons, Option.some.injEq]
  rw [hroom, hcons, readFields, ← hcons, htake, hdrop]
  by_cases hend : b = terminator
  · rw [if_pos hend, if_pos (hhead.mpr hend)]
  · exact (if_neg hend).trans (if_neg fun h => hend (hhead.mp h)).symm

theorem readFields_terminator (position room : Nat) (rest : List UInt8) :
    readFields position room (terminator :: rest) = .ok [] := by
  cases room with
  | zero => rw [readFields, if_pos rfl]
  | succ room => rw [readFields, if_pos rfl]

/-- Blocks in front of a terminator are read as their fields. -/
theorem readFields_of_isBlock (h : ∀ block ∈ blocks, IsBlock block) (position : Nat)
    (rest : List UInt8) :
    readFields position ((blocks.flatten ++ terminator :: rest).length / blockLength)
      (blocks.flatten ++ terminator :: rest) = .ok (blocks.map fieldOf) := by
  induction blocks generalizing position with
  | nil => exact readFields_terminator position _ rest
  | cons block blocks ih =>
    obtain ⟨hblock, hblocks⟩ := List.forall_mem_cons.mp h
    have hproblem : (fieldOf block).problem? position = none :=
      problem?_fieldOf_eq_none_iff.mpr ⟨hblock.name, hblock.length⟩
    rw [List.flatten_cons, List.append_assoc, readFields_block hblock.size, if_neg hblock.start,
      hproblem, ih hblocks (position + 1)]
    rfl

theorem length_blocks (hn : ∀ f ∈ fields, isStorableName f.name = true) :
    (fields.flatMap Field.block).length = blockLength * fields.length := by
  induction fields with
  | nil => rfl
  | cons f fields ih =>
    have hrest := ih fun g hg => hn g (List.mem_cons_of_mem f hg)
    rw [List.flatMap_cons, List.length_append, length_block (hn f List.mem_cons_self), hrest,
      List.length_cons, Nat.mul_succ, Nat.add_comm]

theorem readArea_blocks (hn : ∀ f ∈ fields, isStorableName f.name = true)
    (hf : ∀ f ∈ fields, f.Regular) :
    readArea (fields.flatMap Field.block ++ [terminator]) = .ok fields := by
  have hblocks : ∀ block ∈ fields.map Field.block, IsBlock block := by
    intro block hblock
    obtain ⟨f, hmem, rfl⟩ := List.mem_map.mp hblock
    exact isBlock_block (hn f hmem) (hf f hmem)
  have hfields : (fields.map Field.block).map fieldOf = fields := by
    have hback : ∀ f ∈ fields, (fieldOf ∘ Field.block) f = id f :=
      fun f hmem => fieldOf_block (hn f hmem) (hf f hmem)
    rw [List.map_map, List.map_congr_left hback, List.map_id]
  rw [List.flatMap_def, readArea, readFields_of_isBlock hblocks, hfields]

/-! ### Cells and records -/

/-- What the reader gives for a row. -/
def canonicalRow (fields : List Field) (row : List Value) : List Value :=
  List.zipWith Field.canonical fields row

/-- Every value of a row has a text from which it can be read again. -/
def HoldsRow (fields : List Field) (row : List Value) : Prop :=
  ∀ cell ∈ fields.zip row, cell.1.Holds cell.2

theorem writeCells_cons {v : Value} {values : List Value} {bytes : List UInt8}
    (h : writeCells index (f :: fields) (v :: values) = .ok bytes) :
    ∃ cell rest, f.encode v = .ok cell ∧ writeCells index fields values = .ok rest ∧
      bytes = cell ++ rest := by
  rw [writeCells] at h
  split at h
  case h_1 => cases h
  case h_2 cell hcell =>
    obtain ⟨rest, hrest, rfl⟩ := map_eq_ok_iff.mp h
    exact ⟨cell, rest, hcell, hrest, rfl⟩

/-- The cells of a row fill their widths, and each is read where it was written. -/
theorem readCells_writeCells {row : List Value} {bytes : List UInt8}
    (h : writeCells index fields row = .ok bytes) (hlength : row.length = fields.length)
    (hw : ∀ f ∈ fields, f.HasWidth) (hv : HoldsRow fields row) :
    bytes.length = cellsWidth fields ∧ readCells fields bytes = canonicalRow fields row := by
  induction fields generalizing row bytes with
  | nil =>
    cases h
    exact ⟨rfl, rfl⟩
  | cons f fields ih =>
    cases row with
    | nil => cases hlength
    | cons v values =>
      obtain ⟨cell, rest, hcell, hrest, rfl⟩ := writeCells_cons h
      have hback : f.ReadsBack v cell :=
        readsBack_of_encode (hw f List.mem_cons_self) (hv (f, v) List.mem_cons_self) hcell
      have htail := ih hrest (Nat.succ.inj hlength)
        (fun g hg => hw g (List.mem_cons_of_mem f hg))
        (fun c hc => hv c (List.mem_cons_of_mem (f, v) hc))
      constructor
      · rw [List.length_append, hback.length, htail.1, cellsWidth]
      · rw [readCells, ← hback.length, List.take_left, List.drop_left, hback.value, htail.2]
        rfl

theorem writeRecord_eq {row : List Value} {record : List UInt8}
    (h : writeRecord fields index row = .ok record) :
    row.length = fields.length ∧
      ∃ cells, writeCells index fields row = .ok cells ∧ record = liveFlag :: cells := by
  rw [writeRecord] at h
  split at h
  case isTrue => cases h
  case isFalse hlength =>
    obtain ⟨cells, hcells, rfl⟩ := map_eq_ok_iff.mp h
    exact ⟨Decidable.not_not.mp hlength, cells, hcells, rfl⟩

theorem writeRecords_cons {row : List Value} {rows : List (List Value)} {bytes : List UInt8}
    (h : writeRecords fields index (row :: rows) = .ok bytes) :
    ∃ record rest, writeRecord fields index row = .ok record ∧
      writeRecords fields (index + 1) rows = .ok rest ∧ bytes = record ++ rest := by
  rw [writeRecords] at h
  split at h
  case h_1 => cases h
  case h_2 record hrecord =>
    obtain ⟨rest, hrest, rfl⟩ := map_eq_ok_iff.mp h
    exact ⟨record, rest, hrecord, hrest, rfl⟩

/-- The records have the announced size together, and each is read where it was written,
whatever stands behind the last one. -/
theorem readRecords_writeRecords {rows : List (List Value)} {bytes : List UInt8}
    (h : writeRecords fields index rows = .ok bytes) (hw : ∀ f ∈ fields, f.HasWidth)
    (hv : ∀ row ∈ rows, HoldsRow fields row) (rest : List UInt8) :
    bytes.length = rows.length * recordLength fields ∧
      readRecords fields (cellsWidth fields) rows.length (bytes ++ rest) =
        rows.map (canonicalRow fields) := by
  induction rows generalizing index bytes with
  | nil =>
    cases h
    refine ⟨?_, rfl⟩
    rw [List.length_nil, List.length_nil, Nat.zero_mul]
  | cons row rows ih =>
    obtain ⟨record, records, hrecord, hrecords, rfl⟩ := writeRecords_cons h
    obtain ⟨hlength, cells, hcells, rfl⟩ := writeRecord_eq hrecord
    obtain ⟨hsize, hread⟩ := readCells_writeCells hcells hlength hw (hv row List.mem_cons_self)
    obtain ⟨hsizes, hreads⟩ := ih hrecords fun r hr => hv r (List.mem_cons_of_mem row hr)
    constructor
    · rw [List.length_append, List.length_cons, hsize, hsizes, List.length_cons, Nat.succ_mul,
        recordLength]
      omega
    · rw [List.append_assoc, List.cons_append, List.length_cons, readRecords,
        if_neg (by decide), ← hsize, List.take_left, List.drop_left, hread, hsize, hreads,
        List.map_cons]

end TableAccess.Dbase
