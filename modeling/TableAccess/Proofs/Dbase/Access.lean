import TableAccess.Dbase.Reader

/-!
# Reading with every access checked

The reader cuts pieces off lists, and a piece of a list that is too short is just shorter.  Here
the same file is read by accesses that have no result outside the bytes at hand: ranges between
two positions, the next bytes of a buffer, the first byte of a record.  Every one of them has a
result, on all bytes whatsoever, and together they read what the reader reads.
-/

namespace TableAccess.Dbase

open TableAccess.Number (ofLittleEndian)

/-! ### Accesses -/

/-- The bytes from a position up to another one. -/
def between? (start stop : Nat) (bytes : List UInt8) : Option (List UInt8) :=
  if start ≤ stop ∧ stop ≤ bytes.length then some ((bytes.drop start).take (stop - start))
  else none

/-- The next bytes of a buffer and what follows them. -/
def next? (size : Nat) (bytes : List UInt8) : Option (List UInt8 × List UInt8) :=
  if size ≤ bytes.length then some (bytes.take size, bytes.drop size) else none

/-- The next byte of a buffer and what follows it. -/
def nextByte? : List UInt8 → Option (UInt8 × List UInt8)
  | [] => none
  | b :: r => some (b, r)

theorem between?_eq_slice {start stop : Nat} {bytes : List UInt8} (hstart : start ≤ stop)
    (hstop : stop ≤ bytes.length) :
    between? start stop bytes = some (slice start (stop - start) bytes) :=
  if_pos ⟨hstart, hstop⟩

theorem next?_eq_some {size : Nat} {bytes : List UInt8} (h : size ≤ bytes.length) :
    next? size bytes = some (bytes.take size, bytes.drop size) := if_pos h

theorem nextByte?_eq_some {bytes : List UInt8} (h : 0 < bytes.length) :
    nextByte? bytes = some (byteAt 0 bytes, bytes.drop 1) := by
  cases bytes with
  | nil => exact absurd h (Nat.lt_irrefl 0)
  | cons b r => rfl

/-! ### The reader by accesses -/

/-- The field of the next description. -/
def nextField? (area : List UInt8) : Option (Field × List UInt8) := do
  let (name, r) ← next? nameRoom area
  let (code, r) ← nextByte? r
  let (_, r) ← next? 4 r
  let (length, r) ← nextByte? r
  let (decimals, r) ← nextByte? r
  let (_, r) ← next? 14 r
  let text ← between? 0 (name.findIdx (· == 0)) name
  some (⟨String.ofList (Text.trim (Text.decodeLossy text)), .ofCode code, length, decimals⟩, r)

/-- The fields up to the terminator, in at most so many turns. -/
def nextFields? : Nat → Nat → List UInt8 → Option (Except FormatProblem (List Field))
  | _, _, [] => some (.error .noTerminator)
  | 0, _, _ :: _ => none
  | turns + 1, position, b :: r =>
    if b = terminator then some (.ok [])
    else if (b :: r).length < blockLength then some (.error .truncatedField)
    else do
      let (f, rest) ← nextField? (b :: r)
      match f.problem? position with
      | some problem => some (.error problem)
      | none =>
        let fields ← nextFields? turns (position + 1) rest
        some (fields.map (f :: ·))

/-- The values of a record, the first cell at an offset. -/
def valuesAt? : Nat → List Field → List UInt8 → Option (List Value)
  | _, [], _ => some []
  | offset, f :: fields, record => do
    let raw ← between? offset (offset + f.width) record
    let values ← valuesAt? (offset + f.width) fields record
    some (f.decode raw :: values)

/-- The rows of records of one length that are not deleted. -/
def nextRows? (fields : List Field) (length : Nat) :
    Nat → List UInt8 → Option (List (List Value))
  | 0, _ => some []
  | count + 1, data => do
    let (record, data) ← next? length data
    let (flag, _) ← nextByte? record
    let rows ← nextRows? fields length count data
    if flag = deletedFlag then some rows
    else do
      let values ← valuesAt? 1 fields record
      some (values :: rows)

/-- The table of fields and of so many records in the data behind the header. -/
def tableChecked? (fields : List Field) (length count : Nat) (data : List UInt8) :
    Option (Except FormatProblem Table) :=
  if data.length < count * length then some (.error (.missingRecords data.length count length))
  else do
    let held ← between? 0 (count * length) data
    let rows ← nextRows? fields length (held.length / length) held
    some (.ok ⟨fields, rows⟩)

/-- The table in the bytes of a file, if every access has a result. -/
def ofBytesChecked? (bytes : List UInt8) : Option (Except FormatProblem Table) :=
  if bytes.length < blockLength then some (.error (.shortHeader bytes.length))
  else do
    let header ← between? 0 blockLength bytes
    let (_, header) ← next? 4 header
    let (count, header) ← next? 4 header
    let (headerLength, header) ← next? 2 header
    let (length, _) ← next? 2 header
    let count := ofLittleEndian count
    let headerLength := ofLittleEndian headerLength
    let length := ofLittleEndian length
    if headerLength ≤ blockLength ∨ bytes.length < headerLength then
      some (.error (.headerLength headerLength))
    else do
      let area ← between? blockLength headerLength bytes
      let fields ← nextFields? area.length 1 area
      match fields with
      | .error problem => some (.error problem)
      | .ok [] => some (.error .noFields)
      | .ok (f :: r) =>
        if length ≠ recordLength (f :: r) then
          some (.error (.recordLength length (recordLength (f :: r))))
        else do
          let data ← between? headerLength bytes.length bytes
          tableChecked? (f :: r) length count data

/-! ### Every access has a result -/

theorem byteAt_drop (i n : Nat) (bytes : List UInt8) :
    byteAt i (bytes.drop n) = byteAt (n + i) bytes := by
  simp [byteAt, List.getD_eq_getElem?_getD, List.getElem?_drop]

theorem byteAt_take {i n : Nat} (h : i < n) (bytes : List UInt8) :
    byteAt i (bytes.take n) = byteAt i bytes := by
  simp [byteAt, List.getD_eq_getElem?_getD, List.getElem?_take_of_lt h]

/-- The name up to the first zero byte, which is looked for within the name. -/
theorem between?_findIdx (name : List UInt8) :
    between? 0 (name.findIdx (· == 0)) name = some (name.takeWhile (· != 0)) := by
  have hzero : (fun b : UInt8 => !(b != 0)) = fun b => b == 0 := by
    funext b
    rw [bne, Bool.not_not]
  rw [between?_eq_slice (Nat.zero_le _) List.findIdx_le_length, slice, List.drop_zero, Nat.sub_zero,
    List.takeWhile_eq_take_findIdx_not, hzero]

/-- A description of full size is read without an access behind its end. -/
theorem nextField?_eq_some {area : List UInt8} (h : blockLength ≤ area.length) :
    nextField? area = some (fieldOf (area.take blockLength), area.drop blockLength) := by
  rw [blockLength] at h
  have hname : next? nameRoom area = some (area.take 11, area.drop 11) :=
    next?_eq_some (show 11 ≤ area.length by omega)
  have hcode : nextByte? (area.drop 11) = some (byteAt 11 area, area.drop 12) := by
    rw [nextByte?_eq_some (by rw [List.length_drop]; omega), byteAt_drop, List.drop_drop]
  have hreserved : next? 4 (area.drop 12) = some ((area.drop 12).take 4, area.drop 16) := by
    rw [next?_eq_some (by rw [List.length_drop]; omega), List.drop_drop]
  have hlength : nextByte? (area.drop 16) = some (byteAt 16 area, area.drop 17) := by
    rw [nextByte?_eq_some (by rw [List.length_drop]; omega), byteAt_drop, List.drop_drop]
  have hdecimals : nextByte? (area.drop 17) = some (byteAt 17 area, area.drop 18) := by
    rw [nextByte?_eq_some (by rw [List.length_drop]; omega), byteAt_drop, List.drop_drop]
  have hrest : next? 14 (area.drop 18) = some ((area.drop 18).take 14, area.drop 32) := by
    rw [next?_eq_some (by rw [List.length_drop]; omega), List.drop_drop]
  have hfield : fieldOf (area.take blockLength) =
      ⟨String.ofList (Text.trim (Text.decodeLossy ((area.take 11).takeWhile (· != 0)))),
        .ofCode (byteAt 11 area), byteAt 16 area, byteAt 17 area⟩ := by
    rw [fieldOf, nameOf, blockLength, nameRoom, List.take_take, byteAt_take (by decide),
      byteAt_take (by decide), byteAt_take (by decide)]
    rfl
  rw [hfield]
  simp [nextField?, hname, hcode, hreserved, hlength, hdecimals, hrest, between?_findIdx,
    blockLength]

/-- With a turn for each byte the loop over the descriptions ends. -/
theorem nextFields?_eq_some {turns : Nat} {area : List UInt8} (h : area.length ≤ turns)
    (position : Nat) :
    nextFields? turns position area =
      some (readFields position (area.length / blockLength) area) := by
  induction turns generalizing area position with
  | zero =>
    cases area with
    | nil => rfl
    | cons b r => exact absurd h (by simp)
  | succ turns ih =>
    cases area with
    | nil => rfl
    | cons b r =>
      rw [nextFields?]
      by_cases hend : b = terminator
      · rw [if_pos hend]
        cases hroom : (b :: r).length / blockLength with
        | zero => rw [readFields, if_pos hend]
        | succ room => rw [readFields, if_pos hend]
      · rw [if_neg hend]
        by_cases hshort : (b :: r).length < blockLength
        · rw [if_pos hshort, Nat.div_eq_of_lt hshort, readFields, if_neg hend]
        · have hsize : blockLength ≤ (b :: r).length := Nat.le_of_not_lt hshort
          have hroom : (b :: r).length / blockLength =
              ((b :: r).drop blockLength).length / blockLength + 1 := by
            rw [List.length_drop, blockLength] at *
            omega
          have hrest : ((b :: r).drop blockLength).length ≤ turns := by
            rw [List.length_drop, blockLength]
            omega
          rw [if_neg hshort, nextField?_eq_some hsize, hroom, readFields, if_neg hend]
          simp only [Option.bind_eq_bind, Option.bind_some, ih hrest]
          cases (fieldOf ((b :: r).take blockLength)).problem? position with
          | some problem => rfl
          | none => rfl

/-- The cells of a record lie within it. -/
theorem valuesAt?_eq_some {fields : List Field} {offset : Nat} {record : List UInt8}
    (h : offset + cellsWidth fields ≤ record.length) :
    valuesAt? offset fields record = some (readCells fields (record.drop offset)) := by
  induction fields generalizing offset with
  | nil => rfl
  | cons f fields ih =>
    rw [cellsWidth] at h
    have hraw : between? offset (offset + f.width) record =
        some ((record.drop offset).take f.width) := by
      rw [between?_eq_slice (Nat.le_add_right _ _) (by omega), slice, Nat.add_sub_cancel_left]
    have hrest : valuesAt? (offset + f.width) fields record =
        some (readCells fields (record.drop (offset + f.width))) := ih (by omega)
    simp [valuesAt?, hraw, hrest, readCells, List.drop_drop]

/-- The records lie within the data. -/
theorem nextRows?_eq_some {fields : List Field} {count : Nat} {data : List UInt8}
    (h : count * recordLength fields ≤ data.length) :
    nextRows? fields (recordLength fields) count data =
      some (readRecords fields (cellsWidth fields) count data) := by
  induction count generalizing data with
  | zero => rfl
  | succ count ih =>
    have hsize : recordLength fields ≤ data.length := by
      rw [Nat.succ_mul] at h
      omega
    cases data with
    | nil => simp [recordLength] at hsize
    | cons flag r =>
      have hrecord : (flag :: r).take (recordLength fields) = flag :: r.take (cellsWidth fields) := by
        rw [recordLength, Nat.add_comm, List.take_succ_cons]
      have hdrop : (flag :: r).drop (recordLength fields) = r.drop (cellsWidth fields) := by
        rw [recordLength, Nat.add_comm, List.drop_succ_cons]
      have hrest : nextRows? fields (recordLength fields) count (r.drop (cellsWidth fields)) =
          some (readRecords fields (cellsWidth fields) count (r.drop (cellsWidth fields))) := by
        refine ih ?_
        rw [← hdrop, List.length_drop]
        rw [Nat.succ_mul] at h
        omega
      have hvalues : valuesAt? 1 fields (flag :: r.take (cellsWidth fields)) =
          some (readCells fields (r.take (cellsWidth fields))) := by
        refine valuesAt?_eq_some ?_
        rw [List.length_cons, List.length_take]
        rw [recordLength, List.length_cons] at hsize
        omega
      rw [nextRows?, next?_eq_some hsize, hrecord, hdrop]
      simp only [nextByte?, hrest, hvalues, Option.bind_eq_bind, Option.bind_some, readRecords]
      split
      · rfl
      · rfl

/-- Bytes behind the last record do not matter. -/
theorem readRecords_take (fields : List Field) (size count : Nat) (data : List UInt8) :
    readRecords fields size count (data.take (count * (size + 1))) =
      readRecords fields size count data := by
  induction count generalizing data with
  | zero => rfl
  | succ count ih =>
    cases data with
    | nil => rw [List.take_nil]
    | cons flag r =>
      have hsize : (count + 1) * (size + 1) = count * (size + 1) + size + 1 := by
        rw [Nat.succ_mul, Nat.add_assoc]
      have hrecord : (r.take (count * (size + 1) + size)).take size = r.take size := by
        rw [List.take_take, Nat.min_eq_left (Nat.le_add_left _ _)]
      have hrest : (r.take (count * (size + 1) + size)).drop size =
          (r.drop size).take (count * (size + 1)) := by
        rw [List.drop_take, Nat.add_sub_cancel]
      rw [hsize, List.take_succ_cons, readRecords, readRecords, hrecord, hrest, ih]

theorem tableChecked?_eq (fields : List Field) (count : Nat) (data : List UInt8) :
    tableChecked? fields (recordLength fields) count data =
      some (if data.length < count * recordLength fields then
        .error (.missingRecords data.length count (recordLength fields))
      else .ok ⟨fields, readRecords fields (recordLength fields - 1) count data⟩) := by
  rw [tableChecked?]
  by_cases hmissing : data.length < count * recordLength fields
  · rw [if_pos hmissing, if_pos hmissing]
  · have hcount : count * recordLength fields ≤ data.length := Nat.le_of_not_lt hmissing
    have hheld : between? 0 (count * recordLength fields) data =
        some (data.take (count * recordLength fields)) := by
      rw [between?_eq_slice (Nat.zero_le _) hcount]
      rfl
    have htaken : (data.take (count * recordLength fields)).length =
        count * recordLength fields := by rw [List.length_take, Nat.min_eq_left hcount]
    have hturns : count * recordLength fields / recordLength fields = count :=
      Nat.mul_div_cancel count (by rw [recordLength]; omega)
    have hcells : recordLength fields = cellsWidth fields + 1 := Nat.add_comm 1 _
    rw [if_neg hmissing, if_neg hmissing, hheld]
    simp only [Option.bind_eq_bind, Option.bind_some]
    rw [htaken, hturns, nextRows?_eq_some (Nat.le_of_eq htaken.symm), Option.bind_some, hcells,
      readRecords_take, Nat.add_sub_cancel]

theorem slice_take {start size n : Nat} (h : start + size ≤ n) (bytes : List UInt8) :
    slice start size (bytes.take n) = slice start size bytes := by
  rw [slice, slice, List.drop_take, List.take_take, Nat.min_eq_left (by omega)]

/-- The next bytes of the header are those at its next place. -/
theorem next?_header {start size : Nat} {bytes : List UInt8} (hlong : blockLength ≤ bytes.length)
    (h : start + size ≤ blockLength) :
    next? size ((bytes.take blockLength).drop start) =
      some (slice start size bytes, (bytes.take blockLength).drop (start + size)) := by
  have hsize : size ≤ ((bytes.take blockLength).drop start).length := by
    rw [List.length_drop, List.length_take]
    omega
  rw [next?_eq_some hsize, List.drop_drop, ← slice_take h]
  rfl

/-- **No access lies outside the bytes at hand.**  Whatever the bytes are, the reading by checked
accesses ends with a result, and it is that of the reader. -/
theorem ofBytesChecked?_eq (bytes : List UInt8) : ofBytesChecked? bytes = some (ofBytes bytes) := by
  rw [ofBytesChecked?, ofBytes]
  by_cases hsize : bytes.length < blockLength
  · rw [if_pos hsize, if_pos hsize]
  · have hlong : blockLength ≤ bytes.length := Nat.le_of_not_lt hsize
    have hheader : between? 0 blockLength bytes = some ((bytes.take blockLength).drop 0) := by
      rw [between?_eq_slice (Nat.zero_le _) hlong]
      rfl
    rw [if_neg hsize, if_neg hsize, hheader]
    simp only [next?_header hlong (by decide : 0 + 4 ≤ blockLength),
      next?_header hlong (by decide : 4 + 4 ≤ blockLength),
      next?_header hlong (by decide : 8 + 2 ≤ blockLength),
      next?_header hlong (by decide : 10 + 2 ≤ blockLength),
      Option.bind_eq_bind, Option.bind_some, Nat.zero_add]
    generalize ofLittleEndian (slice 4 4 bytes) = count
    generalize ofLittleEndian (slice 8 2 bytes) = headerLength
    generalize ofLittleEndian (slice 10 2 bytes) = length
    by_cases hinvalid : headerLength ≤ blockLength ∨ bytes.length < headerLength
    · rw [if_pos hinvalid, if_pos hinvalid]
    · obtain ⟨hhead, hheld⟩ := not_or.mp hinvalid
      have harea : between? blockLength headerLength bytes =
          some (slice blockLength (headerLength - blockLength) bytes) :=
        between?_eq_slice (Nat.le_of_not_le hhead) (Nat.le_of_not_lt hheld)
      have hdata : between? headerLength bytes.length bytes = some (bytes.drop headerLength) := by
        rw [between?_eq_slice (Nat.le_of_not_lt hheld) (Nat.le_refl _), slice,
          List.take_of_length_le (Nat.le_of_eq List.length_drop)]
      rw [if_neg hinvalid, if_neg hinvalid, harea, Option.bind_some,
        nextFields?_eq_some (Nat.le_refl _), Option.bind_some, ← readArea]
      cases hfields : readArea (slice blockLength (headerLength - blockLength) bytes) with
      | error problem => rfl
      | ok fields =>
        cases fields with
        | nil => rfl
        | cons f r =>
          simp only [hdata, Option.bind_some]
          by_cases hlength : length ≠ recordLength (f :: r)
          · rw [if_pos hlength, if_pos hlength]
          · rw [if_neg hlength, if_neg hlength]
            rw [ne_eq, Decidable.not_not] at hlength
            rw [hlength, tableChecked?_eq]

end TableAccess.Dbase
