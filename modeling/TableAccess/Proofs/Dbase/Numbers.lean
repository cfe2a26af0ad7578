import TableAccess.Proofs.Dbase.Sizes
import TableAccess.Proofs.Number.Whole

/-!
# Whole numbers in the cells of a table

A field of digits without decimals takes the digits of a whole number as they are, or refuses the
number if they do not fit.  A field with decimals takes them by way of floating point: what is
stored is the nearest number of 53 bits, and a fraction of zeros.  So no number is changed that has
at most 53 bits, and every other one is, without notice.
-/

namespace TableAccess.Dbase

open TableAccess.Number
open TableAccess.Text (isPadding)

variable {f : Field} {i : Int64} {raw record bytes : List UInt8} {c : Char} {places : Nat}

/-! ### The digits of a cell -/

/-- The whole number that is stored for one. -/
def Field.storedInt (f : Field) (i : Int64) : Int :=
  if f.decimals.toNat = 0 then i.toInt else floatInt i.toInt

/-- The digits that are stored for a whole number. -/
def Field.storedText (f : Field) (i : Int64) : List Char :=
  wholeText f.decimals.toNat (f.storedInt i)

theorem natAbs_toInt_le (i : Int64) : i.toInt.natAbs ≤ 2 ^ 63 := by
  have hlow := i.le_toInt
  have hhigh := i.toInt_lt
  omega

theorem digitsOf?_integer (f : Field) (i : Int64) :
    digitsOf? f.decimals.toNat (.integer i) = some (f.storedText i) := by
  rw [digitsOf?, Field.storedText, Field.storedInt]
  by_cases hd : f.decimals.toNat = 0
  · rw [if_pos hd, if_pos hd, wholeText, zeroFraction, if_pos hd, List.append_nil]
  · rw [if_neg hd, if_neg hd, fixedText_ofInt (natAbs_toInt_le i)]

/-- A whole number is refused if its digits do not fit, and otherwise they end the cell. -/
theorem encode_number_eq_ok_iff (hk : f.IsNumber) :
    f.encode (.integer i) = .ok raw ↔ (f.storedText i).length ≤ f.width ∧
      raw = blanks (f.width - (f.storedText i).length) ++ Text.encode (f.storedText i) := by
  have hv : Value.integer i ≠ .null := by rintro ⟨⟩
  rw [encode_number_of_ne_null hk hv, digitsOf?_integer]
  show numberCell f.width (f.storedText i) = .ok raw ↔ _
  rw [numberCell]
  split
  case isTrue hwide => exact iff_of_false (by rintro ⟨⟩) fun h => Nat.not_le_of_lt hwide h.1
  case isFalse hfits => rw [Except.ok.injEq, eq_comm, and_iff_right (Nat.le_of_not_lt hfits)]

theorem not_isPadding_of_mem_wholeText {n : Int} (h : c ∈ wholeText places n) :
    isPadding c = false := by
  rcases List.mem_append.mp h with h | h
  · exact not_isPadding_of_mem_intText h
  · rw [zeroFraction] at h
    split at h
    case isTrue => cases h
    case isFalse =>
      rcases List.mem_cons.mp h with rfl | h
      · rfl
      · rw [(List.mem_replicate.mp h).2]
        rfl

theorem trimmedText_storedText (n : Nat) :
    trimmedText (blanks n ++ Text.encode (f.storedText i)) = f.storedText i := by
  have hsharp : Text.dropEnds isPadding (f.storedText i) = f.storedText i :=
    Text.dropEnds_of_forall fun _ hc => not_isPadding_of_mem_wholeText hc
  have htext := trimmedText_encode n 0 (f.storedText i)
  rwa [show blanks 0 = [] from rfl, List.append_nil, hsharp] at htext

/-! ### What is stored -/

/-- What a cell holds for a whole number. -/
structure NumberLaw (f : Field) (i : Int64) (raw : List UInt8) : Prop where
  /-- The digits fit, with blanks in front of them. -/
  fits : (f.storedText i).length ≤ f.width
  cell : raw = blanks (f.width - (f.storedText i).length) ++ Text.encode (f.storedText i)
  /-- They stand for the number that is stored. -/
  denotes : plainValue? (trimmedText raw) = some (f.storedInt i : Rat)
  /-- This is the number itself without decimals, and with decimals if 53 bits are enough for it,
  and only then. -/
  exact : plainValue? (trimmedText raw) = some (i.toInt : Rat) ↔
    f.decimals.toNat = 0 ∨ HasShortBits i.toInt.natAbs
  /-- In the other cases it is the nearest number of 53 bits. -/
  rounding : f.decimals.toNat ≠ 0 → IsRounding i.toInt (f.storedInt i)
  near : |f.storedInt i - i.toInt| ≤ 512

theorem storedInt_eq_iff (f : Field) (i : Int64) :
    f.storedInt i = i.toInt ↔ f.decimals.toNat = 0 ∨ HasShortBits i.toInt.natAbs := by
  rw [Field.storedInt]
  split
  case isTrue hd => exact iff_of_true rfl (Or.inl hd)
  case isFalse hd =>
    rw [(isRounding_floatInt (natAbs_toInt_le i)).eq_iff, or_iff_right hd]

theorem abs_storedInt_sub_le (f : Field) (i : Int64) : |f.storedInt i - i.toInt| ≤ 512 := by
  have hi := natAbs_toInt_le i
  rw [Field.storedInt]
  split
  case isTrue =>
    rw [sub_self, abs_zero]
    decide
  case isFalse => exact (isRounding_floatInt hi).abs_sub_le hi

theorem numberLaw_of_encode (hk : f.IsNumber) (h : f.encode (.integer i) = .ok raw) :
    NumberLaw f i raw := by
  obtain ⟨hfits, hcell⟩ := (encode_number_eq_ok_iff hk).mp h
  have hdenotes : plainValue? (trimmedText raw) = some (f.storedInt i : Rat) := by
    rw [hcell, trimmedText_storedText, Field.storedText, plainValue?_wholeText]
  refine ⟨hfits, hcell, hdenotes, ?_, ?_, abs_storedInt_sub_le f i⟩
  · rw [hdenotes, Option.some.injEq, Int.cast_inj, storedInt_eq_iff]
  · intro hd
    rw [Field.storedInt, if_neg hd]
    exact isRounding_floatInt (natAbs_toInt_le i)

/-! ### Whole tables -/

/-- The cell of a field in the record of a row. -/
def cellAt (fields : List Field) (row : List Value) (j : Nat) (f : Field)
    (record : List UInt8) : List UInt8 :=
  slice (1 + cellsSize (fields.take j) (row.take j)) f.width record

/-- Every whole number of a row is stored in its field of digits. -/
def StoresNumbers (fields : List Field) (row : List Value) (record : List UInt8) : Prop :=
  ∀ (j : Nat) (f : Field) (i : Int64), fields[j]? = some f → f.IsNumber →
    row[j]? = some (.integer i) → NumberLaw f i (cellAt fields row j f record)

theorem storesNumbers_of_isRecord {fields : List Field} {row : List Value}
    (h : IsRecord fields row record) : StoresNumbers fields row record := by
  intro j f i hf hk hi
  have hcell := h.cell j f (.integer i) hf hi
  have hwidth : f.cellSize (.integer i) = f.width := by
    unfold Field.cellSize
    rcases hk with hk | hk
    · rw [hk]
    · rw [hk]
  rw [hwidth] at hcell
  exact numberLaw_of_encode hk hcell

/-- The records of a file store the whole numbers of its rows. -/
def StoresTable (t : Table) (bytes : List UInt8) : Prop :=
  ∃ head records, bytes = head ++ (records.flatten ++ [endMark]) ∧
    head.length = 32 + 32 * t.fields.length + 1 ∧
    List.Forall₂ (StoresNumbers t.fields) t.rows records

/-- **The whole numbers of a table that was written.**  Without decimals they are stored exactly,
with decimals they are rounded to 53 bits; what does not fit is refused. -/
theorem storesTable_of_encode {changed : Date} {t : Table} (h : encode changed t = .ok bytes) :
    StoresTable t bytes := by
  obtain ⟨hfits, written, hwritten, rfl⟩ := toBytes_eq (toBytes_of_encode h)
  obtain ⟨records, rfl, hrecords⟩ := exists_records hwritten
  exact ⟨header changed t.fields t.rows.length, records, rfl, length_header hfits,
    hrecords.imp fun row record hrow => storesNumbers_of_isRecord hrow⟩

/-- A row with a number in a field with decimals and one in a field without. -/
def amounts : Table :=
  ⟨[.numeric "PRICE" 8 2, .numeric "COUNT" 20 0],
    [[.integer (-12), .integer 9007199254740993]]⟩

/-- Both numbers are accepted, one with a fraction of zeros and one without. -/
theorem storesTable_amounts :
    ∃ bytes, encode ⟨2026, 1, 5, rfl⟩ amounts = .ok bytes ∧ StoresTable amounts bytes := by
  have hencode : ∃ bytes, encode ⟨2026, 1, 5, rfl⟩ amounts = .ok bytes := ⟨_, rfl⟩
  obtain ⟨bytes, h⟩ := hencode
  exact ⟨bytes, h, storesTable_of_encode h⟩

/-- The number of 54 bits that has no floating point number, in a field with one decimal. -/
def longAmount : Table := ⟨[.numeric "N" 20 1], [[.integer 9007199254740993]]⟩

/-- The field has room for the number and one decimal, but the number before it is stored. -/
theorem storedNumber_longAmount :
    (wholeText 1 9007199254740993).length ≤ (Field.numeric "N" 20 1).width ∧
      ∃ bytes, encode ⟨2026, 1, 5, rfl⟩ longAmount = .ok bytes ∧
        plainValue? (trimmedText (slice 66 20 bytes)) = some 9007199254740992 :=
  ⟨by decide, _, rfl, by decide +kernel⟩

end TableAccess.Dbase
