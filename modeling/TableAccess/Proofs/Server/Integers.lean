import TableAccess.Proofs.Server.Loss

/-!
# Whole numbers of MySQL

A column of whole numbers has a size, a sign or none, and a display width, which is advice to
clients and bounds no number.  Every number of every column arrives as it is: as a number of 64 bits
with a sign if it is one, and beyond that as the text of its digits.  The one exception is a tiny
column of display width one, which passes for a column of truth values: there only zero and one
arrive.
-/

namespace TableAccess.Server

open TableAccess.Number (isDigit ofDigits natText intText minInt64 maxInt64)

/-! ### Values that stand for a number -/

/-- The value is the number: itself if it has 64 bits with a sign, and beyond that the text of its
decimal digits, without a leading zero. -/
inductive Denotes (i : Int) : Value → Prop
  | integer {n : Int64} (h : n.toInt = i) : Denotes i (.integer n)
  | digits {s : String} (hlarge : maxInt64 < i) (hdigits : ∀ c ∈ s.toList, isDigit c = true)
      (hhead : s.toList.head? ≠ some '0') (hvalue : (ofDigits s.toList : Int) = i) :
      Denotes i (.text s)

variable {i j : Int} {v : Value}

/-- No value stands for two numbers. -/
theorem Denotes.inj (hi : Denotes i v) (hj : Denotes j v) : i = j := by
  cases hi with
  | integer hi =>
    cases hj with
    | integer hj => exact hi.symm.trans hj
  | digits _ _ _ hi =>
    cases hj with
    | digits _ _ _ hj => exact hi.symm.trans hj

theorem denotes_integer (n : Int64) : Denotes n.toInt (.integer n) := .integer rfl

theorem denotes_digits {n : Nat} (hlarge : maxInt64 < n) :
    Denotes n (.text (String.ofList (natText n))) := by
  have hpos : 0 < n := by
    rw [maxInt64] at hlarge
    omega
  apply Denotes.digits hlarge
  · intro c hc
    rw [String.toList_ofList] at hc
    exact Number.isDigit_of_mem_natText hc
  · rw [String.toList_ofList]
    exact Number.head_natText_ne_zero hpos
  · rw [String.toList_ofList, Number.ofDigits_natText]

/-- A truth value stands for zero or one only. -/
theorem denotes_ofBool_iff : Denotes i (.ofBool (i != 0)) ↔ i = 0 ∨ i = 1 := by
  have hzero : Denotes 0 (.ofBool false) := denotes_integer 0
  have hone : Denotes 1 (.ofBool true) := denotes_integer 1
  by_cases hi : i = 0
  · subst hi
    exact iff_of_true hzero (Or.inl rfl)
  · rw [bne_iff_ne.mpr hi, or_iff_right hi]
    constructor
    · intro h
      exact h.inj hone
    · intro h
      rw [h]
      exact hone

namespace MySql

/-! ### Columns of whole numbers -/

/-- How many bits a whole number has: 8, 16, 24, 32 or 64. -/
inductive IntegerSize where
  | tiny
  | small
  | medium
  | normal
  | big
deriving DecidableEq

namespace IntegerSize

def name : IntegerSize → String
  | .tiny => "TINYINT"
  | .small => "SMALLINT"
  | .medium => "MEDIUMINT"
  | .normal => "INT"
  | .big => "BIGINT"

/-- How many numbers of the size are negative where there is a sign, and how many are not. -/
def half : IntegerSize → Int
  | .tiny => 128
  | .small => 32768
  | .medium => 8388608
  | .normal => 2147483648
  | .big => 9223372036854775808

/-- The word in which numbers of the size are read, without a sign or with one. -/
def word : IntegerSize → Bool → Word
  | .tiny, false => .int8
  | .tiny, true => .uint8
  | .small, false => .int16
  | .small, true => .uint16
  | .medium, false | .normal, false => .int32
  | .medium, true | .normal, true => .uint32
  | .big, false => .int64
  | .big, true => .uint64

/-- There is room for all numbers with a sign. -/
theorem signed_le_word (size : IntegerSize) :
    (size.word false).least ≤ -size.half ∧ size.half ≤ (size.word false).bound := by
  cases size <;> decide

/-- There is room for all numbers without a sign. -/
theorem unsigned_le_word (size : IntegerSize) :
    (size.word true).least = 0 ∧ 2 * size.half ≤ (size.word true).bound := by
  cases size <;> decide

end IntegerSize

/-- A column of whole numbers, or one of years. -/
inductive IntegerColumn where
  | number (size : IntegerSize) (isUnsigned : Bool) (displayWidth : Nat)
  | year
deriving DecidableEq

namespace IntegerColumn

/-- The numbers that the column can hold. -/
def InRange : IntegerColumn → Int → Prop
  | .number size false _, i => -size.half ≤ i ∧ i < size.half
  | .number size true _, i => 0 ≤ i ∧ i < 2 * size.half
  | .year, i => i = 0 ∨ 1901 ≤ i ∧ i ≤ 2155

/-- The column passes for one of truth values. -/
def isTruth : IntegerColumn → Bool
  | .number .tiny _ displayWidth => displayWidth == 1
  | _ => false

/-- The name of the type by size and sign. -/
def plainName : IntegerColumn → String
  | .number size false _ => size.name
  | .number size true _ => size.name ++ " UNSIGNED"
  | .year => "YEAR"

/-- The name that the client gives to the type of the column. -/
def typeName (c : IntegerColumn) : String := if c.isTruth then "BOOLEAN" else c.plainName

variable {c : IntegerColumn}

/-- The word in which the numbers of the column are read. -/
def word : IntegerColumn → Word
  | .number size isUnsigned _ => size.word isUnsigned
  | .year => .uint16

/-- No number of a column is beyond the word in which it is read. -/
theorem inRange_word {i : Int} (hi : c.InRange i) : c.word.least ≤ i ∧ i < c.word.bound := by
  cases c with
  | year =>
    have hroom : Word.uint16.least = 0 ∧ Word.uint16.bound = 65536 := by decide
    simp only [InRange] at hi
    simp only [word]
    omega
  | number size isUnsigned displayWidth =>
    cases isUnsigned with
    | false =>
      have hroom := size.signed_le_word
      simp only [InRange] at hi
      simp only [word]
      omega
    | true =>
      have hroom := size.unsigned_le_word
      simp only [InRange] at hi
      simp only [word]
      omega

/-- Only the widest word without a sign has a reading of its own. -/
theorem ofName_of_not_isTruth (hc : c.isTruth = false) :
    ColumnType.ofName c.typeName =
      if c.word = .uint64 then .unsignedBig else .integer c.word := by
  rw [typeName, hc, if_neg Bool.false_ne_true]
  cases c with
  | year => rfl
  | number size isUnsigned displayWidth => cases size <;> cases isUnsigned <;> rfl

theorem ofName_of_isTruth (hc : c.isTruth = true) : ColumnType.ofName c.typeName = .boolean := by
  rw [typeName, hc, if_pos rfl]
  rfl

end IntegerColumn

/-! ### Their values -/

/-- Every other word is as wide as 64 bits with a sign, or narrower. -/
theorem word_le_int64 {word : Word} (hword : word ≠ .uint64) :
    minInt64 ≤ word.least ∧ word.bound ≤ maxInt64 + 1 := by
  cases word with
  | uint64 => exact absurd rfl hword
  | _ => decide

/-- A number of such a word is itself. -/
theorem denotes_asInteger {word : Word} (hword : word ≠ .uint64) (hlow : word.least ≤ i)
    (hhigh : i < word.bound) : Denotes i (((Datum.integer i).asInteger? word).getD .null) := by
  obtain ⟨hleast, hbound⟩ := word_le_int64 hword
  have hfits : Number.toInt64? i = some (.ofInt i) := by
    rw [Number.toInt64?, if_pos]
    rw [Number.fitsInt64, Bool.and_eq_true, decide_eq_true_eq, decide_eq_true_eq]
    omega
  rw [Datum.asInteger?, inWord?_integer hlow hhigh]
  exact .integer (Number.toInt64?_eq_some_iff.mp hfits)

/-- A number of 64 bits without a sign is itself, or its digits. -/
theorem denotes_unsignedOf (hlow : Word.uint64.least ≤ i) (hhigh : i < Word.uint64.bound) :
    Denotes i ((unsignedOf? (.integer i)).getD .null) := by
  have hi : 0 ≤ i := hlow
  rw [unsignedOf?, inWord?_integer hlow hhigh, Option.map_some, Option.getD_some]
  cases hword : Number.toInt64? i with
  | some n => exact .integer (Number.toInt64?_eq_some_iff.mp hword)
  | none =>
    obtain ⟨n, rfl⟩ := Int.eq_ofNat_of_zero_le hi
    rcases Number.toInt64?_eq_none_iff.mp hword with hlow | hhigh
    · rw [minInt64] at hlow
      omega
    · exact denotes_digits hhigh

/-- A number of a column that does not pass for truth values is itself, or its digits. -/
theorem denotes_datumValue {c : IntegerColumn} (hc : c.isTruth = false) (hi : c.InRange i) :
    Denotes i ((datumValue? (.ofName c.typeName) (.integer i)).getD .null) := by
  obtain ⟨hlow, hhigh⟩ := IntegerColumn.inRange_word hi
  rw [IntegerColumn.ofName_of_not_isTruth hc]
  split
  case isTrue hword =>
    rw [hword] at hlow hhigh
    exact denotes_unsignedOf hlow hhigh
  case isFalse hword => exact denotes_asInteger hword hlow hhigh

/-- What becomes of a number of a column. -/
structure IntegerLaw (c : IntegerColumn) (i : Int) (v : Value) : Prop where
  kept : c.isTruth = false → Denotes i v
  truth : c.isTruth = true → v = .integer (if i = 0 then 0 else 1)
  /-- Nothing but a number beside zero and one in a column of truth values is changed. -/
  denotes_iff : Denotes i v ↔ c.isTruth = false ∨ i = 0 ∨ i = 1

theorem integerLaw_value {c : IntegerColumn} (hi : c.InRange i) :
    IntegerLaw c i (Dialect.mysql.value c.typeName (.datum (.integer i))) := by
  have hvalue : Dialect.mysql.value c.typeName (.datum (.integer i)) =
      (datumValue? (.ofName c.typeName) (.integer i)).getD .null := rfl
  rw [hvalue]
  cases hc : c.isTruth with
  | true =>
    have htruth : (datumValue? (.ofName c.typeName) (.integer i)).getD .null =
        .ofBool (i != 0) := by
      rw [IntegerColumn.ofName_of_isTruth hc]
      rfl
    rw [htruth]
    refine ⟨fun h => ?_, fun _ => ?_, ?_⟩
    · rw [hc] at h
      cases h
    · rw [Value.ofBool]
      simp only [bne_iff_ne, ne_eq, ite_not]
    · rw [denotes_ofBool_iff, hc]
      simp
  | false =>
    have hkept := denotes_datumValue hc hi
    refine ⟨fun _ => hkept, fun h => ?_, iff_of_true hkept (Or.inl hc)⟩
    rw [hc] at h
    cases h

/-! ### What arrives of an answer -/

/-- What becomes of the whole numbers among the rows that a server sends. -/
def KeepsIntegers (columns : List (String × String)) (rows : List (List Cell)) (r : Result) :
    Prop :=
  r.Converts Prod.fst columns rows fun column cell v => ∀ (c : IntegerColumn) (i : Int),
    column.2 = c.typeName → cell = .datum (.integer i) → c.InRange i → IntegerLaw c i v

variable {columns : List (String × String)} {rows : List (List Cell)} {w : World} {link : Link}
  {record : ConnectionRecord} {q : String} {parameters : List Value}

/-- **Whole numbers keep their value**, whatever rows the server answers with, but for the columns
that pass for truth values, where exactly zero and one keep it. -/
theorem keepsIntegers_of_answer (hlink : link.isAlive = true)
    (hparameters : Dialect.mysql.parameterFailure? 1 parameters = none)
    (hanswer : w.server.answer q = .rows columns rows) :
    ∃ r, KeepsIntegers columns rows r ∧
      (Handler.query ⟨.server .mysql record, some link⟩ w q parameters).result = .ok r.rows ∧
      ∀ table, Sql.selectAllFrom Dialect.mysql.quote table = q →
        (Handler.selectAll ⟨.server .mysql record, some link⟩ w table).result = .ok r := by
  refine exists_result_of_answer ?_ hlink hparameters hanswer
  rintro ⟨name, typeName⟩ cell c i rfl rfl hi
  exact integerLaw_value hi

/-- A server with one table, of the least and the greatest numbers of some columns. -/
def numberServer : Server :=
  ⟨false, none, .ok [some "t"],
    [("SELECT * FROM \x60t\x60",
      .rows [("a", "TINYINT"), ("b", "MEDIUMINT UNSIGNED"), ("c", "BIGINT UNSIGNED"),
          ("d", "YEAR"), ("n", "BOOLEAN")]
        [[.datum (.integer (-128)), .datum (.integer 0), .datum (.integer 9223372036854775807),
            .datum (.integer 1901), .datum (.integer 1)],
          [.datum (.integer 127), .datum (.integer 16777215),
            .datum (.integer 18446744073709551615), .datum (.integer 2155),
            .datum (.integer 5)]])]⟩

/-- The law holds of the table. -/
theorem keepsIntegers_numbers :
    ∃ columns rows r,
      numberServer.answer (Sql.selectAllFrom Dialect.mysql.quote "t") = .rows columns rows ∧
      KeepsIntegers columns rows r ∧
      (Handler.selectAll ⟨.server .mysql guest, some ⟨true⟩⟩ (Handler.alone numberServer)
        "t").result = .ok r := by
  have hanswer : (Handler.alone numberServer).server.answer
      (Sql.selectAllFrom Dialect.mysql.quote "t") = .rows _ _ := rfl
  obtain ⟨r, hr, -, hselect⟩ :=
    @keepsIntegers_of_answer _ _ (Handler.alone numberServer) ⟨true⟩ guest _ [] rfl rfl hanswer
  exact ⟨_, _, r, hanswer, hr, hselect "t" rfl⟩

/-- Five, in a tiny column of display width one, arrives as one. -/
theorem selectAll_truthNumber :
    (Handler.selectAll ⟨.server .mysql guest, some ⟨true⟩⟩ (Handler.alone numberServer)
        "t").result =
        .ok ⟨["a", "b", "c", "d", "n"],
          [⟨[⟨"a", .integer (-128)⟩, ⟨"b", .integer 0⟩, ⟨"c", .integer 9223372036854775807⟩,
              ⟨"d", .integer 1901⟩, ⟨"n", .integer 1⟩]⟩,
            ⟨[⟨"a", .integer 127⟩, ⟨"b", .integer 16777215⟩, ⟨"c", .text "18446744073709551615"⟩,
              ⟨"d", .integer 2155⟩, ⟨"n", .integer 1⟩]⟩]⟩ ∧
      (IntegerColumn.number .tiny false 1).typeName = "BOOLEAN" ∧
      (IntegerColumn.number .tiny false 1).InRange 5 ∧ ¬ Denotes 5 (.integer 1) := by
  have hanswer : (Handler.alone numberServer).server.answer
      (Sql.selectAllFrom Dialect.mysql.quote "t") = .rows _ _ := rfl
  refine ⟨?_, rfl, ⟨by decide, by decide⟩, ?_⟩
  · rw [result_selectAll_of_answer rfl hanswer]
    decide +kernel
  · intro h
    cases h.inj (denotes_integer 1)

end MySql

end TableAccess.Server
