import TableAccess.Dbase.Cell
import TableAccess.Proofs.Number.Ascii

/-!
# Reading back a cell

Writing a cell fills the width of its field exactly, and reading it gives the canonical form of
the value: numbers and dates come back as they are, texts as far as they fit and without what
looks like filling.  Both facts hold kind by kind; a table needs no more of a cell than these.
-/

namespace TableAccess.Dbase

open TableAccess.Number
open TableAccess.Text (isPadding decodeLossy dropBack dropEnds FrontSharp BackSharp)

variable {f : Field} {v : Value} {raw : List UInt8}

/-- As much of the text of a value as fits the field. -/
def Field.kept (f : Field) (v : Value) : List Char := Text.takeBytes f.width v.fieldText

/-- The value that is read where `v` was written. -/
def Field.canonical (f : Field) (v : Value) : Value :=
  match f.kind with
  | .numeric | .float | .date => v
  | .integer =>
    match v with
    | .null => .integer 0
    | v => v
  | .logical =>
    match v with
    | .integer i => .integer (if i = 0 then 0 else 1)
    | v => v
  | .character => .text (String.ofList (dropBack isPadding (f.kept v)))
  | .other _ => .text (String.ofList (dropEnds isPadding (f.kept v)))

/-- The width is the one that the kind of the field calls for. -/
def Field.HasWidth (f : Field) : Prop :=
  match f.kind with
  | .integer => f.width = 4
  | .logical => f.width = 1
  | .date => f.width = 8
  | _ => 1 ≤ f.width

/-- The value has a text from which it can be read again: dates have years of four digits, and
numbers are whole ones in a field without decimals. -/
def Field.Holds (f : Field) (v : Value) : Prop :=
  match f.kind with
  | .date => ∀ d, v = .date d → 0 ≤ d.year ∧ d.year ≤ 9999
  | .numeric | .float => v = .null ∨ (f.decimals = 0 ∧ ∃ i, v = .integer i)
  | _ => True

/-- The bytes of a cell fill it and give back the canonical form of the value. -/
structure Field.ReadsBack (f : Field) (v : Value) (raw : List UInt8) : Prop where
  length : raw.length = f.width
  value : f.decode raw = f.canonical v

/-! ### What fills up a cell -/

theorem blanks_eq_encode (n : Nat) : blanks n = Text.encode (List.replicate n ' ') := by
  induction n with
  | zero => rfl
  | succ n ih =>
    rw [blanks] at ih
    rw [List.replicate_succ, Text.encode_cons, ← ih, blanks, List.replicate_succ]
    rfl

theorem isPadding_of_mem_blanks {n : Nat} {c : Char} (h : c ∈ List.replicate n ' ') :
    isPadding c = true := by
  rw [(List.mem_replicate.mp h).2]
  rfl

/-- A text reads back without what was put around it. -/
theorem trimmedText_encode (before after : Nat) (s : List Char) :
    trimmedText (blanks before ++ (Text.encode s ++ blanks after)) = dropEnds isPadding s := by
  rw [trimmedText, blanks_eq_encode, blanks_eq_encode, ← Text.encode_append,
    ← Text.encode_append, Text.decodeLossy_encode]
  exact Text.dropEnds_append (fun _ hc => isPadding_of_mem_blanks hc)
    (fun _ hc => isPadding_of_mem_blanks hc) s

theorem trimmedText_blanks (n : Nat) : trimmedText (blanks n) = [] := by
  have h := trimmedText_encode n 0 []
  rwa [show Text.encode [] ++ blanks 0 = [] from rfl, List.append_nil] at h

/-! ### Numbers in four bytes -/

theorem fitsInt32_iff {i : Int} : fitsInt32 i = true ↔ -2147483648 ≤ i ∧ i ≤ 2147483647 := by
  rw [fitsInt32, Bool.and_eq_true, decide_eq_true_eq, decide_eq_true_eq]

theorem intOfLittleEndian_four {i : Int} (h : fitsInt32 i = true) :
    intOfLittleEndian (littleEndianInt 4 i) = i := by
  rw [fitsInt32_iff] at h
  have hsize : Nat.pow 256 4 = 4294967296 := rfl
  refine intOfLittleEndian_littleEndianInt ?_ ?_
  · rw [hsize]
    omega
  · rw [hsize]
    omega

theorem decode_integer (hk : f.kind = .integer) {i : Int64} (h : fitsInt32 i.toInt = true) :
    f.decode (littleEndianInt 4 i.toInt) = .integer i := by
  have hlength : (littleEndianInt 4 i.toInt).length = 4 := length_littleEndian 4 _
  rw [Field.decode, hk]
  show (if (littleEndianInt 4 i.toInt).length = 4 then _ else _) = _
  rw [if_pos hlength, intOfLittleEndian_four h, Int64.ofInt_toInt]

/-- What is written into a field of four bytes. -/
theorem encode_integer_cases (hk : f.kind = .integer) (h : f.encode v = .ok raw) :
    (v = .null ∧ raw = littleEndianInt 4 0) ∨
      ∃ i, v = .integer i ∧ fitsInt32 i.toInt = true ∧ raw = littleEndianInt 4 i.toInt := by
  unfold Field.encode at h
  rw [hk] at h
  cases v with
  | null =>
    cases h
    exact Or.inl ⟨rfl, rfl⟩
  | integer i =>
    by_cases hi : fitsInt32 i.toInt = true
    · have hraw : littleEndianInt 4 i.toInt = raw := by simpa [hi] using h
      exact Or.inr ⟨i, rfl, hi, hraw.symm⟩
    · simp [hi] at h
  | float x => cases h
  | text s => cases h
  | date d => cases h

theorem readsBack_integer (hk : f.kind = .integer) (hw : f.HasWidth)
    (h : f.encode v = .ok raw) : f.ReadsBack v raw := by
  have hwidth : f.width = 4 := by rwa [Field.HasWidth, hk] at hw
  have hlength : ∀ i, (littleEndianInt 4 i).length = f.width := by
    intro i
    rw [hwidth]
    exact length_littleEndian 4 _
  rcases encode_integer_cases hk h with ⟨rfl, rfl⟩ | ⟨i, rfl, hi, rfl⟩
  · refine ⟨hlength 0, ?_⟩
    unfold Field.canonical
    rw [hk]
    exact decode_integer hk (i := 0) (by decide)
  · refine ⟨hlength i.toInt, ?_⟩
    unfold Field.canonical
    rw [hk]
    exact decode_integer hk hi

/-! ### Truth values -/

/-- What is written into a field for a truth value. -/
theorem encode_logical_cases (hk : f.kind = .logical) (h : f.encode v = .ok raw) :
    (v = .null ∧ raw = [0x3F]) ∨ ∃ i, v = .integer i ∧ raw = [if i = 0 then 0x46 else 0x54] := by
  unfold Field.encode at h
  rw [hk] at h
  cases v with
  | null =>
    cases h
    exact Or.inl ⟨rfl, rfl⟩
  | integer i =>
    cases h
    exact Or.inr ⟨i, rfl, rfl⟩
  | float x => cases h
  | text s => cases h
  | date d => cases h

theorem readsBack_logical (hk : f.kind = .logical) (hw : f.HasWidth)
    (h : f.encode v = .ok raw) : f.ReadsBack v raw := by
  have hwidth : f.width = 1 := by rwa [Field.HasWidth, hk] at hw
  rcases encode_logical_cases hk h with ⟨rfl, rfl⟩ | ⟨i, rfl, rfl⟩
  · refine ⟨hwidth.symm, ?_⟩
    unfold Field.canonical
    rw [Field.decode, hk]
    rfl
  · refine ⟨hwidth.symm, ?_⟩
    unfold Field.canonical
    rw [Field.decode, hk]
    by_cases hi : i = 0
    · simp only [hi, if_true]
      rfl
    · simp only [hi, if_false]
      rfl

/-! ### Dates -/

theorem length_blanks (n : Nat) : (blanks n).length = n := List.length_replicate

theorem decode_blanks_date (hk : f.kind = .date) (n : Nat) : f.decode (blanks n) = .null := by
  rw [Field.decode, hk]
  show (if (trimmedText (blanks n)).all (· == '0') = true then _ else _) = _
  rw [trimmedText_blanks]
  rfl

theorem decode_compactText (hk : f.kind = .date) {d : Date} (h0 : 0 ≤ d.year)
    (h9 : d.year ≤ 9999) : f.decode (Text.encode d.compactText) = .date d := by
  have hsharp : dropEnds isPadding d.compactText = d.compactText :=
    Text.dropEnds_of_forall fun _ hc =>
      Text.not_isPadding_of_isDigit (Date.isDigit_of_mem_compactText h0 h9 hc)
  have htext : trimmedText (Text.encode d.compactText) = d.compactText := by
    have h := trimmedText_encode 0 0 d.compactText
    rwa [show blanks 0 = [] from rfl, List.nil_append, List.append_nil,
      hsharp] at h
  rw [Field.decode, hk]
  show (if (trimmedText (Text.encode d.compactText)).all (· == '0') = true then _ else _) = _
  rw [htext, d.compactText_ne_zeros, if_neg Bool.false_ne_true, dateOf,
    Date.read?_compactText h0 h9]

/-- What is written into a field for a date. -/
theorem encode_date_cases (hk : f.kind = .date) (h : f.encode v = .ok raw) :
    (v = .null ∧ raw = blanks f.width) ∨ ∃ d, v = .date d ∧ raw = Text.encode d.compactText := by
  unfold Field.encode at h
  rw [hk] at h
  cases v with
  | null =>
    cases h
    exact Or.inl ⟨rfl, rfl⟩
  | date d =>
    cases h
    exact Or.inr ⟨d, rfl, rfl⟩
  | integer i => cases h
  | float x => cases h
  | text s => cases h

theorem readsBack_date (hk : f.kind = .date) (hw : f.HasWidth) (hv : f.Holds v)
    (h : f.encode v = .ok raw) : f.ReadsBack v raw := by
  have hwidth : f.width = 8 := by rwa [Field.HasWidth, hk] at hw
  rw [Field.Holds, hk] at hv
  rcases encode_date_cases hk h with ⟨rfl, rfl⟩ | ⟨d, rfl, rfl⟩
  · refine ⟨length_blanks f.width, ?_⟩
    unfold Field.canonical
    rw [hk]
    exact decode_blanks_date hk f.width
  · obtain ⟨h0, h9⟩ := hv d rfl
    constructor
    · rw [Text.length_encode_of_isAscii d.isAscii_compactText, Date.length_compactText h0 h9,
        hwidth]
    · unfold Field.canonical
      rw [hk]
      exact decode_compactText hk h0 h9

/-! ### Numbers in digits -/

/-- Both kinds of digits are written and read in the same way. -/
def Field.IsNumber (f : Field) : Prop := f.kind = .numeric ∨ f.kind = .float

theorem decode_number (hk : f.IsNumber) (raw : List UInt8) :
    f.decode raw = if (trimmedText raw).all (· == '*') = true then .null
      else numberOf f.decimals.toNat (trimmedText raw) := by
  rcases hk with hk | hk
  · rw [Field.decode, hk]
  · rw [Field.decode, hk]

theorem canonical_number (hk : f.IsNumber) (v : Value) : f.canonical v = v := by
  unfold Field.canonical
  rcases hk with hk | hk
  · rw [hk]
  · rw [hk]

theorem encode_number_null (hk : f.IsNumber) : f.encode .null = .ok (blanks f.width) := by
  unfold Field.encode
  rcases hk with hk | hk
  · rw [hk]
  · rw [hk]

/-- The digits of a value are put into the cell, or there are none to put there. -/
theorem encode_number_of_ne_null (hk : f.IsNumber) (hv : v ≠ .null) :
    f.encode v =
      match digitsOf? f.decimals.toNat v with
      | some digits => numberCell f.width digits
      | none => .error (.wrongKind v.typeName f.kind.code) := by
  unfold Field.encode
  rcases hk with hk | hk
  · rw [hk]
    cases v with
    | null => exact absurd rfl hv
    | _ => rfl
  · rw [hk]
    cases v with
    | null => exact absurd rfl hv
    | _ => rfl

theorem encode_number_integer (hk : f.IsNumber) (hd : f.decimals = 0) (i : Int64) :
    f.encode (.integer i) = numberCell f.width (intText i.toInt) := by
  have hd' : f.decimals.toNat = 0 := by
    rw [hd]
    rfl
  have hdigits : digitsOf? f.decimals.toNat (.integer i) = some (intText i.toInt) := by
    rw [digitsOf?, if_pos hd']
  have hv : Value.integer i ≠ .null := nofun
  rw [encode_number_of_ne_null hk hv, hdigits]

theorem all_star_intText (i : Int) : (intText i).all (· == '*') = false := by
  obtain ⟨c, r, hcr, hc⟩ := exists_intText_eq_cons i
  have hstar : (c == '*') = false := by
    rw [beq_eq_false_iff_ne]
    rintro rfl
    exact absurd hc (by decide)
  rw [hcr, List.all_cons, hstar, Bool.false_and]

theorem not_isPadding_of_mem_intText {i : Int} {c : Char} (h : c ∈ intText i) :
    isPadding c = false := by
  rcases isDigit_or_minus_of_mem_intText h with hdigit | rfl
  · exact Text.not_isPadding_of_isDigit hdigit
  · rfl

theorem numberOf_intText (i : Int64) : numberOf 0 (intText i.toInt) = .integer i := by
  rw [numberOf, if_pos rfl, readInt64?_intText]

theorem readsBack_number (hk : f.IsNumber) (hv : v = .null ∨ (f.decimals = 0 ∧ ∃ i, v = .integer i))
    (h : f.encode v = .ok raw) : f.ReadsBack v raw := by
  rcases hv with rfl | ⟨hd, i, rfl⟩
  · rw [encode_number_null hk] at h
    cases h
    refine ⟨length_blanks f.width, ?_⟩
    rw [decode_number hk, trimmedText_blanks, canonical_number hk]
    rfl
  · rw [encode_number_integer hk hd, numberCell] at h
    split at h
    case isTrue => cases h
    case isFalse hwidth =>
      cases h
      have htext := trimmedText_encode (f.width - (intText i.toInt).length) 0 (intText i.toInt)
      rw [show blanks 0 = [] from rfl, List.append_nil,
        Text.dropEnds_of_forall fun _ hc => not_isPadding_of_mem_intText hc] at htext
      constructor
      · rw [List.length_append, length_blanks,
          Text.length_encode_of_isAscii (isAscii_intText i.toInt)]
        omega
      · rw [decode_number hk, htext, all_star_intText, if_neg Bool.false_ne_true, hd,
          canonical_number hk]
        exact numberOf_intText i

/-! ### Texts -/

theorem length_textCell (width : Nat) (s : List Char) : (textCell width s).length = width := by
  have hfits := Text.byteLength_takeBytes width s
  rw [textCell, List.length_append, Text.length_encode, length_blanks]
  omega

theorem decodeLossy_textCell (width : Nat) (s : List Char) :
    ∃ k, decodeLossy (textCell width s) = Text.takeBytes width s ++ List.replicate k ' ' := by
  refine ⟨width - Text.byteLength (Text.takeBytes width s), ?_⟩
  rw [textCell, blanks_eq_encode, ← Text.encode_append, Text.decodeLossy_encode]

theorem encode_character (hk : f.kind = .character) (v : Value) :
    f.encode v = .ok (textCell f.width v.fieldText) := by
  unfold Field.encode
  rw [hk]

theorem encode_other {code : UInt8} (hk : f.kind = .other code) (v : Value) :
    f.encode v = .ok (textCell f.width v.fieldText) := by
  unfold Field.encode
  rw [hk]

theorem readsBack_character (hk : f.kind = .character) (h : f.encode v = .ok raw) :
    f.ReadsBack v raw := by
  rw [encode_character hk] at h
  cases h
  refine ⟨length_textCell f.width v.fieldText, ?_⟩
  obtain ⟨k, htext⟩ := decodeLossy_textCell f.width v.fieldText
  unfold Field.canonical
  rw [Field.decode, hk, htext, Text.dropBack_append fun _ hc => isPadding_of_mem_blanks hc]
  rfl

theorem readsBack_other {code : UInt8} (hk : f.kind = .other code) (h : f.encode v = .ok raw) :
    f.ReadsBack v raw := by
  rw [encode_other hk] at h
  cases h
  refine ⟨length_textCell f.width v.fieldText, ?_⟩
  have htext := trimmedText_encode 0
    (f.width - Text.byteLength (Text.takeBytes f.width v.fieldText))
    (Text.takeBytes f.width v.fieldText)
  unfold Field.canonical
  rw [Field.decode, hk]
  exact congrArg (fun s => Value.text (String.ofList s)) htext

/-! ### All kinds -/

/-- **A cell gives back the canonical form of what was written into it.** -/
theorem readsBack_of_encode (hw : f.HasWidth) (hv : f.Holds v) (h : f.encode v = .ok raw) :
    f.ReadsBack v raw := by
  cases hk : f.kind with
  | character => exact readsBack_character hk h
  | numeric =>
    rw [Field.Holds, hk] at hv
    exact readsBack_number (Or.inl hk) hv h
  | float =>
    rw [Field.Holds, hk] at hv
    exact readsBack_number (Or.inr hk) hv h
  | date => exact readsBack_date hk hw hv h
  | logical => exact readsBack_logical hk hw h
  | integer => exact readsBack_integer hk hw h
  | other code => exact readsBack_other hk h

end TableAccess.Dbase
