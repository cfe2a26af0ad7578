import Mathlib.Algebra.Order.Floor.Semifield
import TableAccess.Proofs.Date.Hyphenated
import TableAccess.Proofs.Handler.Listing
import TableAccess.Proofs.Number.Whole
import TableAccess.Proofs.Row.Conversion

/-!
# How stored cells are carried over

A stored cell is carried over as it is, whatever its column is declared, and a text in a column of
dates becomes a date where it is one.  There is one exception.  In a column of dates everything that
is no text is read as a whole number: of a floating point number only the whole part is left, and of
bytes only the number that they may begin with.
-/

namespace TableAccess

open TableAccess.Number
open TableAccess.Text (FrontSharp)

/-! ### Digits of bytes -/

namespace Text

/-- The bytes of pairs of hexadecimal digits. -/
def readHexBytes? : List Char → Option (List UInt8)
  | [] => some []
  | [_] => none
  | c :: d :: r => do
    let high ← hexValue? c
    let low ← hexValue? d
    let rest ← readHexBytes? r
    some (UInt8.ofNat (16 * high + low) :: rest)

theorem hexValue?_hexDigit {n : Nat} (h : n < 16) : hexValue? (hexDigit n) = some n := by
  have hall : ∀ n : Fin 16, hexValue? (hexDigit n) = some n.val := by decide
  exact hall ⟨n, h⟩

theorem mem_digits_of_mem_hexBytes {bytes : List UInt8} {c : Char} (h : c ∈ hexBytes bytes) :
    c ∈ "0123456789abcdef".toList := by
  have hall : ∀ n : Fin 16, hexDigit n ∈ "0123456789abcdef".toList := by decide
  obtain ⟨b, -, hb⟩ := List.mem_flatMap.mp h
  have hlt := b.toNat_lt
  rcases List.mem_pair.mp hb with rfl | rfl
  · exact hall ⟨b.toNat / 16, by omega⟩
  · exact hall ⟨b.toNat % 16, Nat.mod_lt _ (by decide)⟩

/-- Two digits for each byte are read back as these bytes. -/
theorem readHexBytes?_hexBytes (bytes : List UInt8) :
    readHexBytes? (hexBytes bytes) = some bytes := by
  induction bytes with
  | nil => rfl
  | cons b r ih =>
    have hb := b.toNat_lt
    have hhigh : hexValue? (hexDigit (b.toNat / 16)) = some (b.toNat / 16) :=
      hexValue?_hexDigit (by omega)
    have hlow : hexValue? (hexDigit (b.toNat % 16)) = some (b.toNat % 16) :=
      hexValue?_hexDigit (Nat.mod_lt _ (by decide))
    have hbyte : UInt8.ofNat (16 * (b.toNat / 16) + b.toNat % 16) = b := by
      rw [Nat.div_add_mod, UInt8.ofNat_toNat]
    show readHexBytes? (hexDigit (b.toNat / 16) :: hexDigit (b.toNat % 16) :: hexBytes r) = _
    simp only [readHexBytes?, hhigh, hlow, ih, hbyte, Option.bind_eq_bind, Option.bind_some]

end Text

/-! ### Whole parts -/

namespace Number.Binary64

variable {x : Binary64}

/-- The number that a finite floating point number stands for. -/
def toRat (x : Binary64) : Rat := if x.negative then -size (code x) else size (code x)

/-- The whole part of a finite number. -/
theorem truncate?_eq (hx : code x < infinityBits) :
    x.truncate? = some (signed x.negative ⌊size (code x)⌋₊) := by
  have hsize : size (code x) =
      ((significand (code x) * 2 ^ ((binade (code x) : Int) - 1074).toNat : Nat) : Rat) /
        (2 ^ (-((binade (code x) : Int) - 1074)).toNat : Nat) := by
    push_cast
    rw [size, unit, ← pow_toNat_div two_ne_zero, mul_div_assoc]
  rw [truncate?, magnitude_of_code hx, hsize, Nat.floor_div_eq_div]
  rfl

/-- A number that is whole is its own whole part. -/
theorem signed_floor_of_toRat {i : Int} (h : x.toRat = i) :
    signed x.negative ⌊size (code x)⌋₊ = i := by
  rw [toRat] at h
  have hnonneg := size_nonneg (code x)
  cases hsign : x.negative with
  | false =>
    rw [hsign, if_neg Bool.false_ne_true] at h
    obtain ⟨n, rfl⟩ := Int.eq_ofNat_of_zero_le (a := i) (by exact_mod_cast h ▸ hnonneg)
    rw [h, Int.cast_natCast, Nat.floor_natCast]
    rfl
  | true =>
    rw [hsign, if_pos rfl] at h
    have hsize : size (code x) = ((-i : Int) : Rat) := by
      push_cast
      linarith
    obtain ⟨n, hn⟩ := Int.eq_ofNat_of_zero_le (a := -i) (by exact_mod_cast hsize ▸ hnonneg)
    rw [hsize, hn, Int.cast_natCast, Nat.floor_natCast]
    show -(n : Int) = i
    omega

end Number.Binary64

namespace Sqlite

open Number.Binary64 (code size toRat)

variable {x : Binary64} {w : World} {path name : String} {s : Session} {store : Store}

theorem toInt_clampInt64 (i : Int) : (clampInt64 i).toInt = max minInt64 (min maxInt64 i) := by
  have hlow : -2 ^ 63 ≤ max minInt64 (min maxInt64 i) := by
    rw [minInt64]
    omega
  have hhigh : max minInt64 (min maxInt64 i) < 2 ^ 63 := by
    rw [minInt64, maxInt64]
    omega
  exact Int64.toInt_ofInt_of_le hlow hhigh

/-- A whole number is left of a floating point number: its whole part, or the end of the range that
it is beyond. -/
structure IsTruncation (x : Binary64) (n : Int64) : Prop where
  finite : x.isFinite = true →
    n.toInt = max minInt64 (min maxInt64 (signed x.negative ⌊size (code x)⌋₊))
  infinite : x.isFinite = false → n.toInt = if x.negative then minInt64 else maxInt64

theorem isTruncation_truncated (x : Binary64) : IsTruncation x (truncated x) where
  finite hx := by
    rw [truncated, Binary64.truncate?_eq (Binary64.code_lt_infinityBits hx), toInt_clampInt64]
  infinite hx := by
    have hnone : x.truncate? = none := by
      rw [Binary64.isFinite, Binary64.isNan, Binary64.isInfinite] at hx
      rw [Binary64.truncate?]
      cases hmagnitude : x.magnitude with
      | nan => rfl
      | infinite => rfl
      | finite m q =>
        rw [hmagnitude] at hx
        cases hx
    rw [truncated, hnone]
    cases x.negative
    · decide
    · decide

/-- The number is kept exactly if it is a whole number of 64 bits. -/
theorem IsTruncation.toInt_eq_iff {n : Int64} (h : IsTruncation x n) (hx : x.isFinite = true) :
    (n.toInt : Rat) = toRat x ↔ ∃ i : Int64, (i.toInt : Rat) = toRat x := by
  constructor
  · exact fun hn => ⟨n, hn⟩
  · rintro ⟨i, hi⟩
    have hlow := i.le_toInt
    have hhigh := i.toInt_lt
    rw [h.finite hx, Binary64.signed_floor_of_toRat hi.symm, ← hi, Int.cast_inj, minInt64, maxInt64]
    omega

/-! ### Numbers in front of texts -/

/-- What may stand in front of digits, and whether it is a minus sign. -/
inductive SignText : List Char → Bool → Prop where
  | none : SignText [] false
  | plus : SignText ['+'] false
  | minus : SignText ['-'] true

def isSign (c : Char) : Bool := c == '+' || c == '-'

/-- The number that stands in front of a text, behind blanks and a sign; without digits it is
zero. -/
inductive LeadingNumber : List Char → Int → Prop where
  | intro {w sign digits rest : List Char} {negative : Bool}
      (hw : ∀ c ∈ w, isNumberSpace c = true)
      (hblank : FrontSharp isNumberSpace (sign ++ (digits ++ rest)))
      (hsign : SignText sign negative)
      (hunsigned : sign = [] → FrontSharp isSign (digits ++ rest))
      (hdigits : ∀ c ∈ digits, isDigit c = true) (hrest : FrontSharp isDigit rest) :
      LeadingNumber (w ++ (sign ++ (digits ++ rest))) (signed negative (ofDigits digits))

theorem exists_splitSign (s : List Char) : ∃ sign, SignText sign (splitSign s).1 ∧
    s = sign ++ (splitSign s).2 ∧ (sign = [] → FrontSharp isSign (splitSign s).2) := by
  fun_cases splitSign s with
  | case1 r => exact ⟨['-'], .minus, rfl, nofun⟩
  | case2 r => exact ⟨['+'], .plus, rfl, nofun⟩
  | case3 r hminus hplus =>
    refine ⟨[], .none, rfl, fun _ c hc => ?_⟩
    obtain ⟨r', rfl⟩ := List.head?_eq_some_iff.mp hc
    rw [isSign, Bool.or_eq_false_iff, beq_eq_false_iff_ne, beq_eq_false_iff_ne]
    exact ⟨fun h => hplus r' (by rw [h]), fun h => hminus r' (by rw [h])⟩

theorem exists_leadingNumber (s : List Char) :
    ∃ i, LeadingNumber s i ∧ (leadingInteger s).toInt = max minInt64 (min maxInt64 i) := by
  obtain ⟨w, hw, hs⟩ := Text.exists_append_dropFront isNumberSpace s
  have hblank := Text.frontSharp_dropFront isNumberSpace s
  have hinteger : leadingInteger s = clampInt64 (signed (splitSign (Text.dropFront isNumberSpace s)).1
      (ofDigits ((splitSign (Text.dropFront isNumberSpace s)).2.takeWhile isDigit))) := rfl
  generalize Text.dropFront isNumberSpace s = r at hs hblank hinteger
  obtain ⟨sign, hsign, hr, hunsigned⟩ := exists_splitSign r
  generalize splitSign r = parts at hsign hr hunsigned hinteger
  have hsplit := List.takeWhile_append_dropWhile (p := isDigit) (l := parts.2)
  refine ⟨_, ?_, by rw [hinteger, toInt_clampInt64]⟩
  rw [← hsplit] at hunsigned hr
  rw [hr] at hblank
  rw [hs, hr]
  exact .intro hw hblank hsign hunsigned (fun c hc => List.all_eq_true.mp List.all_takeWhile c hc)
    (Text.frontSharp_dropFront isDigit _)

/-! ### Cells and their values -/

/-- The text of bytes: two small digits for each of them behind a mark. -/
structure BytesText (bytes : List UInt8) (s : String) : Prop where
  digits : ∃ digits, s.toList = '\\' :: 'x' :: digits ∧ Text.readHexBytes? digits = some bytes ∧
    ∀ c ∈ digits, c ∈ "0123456789abcdef".toList

theorem bytesText_ofBytes (bytes : List UInt8) :
    BytesText bytes (String.ofList ('\\' :: 'x' :: Text.hexBytes bytes)) where
  digits := ⟨_, String.toList_ofList, Text.readHexBytes?_hexBytes bytes,
    fun _ hc => Text.mem_digits_of_mem_hexBytes hc⟩

/-- A value carries a cell over as it is.  A text in a column of dates that is one is a date. -/
inductive Verbatim (c : Column) : Cell → Value → Prop where
  | null : Verbatim c .null .null
  | integer (i : Int64) : Verbatim c (.integer i) (.integer i)
  | real (x : Binary64) : Verbatim c (.real x) (.float x)
  | blob {bytes : List UInt8} {s : String} (h : BytesText bytes s) :
      Verbatim c (.blob bytes) (.text s)
  | text (s : String) (h : c.isDate = true → ∀ d, ¬ Date.HyphenText d s.toList) :
      Verbatim c (.text s) (.text s)
  | date {s : String} {d : Date} (hc : c.isDate = true) (h : Date.HyphenText d s.toList) :
      Verbatim c (.text s) (.date d)

/-- The cells that a column of dates reads as whole numbers although they are none. -/
def Cell.isRealOrBlob : Cell → Bool
  | .real _ | .blob _ => true
  | _ => false

/-- What is left of a cell that a column of dates reads as a whole number. -/
inductive WholeOf : Cell → Int64 → Prop where
  | real {x : Binary64} {n : Int64} (h : IsTruncation x n) : WholeOf (.real x) n
  | blob {bytes : List UInt8} {n : Int64} {i : Int}
      (h : LeadingNumber (bytes.map fun b => Char.ofNat b.toNat) i)
      (hn : n.toInt = max minInt64 (min maxInt64 i)) : WholeOf (.blob bytes) n

/-- What a column makes of a cell. -/
structure CarryLaw (c : Column) (cell : Cell) (v : Value) : Prop where
  /-- The cell is carried over as it is, but for two classes of storage in columns of dates. -/
  verbatim_iff : Verbatim c cell v ↔ ¬ (c.isDate = true ∧ cell.isRealOrBlob = true)
  /-- Of these a whole number is left. -/
  whole : c.isDate = true → cell.isRealOrBlob = true → ∃ n, v = .integer n ∧ WholeOf cell n
  /-- A floating point number in a column of dates keeps its value only if it is whole. -/
  kept_iff : c.isDate = true → ∀ x, cell = .real x → x.isFinite = true →
    ((∃ n : Int64, v = .integer n ∧ (n.toInt : Rat) = toRat x) ↔
      ∃ i : Int64, (i.toInt : Rat) = toRat x)

variable {c : Column} {cell : Cell} {v : Value}

/-- Outside of columns of dates the class of storage alone decides. -/
theorem verbatim_value (hc : c.isDate = false) (cell : Cell) : Verbatim c cell cell.value := by
  cases cell with
  | null => exact .null
  | integer i => exact .integer i
  | real x => exact .real x
  | text s =>
    refine .text s fun hdate => ?_
    rw [hc] at hdate
    cases hdate
  | blob bytes => exact .blob (bytesText_ofBytes bytes)

theorem verbatim_dateValue (hc : c.isDate = true) (hcell : cell.isRealOrBlob = false) :
    Verbatim c cell cell.dateValue := by
  cases cell with
  | null => exact .null
  | integer i => exact .integer i
  | real x => cases hcell
  | blob bytes => cases hcell
  | text s =>
    rw [Cell.dateValue]
    split
    case h_1 d hd => exact .date hc (Date.read?_hyphenated_iff.mp hd)
    case h_2 hnone =>
      refine .text s fun _ d hd => ?_
      rw [Date.read?_hyphenated_iff.mpr hd] at hnone
      cases hnone

theorem wholeOf_dateValue (hcell : cell.isRealOrBlob = true) :
    ∃ n, cell.dateValue = .integer n ∧ WholeOf cell n := by
  cases cell with
  | null => cases hcell
  | integer i => cases hcell
  | text s => cases hcell
  | real x => exact ⟨_, rfl, .real (isTruncation_truncated x)⟩
  | blob bytes =>
    obtain ⟨i, hi, hn⟩ := exists_leadingNumber (bytes.map fun b => Char.ofNat b.toNat)
    exact ⟨_, rfl, .blob hi hn⟩

/-- A number is neither a floating point number nor the text of bytes. -/
theorem not_verbatim_integer (hcell : cell.isRealOrBlob = true) (n : Int64) :
    ¬ Verbatim c cell (.integer n) := by
  rintro ⟨⟩
  cases hcell

theorem carryLaw_value (c : Column) (cell : Cell) : CarryLaw c cell (c.value cell) := by
  rw [Column.value]
  cases hc : c.isDate with
  | false =>
    refine ⟨?_, ?_, ?_⟩
    · rw [if_neg Bool.false_ne_true]
      refine iff_of_true (verbatim_value hc cell) ?_
      rintro ⟨hdate, -⟩
      rw [hc] at hdate
      cases hdate
    · intro hdate
      rw [hc] at hdate
      cases hdate
    · intro hdate
      rw [hc] at hdate
      cases hdate
  | true =>
    rw [if_pos rfl]
    refine ⟨?_, fun _ => wholeOf_dateValue, ?_⟩
    · cases hcell : cell.isRealOrBlob with
      | false => exact iff_of_true (verbatim_dateValue hc hcell) fun h => Bool.false_ne_true h.2
      | true =>
        obtain ⟨n, hn, -⟩ := wholeOf_dateValue hcell
        rw [hn]
        exact iff_of_false (not_verbatim_integer hcell n) fun h => h ⟨hc, rfl⟩
    · rintro - x rfl hx
      rw [← (isTruncation_truncated x).toInt_eq_iff hx]
      constructor
      · rintro ⟨n, hn, hvalue⟩
        cases hn
        exact hvalue
      · exact fun hvalue => ⟨_, rfl, hvalue⟩

/-! ### Rows -/

/-- A result carries a table over. -/
def Carries (t : Table) (r : Result) : Prop := r.Converts Column.name t.columns t.rows CarryLaw

theorem carries_result (t : Table) : Carries t t.result := Result.converts_of_values carryLaw_value

theorem result_query_of_current (hstore : s.current w.files path = .ok store) {t : Table}
    (ht : store.relation? name = some t) :
    (Handler.query ⟨.sqlite path, some s⟩ w (Sql.selectAllFrom '"' name) []).result =
      .ok t.result.rows := by
  have hselect : selectAll store name = .ok t.result := by rw [selectAll, ht]
  show (askQuery path w s (Sql.selectAllFrom '"' name) []).result = _
  rw [askQuery, run_selectAllFrom hstore, hselect]

/-- **Stored cells are carried over as they are**, by a selection as well as by a query for all rows
of a table or view.  The exception are cells in columns of dates that are neither texts nor whole
numbers. -/
theorem carries_of_current (hstore : s.current w.files path = .ok store) {t : Table}
    (ht : store.relation? name = some t) :
    ∃ r, (Handler.selectAll ⟨.sqlite path, some s⟩ w name).result = .ok r ∧
      (Handler.query ⟨.sqlite path, some s⟩ w (Sql.selectAllFrom '"' name) []).result = .ok r.rows ∧
        Carries t r :=
  ⟨t.result, result_selectAll_of_current hstore ht, result_query_of_current hstore ht,
    carries_result t⟩

/-- A table with a column of dates, and a view of it. -/
def calendar : Store :=
  ⟨[⟨"days", [⟨"day", "Date"⟩, ⟨"length", "REAL"⟩],
      [[.text "2024-02-29", .real ⟨0x4004000000000000⟩], [.text "someday", .blob [0, 255]]]⟩],
    [⟨"all days", "days"⟩]⟩

/-- The cells of the table are carried over through the view. -/
theorem carries_calendar :
    Session.current ⟨calendar⟩ FileTree.empty "a.db" = .ok calendar ∧
      ∃ t r, calendar.relation? "all days" = some t ∧
        (Handler.selectAll ⟨.sqlite "a.db", some ⟨calendar⟩⟩ (Handler.alone .absent)
          "all days").result = .ok r ∧ Carries t r := by
  have hstore : Session.current ⟨calendar⟩ (Handler.alone .absent).files "a.db" = .ok calendar :=
    rfl
  have ht : calendar.relation? "all days" = some (calendar.tables.head nofun) := rfl
  obtain ⟨r, hselect, -, hr⟩ := carries_of_current hstore ht
  exact ⟨rfl, _, r, ht, hselect, hr⟩

/-- A column of dates that holds the number two and a half. -/
def halfDay : Store := ⟨[⟨"t", [⟨"d", "DATE"⟩], [[.real ⟨0x4004000000000000⟩]]⟩], []⟩

/-- The half is lost. -/
theorem selectAll_halfDay :
    (Handler.selectAll ⟨.sqlite "t.db", some ⟨halfDay⟩⟩ (Handler.alone .absent) "t").result =
        .ok ⟨["d"], [⟨[⟨"d", .integer 2⟩]⟩]⟩ ∧
      ¬ Verbatim ⟨"d", "DATE"⟩ (.real ⟨0x4004000000000000⟩) (.integer 2) := by
  have hstore : Session.current ⟨halfDay⟩ (Handler.alone .absent).files "t.db" = .ok halfDay := rfl
  have ht : halfDay.relation? "t" = some (halfDay.tables.head nofun) := rfl
  refine ⟨?_, not_verbatim_integer rfl 2⟩
  rw [result_selectAll_of_current hstore ht]
  decide +kernel

end Sqlite

end TableAccess
