import TableAccess.Proofs.Date.Grammar
import TableAccess.Proofs.Dbase.Cell

/-!
# What the cells of a date field hold

A cell of a date field holds nothing, a date or a text, and the text that is left without its
filling decides which.  Eight digits are the day that they name.  The reader of dates is lenient,
though: a shorter number with a blank in front of it passes as well, so some texts that are not
eight digits become dates, and different texts the same one.
-/

namespace TableAccess.Dbase

open TableAccess.Date (CompactText EightDigits NamesDay)

variable {f : Field} {raw : List UInt8} {s : List Char} {d : Date}

theorem all_zero_iff : s.all (· == '0') = true ↔ ∀ c ∈ s, c = '0' := by
  simp only [List.all_eq_true, beq_iff_eq]

theorem decode_of_zeros (hk : f.kind = .date) (h : ∀ c ∈ trimmedText raw, c = '0') :
    f.decode raw = .null := by
  rw [Field.decode, hk]
  exact if_pos (all_zero_iff.mpr h)

theorem decode_of_not_zeros (hk : f.kind = .date) (h : ¬ ∀ c ∈ trimmedText raw, c = '0') :
    f.decode raw = dateOf (trimmedText raw) := by
  rw [Field.decode, hk]
  exact if_neg fun hzeros => h (all_zero_iff.mp hzeros)

theorem dateOf_eq_date_iff : dateOf s = .date d ↔ CompactText d s := by
  rw [← Date.read?_compact_iff, dateOf]
  split
  case h_1 e he => simp only [he, Value.date.injEq, Option.some.injEq]
  case h_2 he => simp only [he, reduceCtorEq]

/-- What is no date stays a text. -/
theorem dateOf_eq_text_iff :
    dateOf s = .text (String.ofList s) ↔ ∀ d, ¬ CompactText d s := by
  simp only [← Date.read?_compact_iff, dateOf]
  split
  case h_1 e he =>
    refine iff_of_false (by simp only [reduceCtorEq, not_false_eq_true]) fun hnone => ?_
    exact hnone e he
  case h_2 he => exact iff_of_true rfl fun d hd => by rw [he] at hd; cases hd

theorem dateOf_ne_null (s : List Char) : dateOf s ≠ .null := by
  rw [dateOf]
  split
  · rintro ⟨⟩
  · rintro ⟨⟩

/-- What a cell of a date field holds, told from the text without its filling. -/
structure DateLaw (f : Field) (raw : List UInt8) : Prop where
  /-- It holds nothing if the text is empty or consists of zeros. -/
  null : f.decode raw = .null ↔ ∀ c ∈ trimmedText raw, c = '0'
  /-- It holds the date that the text is read as. -/
  date : ∀ d, f.decode raw = .date d ↔ CompactText d (trimmedText raw)
  /-- In all other cases it holds the text itself. -/
  text : f.decode raw = .text (String.ofList (trimmedText raw)) ↔
    (¬ ∀ c ∈ trimmedText raw, c = '0') ∧ ∀ d, ¬ CompactText d (trimmedText raw)
  /-- Eight digits are the day that they name. -/
  eightDigits : EightDigits (trimmedText raw) →
    ∀ d, f.decode raw = .date d ↔ NamesDay (trimmedText raw) d
  /-- Only eight digits are dates, unless the text is one that the reader is lenient with. -/
  lenient : (∀ d, f.decode raw = .date d ↔
      EightDigits (trimmedText raw) ∧ NamesDay (trimmedText raw) d) ↔
    EightDigits (trimmedText raw) ∨ ∀ d, ¬ CompactText d (trimmedText raw)
  /-- Different texts of eight digits are different dates. -/
  unique : ∀ other d, EightDigits (trimmedText raw) → EightDigits (trimmedText other) →
    f.decode raw = .date d → f.decode other = .date d → trimmedText raw = trimmedText other

theorem decode_eq_date_iff (hk : f.kind = .date) (raw : List UInt8) (d : Date) :
    f.decode raw = .date d ↔ CompactText d (trimmedText raw) := by
  by_cases hzeros : ∀ c ∈ trimmedText raw, c = '0'
  · rw [decode_of_zeros hk hzeros]
    exact iff_of_false (by rintro ⟨⟩) fun h => h.not_zeros hzeros
  · rw [decode_of_not_zeros hk hzeros]
    exact dateOf_eq_date_iff

theorem decode_eq_date_iff_namesDay (hk : f.kind = .date) (hs : EightDigits (trimmedText raw)) :
    f.decode raw = .date d ↔ NamesDay (trimmedText raw) d :=
  (decode_eq_date_iff hk raw d).trans (Date.compactText_iff_namesDay hs)

/-- **Every cell of a date field holds nothing, a date or a text.**  Eight digits are the day they
name, and no other eight digits are; which other texts are dates, the grammar of the lenient reader
says. -/
theorem dateLaw_of_kind (hk : f.kind = .date) (raw : List UInt8) : DateLaw f raw := by
  have hdate := decode_eq_date_iff hk raw
  constructor
  case null =>
    by_cases hzeros : ∀ c ∈ trimmedText raw, c = '0'
    · exact iff_of_true (decode_of_zeros hk hzeros) hzeros
    · rw [decode_of_not_zeros hk hzeros]
      exact iff_of_false (dateOf_ne_null _) hzeros
  case date => exact hdate
  case text =>
    by_cases hzeros : ∀ c ∈ trimmedText raw, c = '0'
    · rw [decode_of_zeros hk hzeros]
      exact iff_of_false (by rintro ⟨⟩) fun h => h.1 hzeros
    · rw [decode_of_not_zeros hk hzeros, dateOf_eq_text_iff, and_iff_right hzeros]
  case eightDigits => exact fun hs d => decode_eq_date_iff_namesDay hk hs
  case lenient =>
    constructor
    · intro hstrict
      by_cases hs : EightDigits (trimmedText raw)
      · exact Or.inl hs
      · exact Or.inr fun d hd => hs ((hstrict d).mp ((hdate d).mpr hd)).1
    · rintro (hs | hnone) d
      · rw [decode_eq_date_iff_namesDay hk hs, and_iff_right hs]
      · rw [hdate d]
        refine iff_of_false (hnone d) fun h => hnone d ?_
        exact (Date.compactText_iff_namesDay h.1).mpr h.2
  case unique =>
    intro other d hs hr hd hother
    exact ((decode_eq_date_iff_namesDay hk hs).mp hd).unique hs hr
      ((decode_eq_date_iff_namesDay hk hr).mp hother)

/-- A leap day in the eight bytes of its cell. -/
theorem dateLaw_leapDay :
    (Field.date "D").kind = .date ∧
      (Field.date "D").decode (Text.encode ['2', '0', '2', '4', '0', '2', '2', '9']) =
        .date ⟨2024, 2, 29, rfl⟩ := by
  have hkind : (Field.date "D").kind = .date := rfl
  have htext : trimmedText (Text.encode ['2', '0', '2', '4', '0', '2', '2', '9']) =
      ['2', '0', '2', '4', '0', '2', '2', '9'] := by decide +kernel
  have hlaw := (dateLaw_of_kind hkind
    (Text.encode ['2', '0', '2', '4', '0', '2', '2', '9'])).eightDigits
  rw [htext] at hlaw
  exact ⟨hkind, (hlaw ⟨rfl, List.all_eq_true.mp rfl⟩ _).mpr ⟨rfl, rfl, rfl⟩⟩

/-- The fifth of January with blanks in place of zeros is read as that day, although it is not
written in eight digits: two cells of eight bytes hold one date. -/
theorem decode_blanksForZeros :
    let spaced := ['2', '0', '2', '4', ' ', '1', ' ', '5']
    let digits := ['2', '0', '2', '4', '0', '1', '0', '5']
    trimmedText (Text.encode spaced) = spaced ∧ ¬ EightDigits spaced ∧
      (Field.date "D").decode (Text.encode spaced) = .date ⟨2024, 1, 5, rfl⟩ ∧
      (Field.date "D").decode (Text.encode digits) = .date ⟨2024, 1, 5, rfl⟩ := by
  refine ⟨by decide +kernel, fun h => ?_, by decide +kernel, by decide +kernel⟩
  exact absurd (h.2 ' ' (by decide)) (by decide)

end TableAccess.Dbase
