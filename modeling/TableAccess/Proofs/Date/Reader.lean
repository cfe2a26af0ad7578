import TableAccess.Date.Reader
import TableAccess.Proofs.Number.Digits
import TableAccess.Proofs.Text.Blank

/-!
# Reading a written date

Year, month and day of a date are padded to four, two and two digits, exactly as many as the
reader takes for each of them.  So the reader finds the three numbers one after the other, with
nothing between them and nothing left at the end.
-/

namespace TableAccess.Date

open TableAccess.Number
open TableAccess.Text (isBlank isPadding FrontSharp BackSharp)

variable {d : Date}

/-! ### The parts of a date -/

theorem day_bounds (d : Date) :
    1 ≤ d.day ∧ d.day ≤ Calendar.daysInMonth d.year d.month := by
  have h := d.isDay
  simp only [Calendar.isDay, Bool.and_eq_true, decide_eq_true_eq] at h
  exact ⟨h.1.2, h.2⟩

theorem daysInMonth_le (year : Int) (month : Nat) : Calendar.daysInMonth year month ≤ 31 := by
  rw [Calendar.daysInMonth]
  repeat' split
  all_goals omega

/-- Only the twelve months have days. -/
theorem month_of_daysInMonth_pos {year : Int} {month : Nat}
    (h : 0 < Calendar.daysInMonth year month) : 1 ≤ month ∧ month ≤ 12 := by
  rw [Calendar.daysInMonth] at h
  split at h
  case isTrue hfebruary => omega
  case isFalse =>
    split at h
    case isTrue hshort => omega
    case isFalse =>
      split at h
      case isTrue hlong => exact hlong
      case isFalse => exact absurd h (Nat.lt_irrefl 0)

theorem month_bounds (d : Date) : 1 ≤ d.month ∧ d.month ≤ 12 := by
  have h := d.day_bounds
  exact month_of_daysInMonth_pos (Nat.lt_of_lt_of_le h.1 h.2)

theorem day_le (d : Date) : d.day ≤ 31 :=
  Nat.le_trans d.day_bounds.2 (daysInMonth_le d.year d.month)

/-! ### The digits of a date -/

theorem yearText_of_le (h0 : 0 ≤ d.year) (h9 : d.year ≤ 9999) :
    yearText d.year = paddedText 4 d.year.toNat := by
  rw [yearText, if_pos ⟨h0, h9⟩]

theorem length_yearDigits (h9 : d.year ≤ 9999) : (paddedText 4 d.year.toNat).length = 4 :=
  length_paddedText_of_lt (by decide) (by show d.year.toNat < 10000; omega)

theorem length_monthDigits (d : Date) : (paddedText 2 d.month).length = 2 := by
  have h := d.month_bounds
  exact length_paddedText_of_lt (by decide) (by show d.month < 100; omega)

theorem length_dayDigits (d : Date) : (paddedText 2 d.day).length = 2 := by
  have h := d.day_le
  exact length_paddedText_of_lt (by decide) (by show d.day < 100; omega)

theorem length_compactText (h0 : 0 ≤ d.year) (h9 : d.year ≤ 9999) :
    d.compactText.length = 8 := by
  rw [compactText, yearText_of_le h0 h9, List.length_append, List.length_append,
    length_yearDigits h9, length_monthDigits, length_dayDigits]

theorem isDigit_of_mem_compactText (h0 : 0 ≤ d.year) (h9 : d.year ≤ 9999) {c : Char}
    (hc : c ∈ d.compactText) : isDigit c = true := by
  rw [compactText, yearText_of_le h0 h9] at hc
  rcases List.mem_append.mp hc with hc | hc
  · rcases List.mem_append.mp hc with hc | hc
    · exact isDigit_of_mem_paddedText hc
    · exact isDigit_of_mem_paddedText hc
  · exact isDigit_of_mem_paddedText hc

/-- No date is written with zeros only, since its month is not zero. -/
theorem compactText_ne_zeros (d : Date) : d.compactText.all (· == '0') = false := by
  refine Bool.eq_false_iff.mpr fun hall => ?_
  have hmonth : ∀ c ∈ paddedText 2 d.month, c = '0' := by
    intro c hc
    refine beq_iff_eq.mp (List.all_eq_true.mp hall c ?_)
    exact List.mem_append_left _ (List.mem_append_right _ hc)
  have hzeros : paddedText 2 d.month = List.replicate 2 '0' :=
    List.eq_replicate_iff.mpr ⟨d.length_monthDigits, hmonth⟩
  have hzero : d.month = 0 := by
    rw [← ofDigits_paddedText 2 d.month, hzeros]
    rfl
  exact absurd d.month_bounds.1 (by omega)

/-! ### The reader -/

/-- As many digits as the reader takes at most are one number, whatever follows them. -/
theorem takeNumber?_append {most : Nat} {digits : List Char} (rest : List Char)
    (hd : ∀ c ∈ digits, isDigit c = true) (hl : digits.length = most) (hpos : 0 < most) :
    takeNumber? most (digits ++ rest) = some (ofDigits digits, rest) := by
  have hself : (digits ++ []).takeWhile isDigit = digits ++ [].takeWhile isDigit :=
    List.takeWhile_append_of_pos hd
  have htake : ((digits ++ rest).take most).takeWhile isDigit = digits := by
    rw [← hl, List.take_left]
    rwa [List.append_nil, List.takeWhile_nil, List.append_nil] at hself
  have hne : digits.isEmpty = false := by
    cases digits with
    | nil => exact absurd hl (Nat.ne_of_lt hpos)
    | cons c r => rfl
  simp only [takeNumber?, htake, hne, Bool.false_eq_true, if_false, List.drop_left]

theorem takeNumber?_paddedText {most n : Nat} (rest : List Char)
    (hl : (paddedText most n).length = most) (hpos : 0 < most) :
    takeNumber? most (paddedText most n ++ rest) = some (n, rest) := by
  rw [takeNumber?_append rest (fun c hc => isDigit_of_mem_paddedText hc) hl hpos,
    ofDigits_paddedText]

/-- A text that starts with a digit has no blanks to be skipped. -/
theorem trimStart_of_digits {digits : List Char} (rest : List Char)
    (hd : ∀ c ∈ digits, isDigit c = true) (hpos : 0 < digits.length) :
    Text.trimStart (digits ++ rest) = digits ++ rest := by
  refine Text.dropFront_eq_self fun c hc => Text.not_isBlank_of_isDigit (hd c ?_)
  cases digits with
  | nil => exact absurd hpos (Nat.lt_irrefl 0)
  | cons e r =>
    cases hc
    exact List.mem_cons_self

theorem takeYear?_paddedText {n : Nat} (rest : List Char) (hl : (paddedText 4 n).length = 4) :
    takeYear? (paddedText 4 n ++ rest) = some ((n : Int), rest) := by
  have hd : ∀ c ∈ paddedText 4 n, isDigit c = true := fun c hc => isDigit_of_mem_paddedText hc
  have hread := takeNumber?_paddedText rest hl (by decide)
  rw [takeYear?, trimStart_of_digits rest hd (by omega)]
  cases hs : paddedText 4 n with
  | nil =>
    rw [hs] at hl
    exact absurd hl (by decide)
  | cons c r =>
    have hc : isDigit c = true := hd c (by rw [hs]; exact List.mem_cons_self)
    rw [hs, List.cons_append] at hread
    rw [List.cons_append]
    split
    case h_1 r' h =>
      cases h
      exact absurd hc (by decide)
    case h_2 r' h =>
      cases h
      exact absurd hc (by decide)
    case h_3 => rw [hread, Option.map_some]

/-- **A date reads back from its eight digits.** -/
theorem read?_compactText (h0 : 0 ≤ d.year) (h9 : d.year ≤ 9999) :
    read? .compact d.compactText = some d := by
  have hm : ∀ c ∈ paddedText 2 d.month, isDigit c = true :=
    fun c hc => isDigit_of_mem_paddedText hc
  have hd : ∀ c ∈ paddedText 2 d.day, isDigit c = true := fun c hc => isDigit_of_mem_paddedText hc
  have hml := d.length_monthDigits
  have hdl := d.length_dayDigits
  have hyear := takeYear?_paddedText (paddedText 2 d.month ++ (paddedText 2 d.day ++ []))
    (length_yearDigits h9)
  have hmonth := takeNumber?_paddedText (paddedText 2 d.day ++ []) hml (by decide)
  have hday := takeNumber?_paddedText [] hdl (by decide)
  have htext : d.compactText = paddedText 4 d.year.toNat ++
      (paddedText 2 d.month ++ (paddedText 2 d.day ++ [])) := by
    rw [compactText, yearText_of_le h0 h9, List.append_nil, List.append_assoc]
  have hof : of? (d.year.toNat : Int) d.month d.day = some d :=
    of?_eq_some_iff.mpr ⟨(Int.toNat_of_nonneg h0).symm, rfl, rfl⟩
  rw [read?, htext, hyear]
  show (takeNumber? 2 (Text.trimStart (paddedText 2 d.month ++ (paddedText 2 d.day ++ [])))).bind
    _ = some d
  rw [trimStart_of_digits _ hm (by omega), hmonth]
  show (takeNumber? 2 (Text.trimStart (paddedText 2 d.day ++ []))).bind _ = some d
  rw [trimStart_of_digits _ hd (by omega), hday]
  exact hof

end TableAccess.Date
