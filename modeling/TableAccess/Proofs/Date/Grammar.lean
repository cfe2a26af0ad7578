import TableAccess.Proofs.Date.Reader

/-!
# The texts that are read as compact dates

The reader of compact dates is lenient.  It passes over blanks in front of each number, takes a sign
in front of the year, and is content with fewer digits than a date is written with.  The grammar of
this module says which texts it reads and as which dates; eight digits are one form among them, and
the only one of a text that consists of digits and has this length.
-/

namespace TableAccess.Date

open TableAccess.Number
open TableAccess.Text (isBlank trimStart FrontSharp)

variable {d : Date} {s r digits : List Char} {year : Int} {most n : Nat}

/-! ### The grammar -/

/-- A run of at least one digit. -/
structure Digits (digits : List Char) : Prop where
  nonempty : digits ≠ []
  all : ∀ c ∈ digits, isDigit c = true

/-- A year: at most four digits, or a sign and any number of them. -/
inductive YearText : List Char → Int → Prop where
  | plain {digits : List Char} (h : Digits digits) (hlength : digits.length ≤ 4) :
      YearText digits (ofDigits digits)
  | plus {digits : List Char} (h : Digits digits) : YearText ('+' :: digits) (ofDigits digits)
  | minus {digits : List Char} (h : Digits digits) : YearText ('-' :: digits) (-(ofDigits digits))

/-- The four digits that a year is written with. -/
def FourDigits (y : List Char) : Prop := y.length = 4 ∧ ∀ c ∈ y, isDigit c = true

/-- The texts of a date: a year, one or two digits for the month and one or two for the day, with
blanks in front of each.  Blanks may be missing behind a year of four digits and behind a month of
two. -/
inductive CompactText (d : Date) : List Char → Prop where
  | intro {w₀ y w₁ m w₂ e : List Char} (hw₀ : ∀ c ∈ w₀, isBlank c = true)
      (hyear : YearText y d.year) (hw₁ : ∀ c ∈ w₁, isBlank c = true)
      (hmonth : Digits m ∧ m.length ≤ 2 ∧ ofDigits m = d.month)
      (hw₂ : ∀ c ∈ w₂, isBlank c = true)
      (hday : Digits e ∧ e.length ≤ 2 ∧ ofDigits e = d.day)
      (hyearEnd : w₁ = [] → FourDigits y) (hmonthEnd : w₂ = [] → m.length = 2) :
      CompactText d (w₀ ++ (y ++ (w₁ ++ (m ++ (w₂ ++ e)))))

/-! ### Numbers -/

theorem frontSharp_of_blanks {w : List Char} (hw : ∀ c ∈ w, isBlank c = true) (hne : w ≠ [])
    (r : List Char) : FrontSharp isDigit (w ++ r) := by
  obtain ⟨b, v, rfl⟩ := List.exists_cons_of_ne_nil hne
  rintro c ⟨⟩
  cases hb : isDigit b with
  | false => rfl
  | true =>
    have hblank := hw b List.mem_cons_self
    rw [Text.not_isBlank_of_isDigit hb] at hblank
    cases hblank

theorem Digits.exists_eq_cons (h : Digits digits) :
    ∃ c v, digits = c :: v ∧ isDigit c = true := by
  obtain ⟨c, v, rfl⟩ := List.exists_cons_of_ne_nil h.nonempty
  exact ⟨c, v, rfl, h.all c List.mem_cons_self⟩

theorem Digits.not_frontSharp (h : Digits digits) (r : List Char) :
    ¬ FrontSharp isDigit (digits ++ r) := by
  obtain ⟨c, v, rfl, hc⟩ := h.exists_eq_cons
  intro hsharp
  rw [hsharp c rfl] at hc
  cases hc

theorem isDigit_of_mem_takeWhile {c : Char} (h : c ∈ s.takeWhile isDigit) : isDigit c = true :=
  List.all_eq_true.mp List.all_takeWhile c h

/-- The digits that a number takes: as many as it may have, or all up to something else. -/
theorem exists_leadingDigits (most : Nat) (s : List Char) :
    ∃ r, s = (s.take most).takeWhile isDigit ++ r ∧
      ((s.take most).takeWhile isDigit).length ≤ most ∧
        (((s.take most).takeWhile isDigit).length = most ∨ FrontSharp isDigit r) := by
  generalize hdigits : (s.take most).takeWhile isDigit = digits
  generalize hrest : (s.take most).dropWhile isDigit = rest
  have hsplit : digits ++ rest = s.take most := by
    rw [← hdigits, ← hrest, List.takeWhile_append_dropWhile]
  have hsharp : FrontSharp isDigit rest := hrest ▸ Text.frontSharp_dropFront isDigit _
  have hlength := congrArg List.length hsplit
  rw [List.length_take, List.length_append] at hlength
  refine ⟨rest ++ s.drop most, ?_, by omega, ?_⟩
  · rw [← List.append_assoc, hsplit, List.take_append_drop]
  · cases rest with
    | cons c v =>
      -- the run ended before its last place, so what follows stopped it
      right
      rintro x ⟨⟩
      exact hsharp c rfl
    | nil =>
      rw [List.length_nil] at hlength
      rcases Nat.lt_or_ge digits.length most with hlt | hge
      · right
        rw [List.drop_eq_nil_of_le (by omega)]
        rintro c ⟨⟩
      · exact Or.inl (by omega)

/-- Those digits are taken from a text that begins with them. -/
theorem leadingDigits_append (h : ∀ c ∈ digits, isDigit c = true) (hlength : digits.length ≤ most)
    (hend : digits.length = most ∨ FrontSharp isDigit r) :
    ((digits ++ r).take most).takeWhile isDigit = digits := by
  rw [List.take_append, List.take_of_length_le hlength]
  refine Text.takeWhile_append_of_frontSharp h ?_
  intro c hc
  rw [List.head?_take] at hc
  split at hc
  case isTrue => cases hc
  case isFalse hroom => exact hend.resolve_left (by omega) c hc

/-- A number is a run of digits that is as long as it may be, or ends where no digit follows. -/
theorem takeNumber?_eq_some_iff :
    takeNumber? most s = some (n, r) ↔
      ∃ digits, Digits digits ∧ digits.length ≤ most ∧
        (digits.length = most ∨ FrontSharp isDigit r) ∧ s = digits ++ r ∧ n = ofDigits digits := by
  constructor
  · intro h
    obtain ⟨rest, hs, hlength, hend⟩ := exists_leadingDigits most s
    rw [takeNumber?] at h
    generalize hdigits : (s.take most).takeWhile isDigit = digits at *
    have hall : ∀ c ∈ digits, isDigit c = true := by
      rw [← hdigits]
      exact fun c hc => isDigit_of_mem_takeWhile hc
    split at h
    case isTrue => cases h
    case isFalse hne =>
      cases h
      have hrest : s.drop digits.length = rest := by
        have hdrop := congrArg (List.drop digits.length) hs
        rwa [List.drop_left] at hdrop
      rw [hrest]
      exact ⟨digits, ⟨fun hnil => hne (List.isEmpty_iff.mpr hnil), hall⟩, hlength, hend, hs, rfl⟩
  · rintro ⟨digits, h, hlength, hend, rfl, rfl⟩
    have htake := leadingDigits_append h.all hlength hend
    have hne : digits.isEmpty = false := List.isEmpty_eq_false_iff.mpr h.nonempty
    simp only [takeNumber?, htake, hne, Bool.false_eq_true, if_false, List.drop_left]

theorem exists_append_trimStart (s : List Char) :
    ∃ w, (∀ c ∈ w, isBlank c = true) ∧ s = w ++ trimStart s :=
  Text.exists_append_dropFront isBlank s

/-- Blanks are passed over up to something else. -/
theorem trimStart_append {w : List Char} {c : Char} (hw : ∀ c ∈ w, isBlank c = true)
    (hc : isBlank c = false) (r : List Char) : trimStart (w ++ c :: r) = c :: r :=
  Text.dropFront_append_of_frontSharp hw (by rintro x ⟨⟩; exact hc)

theorem Digits.trimStart_append (h : Digits digits) {w : List Char}
    (hw : ∀ c ∈ w, isBlank c = true) (r : List Char) :
    trimStart (w ++ (digits ++ r)) = digits ++ r := by
  obtain ⟨c, v, rfl, hc⟩ := h.exists_eq_cons
  exact Date.trimStart_append hw (Text.not_isBlank_of_isDigit hc) (v ++ r)

/-- A number behind blanks. -/
theorem takeNumber?_trimStart_eq_some_iff :
    takeNumber? most (trimStart s) = some (n, r) ↔
      ∃ w digits, (∀ c ∈ w, isBlank c = true) ∧ Digits digits ∧ digits.length ≤ most ∧
        (digits.length = most ∨ FrontSharp isDigit r) ∧ s = w ++ (digits ++ r) ∧
          n = ofDigits digits := by
  rw [takeNumber?_eq_some_iff]
  constructor
  · rintro ⟨digits, h, hlength, hend, hs, rfl⟩
    obtain ⟨w, hw, hfront⟩ := exists_append_trimStart s
    rw [hs] at hfront
    exact ⟨w, digits, hw, h, hlength, hend, hfront, rfl⟩
  · rintro ⟨w, digits, hw, h, hlength, hend, rfl, rfl⟩
    exact ⟨digits, h, hlength, hend, h.trimStart_append hw r, rfl⟩

theorem takeLongNumber?_eq_some_iff :
    takeLongNumber? s = some (n, r) ↔
      ∃ digits, Digits digits ∧ FrontSharp isDigit r ∧ s = digits ++ r ∧ n = ofDigits digits ∧
        fitsInt64 n = true := by
  constructor
  · intro h
    rw [takeLongNumber?] at h
    generalize hdigits : s.takeWhile isDigit = digits at h
    split at h
    case isTrue => cases h
    case isFalse hne =>
      split at h
      case isFalse => cases h
      case isTrue hfits =>
        cases h
        have hall : ∀ c ∈ digits, isDigit c = true := by
          rw [← hdigits]
          exact fun c hc => isDigit_of_mem_takeWhile hc
        refine ⟨digits, ⟨fun hnil => hne (List.isEmpty_iff.mpr hnil), hall⟩,
          Text.frontSharp_dropFront isDigit s, ?_, rfl, hfits⟩
        rw [← hdigits, List.takeWhile_append_dropWhile]
  · rintro ⟨digits, h, hr, rfl, rfl, hfits⟩
    have htake := Text.takeWhile_append_of_frontSharp h.all hr
    have hdrop : (digits ++ r).dropWhile isDigit = r :=
      Text.dropFront_append_of_frontSharp h.all hr
    have hne : digits.isEmpty = false := List.isEmpty_eq_false_iff.mpr h.nonempty
    simp only [takeLongNumber?, htake, hdrop, hne, Bool.false_eq_true, if_false, hfits, if_true]

/-- Where a year ends: behind four digits, or where no digit follows. -/
def YearEnds (y r : List Char) : Prop := FourDigits y ∨ FrontSharp isDigit r

theorem exists_of_takeYear? (h : takeYear? s = some (year, r)) :
    ∃ w y, (∀ c ∈ w, isBlank c = true) ∧ YearText y year ∧ YearEnds y r ∧ s = w ++ (y ++ r) := by
  obtain ⟨w, hw, hfront⟩ := exists_append_trimStart s
  rw [takeYear?] at h
  split at h
  case h_1 rest hrest =>
    obtain ⟨⟨n, r'⟩, hn, heq⟩ := Option.map_eq_some_iff.mp h
    cases heq
    obtain ⟨digits, hd, hr, rfl, rfl, -⟩ := takeLongNumber?_eq_some_iff.mp hn
    exact ⟨w, _, hw, .minus hd, Or.inr hr, hfront.trans (congrArg (w ++ ·) hrest)⟩
  case h_2 rest hrest =>
    obtain ⟨⟨n, r'⟩, hn, heq⟩ := Option.map_eq_some_iff.mp h
    cases heq
    obtain ⟨digits, hd, hr, rfl, rfl, -⟩ := takeLongNumber?_eq_some_iff.mp hn
    exact ⟨w, _, hw, .plus hd, Or.inr hr, hfront.trans (congrArg (w ++ ·) hrest)⟩
  case h_3 =>
    obtain ⟨⟨n, r'⟩, hn, heq⟩ := Option.map_eq_some_iff.mp h
    cases heq
    obtain ⟨digits, hd, hlength, hend, hs, rfl⟩ := takeNumber?_eq_some_iff.mp hn
    rw [hs] at hfront
    exact ⟨w, digits, hw, .plain hd hlength, hend.imp (fun hl => ⟨hl, hd.all⟩) id, hfront⟩

/-- Behind a sign a year ends where no digit follows. -/
theorem YearEnds.frontSharp {c : Char} (hc : isDigit c = false) (h : YearEnds (c :: digits) r) :
    FrontSharp isDigit r := by
  refine h.resolve_left fun hfour => ?_
  rw [hfour.2 c List.mem_cons_self] at hc
  cases hc

theorem takeYear?_of_plain (h : Digits digits) (hlength : digits.length ≤ 4)
    (hend : YearEnds digits r) {w : List Char} (hw : ∀ c ∈ w, isBlank c = true) :
    takeYear? (w ++ (digits ++ r)) = some ((ofDigits digits : Int), r) := by
  have hread : takeNumber? 4 (digits ++ r) = some (ofDigits digits, r) :=
    takeNumber?_eq_some_iff.mpr ⟨digits, h, hlength, hend.imp And.left id, rfl, rfl⟩
  rw [takeYear?, h.trimStart_append hw]
  obtain ⟨c, v, rfl, hc⟩ := h.exists_eq_cons
  split
  case h_1 rest hrest =>
    cases hrest
    exact absurd hc (by decide)
  case h_2 rest hrest =>
    cases hrest
    exact absurd hc (by decide)
  case h_3 => rw [hread, Option.map_some]

theorem takeYear?_of_yearText {w y : List Char} (hw : ∀ c ∈ w, isBlank c = true)
    (hy : YearText y year) (hend : YearEnds y r) (hfits : fitsInt64 year.natAbs = true) :
    takeYear? (w ++ (y ++ r)) = some (year, r) := by
  cases hy with
  | plain h hlength => exact takeYear?_of_plain h hlength hend hw
  | @plus digits h =>
    have hread : takeLongNumber? (digits ++ r) = some (ofDigits digits, r) :=
      takeLongNumber?_eq_some_iff.mpr
        ⟨digits, h, hend.frontSharp (by decide), rfl, rfl, hfits⟩
    rw [takeYear?, List.cons_append, trimStart_append hw (by decide)]
    show (takeLongNumber? (digits ++ r)).map _ = _
    rw [hread, Option.map_some]
  | @minus digits h =>
    rw [Int.natAbs_neg, Int.natAbs_natCast] at hfits
    have hread : takeLongNumber? (digits ++ r) = some (ofDigits digits, r) :=
      takeLongNumber?_eq_some_iff.mpr
        ⟨digits, h, hend.frontSharp (by decide), rfl, rfl, hfits⟩
    rw [takeYear?, List.cons_append, trimStart_append hw (by decide)]
    show (takeLongNumber? (digits ++ r)).map _ = _
    rw [hread, Option.map_some]

/-! ### Dates -/

/-- Without separators the three numbers are taken one after the other, up to the end. -/
theorem read?_compact_eq_some_iff :
    read? .compact s = some d ↔
      ∃ r₁ r₂, takeYear? s = some (d.year, r₁) ∧
        takeNumber? 2 (trimStart r₁) = some (d.month, r₂) ∧
        takeNumber? 2 (trimStart r₂) = some (d.day, []) := by
  have hseparator : ∀ r, Pattern.compact.takeSeparator? r = some r := fun _ => rfl
  have hof : ∀ year month day, of? year month day = some d ↔
      year = d.year ∧ month = d.month ∧ day = d.day := by
    intro year month day
    rw [of?_eq_some_iff, eq_comm, @eq_comm _ d.month, @eq_comm _ d.day]
  simp only [read?, Option.bind_eq_bind, Option.bind_eq_some_iff, hseparator, Option.some.injEq,
    exists_eq_left', Prod.exists]
  constructor
  · rintro ⟨year, r₁, hyear, month, r₂, hmonth, day, r₃, hday, h⟩
    simp only [Pattern.compact, Bool.false_eq_true, if_false] at h
    split at h
    case isFalse => cases h
    case isTrue hnil =>
      obtain ⟨rfl, rfl, rfl⟩ := (hof _ _ _).mp h
      rw [List.isEmpty_iff] at hnil
      rw [hnil] at hday
      exact ⟨r₁, r₂, hyear, hmonth, hday⟩
  · rintro ⟨r₁, r₂, hyear, hmonth, hday⟩
    exact ⟨_, r₁, hyear, _, r₂, hmonth, _, [], hday, (hof _ _ _).mpr ⟨rfl, rfl, rfl⟩⟩

/-- Behind a number that may end there, blanks stand or the number is as long as it may be. -/
theorem frontSharp_append_iff {w : List Char} (hw : ∀ c ∈ w, isBlank c = true)
    (h : Digits digits) (r : List Char) :
    FrontSharp isDigit (w ++ (digits ++ r)) ↔ w ≠ [] := by
  constructor
  · rintro hsharp rfl
    exact h.not_frontSharp r hsharp
  · exact fun hne => frontSharp_of_blanks hw hne _

theorem fitsInt64_year (d : Date) : fitsInt64 d.year.natAbs = true := by
  have h := d.isDay
  simp only [Calendar.isDay, Bool.and_eq_true, decide_eq_true_eq] at h
  obtain ⟨⟨⟨hlow, hhigh⟩, -⟩, -⟩ := h
  rw [Calendar.minYear] at hlow
  rw [Calendar.maxYear] at hhigh
  rw [fitsInt64, Bool.and_eq_true, decide_eq_true_eq, decide_eq_true_eq, minInt64, maxInt64]
  omega

/-- **The reader of compact dates takes the texts of the grammar and nothing else.** -/
theorem read?_compact_iff : read? .compact s = some d ↔ CompactText d s := by
  rw [read?_compact_eq_some_iff]
  constructor
  · rintro ⟨r₁, r₂, hyear, hmonth, hday⟩
    obtain ⟨w₀, y, hw₀, hy, hyend, rfl⟩ := exists_of_takeYear? hyear
    obtain ⟨w₁, m, hw₁, hm, hmlength, hmend, rfl, hmvalue⟩ :=
      takeNumber?_trimStart_eq_some_iff.mp hmonth
    obtain ⟨w₂, e, hw₂, he, helength, -, rfl, hevalue⟩ :=
      takeNumber?_trimStart_eq_some_iff.mp hday
    rw [frontSharp_append_iff hw₂ he] at hmend
    rw [YearEnds, frontSharp_append_iff hw₁ hm] at hyend
    rw [List.append_nil]
    exact .intro hw₀ hy hw₁ ⟨hm, hmlength, hmvalue.symm⟩ hw₂ ⟨he, helength, hevalue.symm⟩
      (fun hnil => hyend.resolve_right (Decidable.not_not.mpr hnil))
      (fun hnil => hmend.resolve_right (Decidable.not_not.mpr hnil))
  · rintro @⟨w₀, y, w₁, m, w₂, e, hw₀, hy, hw₁, ⟨hm, hmlength, hmvalue⟩, hw₂,
      ⟨he, helength, hevalue⟩, hyend, hmend⟩
    refine ⟨w₁ ++ (m ++ (w₂ ++ (e ++ []))), w₂ ++ (e ++ []), ?_, ?_, ?_⟩
    · rw [List.append_nil]
      refine takeYear?_of_yearText hw₀ hy ?_ d.fitsInt64_year
      rw [YearEnds, frontSharp_append_iff hw₁ hm]
      exact Decidable.or_iff_not_imp_right.mpr fun hnil => hyend (Decidable.not_not.mp hnil)
    · refine takeNumber?_trimStart_eq_some_iff.mpr
        ⟨w₁, m, hw₁, hm, hmlength, ?_, rfl, hmvalue.symm⟩
      rw [frontSharp_append_iff hw₂ he]
      exact Decidable.or_iff_not_imp_right.mpr fun hnil => hmend (Decidable.not_not.mp hnil)
    · refine takeNumber?_trimStart_eq_some_iff.mpr
        ⟨w₂, e, hw₂, he, helength, Or.inr ?_, rfl, hevalue.symm⟩
      rintro c ⟨⟩

/-- A text of zeros is no date, for there is no month zero. -/
theorem CompactText.not_zeros (h : CompactText d s) : ¬ ∀ c ∈ s, c = '0' := by
  intro hzeros
  obtain @⟨w₀, y, w₁, m, w₂, e, -, -, -, ⟨-, -, hmonth⟩, -, -, -, -⟩ := h
  have hm : m = List.replicate m.length '0' :=
    List.eq_replicate_iff.mpr ⟨rfl, fun c hc => hzeros c (by simp [hc])⟩
  have hvalue : ofDigits m = 0 := by
    rw [hm, ← List.append_nil (List.replicate _ _), ofDigits_replicate_zero]
    rfl
  have hbounds := d.month_bounds
  omega

/-! ### Eight digits -/

/-- Eight digits. -/
def EightDigits (s : List Char) : Prop := s.length = 8 ∧ ∀ c ∈ s, isDigit c = true

/-- Four digits name the year, two the month and two the day. -/
structure NamesDay (s : List Char) (d : Date) : Prop where
  year : (ofDigits (s.take 4) : Int) = d.year
  month : ofDigits ((s.drop 4).take 2) = d.month
  day : ofDigits (s.drop 6) = d.day

/-- Eight digits in three parts. -/
theorem EightDigits.exists_parts (hs : EightDigits s) :
    ∃ y m e, s = y ++ (m ++ e) ∧ FourDigits y ∧ (Digits m ∧ m.length = 2) ∧
      (Digits e ∧ e.length = 2) := by
  obtain ⟨hlength, hall⟩ := hs
  have hmonth : ((s.drop 4).take 2).length = 2 := by
    rw [List.length_take, List.length_drop]
    omega
  have hday : ((s.drop 4).drop 2).length = 2 := by
    rw [List.length_drop, List.length_drop]
    omega
  refine ⟨s.take 4, (s.drop 4).take 2, (s.drop 4).drop 2, ?_, ⟨?_, ?_⟩, ⟨⟨?_, ?_⟩, hmonth⟩,
    ⟨⟨?_, ?_⟩, hday⟩⟩
  · rw [List.take_append_drop, List.take_append_drop]
  · rw [List.length_take]
    omega
  · exact fun c hc => hall c (List.mem_of_mem_take hc)
  · exact List.ne_nil_of_length_pos (by omega)
  · exact fun c hc => hall c (List.mem_of_mem_drop (List.mem_of_mem_take hc))
  · exact List.ne_nil_of_length_pos (by omega)
  · exact fun c hc => hall c (List.mem_of_mem_drop (List.mem_of_mem_drop hc))

theorem namesDay_append_iff {y m e : List Char} (hy : y.length = 4) (hm : m.length = 2) :
    NamesDay (y ++ (m ++ e)) d ↔
      (ofDigits y : Int) = d.year ∧ ofDigits m = d.month ∧ ofDigits e = d.day := by
  have hfront : (y ++ (m ++ e)).take 4 = y := by rw [← hy, List.take_left]
  have hback : (y ++ (m ++ e)).drop 4 = m ++ e := by rw [← hy, List.drop_left]
  have hmiddle : ((y ++ (m ++ e)).drop 4).take 2 = m := by rw [hback, ← hm, List.take_left]
  have hend : (y ++ (m ++ e)).drop 6 = e := by
    rw [show 6 = 4 + 2 from rfl, ← List.drop_drop, hback, ← hm, List.drop_left]
  constructor
  · rintro ⟨hyear, hmonth, hday⟩
    rw [hfront] at hyear
    rw [hmiddle] at hmonth
    rw [hend] at hday
    exact ⟨hyear, hmonth, hday⟩
  · rintro ⟨hyear, hmonth, hday⟩
    exact ⟨by rwa [hfront], by rwa [hmiddle], by rwa [hend]⟩

theorem eq_nil_of_blanks {w : List Char} (hw : ∀ c ∈ w, isBlank c = true)
    (hd : ∀ c ∈ w, isDigit c = true) : w = [] := by
  refine List.eq_nil_iff_forall_not_mem.mpr fun c hc => ?_
  have hblank := hw c hc
  rw [Text.not_isBlank_of_isDigit (hd c hc)] at hblank
  cases hblank

theorem yearText_iff_of_fourDigits {y : List Char} (hy : FourDigits y) :
    YearText y year ↔ (ofDigits y : Int) = year := by
  constructor
  · rintro (⟨-, -⟩ | - | -)
    · rfl
    · exact absurd (hy.2 '+' List.mem_cons_self) (by decide)
    · exact absurd (hy.2 '-' List.mem_cons_self) (by decide)
  · rintro rfl
    have hne : y ≠ [] := List.ne_nil_of_length_pos (by rw [hy.1]; decide)
    exact .plain ⟨hne, hy.2⟩ (Nat.le_of_eq hy.1)

/-- Eight digits are the date that they name. -/
theorem compactText_iff_namesDay (hs : EightDigits s) : CompactText d s ↔ NamesDay s d := by
  constructor
  · rintro @⟨w₀, y, w₁, m, w₂, e, hw₀, hy, hw₁, ⟨-, -, hmonth⟩, hw₂, ⟨-, -, hday⟩, hyend, hmend⟩
    -- there is no place for blanks among digits, so every number has its full length
    obtain rfl : w₀ = [] := eq_nil_of_blanks hw₀ fun c hc => hs.2 c (by simp [hc])
    obtain rfl : w₁ = [] := eq_nil_of_blanks hw₁ fun c hc => hs.2 c (by simp [hc])
    obtain rfl : w₂ = [] := eq_nil_of_blanks hw₂ fun c hc => hs.2 c (by simp [hc])
    have hfour := hyend rfl
    exact (namesDay_append_iff hfour.1 (hmend rfl)).mpr
      ⟨(yearText_iff_of_fourDigits hfour).mp hy, hmonth, hday⟩
  · obtain ⟨y, m, e, rfl, hy, ⟨hm, hmlength⟩, ⟨he, helength⟩⟩ := hs.exists_parts
    rw [namesDay_append_iff hy.1 hmlength]
    rintro ⟨hyear, hmonth, hday⟩
    show CompactText d ([] ++ (y ++ ([] ++ (m ++ ([] ++ e)))))
    exact .intro nofun ((yearText_iff_of_fourDigits hy).mpr hyear) nofun
      ⟨hm, Nat.le_of_eq hmlength, hmonth⟩ nofun ⟨he, Nat.le_of_eq helength, hday⟩
      (fun _ => hy) (fun _ => hmlength)

/-- Two texts of eight digits do not name the same day. -/
theorem NamesDay.unique (hs : EightDigits s) (hr : EightDigits r) (h : NamesDay s d)
    (h' : NamesDay r d) : s = r := by
  have hinj : ∀ {u v : List Char}, (∀ c ∈ u, isDigit c = true) → (∀ c ∈ v, isDigit c = true) →
      u.length = v.length → ofDigits u = ofDigits v → u = v :=
    fun hu hv hlength h => (ofDigitsFrom_inj hu hv hlength h).2
  obtain ⟨y, m, e, rfl, hy, ⟨hm, hmlength⟩, ⟨he, helength⟩⟩ := hs.exists_parts
  obtain ⟨y', m', e', rfl, hy', ⟨hm', hmlength'⟩, ⟨he', helength'⟩⟩ := hr.exists_parts
  obtain ⟨hyear, hmonth, hday⟩ := (namesDay_append_iff hy.1 hmlength).mp h
  obtain ⟨hyear', hmonth', hday'⟩ := (namesDay_append_iff hy'.1 hmlength').mp h'
  rw [hinj hy.2 hy'.2 (hy.1.trans hy'.1.symm) (Int.ofNat.inj (hyear.trans hyear'.symm)),
    hinj hm.all hm'.all (hmlength.trans hmlength'.symm) (hmonth.trans hmonth'.symm),
    hinj he.all he'.all (helength.trans helength'.symm) (hday.trans hday'.symm)]

end TableAccess.Date
