import TableAccess.Proofs.Date.Grammar

/-!
# The texts that are read as dates with hyphens

With hyphens between its numbers a date needs no fixed number of digits: a number ends where its
hyphen stands.  The reader still passes over blanks in front of each number and takes a sign in
front of the year, so the grammar has more texts than the one in which a date is written.
-/

namespace TableAccess.Date

open TableAccess.Number
open TableAccess.Text (isBlank trimStart FrontSharp)

variable {d : Date} {s : List Char}

/-- The texts of a date: a year, one or two digits for the month and one or two for the day, with
hyphens between them and blanks in front of each. -/
inductive HyphenText (d : Date) : List Char → Prop where
  | intro {w₀ y w₁ m w₂ e : List Char} (hw₀ : ∀ c ∈ w₀, isBlank c = true)
      (hyear : YearText y d.year) (hw₁ : ∀ c ∈ w₁, isBlank c = true)
      (hmonth : Digits m ∧ m.length ≤ 2 ∧ ofDigits m = d.month)
      (hw₂ : ∀ c ∈ w₂, isBlank c = true)
      (hday : Digits e ∧ e.length ≤ 2 ∧ ofDigits e = d.day) :
      HyphenText d (w₀ ++ (y ++ '-' :: (w₁ ++ (m ++ '-' :: (w₂ ++ e)))))

theorem takeSeparator?_hyphenated_eq_some_iff {r : List Char} :
    Pattern.hyphenated.takeSeparator? s = some r ↔ s = '-' :: r := by
  simp only [Pattern.takeSeparator?, Pattern.hyphenated, if_true, Bool.false_eq_true, if_false]
  split
  case h_1 => simp only [Option.some.injEq, List.cons.injEq, true_and]
  case h_2 hother =>
    refine iff_of_false nofun ?_
    rintro rfl
    exact hother r rfl

/-- The three numbers are taken one after the other, each up to its hyphen or to the end. -/
theorem read?_hyphenated_eq_some_iff :
    read? .hyphenated s = some d ↔
      ∃ r₁ r₂, takeYear? s = some (d.year, '-' :: r₁) ∧
        takeNumber? 2 (trimStart r₁) = some (d.month, '-' :: r₂) ∧
        takeNumber? 2 (trimStart r₂) = some (d.day, []) := by
  simp only [read?, Option.bind_eq_bind, Option.bind_eq_some_iff,
    takeSeparator?_hyphenated_eq_some_iff, Prod.exists]
  constructor
  · rintro ⟨year, -, hyear, r₁, rfl, month, -, hmonth, r₂, rfl, day, r₃, hday, h⟩
    simp only [Pattern.hyphenated, Bool.false_eq_true, if_false] at h
    split at h
    case isFalse => cases h
    case isTrue hnil =>
      obtain ⟨rfl, rfl, rfl⟩ := of?_eq_some_iff.mp h
      rw [List.isEmpty_iff] at hnil
      rw [hnil] at hday
      exact ⟨r₁, r₂, hyear, hmonth, hday⟩
  · rintro ⟨r₁, r₂, hyear, hmonth, hday⟩
    refine ⟨_, _, hyear, r₁, rfl, _, _, hmonth, r₂, rfl, _, _, hday, ?_⟩
    exact of?_eq_some_iff.mpr ⟨rfl, rfl, rfl⟩

theorem frontSharp_hyphen (r : List Char) : FrontSharp isDigit ('-' :: r) := by
  rintro c ⟨⟩
  rfl

/-- **The reader of dates with hyphens takes the texts of the grammar and nothing else.** -/
theorem read?_hyphenated_iff : read? .hyphenated s = some d ↔ HyphenText d s := by
  rw [read?_hyphenated_eq_some_iff]
  constructor
  · rintro ⟨r₁, r₂, hyear, hmonth, hday⟩
    obtain ⟨w₀, y, hw₀, hy, -, rfl⟩ := exists_of_takeYear? hyear
    obtain ⟨w₁, m, hw₁, hm, hmlength, -, rfl, hmvalue⟩ :=
      takeNumber?_trimStart_eq_some_iff.mp hmonth
    obtain ⟨w₂, e, hw₂, he, helength, -, rfl, hevalue⟩ :=
      takeNumber?_trimStart_eq_some_iff.mp hday
    rw [List.append_nil]
    exact .intro hw₀ hy hw₁ ⟨hm, hmlength, hmvalue.symm⟩ hw₂ ⟨he, helength, hevalue.symm⟩
  · rintro @⟨w₀, y, w₁, m, w₂, e, hw₀, hy, hw₁, ⟨hm, hmlength, hmvalue⟩, hw₂,
      ⟨he, helength, hevalue⟩⟩
    refine ⟨w₁ ++ (m ++ '-' :: (w₂ ++ e)), w₂ ++ e, ?_, ?_, ?_⟩
    · exact takeYear?_of_yearText hw₀ hy (Or.inr (frontSharp_hyphen _)) d.fitsInt64_year
    · exact takeNumber?_trimStart_eq_some_iff.mpr
        ⟨w₁, m, hw₁, hm, hmlength, Or.inr (frontSharp_hyphen _), rfl, hmvalue.symm⟩
    · refine takeNumber?_trimStart_eq_some_iff.mpr
        ⟨w₂, e, hw₂, he, helength, Or.inr ?_, by rw [List.append_nil], hevalue.symm⟩
      rintro c ⟨⟩

/-! ### Written dates -/

/-- A date is written as a text of the grammar, whatever its year is. -/
theorem hyphenText_text (d : Date) : HyphenText d d.text := by
  have hdigits : ∀ width n, Digits (paddedText width n) := by
    intro width n
    refine ⟨?_, fun c hc => isDigit_of_mem_paddedText hc⟩
    rw [paddedText]
    exact List.append_ne_nil_of_right_ne_nil _ (natText_ne_nil n)
  have hyear : YearText (yearText d.year) d.year := by
    rw [yearText]
    split
    case isTrue hplain =>
      have hlength := length_yearDigits hplain.2
      have h := YearText.plain (hdigits 4 d.year.toNat) (Nat.le_of_eq hlength)
      rwa [ofDigits_paddedText, Int.toNat_of_nonneg hplain.1] at h
    case isFalse =>
      split
      case isTrue hnegative =>
        have h := YearText.minus (hdigits 4 d.year.natAbs)
        rwa [ofDigits_paddedText, Int.ofNat_natAbs_of_nonpos (Int.le_of_lt hnegative),
          Int.neg_neg] at h
      case isFalse hnonneg =>
        have h := YearText.plus (hdigits 4 d.year.natAbs)
        rwa [ofDigits_paddedText, Int.natAbs_of_nonneg (Int.not_lt.mp hnonneg)] at h
  have hmonth := d.length_monthDigits
  have hday := d.length_dayDigits
  show HyphenText d ([] ++ (yearText d.year ++ '-' :: ([] ++ (paddedText 2 d.month ++
    '-' :: ([] ++ paddedText 2 d.day)))))
  have hblanks := List.forall_mem_nil fun c => Text.isBlank c = true
  exact .intro hblanks hyear hblanks
    ⟨hdigits 2 _, Nat.le_of_eq hmonth, ofDigits_paddedText 2 _⟩ hblanks
    ⟨hdigits 2 _, Nat.le_of_eq hday, ofDigits_paddedText 2 _⟩

/-- Where blanks may stand before the hyphens and at the end, there need not be any. -/
theorem read?_spaced_of_hyphenated (h : read? .hyphenated s = some d) :
    read? .spaced s = some d := by
  obtain ⟨r₁, r₂, hyear, hmonth, hday⟩ := read?_hyphenated_eq_some_iff.mp h
  have hseparator : ∀ r, Pattern.spaced.takeSeparator? ('-' :: r) = some r := fun _ => rfl
  have hof : of? d.year d.month d.day = some d := of?_eq_some_iff.mpr ⟨rfl, rfl, rfl⟩
  simp only [read?, hyear, hseparator, hmonth, hday, Option.bind_eq_bind, Option.bind_some, hof]
  rfl

/-- **Every date reads back from its text**, also before the year zero and beyond four digits. -/
theorem read?_spaced_text (d : Date) : read? .spaced d.text = some d :=
  read?_spaced_of_hyphenated (read?_hyphenated_iff.mpr d.hyphenText_text)

end TableAccess.Date
