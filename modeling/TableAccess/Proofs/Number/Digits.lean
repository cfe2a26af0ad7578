import TableAccess.Number.Digits

/-!
# Whole numbers and their digits

The digits of a number read back as that number, with leading zeros and with a sign too.  A run
of digits has no leading zero unless it is the single digit of zero.
-/

namespace TableAccess.Number

theorem isDigit_eq (c : Char) : isDigit c = c.isDigit := rfl

theorem toNat_of_isDigit {c : Char} (h : isDigit c = true) : 48 ≤ c.toNat ∧ c.toNat ≤ 57 := by
  rw [isDigit, Bool.and_eq_true, decide_eq_true_eq, decide_eq_true_eq] at h
  exact h

/-! ### Runs of digits -/

theorem ofDigitsFrom_eq (n : Nat) (digits : List Char) :
    ofDigitsFrom n digits = Nat.ofDigitChars 10 digits n := by
  have hstep : (fun (n : Nat) c => n * 10 + digitValue c) =
      fun n c => 10 * n + (c.toNat - '0'.toNat) := by
    funext n c
    rw [Nat.mul_comm]
    rfl
  rw [ofDigitsFrom, hstep, Nat.ofDigitChars_eq_foldl]

theorem ofDigitsFrom_append (n : Nat) (s t : List Char) :
    ofDigitsFrom n (s ++ t) = ofDigitsFrom (ofDigitsFrom n s) t := by
  rw [ofDigitsFrom, List.foldl_append]
  rfl

theorem ofDigits_replicate_zero (k : Nat) (s : List Char) :
    ofDigits (List.replicate k '0' ++ s) = ofDigits s := by
  rw [ofDigits, ofDigitsFrom_append, ofDigitsFrom_eq 0, Nat.ofDigitChars_replicate_zero,
    Nat.mul_zero, ofDigits]

/-- Further digits never make the number smaller. -/
theorem le_ofDigitsFrom (n : Nat) (s : List Char) : n ≤ ofDigitsFrom n s := by
  induction s generalizing n with
  | nil => exact Nat.le_refl n
  | cons c s ih =>
    have h : n * 10 + digitValue c ≤ ofDigitsFrom n (c :: s) := ih _
    omega

/-- Runs of digits of one length stand for different numbers. -/
theorem ofDigitsFrom_inj {n m : Nat} {s r : List Char} (hs : ∀ c ∈ s, isDigit c = true)
    (hr : ∀ c ∈ r, isDigit c = true) (hlength : s.length = r.length)
    (h : ofDigitsFrom n s = ofDigitsFrom m r) : n = m ∧ s = r := by
  induction s generalizing n m r with
  | nil =>
    obtain rfl : r = [] := List.eq_nil_of_length_eq_zero hlength.symm
    exact ⟨h, rfl⟩
  | cons c s ih =>
    cases r with
    | nil => cases hlength
    | cons e r =>
      obtain ⟨hc, hs⟩ := List.forall_mem_cons.mp hs
      obtain ⟨he, hr⟩ := List.forall_mem_cons.mp hr
      obtain ⟨hvalue, rfl⟩ := ih hs hr (Nat.succ.inj hlength) h
      have hcn := toNat_of_isDigit hc
      have hen := toNat_of_isDigit he
      simp only [digitValue] at hvalue
      have hce : c = e := Char.toNat_inj.mp (by omega)
      exact ⟨by omega, by rw [hce]⟩

/-! ### The digits of a number -/

theorem isDigit_of_mem_natText {n : Nat} {c : Char} (h : c ∈ natText n) : isDigit c = true := by
  rw [isDigit_eq]
  exact Nat.isDigit_of_mem_toDigits (by decide) (by decide) h

theorem natText_ne_nil (n : Nat) : natText n ≠ [] := Nat.toDigits_ne_nil

theorem ofDigits_natText (n : Nat) : ofDigits (natText n) = n := by
  rw [ofDigits, ofDigitsFrom_eq, natText, Nat.ofDigitChars_ten_toDigits]

/-- The first digit of a number that is not zero is not zero. -/
theorem head_natText_ne_zero {n : Nat} (h : 0 < n) : (natText n).head? ≠ some '0' := by
  induction n using Nat.strongRecOn with
  | ind n ih =>
    rw [natText, Nat.toDigits_eq_if (by decide)]
    split
    case isTrue hn =>
      have hd : ∀ m : Fin 10, 0 < m.val → Nat.digitChar m.val ≠ '0' := by decide
      intro h0
      exact hd ⟨n, hn⟩ h (Option.some.inj h0)
    case isFalse hn =>
      have hq := ih (n / 10) (by omega) (by omega)
      rw [natText] at hq
      rw [List.head?_append]
      cases hd : Nat.toDigits 10 (n / 10) with
      | nil => exact absurd hd Nat.toDigits_ne_nil
      | cons c r => rwa [hd] at hq

theorem length_natText_le {n k : Nat} (hk : 0 < k) (h : n < Nat.pow 10 k) :
    (natText n).length ≤ k := (Nat.length_toDigits_le_iff (by decide) hk).mpr h

/-! ### Leading zeros -/

theorem length_paddedText_of_lt {width n : Nat} (hw : 0 < width) (h : n < Nat.pow 10 width) :
    (paddedText width n).length = width := by
  have hdigits := length_natText_le hw h
  rw [paddedText, List.length_append, List.length_replicate]
  omega

theorem isDigit_of_mem_paddedText {width n : Nat} {c : Char} (h : c ∈ paddedText width n) :
    isDigit c = true := by
  rcases List.mem_append.mp h with h | h
  · rw [(List.mem_replicate.mp h).2]
    rfl
  · exact isDigit_of_mem_natText h

theorem ofDigits_paddedText (width n : Nat) : ofDigits (paddedText width n) = n := by
  rw [paddedText, ofDigits_replicate_zero, ofDigits_natText]

/-! ### Signed numbers -/

/-- What starts with a digit has no sign. -/
theorem splitSign_cons_of_isDigit {c : Char} (h : isDigit c = true) (r : List Char) :
    splitSign (c :: r) = (false, c :: r) := by
  rw [splitSign]
  · rintro r' hr
    cases hr
    exact absurd h (by decide)
  · rintro r' hr
    cases hr
    exact absurd h (by decide)

theorem splitSign_of_isDigit {s : List Char} (hs : ∀ c ∈ s, isDigit c = true) :
    splitSign s = (false, s) := by
  cases s with
  | nil => rfl
  | cons c r => exact splitSign_cons_of_isDigit (hs c List.mem_cons_self) r

theorem readNat?_natText (n : Nat) : readNat? (natText n) = some n := by
  have hempty : (natText n).isEmpty = false := by
    rw [List.isEmpty_eq_false_iff]
    exact natText_ne_nil n
  have hall : (natText n).all isDigit = true :=
    List.all_eq_true.mpr fun c hc => isDigit_of_mem_natText hc
  rw [readNat?, hempty, hall, ofDigits_natText]
  rfl

theorem isDigit_or_minus_of_mem_intText {i : Int} {c : Char} (h : c ∈ intText i) :
    isDigit c = true ∨ c = '-' := by
  cases i with
  | ofNat n => exact Or.inl (isDigit_of_mem_natText h)
  | negSucc n =>
    rcases List.mem_cons.mp h with h | h
    · exact Or.inr h
    · exact Or.inl (isDigit_of_mem_natText h)

theorem exists_natText_eq_cons (n : Nat) : ∃ c r, natText n = c :: r ∧ isDigit c = true := by
  obtain ⟨c, r, hcr⟩ := List.exists_cons_of_ne_nil (natText_ne_nil n)
  refine ⟨c, r, hcr, isDigit_of_mem_natText (n := n) ?_⟩
  rw [hcr]
  exact List.mem_cons_self

theorem exists_intText_eq_cons (i : Int) :
    ∃ c r, intText i = c :: r ∧ (isDigit c = true ∨ c = '-') := by
  cases i with
  | ofNat n =>
    obtain ⟨c, r, hcr, hc⟩ := exists_natText_eq_cons n
    exact ⟨c, r, hcr, Or.inl hc⟩
  | negSucc n => exact ⟨'-', natText (n + 1), rfl, Or.inr rfl⟩

theorem fitsInt64_toInt (i : Int64) : fitsInt64 i.toInt = true := by
  have hl := i.le_toInt
  have hh := i.toInt_lt
  rw [fitsInt64, minInt64, maxInt64, Bool.and_eq_true, decide_eq_true_eq, decide_eq_true_eq]
  omega

theorem toInt64?_toInt (i : Int64) : toInt64? i.toInt = some i := by
  rw [toInt64?, if_pos (fitsInt64_toInt i), Int64.ofInt_toInt]

theorem toInt64?_eq_some_iff {i : Int} {n : Int64} : toInt64? i = some n ↔ n.toInt = i := by
  constructor
  · intro h
    rw [toInt64?] at h
    split at h
    case isFalse => cases h
    case isTrue hfits =>
      cases h
      rw [fitsInt64, Bool.and_eq_true, decide_eq_true_eq, decide_eq_true_eq] at hfits
      exact Int64.toInt_ofInt_of_le hfits.1 (Int.lt_of_le_of_lt hfits.2 (by decide))
  · rintro rfl
    exact toInt64?_toInt n

theorem toInt64?_eq_none_iff {i : Int} :
    toInt64? i = none ↔ i < minInt64 ∨ maxInt64 < i := by
  rw [toInt64?, ite_eq_right_iff, fitsInt64, Bool.and_eq_true, decide_eq_true_eq,
    decide_eq_true_eq]
  constructor
  · intro h
    by_cases hlow : minInt64 ≤ i
    · exact Or.inr (Int.not_le.mp fun hhigh => absurd (h ⟨hlow, hhigh⟩) (Option.some_ne_none _))
    · exact Or.inl (Int.not_le.mp hlow)
  · rintro (hlow | hhigh) ⟨hl, hh⟩
    · exact absurd hl (Int.not_le.mpr hlow)
    · exact absurd hh (Int.not_le.mpr hhigh)

/-- A signed 64-bit number reads back from its text. -/
theorem readInt64?_intText (i : Int64) : readInt64? (intText i.toInt) = some i := by
  have hdigits : ∀ n, splitSign (natText n) = (false, natText n) :=
    fun n => splitSign_of_isDigit fun c hc => isDigit_of_mem_natText hc
  rw [readInt64?]
  cases h : i.toInt with
  | ofNat n =>
    rw [intText, hdigits]
    show (readNat? (natText n)).bind (fun n => toInt64? (signed false n)) = some i
    rw [readNat?_natText, Option.bind_some]
    show toInt64? (Int.ofNat n) = some i
    rw [← h, toInt64?_toInt]
  | negSucc n =>
    rw [intText]
    show (readNat? (natText (n + 1))).bind (fun n => toInt64? (signed true n)) = some i
    rw [readNat?_natText, Option.bind_some]
    show toInt64? (Int.negSucc n) = some i
    rw [← h, toInt64?_toInt]

end TableAccess.Number
