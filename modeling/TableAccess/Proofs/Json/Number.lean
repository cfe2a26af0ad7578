import TableAccess.Json.Number
import TableAccess.Proofs.Number.Digits

/-!
# Reading a written whole number

A whole number of 64 bits, signed or not, is read exactly: its digits fit the significand, so
none is left over, and what follows must not look like the number going on.
-/

namespace TableAccess.Json

open TableAccess.Number

variable {rest digits : List Char}

/-- No digit, point or exponent mark stands at the front. -/
def EndsNumber (rest : List Char) : Prop :=
  ∀ c, rest.head? = some c → isDigit c = false ∧ c ≠ '.' ∧ c ≠ 'e' ∧ c ≠ 'E'

/-- No digit stands at the front. -/
def EndsDigits (rest : List Char) : Prop := ∀ c, rest.head? = some c → isDigit c = false

/-- Digits in front of a point or at the end: zero is one digit, and no other run starts with
it. -/
structure WholeDigits (w : List Char) : Prop where
  digits : ∀ c ∈ w, isDigit c = true
  ne_nil : w ≠ []
  zero : w.head? = some '0' → w = ['0']

/-- The whole numbers that fit 64 bits, signed or not. -/
def FitsWord (i : Int) : Prop := -9223372036854775808 ≤ i ∧ i ≤ 18446744073709551615

theorem fitsWord_toInt (i : Int64) : FitsWord i.toInt := by
  have hl := i.le_toInt
  have hh := i.toInt_lt
  constructor
  · omega
  · omega

theorem endsNumber_nil : EndsNumber [] := by
  intro c h
  cases h

theorem EndsNumber.endsDigits (h : EndsNumber rest) : EndsDigits rest := fun c hc => (h c hc).1

theorem endsDigits_cons {c : Char} (hc : isDigit c = false) (r : List Char) :
    EndsDigits (c :: r) := by
  rintro d ⟨⟩
  exact hc

theorem takeWhile_isDigit_of_ends (h : EndsDigits rest) : rest.takeWhile isDigit = [] := by
  cases rest with
  | nil => rfl
  | cons c r =>
    have hc : isDigit c = false := h c rfl
    exact List.takeWhile_cons_of_neg (by rw [hc]; exact Bool.false_ne_true)

theorem dropWhile_isDigit_of_ends (h : EndsDigits rest) : rest.dropWhile isDigit = rest := by
  cases rest with
  | nil => rfl
  | cons c r =>
    have hc : isDigit c = false := h c rfl
    exact List.dropWhile_cons_of_neg (by rw [hc]; exact Bool.false_ne_true)

theorem takeWhile_digits (hdigits : ∀ c ∈ digits, isDigit c = true) (h : EndsDigits rest) :
    (digits ++ rest).takeWhile isDigit = digits := by
  rw [List.takeWhile_append_of_pos hdigits, takeWhile_isDigit_of_ends h, List.append_nil]

theorem dropWhile_digits (hdigits : ∀ c ∈ digits, isDigit c = true) (h : EndsDigits rest) :
    (digits ++ rest).dropWhile isDigit = rest := by
  rw [List.dropWhile_append_of_pos hdigits, dropWhile_isDigit_of_ends h]

/-- Digits that stay in range together are all taken. -/
theorem takeDigits_append (sig : Nat) (hd : ∀ c ∈ digits, isDigit c = true)
    (hsize : ofDigitsFrom sig digits ≤ maxSignificand) (h : EndsDigits rest) :
    takeDigits sig (digits ++ rest) = (ofDigitsFrom sig digits, digits.length, rest) := by
  induction digits generalizing sig with
  | nil =>
    cases rest with
    | nil => rfl
    | cons c r =>
      have hc : isDigit c = false := h c rfl
      rw [List.nil_append, takeDigits, hc, Bool.false_and, if_neg Bool.false_ne_true]
      rfl
  | cons c digits ih =>
    have hstep : ofDigitsFrom sig (c :: digits) =
        ofDigitsFrom (sig * 10 + digitValue c) digits := rfl
    have hle := le_ofDigitsFrom (sig * 10 + digitValue c) digits
    have hc : (isDigit c && decide (sig * 10 + digitValue c ≤ maxSignificand)) = true := by
      rw [hd c List.mem_cons_self, Bool.true_and, decide_eq_true_eq]
      omega
    rw [hstep] at hsize
    rw [List.cons_append, takeDigits, if_pos hc,
      ih _ (fun d hm => hd d (List.mem_cons_of_mem c hm)) hsize]
    rfl

/-- The number of a sign and a significand without a point or an exponent behind it. -/
def wholeNumber (negative : Bool) (sig : Nat) : JsonNumber :=
  if !negative then .integer sig
  else if 0 < sig ∧ sig ≤ Nat.pow 2 63 then .integer (-(sig : Int))
  else .float (Binary64.ofNat sig).neg

theorem readTail_whole {mode : Mode} {negative : Bool} {sig : Nat} (h : EndsNumber rest) :
    readTail mode negative sig rest = some (wholeNumber negative sig, rest) := by
  rw [readTail]
  · rw [wholeNumber]
    cases negative with
    | false => rfl
    | true =>
      simp only [Bool.not_true, Bool.false_eq_true, if_false]
      split <;> rfl
  · intro r hr
    exact (h '.' (by rw [hr]; rfl)).2.1 rfl
  · intro r hr
    exact (h 'e' (by rw [hr]; rfl)).2.2.1 rfl
  · intro r hr
    exact (h 'E' (by rw [hr]; rfl)).2.2.2 rfl

/-- The whole number of a sign and a significand that fits. -/
theorem readTail_of_ends (mode : Mode) {negative : Bool} {sig : Nat} (h : EndsNumber rest)
    (hneg : negative = true → 0 < sig ∧ sig ≤ 9223372036854775808) :
    readTail mode negative sig rest = some (.integer (signed negative sig), rest) := by
  rw [readTail_whole h, wholeNumber]
  cases negative with
  | false => rfl
  | true =>
    have hrange : 0 < sig ∧ sig ≤ Nat.pow 2 63 := hneg rfl
    rw [if_neg (by decide), if_pos hrange]
    rfl

theorem wholeDigits_natText (n : Nat) : WholeDigits (natText n) := by
  refine ⟨fun c hc => isDigit_of_mem_natText hc, natText_ne_nil n, ?_⟩
  intro hhead
  rcases Nat.eq_zero_or_pos n with rfl | hpos
  · rfl
  · exact absurd hhead (head_natText_ne_zero hpos)

/-- The reader takes whole digits that fit the significand. -/
theorem readSize_whole (mode : Mode) {negative : Bool} {w : List Char} (hw : WholeDigits w)
    (hsize : ofDigits w ≤ maxSignificand) (h : EndsDigits rest) :
    readSize mode negative (w ++ rest) = readTail mode negative (ofDigits w) rest := by
  obtain ⟨hdigits, hne, hzero⟩ := hw
  obtain ⟨c, r, rfl⟩ := List.exists_cons_of_ne_nil hne
  by_cases hc0 : c = '0'
  · -- zero is one digit, and the reader wants none behind it
    subst hc0
    obtain rfl : r = [] := (List.cons.inj (hzero rfl)).2
    rw [List.singleton_append]
    cases rest with
    | nil => rfl
    | cons d r =>
      have hd : isDigit d = false := h d rfl
      simp only [readSize, hd, Bool.false_eq_true, if_false, beq_self_eq_true, if_true]
      rfl
  · have hc : isDigit c = true := hdigits c List.mem_cons_self
    have hc0' : (c == '0') = false := beq_eq_false_iff_ne.mpr hc0
    have hfrom : ofDigitsFrom (digitValue c) r = ofDigits (c :: r) := by
      rw [ofDigits]
      show _ = ofDigitsFrom (0 * 10 + digitValue c) r
      rw [Nat.zero_mul, Nat.zero_add]
    have htake := takeDigits_append (digitValue c)
      (fun d hd => hdigits d (List.mem_cons_of_mem c hd)) (by rw [hfrom]; exact hsize) h
    simp only [List.cons_append, readSize, hc0', hc, htake, hfrom, takeWhile_isDigit_of_ends h,
      List.length_nil, Bool.false_eq_true, if_false, if_true]

theorem readSize_natText (mode : Mode) {negative : Bool} {n : Nat} (h : EndsNumber rest)
    (hsize : n ≤ maxSignificand) (hneg : negative = true → 0 < n ∧ n ≤ 9223372036854775808) :
    readSize mode negative (natText n ++ rest) = some (.integer (signed negative n), rest) := by
  have hvalue := ofDigits_natText n
  rw [readSize_whole mode (wholeDigits_natText n) (by rw [hvalue]; exact hsize) h.endsDigits,
    hvalue]
  exact readTail_of_ends mode h hneg

/-- **A whole number of 64 bits reads back from its text.** -/
theorem readNumber_intText (mode : Mode) {i : Int} (hi : FitsWord i) (h : EndsNumber rest) :
    readNumber mode (intText i ++ rest) = some (.integer i, rest) := by
  obtain ⟨hl, hh⟩ := hi
  cases i with
  | ofNat n =>
    have hn : n ≤ maxSignificand := Int.ofNat_le.mp hh
    have hread : readSize mode false (natText n ++ rest) = some (.integer (Int.ofNat n), rest) :=
      readSize_natText mode h hn fun hfalse => absurd hfalse (by decide)
    rw [intText, readNumber]
    · exact hread
    · intro r hr
      obtain ⟨c, s, hcs, hc⟩ := exists_natText_eq_cons n
      rw [hcs] at hr
      cases hr
      exact absurd hc (by decide)
  | negSucc n =>
    have hn : n + 1 ≤ 9223372036854775808 := by omega
    have hmax : n + 1 ≤ maxSignificand := by
      rw [maxSignificand]
      omega
    have hread : readSize mode true (natText (n + 1) ++ rest) =
        some (.integer (.negSucc n), rest) :=
      readSize_natText mode h hmax fun _ => ⟨Nat.succ_pos n, hn⟩
    rw [intText, List.cons_append, readNumber]
    exact hread

end TableAccess.Json
