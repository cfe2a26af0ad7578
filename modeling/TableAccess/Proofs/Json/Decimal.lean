import TableAccess.Number.Printer
import TableAccess.Proofs.Json.Number
import TableAccess.Proofs.Number.Arithmetic
import TableAccess.Proofs.Number.Shortest

/-!
# Reading a written floating point number

The text of a floating point number has a point or an exponent, so the reader takes its digits for
a significand and scales that.  The significand and the exponent are those of the shortest
decimal, but a whole number in positional notation has one more digit behind its point.
-/

namespace TableAccess.Json

open TableAccess.Number

variable {rest w f : List Char} {mode : Mode} {negative : Bool} {sig : Nat} {e : Int}

/-! ### Fractions and exponents -/

/-- An exponent of ten with its sign. -/
def exponentText (i : Int) : List Char := (if 0 ≤ i then ['+'] else []) ++ intText i

theorem readExponent_of_ends (h : EndsNumber rest) :
    readExponent mode negative sig e rest = (floatOf mode negative sig e).map (·, rest) := by
  cases rest with
  | nil => rfl
  | cons c r =>
    obtain ⟨-, -, he, hE⟩ := h c rfl
    have hmark : (c == 'e' || c == 'E') = false := by
      rw [Bool.or_eq_false_iff, beq_eq_false_iff_ne, beq_eq_false_iff_ne]
      exact ⟨he, hE⟩
    rw [readExponent, hmark, if_neg Bool.false_ne_true]

theorem splitSign_exponentText (i : Int) (rest : List Char) :
    ∃ negative n, splitSign (exponentText i ++ rest) = (negative, natText n ++ rest) ∧
      signed negative n = i := by
  cases i with
  | ofNat n =>
    refine ⟨false, n, ?_, rfl⟩
    rw [exponentText, if_pos (show 0 ≤ Int.ofNat n from Int.natCast_nonneg n)]
    rfl
  | negSucc n =>
    refine ⟨true, n + 1, ?_, rfl⟩
    rw [exponentText, if_neg (by omega)]
    rfl

theorem readExponent_mark (i : Int) (h : EndsNumber rest) :
    readExponent mode negative sig e ('e' :: (exponentText i ++ rest)) =
      (floatOf mode negative sig (e + i)).map (·, rest) := by
  obtain ⟨below, n, hsplit, hsigned⟩ := splitSign_exponentText i rest
  have hempty : (natText n).isEmpty = false := by
    rw [List.isEmpty_eq_false_iff]
    exact natText_ne_nil n
  have hdigits : ∀ c ∈ natText n, isDigit c = true := fun c hc => isDigit_of_mem_natText hc
  rw [readExponent]
  simp only [hsplit, takeWhile_digits hdigits h.endsDigits, dropWhile_digits hdigits h.endsDigits,
    hempty, ofDigits_natText, hsigned, beq_self_eq_true, Bool.true_or, if_true, Bool.false_eq_true,
    if_false]

theorem readFraction_point (hf : ∀ c ∈ f, isDigit c = true) (hne : f ≠ [])
    (hsize : ofDigitsFrom sig f ≤ maxSignificand) (h : EndsDigits rest) :
    readFraction mode negative sig e ('.' :: (f ++ rest)) =
      readExponent mode negative (ofDigitsFrom sig f) (e - f.length) rest := by
  have hempty : ((f ++ rest).takeWhile isDigit).isEmpty = false := by
    rw [List.takeWhile_append_of_pos hf, List.isEmpty_eq_false_iff]
    exact List.append_ne_nil_of_left_ne_nil hne _
  rw [readFraction]
  simp only [hempty, takeDigits_append sig hf hsize h, dropWhile_isDigit_of_ends h,
    Bool.false_eq_true, if_false]

theorem readTail_point (r : List Char) :
    readTail mode negative sig ('.' :: r) = readFraction mode negative sig 0 ('.' :: r) := rfl

theorem readTail_mark (r : List Char) :
    readTail mode negative sig ('e' :: r) = readExponent mode negative sig 0 ('e' :: r) := rfl

/-! ### Notations of a decimal -/

/-- The texts of a floating point number without its sign, and the significand and the exponent
that they are read as. -/
inductive Written : List Char → Decimal → Prop where
  | point {w f : List Char} (hw : WholeDigits w) (hf : ∀ c ∈ f, isDigit c = true) (hne : f ≠ []) :
      Written (w ++ '.' :: f) ⟨ofDigits (w ++ f), -f.length⟩
  | mark {w : List Char} (hw : WholeDigits w) (i : Int) :
      Written (w ++ 'e' :: exponentText i) ⟨ofDigits w, i⟩
  | pointMark {w f : List Char} (hw : WholeDigits w) (hf : ∀ c ∈ f, isDigit c = true)
      (hne : f ≠ []) (i : Int) :
      Written (w ++ '.' :: (f ++ 'e' :: exponentText i)) ⟨ofDigits (w ++ f), i - f.length⟩

theorem WholeDigits.exists_append (hw : WholeDigits w) (s : List Char) :
    ∃ c r, w ++ s = c :: r ∧ isDigit c = true := by
  obtain ⟨c, r, rfl⟩ := List.exists_cons_of_ne_nil hw.ne_nil
  exact ⟨c, r ++ s, rfl, hw.digits c List.mem_cons_self⟩

/-- Each notation starts with a digit. -/
theorem Written.exists_eq_cons {s : List Char} {d : Decimal} (h : Written s d) :
    ∃ c r, s = c :: r ∧ isDigit c = true := by
  cases h with
  | point hw => exact hw.exists_append _
  | mark hw => exact hw.exists_append _
  | pointMark hw => exact hw.exists_append _

theorem ofDigits_append (w f : List Char) : ofDigits (w ++ f) = ofDigitsFrom (ofDigits w) f :=
  ofDigitsFrom_append 0 w f

/-- A notation whose digits fit the significand is read as its decimal. -/
theorem readSize_written {s : List Char} {d : Decimal} (hs : Written s d)
    (hsize : d.digits ≤ maxSignificand) (h : EndsNumber rest) :
    readSize mode negative (s ++ rest) =
      (floatOf mode negative d.digits d.exponent).map (·, rest) := by
  have hpoint : ∀ r, EndsDigits ('.' :: r) := endsDigits_cons rfl
  have hmark : ∀ r, EndsDigits ('e' :: r) := endsDigits_cons rfl
  have hwhole : ∀ {w f : List Char}, ofDigits (w ++ f) ≤ maxSignificand →
      ofDigits w ≤ maxSignificand := by
    intro w f hle
    rw [ofDigits_append] at hle
    exact (le_ofDigitsFrom _ f).trans hle
  cases hs with
  | @point w f hw hf hne =>
    rw [List.append_assoc, List.cons_append, readSize_whole mode hw (hwhole hsize) (hpoint _),
      readTail_point]
    simp only [ofDigits_append] at hsize ⊢
    rw [readFraction_point hf hne hsize h.endsDigits, readExponent_of_ends h, Int.zero_sub]
  | @mark w hw i =>
    rw [List.append_assoc, List.cons_append, readSize_whole mode hw hsize (hmark _), readTail_mark,
      readExponent_mark i h, Int.zero_add]
  | @pointMark w f hw hf hne i =>
    rw [List.append_assoc, List.cons_append, List.append_assoc, List.cons_append,
      readSize_whole mode hw (hwhole hsize) (hpoint _),
      readTail_point]
    simp only [ofDigits_append] at hsize ⊢
    rw [readFraction_point hf hne hsize (hmark _), readExponent_mark i h]
    congr 2
    ring

/-! ### The notation of the shortest decimal -/

/-- The significand and the exponent that are read where a decimal was written. -/
def taken (d : Decimal) : Decimal :=
  if 0 ≤ d.exponent ∧ d.exponent + (natText d.digits).length ≤ 16 then
    ⟨d.digits * 10 ^ (d.exponent + 1).toNat, -1⟩
  else d

theorem isDigit_of_mem_replicate {k : Nat} {c : Char} (h : c ∈ List.replicate k '0') :
    isDigit c = true := by
  rw [(List.mem_replicate.mp h).2]
  rfl

theorem ofDigitsFrom_replicate_zero (n k : Nat) :
    ofDigitsFrom n (List.replicate k '0') = n * 10 ^ k := by
  induction k generalizing n with
  | zero => rw [List.replicate_zero, pow_zero, Nat.mul_one]; rfl
  | succ k ih =>
    show ofDigitsFrom (n * 10 + 0) (List.replicate k '0') = _
    rw [ih, Nat.add_zero, pow_succ]
    ring

variable {n : Nat}

theorem wholeDigits_append (hn : 0 < n) {s : List Char} (hs : ∀ c ∈ s, isDigit c = true) :
    WholeDigits (natText n ++ s) := by
  refine ⟨?_, List.append_ne_nil_of_left_ne_nil (natText_ne_nil n) s, ?_⟩
  · intro c hc
    exact (List.mem_append.mp hc).elim isDigit_of_mem_natText (hs c)
  · intro hhead
    rw [List.head?_append_of_ne_nil _ (natText_ne_nil n)] at hhead
    exact absurd hhead (head_natText_ne_zero hn)

/-- The digits of a whole number, and one of its fraction. -/
theorem written_whole (hn : 0 < n) (k : Nat) :
    Written (natText n ++ List.replicate k '0' ++ ['.', '0']) ⟨n * 10 ^ (k + 1), -1⟩ := by
  have hvalue : ofDigits (natText n ++ List.replicate k '0' ++ ['0']) = n * 10 ^ (k + 1) := by
    rw [List.append_assoc, ofDigits_append, ofDigits_natText, ← List.replicate_succ',
      ofDigitsFrom_replicate_zero]
  have hwhole : WholeDigits (natText n ++ List.replicate k '0') :=
    wholeDigits_append hn fun c hc => isDigit_of_mem_replicate hc
  have hpoint := Written.point hwhole (f := ['0'])
    (fun c hc => isDigit_of_mem_replicate (k := 1) hc) (List.cons_ne_nil _ _)
  rw [hvalue] at hpoint
  exact hpoint

/-- A point within the digits, or in front of them behind zeros. -/
theorem written_withPoint (hn : 0 < n) {places : Nat} (hplaces : 0 < places) :
    Written (withPoint places (natText n)) ⟨n, -places⟩ := by
  rw [withPoint]
  simp only [if_neg hplaces.ne']
  generalize hp : List.replicate (places + 1 - (natText n).length) '0' ++ natText n = padded
  have hdigits : ∀ c ∈ padded, isDigit c = true := by
    intro c hc
    rw [← hp] at hc
    rcases List.mem_append.mp hc with hc | hc
    · exact isDigit_of_mem_replicate hc
    · exact isDigit_of_mem_natText hc
  have hlength : places + 1 ≤ padded.length := by
    rw [← hp, List.length_append, List.length_replicate]
    omega
  have hvalue : ofDigits (padded.take (padded.length - places) ++
      padded.drop (padded.length - places)) = n := by
    rw [List.take_append_drop, ← hp, ofDigits_replicate_zero, ofDigits_natText]
  have hplace : (padded.drop (padded.length - places)).length = places := by
    rw [List.length_drop]
    omega
  have hwhole : WholeDigits (padded.take (padded.length - places)) := by
    refine ⟨fun c hc => hdigits c (List.mem_of_mem_take hc), ?_, ?_⟩
    · apply List.ne_nil_of_length_pos
      rw [List.length_take]
      omega
    · -- a zero comes first only if it was put there, and then it is the only whole digit
      intro hhead
      rw [List.head?_take, if_neg (by omega)] at hhead
      rcases Nat.lt_or_ge places (natText n).length with hlt | hge
      · rw [← hp, Nat.sub_eq_zero_of_le (by omega)] at hhead
        exact absurd hhead (head_natText_ne_zero hn)
      · have hone : padded.length - places = 1 := by
          rw [← hp, List.length_append, List.length_replicate]
          omega
        cases padded with
        | nil => cases hhead
        | cons c r =>
          cases hhead
          rw [hone]
          rfl
  have hpoint := Written.point hwhole (f := padded.drop (padded.length - places))
    (fun c hc => hdigits c (List.mem_of_mem_drop hc)) (by
      apply List.ne_nil_of_length_pos
      omega)
  rw [hvalue, hplace] at hpoint
  exact hpoint

theorem scientificText_singleton {c : Char} (h : natText n = [c]) (e i : Int) :
    scientificText true ⟨n, e⟩ i = [c] ++ 'e' :: exponentText i := by
  rw [scientificText, exponentText]
  simp only [h, true_and]

theorem scientificText_cons {c d : Char} {r : List Char} (h : natText n = c :: d :: r)
    (e i : Int) :
    scientificText true ⟨n, e⟩ i = [c] ++ '.' :: (d :: r ++ 'e' :: exponentText i) := by
  rw [scientificText, exponentText]
  simp only [h, true_and]
  rfl

/-- The first digit in front of the point, and the exponent that belongs to that. -/
theorem written_scientific (hn : 0 < n) (e : Int) :
    Written (scientificText true ⟨n, e⟩ (e + (natText n).length - 1)) ⟨n, e⟩ := by
  have hvalue := ofDigits_natText n
  have hdigits : ∀ c ∈ natText n, isDigit c = true := fun c hc => isDigit_of_mem_natText hc
  have hhead := head_natText_ne_zero hn
  obtain ⟨c, r, hcr⟩ := List.exists_cons_of_ne_nil (natText_ne_nil n)
  have hc : WholeDigits [c] := by
    rw [hcr] at hdigits hhead
    refine ⟨fun d hd => hdigits d ?_, List.cons_ne_nil c [], fun h => absurd h hhead⟩
    rw [List.mem_singleton.mp hd]
    exact List.mem_cons_self
  cases r with
  | nil =>
    have hi : e + ((natText n).length : Int) - 1 = e := by
      rw [hcr, List.length_singleton]
      omega
    have hwritten := Written.mark hc e
    rw [← hcr, hvalue] at hwritten
    rw [hi, scientificText_singleton hcr, ← hcr]
    exact hwritten
  | cons d r =>
    have hi : e + ((natText n).length : Int) - 1 - (d :: r).length = e := by
      rw [hcr, List.length_cons]
      push_cast
      omega
    have hwritten := Written.pointMark hc (f := d :: r)
      (fun b hb => hdigits b (by rw [hcr]; exact List.mem_cons_of_mem c hb)) (List.cons_ne_nil d r)
      (e + (natText n).length - 1)
    rw [hi, show [c] ++ d :: r = natText n from hcr.symm, hvalue] at hwritten
    rw [scientificText_cons hcr]
    exact hwritten

/-- **The text of a decimal is read as its digits**, in every notation. -/
theorem written_decimalText {d : Decimal} (hd : 0 < d.digits) :
    Written (Layout.json.decimalText d) (taken d) := by
  obtain ⟨n, e⟩ := d
  show Written (if n = 0 ∨ (-5 ≤ e + (natText n).length - 1 ∧ e + (natText n).length - 1 ≤ 15)
    then positionalText true ⟨n, e⟩ else scientificText true ⟨n, e⟩ (e + (natText n).length - 1)) _
  have hn : 0 < n := hd
  have hlength : 0 < (natText n).length := List.length_pos_of_ne_nil (natText_ne_nil n)
  rw [taken, positionalText]
  simp only [hn.ne', false_or, if_true]
  by_cases hwhole : 0 ≤ e
  · by_cases hlarge : e + (natText n).length ≤ 16
    · rw [if_pos ⟨by omega, by omega⟩, if_pos hwhole, if_pos ⟨hwhole, hlarge⟩]
      have hk : (e + 1).toNat = e.toNat + 1 := by omega
      rw [hk]
      exact written_whole hn e.toNat
    · rw [if_neg (by omega), if_neg (by omega)]
      exact written_scientific hn e
  · rw [if_neg (fun h : 0 ≤ e ∧ _ => hwhole h.1)]
    by_cases hsmall : -5 ≤ e + (natText n).length - 1 ∧ e + (natText n).length - 1 ≤ 15
    · rw [if_pos hsmall, if_neg hwhole]
      have hplaces : 0 < (-e).toNat := by omega
      have hwritten := written_withPoint hn hplaces
      have he : -((-e).toNat : Int) = e := by omega
      rw [he] at hwritten
      exact hwritten
    · rw [if_neg hsmall]
      exact written_scientific hn e

/-! ### What is read where a number was written -/

open Binary64

/-- The shortest decimal of a finite number. -/
def decimalOf (x : Binary64) : Decimal :=
  shortest .toEven (significand (code x)) ((binade (code x) : Int) - 1074)

variable {x : Binary64} {c : Nat}

theorem text_eq (hx : code x < infinityBits) :
    Layout.json.text x = signText x ++ Layout.json.decimalText (decimalOf x) := by
  rw [Layout.text, magnitude_of_code hx]
  rfl

theorem decimalOf_of_zero (hx : code x = 0) : decimalOf x = ⟨0, 0⟩ := by
  rw [decimalOf, hx]
  rfl

theorem spells_decimalOf (hx : code x < infinityBits) (hpos : 0 < code x) :
    (decimalOf x).Spells (code x) := by
  obtain ⟨c, hc⟩ : ∃ c, code x = c + 1 := ⟨code x - 1, by omega⟩
  rw [decimalOf]
  rw [hc] at hx ⊢
  exact spells_shortest .toEven hx

theorem lt_pow_length (n : Nat) : n < 10 ^ (natText n).length :=
  (Nat.length_toDigits_le_iff (by norm_num) (List.length_pos_of_ne_nil (natText_ne_nil n))).mp
    le_rfl

/-- The value that is read is the one that was written. -/
theorem spells_taken {d : Decimal} (h : d.Spells c) : (taken d).Spells c := by
  obtain ⟨hnearest, hpos, hle⟩ := h
  rw [taken]
  split
  case isFalse => exact ⟨hnearest, hpos, hle⟩
  case isTrue hwhole =>
    obtain ⟨hexponent, hlarge⟩ := hwhole
    refine ⟨?_, Nat.mul_pos hpos (Nat.pow_pos (by norm_num)), ?_⟩
    · have hvalue : Decimal.value ⟨d.digits * 10 ^ (d.exponent + 1).toNat, -1⟩ = d.value := by
        have hk : ((d.exponent + 1).toNat : Int) + -1 = d.exponent := by omega
        rw [Decimal.value, Decimal.value]
        push_cast
        rw [mul_assoc, ← zpow_natCast, ← zpow_add₀ (by norm_num), hk]
      rw [hvalue]
      exact hnearest
    · calc d.digits * 10 ^ (d.exponent + 1).toNat
          ≤ 10 ^ (natText d.digits).length * 10 ^ (d.exponent + 1).toNat :=
            Nat.mul_le_mul_right _ (lt_pow_length d.digits).le
        _ = 10 ^ ((natText d.digits).length + (d.exponent + 1).toNat) := (pow_add _ _ _).symm
        _ ≤ 10 ^ 17 := Nat.pow_le_pow_right (by norm_num) (by omega)

theorem written_decimalOf (hx : code x < infinityBits) :
    Written (Layout.json.decimalText (decimalOf x)) (taken (decimalOf x)) ∧
      (taken (decimalOf x)).digits ≤ maxSignificand := by
  rcases Nat.eq_zero_or_pos (code x) with hzero | hpos
  · rw [decimalOf_of_zero hzero]
    exact ⟨.point (w := ['0']) (f := ['0']) (wholeDigits_natText 0)
      (fun c hc => isDigit_of_mem_replicate (k := 1) hc) (List.cons_ne_nil _ _), by decide⟩
  · have hspells := spells_decimalOf hx hpos
    exact ⟨written_decimalText hspells.pos, (spells_taken hspells).le.trans (by decide)⟩

/-- A text that starts with a digit has no sign. -/
theorem readNumber_signText {s : List Char} (hs : ∃ c r, s = c :: r ∧ isDigit c = true) :
    readNumber mode (signText x ++ s) = readSize mode x.negative s := by
  rw [signText]
  cases x.negative with
  | true => rfl
  | false =>
    obtain ⟨c, r, rfl, hc⟩ := hs
    rw [if_neg Bool.false_ne_true, List.nil_append, readNumber]
    rintro r' hr
    cases hr
    exact absurd hc (by decide)

/-- The text of a number starts with a digit or the sign. -/
theorem exists_text_eq_cons (hx : code x < infinityBits) :
    ∃ c r, Layout.json.text x = c :: r ∧ (isDigit c = true ∨ c = '-') := by
  obtain ⟨c, r, hcr, hc⟩ := (written_decimalOf hx).1.exists_eq_cons
  rw [text_eq hx, signText]
  cases x.negative with
  | true => exact ⟨'-', _, rfl, Or.inr rfl⟩
  | false => exact ⟨c, r, hcr, Or.inl hc⟩

/-- **A written floating point number is read as its digits**, whatever follows that does not
continue a number. -/
theorem readNumber_text (hx : code x < infinityBits) (h : EndsNumber rest) :
    readNumber mode (Layout.json.text x ++ rest) =
      (floatOf mode x.negative (taken (decimalOf x)).digits (taken (decimalOf x)).exponent).map
        (·, rest) := by
  obtain ⟨hwritten, hsize⟩ := written_decimalOf hx
  obtain ⟨c, r, hcr, hc⟩ := hwritten.exists_eq_cons
  rw [text_eq hx, List.append_assoc, readNumber_signText]
  · exact readSize_written hwritten hsize h
  · exact ⟨c, r ++ rest, by rw [hcr, List.cons_append], hc⟩

end TableAccess.Json
