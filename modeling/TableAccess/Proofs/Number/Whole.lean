import TableAccess.Number.Printer
import TableAccess.Proofs.Number.Arithmetic
import TableAccess.Proofs.Number.Digits

/-!
# Whole numbers with decimals

A whole number that is written with decimals becomes a floating point number first.  That is a whole
number again, and its digits are exact whatever the number of decimals is.  So the only step at
which a number can change is the rounding to 53 bits.
-/

namespace TableAccess.Number

open Binary64

variable {x : Binary64} {c n places : Nat} {i : Int}

/-! ### What a decimal stands for -/

/-- The number of some digits, or of digits with a point among them. -/
def plainSize? (s : List Char) : Option Rat :=
  match s.dropWhile isDigit with
  | [] => (readNat? s).map Nat.cast
  | c :: fraction =>
    if c = '.' then do
      let whole ← readNat? (s.takeWhile isDigit)
      let part ← readNat? fraction
      some (whole + part / 10 ^ fraction.length)
    else none

/-- The number that a decimal stands for. -/
def plainValue? (s : List Char) : Option Rat :=
  (plainSize? (splitSign s).2).map fun v => if (splitSign s).1 then -v else v

/-- A fraction of zeros, with its point. -/
def zeroFraction (places : Nat) : List Char :=
  if places = 0 then [] else '.' :: List.replicate places '0'

/-- A whole number with a fraction of zeros. -/
def wholeText (places : Nat) (i : Int) : List Char := intText i ++ zeroFraction places

theorem readNat?_zeros (h : 0 < places) : readNat? (List.replicate places '0') = some 0 := by
  have hvalue := ofDigits_replicate_zero places []
  rw [List.append_nil] at hvalue
  have hempty : (List.replicate places '0').isEmpty = false :=
    List.isEmpty_eq_false_iff.mpr (List.ne_nil_of_length_pos (by rwa [List.length_replicate]))
  have hall : (List.replicate places '0').all isDigit = true :=
    List.all_eq_true.mpr fun c hc => by rw [(List.mem_replicate.mp hc).2]; rfl
  rw [readNat?, hempty, hall, hvalue]
  rfl

theorem plainSize?_zeroFraction (n places : Nat) :
    plainSize? (natText n ++ zeroFraction places) = some (n : Rat) := by
  have hdigits : ∀ c ∈ natText n, isDigit c = true := fun c hc => isDigit_of_mem_natText hc
  rw [plainSize?, List.dropWhile_append_of_pos hdigits, List.takeWhile_append_of_pos hdigits]
  by_cases hplaces : places = 0
  · rw [zeroFraction, if_pos hplaces, List.append_nil]
    show (readNat? (natText n)).map _ = _
    rw [readNat?_natText]
    rfl
  · rw [zeroFraction, if_neg hplaces]
    show (readNat? (natText n ++ [])).bind _ = _
    rw [List.append_nil, readNat?_natText]
    show (readNat? (List.replicate places '0')).bind _ = _
    rw [readNat?_zeros (Nat.pos_of_ne_zero hplaces)]
    simp

/-- A whole number with a fraction of zeros stands for that number. -/
theorem plainValue?_wholeText (places : Nat) (i : Int) :
    plainValue? (wholeText places i) = some (i : Rat) := by
  cases i with
  | ofNat n =>
    obtain ⟨c, r, hcr, hc⟩ := exists_natText_eq_cons n
    have hsign : splitSign (natText n ++ zeroFraction places) =
        (false, natText n ++ zeroFraction places) := by
      rw [hcr]
      exact splitSign_cons_of_isDigit hc _
    show plainValue? (natText n ++ zeroFraction places) = _
    rw [plainValue?, hsign, plainSize?_zeroFraction]
    simp
  | negSucc n =>
    show plainValue? ('-' :: (natText (n + 1) ++ zeroFraction places)) = _
    show (plainSize? (natText (n + 1) ++ zeroFraction places)).map _ = _
    rw [plainSize?_zeroFraction]
    show some (-((n + 1 : Nat) : Rat)) = _
    rw [Int.cast_negSucc]

/-! ### Digits of whole numbers -/

theorem natText_mul_pow (h : 0 < n) (places : Nat) :
    natText (n * 10 ^ places) = natText n ++ List.replicate places '0' := by
  induction places with
  | zero => rw [pow_zero, Nat.mul_one, List.replicate_zero, List.append_nil]
  | succ places ih =>
    have hpos : 0 < n * 10 ^ places := Nat.mul_pos h (Nat.pow_pos (by decide))
    have hdigit := Nat.toDigits_append_toDigits (b := 10) (d := 0) (by decide) hpos (by decide)
    have hnext : n * 10 ^ (places + 1) = 10 * (n * 10 ^ places) + 0 := by
      rw [pow_succ]
      ring
    rw [natText, hnext, ← hdigit, ← natText, ih, List.append_assoc, List.replicate_succ']
    rfl

/-- The point stands behind the digits of the whole number. -/
theorem withPoint_natText_mul_pow (n places : Nat) :
    withPoint places (natText (n * 10 ^ places)) = natText n ++ zeroFraction places := by
  have hpadded : List.replicate (places + 1 - (natText (n * 10 ^ places)).length) '0' ++
      natText (n * 10 ^ places) = natText n ++ List.replicate places '0' := by
    rcases Nat.eq_zero_or_pos n with rfl | hpos
    · have hzero : natText 0 = ['0'] := rfl
      rw [Nat.zero_mul, hzero, ← List.replicate_succ']
      rfl
    · have hlength : places + 1 - (natText n ++ List.replicate places '0').length = 0 := by
        have hne := List.length_pos_iff.mpr (natText_ne_nil n)
        rw [List.length_append, List.length_replicate]
        omega
      rw [natText_mul_pow hpos, hlength]
      rfl
  rw [withPoint, hpadded, zeroFraction]
  by_cases hplaces : places = 0
  · simp only [hplaces, if_true, List.replicate_zero]
  · have hcut : (natText n ++ List.replicate places '0').length - places = (natText n).length := by
      rw [List.length_append, List.length_replicate, Nat.add_sub_cancel]
    simp only [if_neg hplaces, hcut, List.take_left, List.drop_left]

theorem divNearestEven_mul {b : Nat} (h : 0 < b) (n : Nat) : divNearestEven (n * b) b = n := by
  rw [divNearestEven, Nat.mul_div_cancel n h, Nat.mul_mod_left, Nat.mul_zero, if_pos h]

/-- A size that is a whole number, in whole numbers only. -/
theorem significand_mul_pow (h : size c = n) :
    significand c * 2 ^ ((binade c : Int) - 1074).toNat =
      n * 2 ^ (-((binade c : Int) - 1074)).toNat := by
  have hpos : (0 : Rat) < 2 ^ (-((binade c : Int) - 1074)).toNat := by positivity
  rw [size, unit, ← pow_toNat_div two_ne_zero, ← mul_div_assoc, div_eq_iff hpos.ne'] at h
  exact_mod_cast h

/-- A floating point number that is a whole number is written exactly. -/
theorem fixedText_of_size (hx : code x < infinityBits) (h : size (code x) = n) (places : Nat) :
    fixedText places x = signText x ++ (natText n ++ zeroFraction places) := by
  have hvalue := significand_mul_pow h
  rw [fixedText, magnitude_of_code hx]
  simp only [Nat.pow_eq]
  rw [hvalue, Nat.mul_right_comm, divNearestEven_mul (Nat.pow_pos two_pos),
    withPoint_natText_mul_pow]

theorem truncate?_of_size (hx : code x < infinityBits) (h : size (code x) = n) :
    x.truncate? = some (signed x.negative n) := by
  have hvalue := significand_mul_pow h
  rw [truncate?, magnitude_of_code hx]
  simp only [Nat.pow_eq]
  rw [hvalue, Nat.mul_div_cancel n (Nat.pow_pos two_pos)]
  rfl

/-! ### Rounding to 53 bits -/

/-- The number has at most 53 bits, apart from zeros behind them. -/
def HasShortBits (n : Nat) : Prop := ∃ m e : Nat, m < 2 ^ 53 ∧ n = m * 2 ^ e

theorem unit_add_one (e : Nat) : unit (1074 + e) = 2 ^ e := by
  rw [unit_add, unit_one, mul_one]

/-- What is nearest to a whole number is a whole number with few bits. -/
theorem Binary64.Nearest.exists_whole (h : Nearest n c) : ∃ m, HasShortBits m ∧ size c = m := by
  rcases Nat.lt_or_ge n (2 ^ 53) with hlt | hge
  · obtain ⟨d, hd⟩ := exists_size_eq hlt.le 1074
    rw [unit_one, mul_one] at hd
    exact ⟨n, ⟨n, 0, hlt, by rw [pow_zero, Nat.mul_one]⟩, h.size_eq_of_exact ⟨d, hd⟩⟩
  · -- from here on the steps between the sizes are whole numbers
    have hfirst : size (2 ^ 53 + 1074 * 2 ^ 52) = 2 ^ 53 := by
      rw [size_of_le le_rfl (Or.inr (by norm_num)), unit_one]
      norm_num
    have hle : 2 ^ 53 + 1074 * 2 ^ 52 ≤ c := by
      refine (nearest_size _).mono h ?_
      rw [hfirst]
      exact_mod_cast hge
    obtain ⟨e, he⟩ : ∃ e, binade c = 1074 + e := by
      refine ⟨binade c - 1074, ?_⟩
      have := binade_mono hle
      rw [(⟨by norm_num, by norm_num, Or.inr le_rfl⟩ : Parts _ (2 ^ 52) 1075).binade_eq] at this
      omega
    refine ⟨significand c * 2 ^ e, ⟨_, e, (parts c).lt, rfl⟩, ?_⟩
    rw [size, he, unit_add_one]
    push_cast
    rfl

/-- Rounding changes exactly the numbers with too many bits. -/
theorem Binary64.Nearest.size_eq_iff (h : Nearest n c) : size c = n ↔ HasShortBits n := by
  constructor
  · intro hn
    obtain ⟨m, hm, hsize⟩ := h.exists_whole
    have hmn : n = m := by exact_mod_cast hn.symm.trans hsize
    rwa [hmn]
  · rintro ⟨m, e, hm, rfl⟩
    refine h.size_eq_of_exact ?_
    obtain ⟨d, hd⟩ := exists_size_eq hm.le (1074 + e)
    refine ⟨d, ?_⟩
    rw [hd, unit_add_one]
    push_cast
    rfl

/-- Numbers of 64 bits are moved by at most half a step of the last binade. -/
theorem Binary64.Nearest.abs_size_sub_le (h : Nearest n c) (hn : n ≤ 2 ^ 63) :
    |size c - n| ≤ 512 := by
  have hunit : unit 1084 = 1024 := by
    rw [unit_add_one 10]
    norm_num
  have hhigh : (n : Rat) ≤ 2 ^ 53 * unit 1084 := by
    have hcast : (n : Rat) ≤ (2 ^ 63 : Nat) := Nat.cast_le.mpr hn
    rw [hunit]
    push_cast at hcast
    linarith
  have herror := h.abs_sub_le (Nat.cast_nonneg n) 1084 hhigh
  rw [hunit] at herror
  linarith

/-! ### Whole numbers by way of floating point -/

/-- The whole number that a whole number becomes in floating point. -/
def floatInt (i : Int) : Int := (Binary64.ofInt i).truncate?.getD i

/-- The number `n` is what is left of `i` when it is rounded to 53 bits. -/
structure IsRounding (i n : Int) : Prop where
  nearest : ∃ c, Nearest i.natAbs c ∧ size c = n.natAbs
  negative : n < 0 ↔ i < 0

theorem IsRounding.eq_iff {n : Int} (h : IsRounding i n) : n = i ↔ HasShortBits i.natAbs := by
  obtain ⟨c, hc, hsize⟩ := h.nearest
  have hnegative := h.negative
  rw [← hc.size_eq_iff, hsize, Nat.cast_inj]
  omega

theorem IsRounding.abs_sub_le {n : Int} (h : IsRounding i n) (hi : i.natAbs ≤ 2 ^ 63) :
    |n - i| ≤ 512 := by
  obtain ⟨c, hc, hsize⟩ := h.nearest
  have hnegative := h.negative
  have herror := hc.abs_size_sub_le hi
  rw [hsize] at herror
  have hwhole : |(n.natAbs : Int) - i.natAbs| ≤ 512 := by exact_mod_cast herror
  rw [abs_le] at hwhole ⊢
  omega

/-- The text of a sign and the digits of a size. -/
theorem intText_signed {negative : Bool} (h : negative = true → 0 < n) :
    intText (signed negative n) = (if negative then ['-'] else []) ++ natText n := by
  cases negative with
  | false => rfl
  | true =>
    obtain ⟨m, rfl⟩ := Nat.exists_eq_succ_of_ne_zero (h rfl).ne'
    rfl

theorem natAbs_signed (negative : Bool) (n : Nat) : (signed negative n).natAbs = n := by
  cases negative with
  | false => exact Int.natAbs_natCast n
  | true => exact (Int.natAbs_neg n).trans (Int.natAbs_natCast n)

/-- Numbers of 64 bits are far from the end of the format. -/
theorem le_greatestSize (h : n ≤ 2 ^ 63) : (n : Rat) ≤ greatestSize := by
  have hcast : (n : Rat) ≤ (2 ^ 63 : Nat) := Nat.cast_le.mpr h
  have hpower : (2 : Rat) ^ 11 ≤ 2 ^ 971 := pow_le_pow_right₀ one_le_two (by norm_num)
  calc (n : Rat) ≤ (2 ^ 53 - 1) * 2 ^ 11 := hcast.trans (by norm_num)
    _ ≤ (2 ^ 53 - 1) * 2 ^ 971 := mul_le_mul_of_nonneg_left hpower (by norm_num)
    _ = greatestSize := rfl

theorem Binary64.Nearest.size_pos (h : Nearest n c) (hn : 0 < n) : 0 < size c := by
  -- one is a size, so what is nearest to a larger number is not below it
  obtain ⟨d, hd⟩ := exists_size_eq (m := 1) (by norm_num) 1074
  rw [unit_one, mul_one, Nat.cast_one] at hd
  have hone : size d ≤ n := by
    rw [hd]
    exact_mod_cast hn
  have hle := size_strictMono.monotone ((nearest_size d).mono h hone)
  rw [hd] at hle
  exact one_pos.trans_le hle

/-- The sign and the code of a whole number in floating point. -/
theorem ofInt_spec (hi : i.natAbs ≤ 2 ^ 63) :
    (Binary64.ofInt i).negative = decide (i < 0) ∧ code (.ofInt i) < infinityBits ∧
      Nearest i.natAbs (code (.ofInt i)) := by
  obtain ⟨c, hc, hbits⟩ := exists_nearest_roundedBits i.natAbs one_pos
  rw [Nat.cast_one, div_one] at hc
  have hfinite := hc.lt_infinityBits (le_greatestSize hi)
  have hbound := hfinite.trans infinityBits_lt
  rw [Binary64.ofInt, ofRatio, hbits, Nat.min_eq_left hfinite.le, negative_ofParts _ hbound,
    code_ofParts _ hbound]
  exact ⟨rfl, hfinite, hc⟩

/-- A whole number in floating point is a whole number again, with the same sign. -/
theorem exists_floatInt (hi : i.natAbs ≤ 2 ^ 63) :
    ∃ m : Nat, size (code (.ofInt i)) = m ∧ (i ≠ 0 → 0 < m) ∧
      floatInt i = signed (decide (i < 0)) m := by
  obtain ⟨hnegative, hfinite, hnearest⟩ := ofInt_spec hi
  obtain ⟨m, -, hsize⟩ := hnearest.exists_whole
  refine ⟨m, hsize, ?_, ?_⟩
  · intro hne
    have hpos := hnearest.size_pos (Int.natAbs_pos.mpr hne)
    rw [hsize] at hpos
    exact_mod_cast hpos
  · rw [floatInt, truncate?_of_size hfinite hsize, hnegative, Option.getD_some]

theorem isRounding_floatInt (hi : i.natAbs ≤ 2 ^ 63) : IsRounding i (floatInt i) := by
  obtain ⟨-, -, hnearest⟩ := ofInt_spec hi
  obtain ⟨m, hsize, hpos, hvalue⟩ := exists_floatInt hi
  rw [hvalue]
  refine ⟨⟨_, hnearest, by rw [hsize, natAbs_signed]⟩, ?_⟩
  rw [signed]
  split
  case isTrue h =>
    have hi := of_decide_eq_true h
    have hm := hpos (by omega)
    omega
  case isFalse h =>
    have hi := of_decide_eq_false (Bool.of_not_eq_true h)
    omega

/-- **A whole number is written as what floating point leaves of it.** -/
theorem fixedText_ofInt (hi : i.natAbs ≤ 2 ^ 63) (places : Nat) :
    fixedText places (.ofInt i) = wholeText places (floatInt i) := by
  obtain ⟨hnegative, hfinite, -⟩ := ofInt_spec hi
  obtain ⟨m, hsize, hpos, hvalue⟩ := exists_floatInt hi
  have hsign : decide (i < 0) = true → 0 < m := fun h => hpos (of_decide_eq_true h).ne
  rw [fixedText_of_size hfinite hsize, hvalue, wholeText, intText_signed hsign, signText, hnegative,
    List.append_assoc]

end TableAccess.Number
