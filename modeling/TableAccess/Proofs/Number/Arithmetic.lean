import Mathlib.Algebra.Order.Archimedean.Basic
import TableAccess.Proofs.Number.Rounding

/-!
# Products and quotients of floating point numbers

A finite number is its sign and a finite code.  The product and the quotient of two of them have
the code that is nearest to the exact product or quotient of their sizes.  In the normal range the
error of rounding is small in relation to the value, and such errors multiply.
-/

namespace TableAccess.Number.Binary64

variable {x y : Binary64} {c d m k : Nat} {u v : Rat}

/-! ### Numbers and their codes -/

/-- The bits without the sign. -/
def code (x : Binary64) : Nat := x.bits.toNat % 2 ^ 63

theorem code_lt (x : Binary64) : code x < 2 ^ 63 := Nat.mod_lt _ (by norm_num)

theorem infinityBits_lt : infinityBits < 2 ^ 63 := by decide

theorem ofParts_code (x : Binary64) : ofParts x.negative (code x) = x := by
  obtain ⟨bits⟩ := x
  have hlt := bits.toNat_lt
  show Binary64.mk (UInt64.ofNat (if decide (2 ^ 63 ≤ bits.toNat) then 2 ^ 63 + bits.toNat % 2 ^ 63
    else bits.toNat % 2 ^ 63)) = ⟨bits⟩
  congr 1
  apply UInt64.toNat_inj.mp
  rw [UInt64.toNat_ofNat']
  split
  case isTrue h =>
    have := of_decide_eq_true h
    omega
  case isFalse h =>
    have := of_decide_eq_false (Bool.of_not_eq_true h)
    omega

theorem toNat_bits_ofParts {negative : Bool} (h : c < 2 ^ 63) :
    (ofParts negative c).bits.toNat = (if negative then 2 ^ 63 else 0) + c := by
  show (UInt64.ofNat (if negative then 2 ^ 63 + c else c)).toNat = _
  rw [UInt64.toNat_ofNat']
  cases negative
  · simp only [Bool.false_eq_true, if_false]
    omega
  · simp only [if_true]
    omega

theorem code_ofParts (negative : Bool) (h : c < 2 ^ 63) : code (ofParts negative c) = c := by
  rw [code, toNat_bits_ofParts h]
  cases negative
  · simp only [Bool.false_eq_true, if_false]
    omega
  · simp only [if_true]
    omega

theorem negative_ofParts (negative : Bool) (h : c < 2 ^ 63) :
    (ofParts negative c).negative = negative := by
  rw [Binary64.negative, toNat_bits_ofParts h]
  cases negative
  · simp only [Bool.false_eq_true, if_false, decide_eq_false_iff_not, Nat.pow_eq]
    omega
  · simp only [if_true, decide_eq_true_eq, Nat.pow_eq]
    omega

/-- A number with a finite code, taken apart. -/
theorem magnitude_of_code (h : code x < infinityBits) :
    x.magnitude = .finite (significand (code x)) ((binade (code x) : Int) - 1074) := by
  have hexponent : x.bits.toNat / Nat.pow 2 52 % 2048 = code x / 2 ^ 52 := by
    simp only [code, Nat.pow_eq]
    omega
  have hfraction : x.bits.toNat % Nat.pow 2 52 = code x % 2 ^ 52 := by
    simp only [code, Nat.pow_eq]
    omega
  have hlt : code x / 2 ^ 52 < 2047 := by
    simp only [infinityBits, Nat.pow_eq] at h
    omega
  rw [magnitude, hexponent, hfraction, significand, binade, if_neg (by simp; omega)]
  by_cases hzero : code x / 2 ^ 52 = 0
  · rw [if_pos (by simpa using hzero), if_pos (by omega), hzero]
    congr 1
    omega
  · rw [if_neg (by simpa using hzero), if_neg (by omega)]
    simp only [Nat.pow_eq]
    congr 1
    omega

theorem neg_ofParts (hc : c < 2 ^ 63) : (ofParts false c).neg = ofParts true c := by
  have hcode := code_ofParts false hc
  rw [code] at hcode
  simp only [neg, negative_ofParts false hc, Nat.pow_eq, hcode]
  rfl

theorem code_lt_infinityBits (hx : x.isFinite = true) : code x < infinityBits := by
  by_contra hge
  have hexponent : x.bits.toNat / Nat.pow 2 52 % 2048 = 2047 := by
    have hlt := code_lt x
    simp only [infinityBits, Nat.pow_eq, code] at hge hlt ⊢
    omega
  rw [isFinite, isNan, isInfinite, magnitude] at hx
  simp only [hexponent, beq_self_eq_true, if_true] at hx
  split at hx
  · cases hx
  · cases hx

theorem isFinite_of_code (hx : code x < infinityBits) : x.isFinite = true := by
  rw [isFinite, isNan, isInfinite, magnitude_of_code hx]
  rfl

theorem isInfinite_of_code (h : code x < infinityBits) : x.isInfinite = false := by
  rw [isInfinite, magnitude_of_code h]
  rfl

theorem isZero_of_code (h : 0 < code x) : x.isZero = false := by
  rw [isZero, beq_eq_false_iff_ne]
  exact h.ne'

/-! ### Operations -/

theorem exists_nearest_ofScaledRatio (negative : Bool) (num : Nat) {den : Nat} (hden : 0 < den)
    (q : Int) : ∃ c, Nearest (num / den * 2 ^ q) c ∧
      ofScaledRatio negative num den q = ofParts negative (min c infinityBits) := by
  have hden' : 0 < den * Nat.pow 2 (-q).toNat := Nat.mul_pos hden (Nat.pow_pos two_pos)
  obtain ⟨c, hc, hbits⟩ := exists_nearest_roundedBits (num * Nat.pow 2 q.toNat) hden'
  have hvalue : ((num * Nat.pow 2 q.toNat : Nat) : Rat) / (den * Nat.pow 2 (-q).toNat : Nat) =
      num / den * 2 ^ q := by
    rw [← pow_toNat_div two_ne_zero]
    simp only [Nat.pow_eq]
    push_cast
    rw [div_mul_div_comm]
  rw [hvalue] at hc
  exact ⟨c, hc, by rw [ofScaledRatio, ofRatio, hbits]⟩

theorem exists_nearest_ofNat (n : Nat) :
    ∃ c, Nearest n c ∧ ofNat n = ofParts false (min c infinityBits) := by
  obtain ⟨c, hc, hbits⟩ := exists_nearest_roundedBits n one_pos
  rw [Nat.cast_one, div_one] at hc
  exact ⟨c, hc, by rw [ofNat, ofRatio, hbits]⟩

theorem size_pos_iff : 0 < size c ↔ 0 < c := by
  rw [← size_zero, size_strictMono.lt_iff_lt]

theorem exists_nearest_mul (hx : code x < infinityBits) (hy : code y < infinityBits) :
    ∃ c, Nearest (size (code x) * size (code y)) c ∧
      x.mul y = ofParts (x.negative != y.negative) (min c infinityBits) := by
  obtain ⟨c, hc, hmul⟩ := exists_nearest_ofScaledRatio (x.negative != y.negative)
    (significand (code x) * significand (code y)) one_pos
    (((binade (code x) : Int) - 1074) + ((binade (code y) : Int) - 1074))
  refine ⟨c, ?_, ?_⟩
  · convert hc using 1
    rw [size, size, unit, unit, zpow_add₀ two_ne_zero]
    push_cast
    ring
  · rw [mul, magnitude_of_code hx, magnitude_of_code hy]
    exact hmul

theorem exists_nearest_div (hx : code x < infinityBits) (hy : code y < infinityBits)
    (hpos : 0 < code y) :
    ∃ c, Nearest (size (code x) / size (code y)) c ∧
      x.div y = ofParts (x.negative != y.negative) (min c infinityBits) := by
  have hsignificand : 0 < significand (code y) := by
    have := size_pos_iff.mpr hpos
    rw [size] at this
    exact_mod_cast pos_of_mul_pos_left this (unit_pos _).le
  obtain ⟨c, hc, hdiv⟩ := exists_nearest_ofScaledRatio (x.negative != y.negative)
    (significand (code x)) hsignificand
    (((binade (code x) : Int) - 1074) - ((binade (code y) : Int) - 1074))
  refine ⟨c, ?_, ?_⟩
  · convert hc using 1
    rw [size, size, unit, unit, ← div_mul_div_comm, ← zpow_sub₀ two_ne_zero]
  · rw [div, magnitude_of_code hx, magnitude_of_code hy]
    simp only [if_neg hsignificand.ne']
    exact hdiv

/-! ### The finite range -/

/-- The largest finite size. -/
def greatestSize : Rat := (2 ^ 53 - 1) * 2 ^ 971

theorem size_greatest : size (infinityBits - 1) = greatestSize := by
  have hparts : Parts (infinityBits - 1) (2 ^ 53 - 1) 2045 := by
    refine ⟨?_, by norm_num, Or.inr (by norm_num)⟩
    simp only [infinityBits, Nat.pow_eq]
    norm_num
  rw [hparts.size_eq, greatestSize, unit]
  norm_num

theorem Nearest.lt_infinityBits (h : Nearest v c) (hv : v ≤ greatestSize) : c < infinityBits := by
  rw [← size_greatest] at hv
  have hle := h.mono (nearest_size _) hv
  have hpos : 0 < infinityBits := by
    simp only [infinityBits, Nat.pow_eq]
    norm_num
  omega

/-! ### Numbers without an error -/

/-- A whole number of at most 53 bits in units of any binade is a size. -/
theorem exists_size_eq (hm : m ≤ 2 ^ 53) (k : Nat) :
    ∃ c, size c = m * unit k := by
  induction k generalizing m with
  | zero => exact ⟨m + 0 * 2 ^ 52, size_of_le hm (Or.inl rfl)⟩
  | succ k ih =>
    rcases le_or_gt (2 ^ 52) m with hle | hgt
    · exact ⟨_, size_of_le hm (Or.inr hle)⟩
    · obtain ⟨c, hc⟩ := ih (by omega : 2 * m ≤ 2 ^ 53)
      refine ⟨c, ?_⟩
      rw [hc, unit_add]
      push_cast
      ring

/-- A value that is a size is rounded to it. -/
theorem Nearest.size_eq_of_exact (h : Nearest v c) (hv : ∃ d, size d = v) : size c = v := by
  obtain ⟨d, rfl⟩ := hv
  rw [(nearest_size d).unique h]

/-! ### Relative errors -/

/-- Two values differ by a factor of at most `r`, either way. -/
structure Within (r a b : Rat) : Prop where
  le : a ≤ r * b
  ge : b ≤ r * a

namespace Within

variable {r s a b : Rat}

theorem refl (a : Rat) : Within 1 a a := ⟨by rw [one_mul], by rw [one_mul]⟩

theorem trans (h : Within r a b) (h' : Within s b v) (hr : 0 ≤ r) (hs : 0 ≤ s) :
    Within (r * s) a v := by
  constructor
  · calc a ≤ r * b := h.le
      _ ≤ r * (s * v) := mul_le_mul_of_nonneg_left h'.le hr
      _ = r * s * v := by ring
  · calc v ≤ s * b := h'.ge
      _ ≤ s * (r * a) := mul_le_mul_of_nonneg_left h.ge hs
      _ = r * s * a := by ring

theorem mono (h : Within r a b) (hrs : r ≤ s) (ha : 0 ≤ a) (hb : 0 ≤ b) : Within s a b :=
  ⟨h.le.trans (mul_le_mul_of_nonneg_right hrs hb), h.ge.trans (mul_le_mul_of_nonneg_right hrs ha)⟩

theorem mul (h : Within r a b) (h' : Within s u v) (hr : 0 ≤ r) (hb : 0 ≤ b) (ha : 0 ≤ a)
    (hu : 0 ≤ u) (hv : 0 ≤ v) : Within (r * s) (a * u) (b * v) := by
  constructor
  · calc a * u ≤ (r * b) * (s * v) := mul_le_mul h.le h'.le hu (mul_nonneg hr hb)
      _ = r * s * (b * v) := by ring
  · calc b * v ≤ (r * a) * (s * u) := mul_le_mul h.ge h'.ge hv (mul_nonneg hr ha)
      _ = r * s * (a * u) := by ring

theorem inv (h : Within r a b) (ha : 0 < a) (hb : 0 < b) : Within r a⁻¹ b⁻¹ := by
  constructor
  · rw [← div_eq_mul_inv, le_div_iff₀ hb, inv_mul_le_iff₀ ha, mul_comm]
    exact h.ge
  · rw [← div_eq_mul_inv, le_div_iff₀ ha, inv_mul_le_iff₀ hb, mul_comm]
    exact h.le

theorem div (h : Within r a b) (h' : Within s u v) (hr : 0 ≤ r) (ha : 0 ≤ a) (hb : 0 ≤ b)
    (hu : 0 < u) (hv : 0 < v) : Within (r * s) (a / u) (b / v) := by
  rw [div_eq_mul_inv, div_eq_mul_inv]
  exact h.mul (h'.inv hu hv) hr hb ha (inv_nonneg.mpr hu.le) (inv_nonneg.mpr hv.le)

end Within

/-- Half a step in relation to the smallest size of a binade. -/
def roundoff : Rat := 1 / 2 ^ 53

theorem factor_pos : 0 < 1 + roundoff := by norm_num [roundoff]

/-- The error of rounding is at most half a step of the binade that the value does not exceed. -/
theorem Nearest.abs_sub_le (h : Nearest v c) (hv : 0 ≤ v) (k : Nat)
    (hhigh : v ≤ 2 ^ 53 * unit k) : |size c - v| ≤ unit k / 2 := by
  -- the first code of the next binade, and the last one of this
  have hend : size (2 ^ 53 + k * 2 ^ 52) = 2 ^ 53 * unit k := by
    rw [size_of_le le_rfl (Or.inr (by norm_num))]
    norm_num
  have hlast : gap (2 ^ 53 - 1 + k * 2 ^ 52) = unit k :=
    Parts.gap_eq ⟨rfl, by norm_num, Or.inr (by norm_num)⟩
  rw [← hend] at hhigh
  have hstep : ∀ b, b < 2 ^ 53 + k * 2 ^ 52 → gap b ≤ unit k := by
    intro b hb
    rw [← hlast]
    exact gap_mono (by omega)
  have hunit := unit_pos k
  rw [abs_le]
  constructor
  · rcases Nat.lt_or_ge c (2 ^ 53 + k * 2 ^ 52) with hlt | hge
    · have hmid := h.le_mid
      rw [mid] at hmid
      linarith [hstep c hlt]
    · have := size_strictMono.monotone hge
      linarith
  · cases c with
    | zero =>
      rw [size_zero]
      linarith
    | succ b =>
      have hmid := h.mid_le
      have hb : b < 2 ^ 53 + k * 2 ^ 52 :=
        size_strictMono.lt_iff_lt.mp (((size_lt_mid b).trans_le hmid).trans_le hhigh)
      rw [size_succ]
      rw [mid] at hmid
      linarith [hstep b hb]

/-- The relative error in a binade, for values that lead its smallest size by a factor. -/
theorem Nearest.within_of_lead (h : Nearest v c) (k : Nat) {r : Rat} (hr : 0 < r)
    (hlow : r * (2 ^ 52 * unit k) ≤ v)
    (hsize : r * (2 ^ 52 * unit k) ≤ size c)
    (hhigh : v ≤ 2 ^ 53 * unit k) : Within (1 + roundoff / r) v (size c) := by
  have hunit := unit_pos k
  have hv : 0 ≤ v := le_trans (by positivity) hlow
  have hhalf : unit k / 2 =
      roundoff / r * (r * (2 ^ 52 * unit k)) := by
    rw [roundoff]
    field_simp
  have hfactor : 0 ≤ roundoff / r := by
    rw [roundoff]
    positivity
  have herror := abs_le.mp (h.abs_sub_le hv k hhigh)
  have hleft := mul_le_mul_of_nonneg_left hlow hfactor
  have hright := mul_le_mul_of_nonneg_left hsize hfactor
  constructor
  · linarith [herror.1]
  · linarith [herror.2]

/-- Every value in the normal range lies in a binade. -/
theorem exists_binade (hv : 2 ^ 52 * unit 0 ≤ v) :
    ∃ k : Nat, 2 ^ 52 * unit k ≤ v ∧ v < 2 ^ 53 * unit k := by
  have hpos : 0 < 2 ^ 52 * unit 0 := mul_pos (by norm_num) (unit_pos 0)
  obtain ⟨n, hlow, hhigh⟩ := exists_nat_pow_near (one_le_div hpos |>.mpr hv) one_lt_two
  rw [le_div_iff₀ hpos] at hlow
  rw [div_lt_iff₀ hpos] at hhigh
  have hunit := unit_add 0 n
  rw [Nat.zero_add] at hunit
  refine ⟨n, ?_, ?_⟩
  · rw [hunit]
    linarith only [hlow]
  · rw [hunit]
    rw [pow_succ] at hhigh
    linarith only [hhigh]

/-- The relative error of rounding in the normal range. -/
theorem Nearest.within (h : Nearest v c) (hv : 2 ^ 52 * unit 0 ≤ v) :
    Within (1 + roundoff) v (size c) := by
  obtain ⟨k, hlow, hhigh⟩ := exists_binade hv
  have hfirst : size (2 ^ 52 + k * 2 ^ 52) = 2 ^ 52 * unit k := by
    rw [size_of_le (by norm_num) (Or.inr le_rfl)]
    norm_num
  have hle : 2 ^ 52 + k * 2 ^ 52 ≤ c := (nearest_size _).mono h (by rw [hfirst]; exact hlow)
  have hsize := size_strictMono.monotone hle
  rw [hfirst] at hsize
  have hwithin := h.within_of_lead k one_pos (by rw [one_mul]; exact hlow)
    (by rw [one_mul]; exact hsize) hhigh.le
  rwa [div_one] at hwithin

end TableAccess.Number.Binary64
