import TableAccess.Json.Number
import TableAccess.Proofs.Number.Arithmetic
import TableAccess.Proofs.Number.Shortest

/-!
# The error of scaling by powers of ten

A number is read by rounding its digits to a floating point number and scaling that by a power of
ten, which is rounded itself.  Every rounding adds a relative error, and two of them move a number
by at most two places among the floating point numbers.
-/

namespace TableAccess.Json

open Number Number.Binary64

/-- Codes at most two places apart. -/
def Near (c d : Nat) : Prop := c ≤ d + 2 ∧ d ≤ c + 2

theorem near_refl (c : Nat) : Near c c := ⟨Nat.le_add_right c 2, Nat.le_add_right c 2⟩

variable {c d k : Nat} {u v r : Rat}

/-! ### Errors in places -/

/-- A factor that is small for the places of a code moves a value by at most two of them. -/
theorem le_add_two_of_le (h : Nearest u c) (h' : Nearest v d) (hr : 1 ≤ r)
    (hsmall : (r - 1) * mid c < 2 * gap c) (hle : v ≤ r * u) : d ≤ c + 2 := by
  apply h'.le_add 2
  have hmid := mul_le_mul_of_nonneg_left h.le_mid (by linarith : 0 ≤ r)
  push_cast
  linarith

/-- Two roundings move a value by at most two places. -/
theorem near_of_within (h : Nearest u c) (h' : Nearest v d)
    (hw : Within ((1 + roundoff) * (1 + roundoff)) u v) : Near c d := by
  have hone : 1 ≤ (1 + roundoff) * (1 + roundoff) := by norm_num [roundoff]
  have hsmall : ∀ b, ((1 + roundoff) * (1 + roundoff) - 1) * mid b < 2 * gap b := by
    intro b
    have hsize := size_add_gap_le b
    have hpos := gap_pos b
    have hmid : mid b ≤ (2 ^ 53 - 1 / 2) * gap b := by
      rw [mid]
      linarith
    have hfactor : (0 : Rat) ≤ (1 + roundoff) * (1 + roundoff) - 1 := by norm_num [roundoff]
    have hbound := mul_le_mul_of_nonneg_left hmid hfactor
    have hvalue : ((1 + roundoff) * (1 + roundoff) - 1) * ((2 ^ 53 - 1 / 2) * gap b) < 2 * gap b := by
      rw [← mul_assoc]
      exact mul_lt_mul_of_pos_right (by norm_num [roundoff]) hpos
    linarith
  exact ⟨le_add_two_of_le h' h hone (hsmall d) hw.le, le_add_two_of_le h h' hone (hsmall c) hw.ge⟩

/-! ### Digits and powers -/

theorem normal_of_one_le (h : 1 ≤ v) : 2 ^ 52 * unit 0 ≤ v := by
  calc 2 ^ 52 * unit 0 = unit (0 + 52) := (unit_add 0 52).symm
    _ ≤ unit 1074 := unit_mono (by norm_num)
    _ = 1 := unit_one
    _ ≤ v := h

/-- A floating point number that is not negative, by its code, near a value. -/
structure Rounded (v : Rat) (x : Binary64) (c : Nat) : Prop where
  nearest : Nearest v c
  finite : c < infinityBits
  eq : x = ofParts false c

theorem Rounded.code_eq {x : Binary64} (h : Rounded v x c) : code x = c := by
  rw [h.eq, code_ofParts false (h.finite.trans infinityBits_lt)]

theorem Rounded.negative_eq {x : Binary64} (h : Rounded v x c) : x.negative = false := by
  rw [h.eq, negative_ofParts false (h.finite.trans infinityBits_lt)]

/-- The largest finite number is far from every whole number that is rounded here. -/
theorem ten_pow_le_greatestSize : (10 : Rat) ^ 308 ≤ greatestSize := by
  have hnat : 10 ^ 308 ≤ 9007199254740991 * 2 ^ 971 := by decide +kernel
  have hrat : ((10 ^ 308 : Nat) : Rat) ≤ (9007199254740991 * 2 ^ 971 : Nat) := Nat.cast_le.mpr hnat
  have hfactor : (2 : Rat) ^ 53 - 1 = 9007199254740991 := by norm_num
  rw [Nat.cast_mul, Nat.cast_pow, Nat.cast_pow, Nat.cast_ofNat, Nat.cast_ofNat, Nat.cast_ofNat]
    at hrat
  rwa [greatestSize, hfactor]

/-- Digits that a number is written with are far from the end of the format. -/
theorem digits_le {n : Nat} (hn : n ≤ 10 ^ 17) : n ≤ 10 ^ 308 := by
  have hlarger : ∀ m, 17 ≤ m → 10 ^ 17 ≤ 10 ^ m := fun m => Nat.pow_le_pow_right (by norm_num)
  exact hn.trans (hlarger 308 (by norm_num))

theorem exists_rounded_ofNat {n : Nat} (hn : n ≤ 10 ^ 308) : ∃ c, Rounded n (.ofNat n) c := by
  obtain ⟨c, hc, heq⟩ := exists_nearest_ofNat n
  have hle : (n : Rat) ≤ 10 ^ 308 := by
    have hcast : (n : Rat) ≤ (10 ^ 308 : Nat) := Nat.cast_le.mpr hn
    rwa [Nat.cast_pow, Nat.cast_ofNat] at hcast
  have hfinite := hc.lt_infinityBits (hle.trans ten_pow_le_greatestSize)
  exact ⟨c, hc, hfinite, by rw [heq, Nat.min_eq_left hfinite.le]⟩

/-- The rounded power of ten. -/
theorem exists_rounded_power (hk : k ≤ 308) : ∃ c, Rounded (10 ^ k) (powerOfTen k) c := by
  have hle : ∀ n, k ≤ n → 10 ^ k ≤ 10 ^ n := fun n => Nat.pow_le_pow_right (by norm_num)
  obtain ⟨c, hc⟩ := exists_rounded_ofNat (hle 308 hk)
  rw [Nat.cast_pow, Nat.cast_ofNat] at hc
  exact ⟨c, hc⟩

theorem Rounded.within {x : Binary64} (h : Rounded v x c) (hv : 1 ≤ v) :
    Within (1 + roundoff) v (size c) := h.nearest.within (normal_of_one_le hv)

theorem Rounded.size_pos {x : Binary64} (h : Rounded v x c) (hv : 1 ≤ v) : 0 < size c := by
  have hle := (h.within hv).le
  exact pos_of_mul_pos_right (by linarith) factor_pos.le

theorem Rounded.code_pos {x : Binary64} (h : Rounded v x c) (hv : 1 ≤ v) : 0 < c :=
  size_pos_iff.mp (h.size_pos hv)

theorem Rounded.power_pos {x : Binary64} (h : Rounded (10 ^ k) x c) : 0 < size c :=
  h.size_pos (one_le_pow₀ (by norm_num))

/-- Whole numbers of at most 53 bits are not rounded. -/
theorem Rounded.size_eq_of_le {n : Nat} {x : Binary64} (h : Rounded n x c) (hn : n ≤ 2 ^ 53) :
    size c = n := by
  apply h.nearest.size_eq_of_exact
  obtain ⟨d, hd⟩ := exists_size_eq hn 1074
  exact ⟨d, by rw [hd, unit_one, mul_one]⟩

/-- The first powers of ten are not rounded: what is left without the factor two fits. -/
theorem Rounded.size_eq_of_power {x : Binary64} (h : Rounded (10 ^ k) x c) (hk : k ≤ 22) :
    size c = 10 ^ k := by
  apply h.nearest.size_eq_of_exact
  have hfive : 5 ^ k ≤ 2 ^ 53 :=
    (Nat.pow_le_pow_right (by norm_num) hk).trans (by norm_num)
  obtain ⟨d, hd⟩ := exists_size_eq hfive (k + 1074)
  refine ⟨d, ?_⟩
  have hexponent : ((k + 1074 : Nat) : Int) - 1074 = k := by
    push_cast
    ring
  rw [hd, unit, hexponent, zpow_natCast, Nat.cast_pow, ← mul_pow]
  norm_num

/-! ### One product or quotient -/

variable {x y : Binary64}

theorem exists_nearest_product (hx : Rounded u x c) (hy : Rounded v y d) :
    ∃ n, Nearest (size c * size d) n ∧ x.mul y = ofParts false (min n infinityBits) := by
  have hxc := hx.code_eq
  have hyc := hy.code_eq
  obtain ⟨n, hn, heq⟩ := exists_nearest_mul (x := x) (y := y) (by rw [hxc]; exact hx.finite)
    (by rw [hyc]; exact hy.finite)
  rw [hxc, hyc] at hn
  rw [hx.negative_eq, hy.negative_eq] at heq
  exact ⟨n, hn, heq⟩

theorem exists_nearest_quotient (hx : Rounded u x c) (hy : Rounded v y d) (hv : 1 ≤ v) :
    ∃ n, Nearest (size c / size d) n ∧ x.div y = ofParts false (min n infinityBits) := by
  have hxc := hx.code_eq
  have hyc := hy.code_eq
  obtain ⟨n, hn, heq⟩ := exists_nearest_div (x := x) (y := y) (by rw [hxc]; exact hx.finite)
    (by rw [hyc]; exact hy.finite) (by rw [hyc]; exact hy.code_pos hv)
  rw [hxc, hyc] at hn
  rw [hx.negative_eq, hy.negative_eq] at heq
  exact ⟨n, hn, heq⟩

/-- A positive power is one product, which is refused if it is beyond the format. -/
theorem exists_scale_product (hx : Rounded u x c) (hk : k ≤ 308) :
    ∃ d n, Rounded (10 ^ k) (powerOfTen k) d ∧ Nearest (size c * size d) n ∧
      (n < infinityBits → scale x k = some (ofParts false n)) := by
  obtain ⟨d, hd⟩ := exists_rounded_power hk
  obtain ⟨n, hn, hmul⟩ := exists_nearest_product hx hd
  refine ⟨d, n, hd, hn, ?_⟩
  intro hfinite
  have hcode : code (ofParts false n) < infinityBits := by
    rw [code_ofParts false (hfinite.trans infinityBits_lt)]
    exact hfinite
  rw [scale, if_pos ⟨Int.natCast_nonneg k, by rw [greatestStep]; omega⟩, Int.toNat_natCast, hmul,
    Nat.min_eq_left hfinite.le]
  simp only [isInfinite_of_code hcode, Bool.false_eq_true, if_false]

/-- A negative power within the format is one quotient. -/
theorem exists_scale_quotient (hx : Rounded u x c) (hc : 0 < c) (hpos : 0 < k) (hk : k ≤ 308) :
    ∃ d n, Rounded (10 ^ k) (powerOfTen k) d ∧ Nearest (size c / size d) n ∧
      scale x (-(k : Int)) = some (ofParts false (min n infinityBits)) := by
  obtain ⟨d, hd⟩ := exists_rounded_power hk
  obtain ⟨n, hn, hdiv⟩ := exists_nearest_quotient hx hd (one_le_pow₀ (by norm_num))
  refine ⟨d, n, hd, hn, ?_⟩
  have hzero : x.isZero = false := isZero_of_code (by rw [hx.code_eq]; exact hc)
  rw [scale, if_neg (by omega), hzero, if_neg Bool.false_ne_true, if_neg (by omega),
    if_pos (by rw [greatestStep]; omega), neg_neg, Int.toNat_natCast, hdiv]

/-- A negative power beyond the format begins with the quotient by the greatest power within. -/
theorem exists_scale_step (hx : Rounded u x c) (hc : 0 < c) (hpos : 0 < k) :
    ∃ d n, Rounded (10 ^ 308) (powerOfTen 308) d ∧ Nearest (size c / size d) n ∧
      scale x (-((308 + k : Nat) : Int)) =
        scale (ofParts false (min n infinityBits)) (-(k : Int)) := by
  obtain ⟨d, hd⟩ := exists_rounded_power (le_refl 308)
  obtain ⟨n, hn, hdiv⟩ := exists_nearest_quotient hx hd (one_le_pow₀ (by norm_num))
  refine ⟨d, n, hd, hn, ?_⟩
  have hzero : x.isZero = false := isZero_of_code (by rw [hx.code_eq]; exact hc)
  have hrest : -((308 + k : Nat) : Int) + greatestStep = -(k : Int) := by
    rw [greatestStep]
    push_cast
    ring
  rw [scale, if_neg (by omega), hzero, if_neg Bool.false_ne_true, if_neg (by omega),
    if_neg (by rw [greatestStep]; omega), hrest]
  show scale (x.div (powerOfTen 308)) (-(k : Int)) = _
  rw [hdiv]

/-! ### Within the format -/

/-- A decimal whose power of ten is within the format. -/
theorem exists_near_of_product {sig : Nat} (hsig : 0 < sig) (hsig' : sig ≤ 10 ^ 308) (hk : k ≤ 308)
    (h : Nearest (sig * 10 ^ k) c) :
    ∃ n, Near c n ∧ (n < infinityBits → scale (.ofNat sig) k = some (ofParts false n)) := by
  obtain ⟨a, ha⟩ := exists_rounded_ofNat hsig'
  obtain ⟨d, n, hd, hn, hscale⟩ := exists_scale_product ha hk
  have hone : (1 : Rat) ≤ sig := by exact_mod_cast hsig
  have hpow : (1 : Rat) ≤ 10 ^ k := one_le_pow₀ (by norm_num)
  refine ⟨n, near_of_within h hn ?_, hscale⟩
  exact (ha.within hone).mul (hd.within hpow) factor_pos.le (size_nonneg a) (by linarith) (by linarith)
    (size_nonneg d)

theorem exists_near_of_quotient {sig : Nat} (hsig : 0 < sig) (hsig' : sig ≤ 10 ^ 308)
    (hpos : 0 < k) (hk : k ≤ 308) (h : Nearest (sig / 10 ^ k) c) :
    ∃ n, Near c n ∧
      scale (.ofNat sig) (-(k : Int)) = some (ofParts false (min n infinityBits)) := by
  obtain ⟨a, ha⟩ := exists_rounded_ofNat hsig'
  have hone : (1 : Rat) ≤ sig := by exact_mod_cast hsig
  obtain ⟨d, n, hd, hn, hscale⟩ :=
    exists_scale_quotient ha (ha.code_pos hone) hpos hk
  have hpow : (1 : Rat) ≤ 10 ^ k := one_le_pow₀ (by norm_num)
  refine ⟨n, near_of_within h hn ?_, hscale⟩
  exact (ha.within hone).div (hd.within hpow) factor_pos.le (by linarith) (size_nonneg a)
    (by linarith) hd.power_pos

end TableAccess.Json
