import TableAccess.Proofs.Json.Scale

/-!
# The error of repeated division

A power of ten beyond the format is divided by in two steps, and so there are more roundings.
Either the first ones are small, because the greatest power of ten is close to the number that
stands for it and a quotient by it cannot lie as badly in its binade as the dividend, or the
number is so small that its places are wide.
-/

namespace TableAccess.Json

open Number Number.Binary64

variable {c d k : Nat} {u v r : Rat} {x y : Binary64}

/-! ### Beyond the format -/

/-- The power of ten that is divided by first, between two sizes. -/
theorem greatestPower_bounds :
    (10020841800044863 : Rat) * 2 ^ 970 < 10 ^ 308 ∧ (10 : Rat) ^ 308 < 10020841800044864 * 2 ^ 970 ∧
      (10020841800044864 : Rat) * 2 ^ 970 ≤ (1 + 99 / 1000 * roundoff) * 10 ^ 308 := by
  have hlow : 10020841800044863 * 2 ^ 970 < 10 ^ 308 := by decide +kernel
  have hhigh : 10 ^ 308 < 10020841800044864 * 2 ^ 970 := by decide +kernel
  have herror : 10020841800044864 * 2 ^ 970 * 9007199254740992000 ≤ 9007199254740992099 * 10 ^ 308 := by
    decide +kernel
  have hlow' := (Nat.cast_lt (α := Rat)).mpr hlow
  have hhigh' := (Nat.cast_lt (α := Rat)).mpr hhigh
  have herror' := (Nat.cast_le (α := Rat)).mpr herror
  simp only [Nat.cast_mul, Nat.cast_pow, Nat.cast_ofNat] at hlow' hhigh' herror'
  refine ⟨hlow', hhigh', ?_⟩
  have hfactor : 1 + 99 / 1000 * roundoff = 9007199254740992099 / 9007199254740992000 := by
    norm_num [roundoff]
  rw [hfactor, div_mul_eq_mul_div, le_div_iff₀ (by norm_num)]
  exact herror'

/-- The greatest power of ten within the format is rounded up a little. -/
theorem Rounded.size_greatestPower (h : Rounded (10 ^ 308) x d) :
    size d = 10020841800044864 * 2 ^ 970 := by
  obtain ⟨hlow, hhigh, -⟩ := greatestPower_bounds
  have hunit : (0 : Rat) < 2 ^ 970 := by positivity
  have hexponent : Binary64.unit 2045 = 2 * 2 ^ 970 := by
    rw [Binary64.unit, ← pow_succ', ← zpow_natCast]
    norm_num
  have hhere : Parts (5010420900022432 + 2045 * 2 ^ 52) 5010420900022432 2045 :=
    ⟨rfl, by norm_num, Or.inr (by norm_num)⟩
  have hbefore : Parts (5010420900022431 + 2045 * 2 ^ 52) 5010420900022431 2045 :=
    ⟨rfl, by norm_num, Or.inr (by norm_num)⟩
  have hsize := hhere.size_eq
  have hsize' := hbefore.size_eq
  have hgap := hhere.gap_eq
  have hgap' := hbefore.gap_eq
  rw [hexponent] at hsize hsize' hgap hgap'
  rw [Nat.cast_ofNat] at hsize hsize'
  generalize (2 : Rat) ^ 970 = unit at *
  have hnearest : Nearest (10 ^ 308) (5010420900022432 + 2045 * 2 ^ 52) := by
    generalize (10 : Rat) ^ 308 = power at *
    constructor
    · left
      rw [mid, hsize, hgap]
      linarith
    · intro b hb
      obtain rfl : 5010420900022431 + 2045 * 2 ^ 52 = b := by omega
      left
      rw [mid, hsize', hgap']
      linarith
  rw [h.nearest.unique hnearest, hsize]
  ring

/-- The error of the greatest power is small, and it lies in the middle of its binade. -/
theorem Rounded.greatestPower (h : Rounded (10 ^ 308) x d) :
    Within (1 + 99 / 1000 * roundoff) (10 ^ 308) (size d) ∧
      11125 / 10000 * 2 ^ 1023 ≤ size d ∧ size d ≤ 11126 / 10000 * 2 ^ 1023 := by
  obtain ⟨-, hhigh, herror⟩ := greatestPower_bounds
  have hunit : (0 : Rat) < 2 ^ 970 := by positivity
  have hpow : (2 : Rat) ^ 1023 = 9007199254740992 * 2 ^ 970 := by
    rw [show 1023 = 53 + 970 from rfl, pow_add]
    norm_num
  rw [h.size_greatestPower, hpow]
  generalize (2 : Rat) ^ 970 = unit at *
  generalize (10 : Rat) ^ 308 = power at *
  refine ⟨⟨?_, herror⟩, by linarith only [hunit], by linarith only [hunit]⟩
  have hfactor : (1 : Rat) ≤ 1 + 99 / 1000 * roundoff := by norm_num [roundoff]
  have hgrow := mul_le_mul_of_nonneg_right hfactor
    (by positivity : (0 : Rat) ≤ 10020841800044864 * unit)
  linarith only [hhigh, hgrow]

/-- Where a quotient by the greatest power lies low in its binade, the dividend does not, and the
other way round. -/
theorem within_lead_or {a b : Nat} {sig : Rat} (ha : Nearest sig a) (hsig : 1 ≤ sig)
    (hd : Rounded (10 ^ 308) y d) (hb : Nearest (size a / size d) b)
    (hnormal : 2 ^ 52 * unit 0 ≤ size a / size d) :
    Within (1 + roundoff / (10 / 9)) sig (size a) ∨
      Within (1 + roundoff / (10 / 9)) (size a / size d) (size b) := by
  obtain ⟨-, hdlow, hdhigh⟩ := hd.greatestPower
  have hdpos := hd.power_pos
  have hwithin := ha.within (normal_of_one_le hsig)
  obtain ⟨k, hlow, hhigh⟩ := exists_binade hnormal
  have hunit := unit_pos k
  rcases le_or_gt ((10 / 9 * 2 ^ 52 + 1 / 2) * unit k) (size a / size d) with
    hlead | hlag
  · right
    have herror := abs_le.mp (hb.abs_sub_le (le_trans (by positivity) hlow) k hhigh.le)
    refine hb.within_of_lead k (by norm_num) ?_ ?_ hhigh.le
    · linarith only [hlead, hunit]
    · linarith only [hlead, herror.1]
  · left
    -- the dividend is the quotient times the power, so it leads the binade of their product
    have hproduct : size a = size a / size d * size d := (div_mul_cancel₀ _ hdpos.ne').symm
    have hunits := unit_add k 1023
    have hbig : (0 : Rat) < 2 ^ 1023 := by positivity
    generalize (2 : Rat) ^ 1023 = big at *
    have hspan : 0 < big * unit k := mul_pos hbig hunit
    have hleast : 11125 / 10000 * (2 ^ 52 * (big * unit k)) ≤ size a := by
      rw [hproduct]
      refine le_trans (le_of_eq ?_) (mul_le_mul hlow hdlow ?_ ?_)
      · ring
      · exact mul_nonneg (by norm_num) hbig.le
      · exact div_nonneg (size_nonneg a) hdpos.le
    have hmost : size a ≤ (10 / 9 * 2 ^ 52 + 1 / 2) * (11126 / 10000) *
        (big * unit k) := by
      rw [hproduct]
      refine le_trans (mul_le_mul hlag.le hdhigh hdpos.le (by positivity)) (le_of_eq ?_)
      ring
    have hle := hwithin.le
    have hge := hwithin.ge
    have hsmall : 1 + roundoff = 1 + 1 / 2 ^ 53 := rfl
    rw [hsmall] at hle hge
    refine ha.within_of_lead (k + 1023) (by norm_num) ?_ ?_ ?_
    all_goals
      rw [hunits]
      generalize big * unit k = span at *
    · linarith only [hleast, hge, hspan]
    · linarith only [hleast, hspan]
    · linarith only [hmost, hle, hspan]

/-- The two roundings before a quotient by the greatest power. -/
theorem within_divided {a : Nat} {sig : Rat} (ha : Nearest sig a) (hsig : 1 ≤ sig)
    (hd : Rounded (10 ^ 308) y d) :
    Within ((1 + roundoff) * (1 + 99 / 1000 * roundoff)) (sig / 10 ^ 308) (size a / size d) :=
  (ha.within (normal_of_one_le hsig)).div hd.greatestPower.1 factor_pos.le (by linarith)
    (size_nonneg a) (by positivity) hd.power_pos

/-- A quotient by the greatest power, with two roundings before it and one after it, errs by no
more than two roundings. -/
theorem within_step {a b : Nat} {sig : Rat} (ha : Nearest sig a) (hsig : 1 ≤ sig)
    (hd : Rounded (10 ^ 308) y d) (hb : Nearest (size a / size d) b)
    (hnormal : 2 ^ 52 * unit 0 ≤ size a / size d) :
    Within ((1 + roundoff) * (1 + roundoff)) (sig / 10 ^ 308) (size b) := by
  have hlead : (0 : Rat) ≤ 1 + roundoff / (10 / 9) := by norm_num [roundoff]
  have hlast : (0 : Rat) ≤ 1 + 99 / 1000 * roundoff := by norm_num [roundoff]
  have hpos : (0 : Rat) < 10 ^ 308 := by positivity
  have hsum : (1 + roundoff) * (1 + 99 / 1000 * roundoff) * (1 + roundoff / (10 / 9)) ≤
      (1 + roundoff) * (1 + roundoff) := by norm_num [roundoff]
  have hquotient : 0 ≤ sig / 10 ^ 308 := div_nonneg (by linarith) hpos.le
  rcases within_lead_or ha hsig hd hb hnormal with hfirst | hsecond
  · have hdivided := hfirst.div hd.greatestPower.1 hlead (by linarith) (size_nonneg a) hpos
      hd.power_pos
    have htotal := hdivided.trans (hb.within hnormal) (mul_nonneg hlead hlast) factor_pos.le
    exact htotal.mono (by linarith) hquotient (size_nonneg b)
  · have htotal := (within_divided ha hsig hd).trans hsecond (mul_nonneg factor_pos.le hlast) hlead
    exact htotal.mono hsum hquotient (size_nonneg b)

/-- The smallest step. -/
theorem mul_smallest : (2 : Rat) ^ 1074 * unit 0 = 1 := by
  have hunit := unit_add 0 1074
  rw [Nat.zero_add, unit_one] at hunit
  exact hunit.symm

/-- The first quotient is never far below the normal range, so its error is small there too. -/
theorem within_first {a b : Nat} {sig : Rat} (ha : Nearest sig a) (hsig : 1 ≤ sig)
    (hd : Rounded (10 ^ 308) y d) (hb : Nearest (size a / size d) b) :
    Within (1 + roundoff / (1 / 3)) (size a / size d) (size b) ∧ 0 < b := by
  obtain ⟨-, -, hdhigh⟩ := hd.greatestPower
  have hdpos := hd.power_pos
  have hone : (1 : Rat) ≤ (1 + 1 / 2 ^ 53) * size a :=
    hsig.trans (ha.within (normal_of_one_le hsig)).le
  have hunit := unit_pos 0
  have hlow : 2 / 5 * (2 ^ 52 * unit 0) ≤ size a / size d := by
    have hunits := mul_smallest
    rw [show 1074 = 1023 + 51 from rfl, pow_add] at hunits
    rw [le_div_iff₀ hdpos]
    generalize (2 : Rat) ^ 1023 = big at *
    have hmul := mul_le_mul_of_nonneg_left hdhigh
      (mul_nonneg (by norm_num) hunit.le : 0 ≤ 2 / 5 * 2 ^ 52 * unit 0)
    linarith only [hmul, hone, hunits]
  have hquotient : 0 ≤ size a / size d := div_nonneg (size_nonneg a) hdpos.le
  rcases le_or_gt (size a / size d) (2 ^ 53 * unit 0) with hhigh | hnormal
  · have herror := abs_le.mp (hb.abs_sub_le hquotient 0 hhigh)
    have hsize : 1 / 3 * (2 ^ 52 * unit 0) ≤ size b := by
      linarith only [hlow, herror.1, hunit]
    refine ⟨hb.within_of_lead 0 (by norm_num) (by linarith only [hlow, hunit]) hsize hhigh, ?_⟩
    exact size_pos_iff.mp (by linarith only [hsize, hunit])
  · have hwithin := hb.within (by linarith only [hnormal, hunit])
    refine ⟨hwithin.mono (by norm_num [roundoff]) hquotient (size_nonneg b), ?_⟩
    have hfactor : (1 : Rat) + roundoff ≤ 2 := by norm_num [roundoff]
    have hgrow := mul_le_mul_of_nonneg_right hfactor (size_nonneg b)
    exact size_pos_iff.mp (by linarith only [hnormal, hwithin.le, hgrow, hunit])

/-- Seventeen digits and a power beyond the format in units of the smallest step. -/
theorem value_le {sig j p q : Nat} (hsig : sig ≤ 10 ^ 17) (hj : j ≤ 308 + k)
    (h : 10 ^ 17 * q * 2 ^ 1074 ≤ p * 10 ^ j) :
    (sig : Rat) / 10 ^ 308 / 10 ^ k * q ≤ p * unit 0 := by
  have hcast : ((10 ^ 17 * q * 2 ^ 1074 : Nat) : Rat) ≤ (p * 10 ^ j : Nat) := Nat.cast_le.mpr h
  have hsigq : (sig : Rat) ≤ (10 ^ 17 : Nat) := Nat.cast_le.mpr hsig
  simp only [Nat.cast_mul, Nat.cast_pow, Nat.cast_ofNat] at hcast hsigq
  have hpow : (10 : Rat) ^ j ≤ 10 ^ (308 + k) := pow_le_pow_right₀ (by norm_num) hj
  have hpos : (0 : Rat) < 10 ^ j := by positivity
  have hscaled := mul_le_mul_of_nonneg_right hcast (unit_pos 0).le
  rw [mul_assoc, mul_smallest, mul_one] at hscaled
  calc (sig : Rat) / 10 ^ 308 / 10 ^ k * q = sig / 10 ^ (308 + k) * q := by
        rw [div_div, ← pow_add]
    _ ≤ 10 ^ 17 / 10 ^ j * q :=
        mul_le_mul_of_nonneg_right (div_le_div₀ (by norm_num) hsigq hpos hpow) (Nat.cast_nonneg q)
    _ = 10 ^ 17 * q / 10 ^ j := by rw [div_mul_eq_mul_div]
    _ ≤ p * unit 0 := by
        rw [div_le_iff₀ hpos]
        linarith only [hscaled]

/-- Codes that small are a step apart, and so a larger factor is still small for them. -/
theorem near_of_tiny (h : Nearest u c) (h' : Nearest v d) (hu : u ≤ 2 ^ 49 * unit 0) (hr : 1 ≤ r)
    (hr' : r ≤ 1 + 7 * roundoff) (hw : Within r u v) : Near c d := by
  have hsmall : ∀ b, b ≤ 2 ^ 50 → (r - 1) * mid b < 2 * gap b := by
    intro b hb
    have hparts : Parts b b 0 := ⟨by omega, by omega, Or.inl rfl⟩
    have hcast : (b : Rat) ≤ 2 ^ 50 := by exact_mod_cast hb
    have hunit := unit_pos 0
    rw [mid, hparts.size_eq, hparts.gap_eq]
    calc (r - 1) * (b * unit 0 + unit 0 / 2) ≤ 7 * roundoff * ((2 ^ 50 + 1 / 2) * unit 0) := by
          apply mul_le_mul (by linarith only [hr'])
          · have := mul_le_mul_of_nonneg_right hcast hunit.le
            linarith only [this]
          · positivity
          · norm_num [roundoff]
      _ < 2 * unit 0 := by
          rw [← mul_assoc]
          exact mul_lt_mul_of_pos_right (by norm_num [roundoff]) hunit
  have hlast : size (2 ^ 49) = 2 ^ 49 * unit 0 := by
    rw [Parts.size_eq (m := 2 ^ 49) (k := 0) ⟨by norm_num, by norm_num, Or.inl rfl⟩]
    norm_num
  have hc : c ≤ 2 ^ 49 := h.mono (nearest_size _) (by rw [hlast]; exact hu)
  have hd := le_add_two_of_le h h' hr (hsmall c (by omega)) hw.ge
  exact ⟨le_add_two_of_le h' h hr (hsmall d (by omega)) hw.le, hd⟩

/-- The value of a decimal with a power beyond the format after the first quotient, from the
errors of the four numbers that are rounded. -/
theorem within_beyond {a b e : Nat} {sig : Rat} (ha : Nearest sig a) (hsig : 1 ≤ sig)
    (hd : Rounded (10 ^ 308) y d) (hb : Nearest (size a / size d) b)
    (he : Rounded (10 ^ k) x e) : ∃ r, 1 ≤ r ∧ r ≤ 1 + 7 * roundoff ∧
      Within r (sig / 10 ^ 308 / 10 ^ k) (size b / size e) := by
  have hten : (1 : Rat) ≤ 10 ^ k := one_le_pow₀ (by norm_num)
  have hbig : (0 : Rat) < 10 ^ 308 := by positivity
  have hlast : (0 : Rat) ≤ 1 + 99 / 1000 * roundoff := by norm_num [roundoff]
  have hfirst : (0 : Rat) ≤ 1 + roundoff / (1 / 3) := by norm_num [roundoff]
  have hquotient : 0 ≤ sig / 10 ^ 308 := div_nonneg (by linarith only [hsig]) hbig.le
  have htwo : 0 ≤ (1 + roundoff) * (1 + 99 / 1000 * roundoff) := mul_nonneg factor_pos.le hlast
  have hrounded := (within_divided ha hsig hd).trans (within_first ha hsig hd hb).1 htwo hfirst
  have htotal := hrounded.div (he.within hten) (mul_nonneg htwo hfirst) hquotient (size_nonneg b)
    (by linarith only [hten]) he.power_pos
  exact ⟨_, by norm_num [roundoff], by norm_num [roundoff], htotal⟩

/-- A decimal with a power so far beyond the format is rounded to zero. -/
theorem lt_of_nearest {sig : Nat} (hsig : sig ≤ 10 ^ 17) (hc : 0 < c)
    (h : Nearest (sig / 10 ^ 308 / 10 ^ k) c) : k < 34 := by
  by_contra hle
  have hvalue := value_le (k := k) (j := 342) (p := 1) (q := 4) hsig (by omega) (by decide +kernel)
  obtain ⟨b, rfl⟩ : ∃ b, c = b + 1 := ⟨c - 1, by omega⟩
  have hmid := (mid_strictMono.monotone (Nat.zero_le b)).trans h.mid_le
  have hparts : Parts 0 0 0 := ⟨by norm_num, by norm_num, Or.inl rfl⟩
  rw [mid, hparts.size_eq, hparts.gap_eq] at hmid
  generalize (sig : Rat) / 10 ^ 308 / 10 ^ k = value at *
  push_cast at hvalue hmid
  linarith only [hvalue, hmid, unit_pos 0]

/-- Below the normal range the first quotient is divided by ten at least. -/
theorem value_le_of_subnormal {a : Nat} {sig : Rat} (ha : Nearest sig a) (hsig : 1 ≤ sig)
    (hd : Rounded (10 ^ 308) y d) (hk : 0 < k) (hsmall : size a / size d < 2 ^ 52 * unit 0) :
    sig / 10 ^ 308 / 10 ^ k ≤ 2 ^ 49 * unit 0 := by
  have hfactor : (1 + roundoff) * (1 + 99 / 1000 * roundoff) ≤ 11 / 10 := by norm_num [roundoff]
  have hquotient := div_nonneg (size_nonneg a) (size_nonneg d)
  have hgrow := mul_le_mul_of_nonneg_right hfactor hquotient
  have hten : (10 : Rat) ^ 1 ≤ 10 ^ k := pow_le_pow_right₀ (by norm_num) hk
  rw [div_le_iff₀ (by positivity)]
  have hunit := unit_pos 0
  have hle := (within_divided ha hsig hd).le
  generalize sig / 10 ^ 308 = value at *
  have hproduct := mul_le_mul_of_nonneg_left hten
    (mul_nonneg (by norm_num) hunit.le : 0 ≤ 2 ^ 49 * unit 0)
  linarith only [hle, hgrow, hsmall, hproduct, hunit]

/-- The first quotient is smaller than the dividend, and so it is finite. -/
theorem rounded_first {a b : Nat} (ha : Rounded u x a) (hd : Rounded (10 ^ 308) y d)
    (hb : Nearest (size a / size d) b) : Rounded (size a / size d) (ofParts false b) b := by
  have hbig : (1 : Rat) ≤ 2 ^ 1023 := one_le_pow₀ (by norm_num)
  have hone : 1 ≤ size d := by
    obtain ⟨-, hlow, -⟩ := hd.greatestPower
    generalize (2 : Rat) ^ 1023 = big at *
    linarith only [hlow, hbig]
  have hle := hb.mono (nearest_size a) (div_le_self (size_nonneg a) hone)
  exact ⟨hb, hle.trans_lt ha.finite, rfl⟩

/-- The code of a decimal and the code that the two quotients give. -/
theorem near_beyond {a b e n sig : Nat} (hsig : 1 ≤ (sig : Rat)) (hsig' : sig ≤ 10 ^ 17)
    (hpos : 0 < k) (ha : Nearest sig a) (hd : Rounded (10 ^ 308) y d)
    (hb : Nearest (size a / size d) b) (he : Rounded (10 ^ k) x e)
    (hn : Nearest (size b / size e) n) (h : Nearest (sig / 10 ^ 308 / 10 ^ k) c) : Near c n := by
  rcases le_or_gt (2 ^ 52 * unit 0) (size a / size d) with hnormal | hsmall
  · rcases le_or_gt k 22 with hle | hgt
    · -- the second power is exact, and the first quotient errs like two roundings
      rw [he.size_eq_of_power hle] at hn
      have hdivided := (within_step ha hsig hd hb hnormal).div (Within.refl (10 ^ k))
        (by norm_num [roundoff]) (div_nonneg (by linarith only [hsig]) (by positivity))
        (size_nonneg b) (by positivity) (by positivity)
      rw [mul_one] at hdivided
      exact near_of_within h hn hdivided
    · obtain ⟨r, hr, hr', hw⟩ := within_beyond ha hsig hd hb he
      have hvalue := value_le (k := k) (j := 331) (p := 2 ^ 49) (q := 1) hsig' (by omega)
        (by decide +kernel)
      refine near_of_tiny h hn ?_ hr hr' hw
      generalize (sig : Rat) / 10 ^ 308 / 10 ^ k = value at *
      push_cast at hvalue
      linarith only [hvalue]
  · obtain ⟨r, hr, hr', hw⟩ := within_beyond ha hsig hd hb he
    exact near_of_tiny h hn (value_le_of_subnormal ha hsig hd hpos hsmall) hr hr' hw

/-- A decimal whose power of ten is beyond the format. -/
theorem exists_near_beyond {sig : Nat} (hsig : 0 < sig) (hsig' : sig ≤ 10 ^ 17) (hpos : 0 < k)
    (hc : 0 < c) (h : Nearest (sig / 10 ^ 308 / 10 ^ k) c) :
    ∃ n, Near c n ∧
      scale (.ofNat sig) (-((308 + k : Nat) : Int)) = some (ofParts false (min n infinityBits)) := by
  have hone : (1 : Rat) ≤ sig := by exact_mod_cast hsig
  have hk := lt_of_nearest hsig' hc h
  obtain ⟨a, ha⟩ := exists_rounded_ofNat (digits_le hsig')
  obtain ⟨d, b, hd, hb, hstep⟩ := exists_scale_step ha (ha.code_pos hone) hpos
  have hfirst := rounded_first ha hd hb
  have hbpos := (within_first ha.nearest hone hd hb).2
  obtain ⟨e, n, he, hn, hscale⟩ := exists_scale_quotient hfirst hbpos hpos (by omega)
  refine ⟨n, near_beyond hone hsig' hpos ha.nearest hd hb he hn h, ?_⟩
  rw [hstep, Nat.min_eq_left hfirst.finite.le, hscale]

/-! ### Any decimal -/

/-- No finite number is as large as the first power of ten beyond the format. -/
theorem mid_lt_ten_pow (hc : c < infinityBits) : mid c < 10 ^ 309 := by
  have hparts : Parts infinityBits (2 ^ 52) 2046 := ⟨rfl, by norm_num, Or.inr le_rfl⟩
  have hunit : Binary64.unit 2046 = 2 ^ 972 := by
    rw [Binary64.unit]
    norm_num
  have hnat : 2 ^ 52 * 2 ^ 972 < 10 ^ 309 := by decide +kernel
  have hrat := (Nat.cast_lt (α := Rat)).mpr hnat
  simp only [Nat.cast_mul, Nat.cast_pow, Nat.cast_ofNat] at hrat
  calc mid c < size (c + 1) := mid_lt_size_succ c
    _ ≤ size infinityBits := size_strictMono.monotone hc
    _ = 2 ^ 52 * 2 ^ 972 := by rw [hparts.size_eq, hunit, Nat.cast_pow, Nat.cast_ofNat]
    _ < 10 ^ 309 := hrat

/-- The decimal of a finite number has no power of ten beyond the format. -/
theorem le_of_spells {sig : Nat} (hsig : 0 < sig) (hc : c < infinityBits)
    (h : Nearest (sig * 10 ^ k) c) : k ≤ 308 := by
  by_contra hlt
  have hone : (1 : Rat) ≤ sig := by exact_mod_cast hsig
  have hgrow : (10 : Rat) ^ 309 ≤ 10 ^ k := pow_le_pow_right₀ (by norm_num) (by omega)
  have hpow : (0 : Rat) ≤ 10 ^ k := by positivity
  have hvalue := mul_le_mul_of_nonneg_right hone hpow
  have hmid := h.le_mid.trans_lt (mid_lt_ten_pow hc)
  generalize (10 : Rat) ^ 309 = power at *
  linarith only [hvalue, hmid, hgrow]

variable {dec : Decimal}

/-- The power of ten is a factor or a divisor. -/
theorem exponent_cases (dec : Decimal) :
    (∃ k : Nat, dec.exponent = k ∧ dec.value = dec.digits * 10 ^ k) ∨
      ∃ k : Nat, 0 < k ∧ dec.exponent = -(k : Int) ∧ dec.value = dec.digits / 10 ^ k := by
  rcases le_or_gt 0 dec.exponent with hle | hlt
  · obtain ⟨k, hk⟩ := Int.eq_ofNat_of_zero_le hle
    exact Or.inl ⟨k, hk, by rw [Decimal.value, hk, zpow_natCast]⟩
  · obtain ⟨k, hk⟩ := Int.eq_ofNat_of_zero_le (by omega : 0 ≤ -dec.exponent)
    have hneg : dec.exponent = -(k : Int) := by omega
    refine Or.inr ⟨k, by omega, hneg, ?_⟩
    rw [Decimal.value, hneg, zpow_neg, zpow_natCast, div_eq_mul_inv]

/-- **Scaling finds a number at most two places from the nearest one**, if that is not among the
last two finite numbers. -/
theorem exists_near_scale (h : dec.Spells c) (hpos : 0 < c) (hc : c + 2 < infinityBits) :
    ∃ n, Near c n ∧ scale (.ofNat dec.digits) dec.exponent = some (ofParts false n) := by
  have hnearest := h.nearest
  rcases exponent_cases dec with ⟨k, hk, hvalue⟩ | ⟨k, hkpos, hk, hvalue⟩
  · rw [hvalue] at hnearest
    obtain ⟨n, hn, hscale⟩ := exists_near_of_product h.pos (digits_le h.le)
      (le_of_spells h.pos (by omega) hnearest) hnearest
    have hlt := hn.2
    exact ⟨n, hn, by rw [hk]; exact hscale (by omega)⟩
  · rw [hvalue] at hnearest
    rw [hk]
    rcases Nat.lt_or_ge 308 k with hbeyond | hwithin
    · obtain ⟨j, rfl⟩ : ∃ j, k = 308 + j := ⟨k - 308, by omega⟩
      rw [pow_add, ← div_div] at hnearest
      obtain ⟨n, hn, hscale⟩ := exists_near_beyond h.pos h.le (by omega) hpos hnearest
      have hlt := hn.2
      exact ⟨n, hn, by rw [hscale, Nat.min_eq_left (by omega)]⟩
    · obtain ⟨n, hn, hscale⟩ := exists_near_of_quotient h.pos (digits_le h.le) hkpos hwithin hnearest
      have hlt := hn.2
      exact ⟨n, hn, by rw [hscale, Nat.min_eq_left (by omega)]⟩

/-- **Scaling is exact for few digits and a small power**: neither of them is rounded, so the only
error is that of the last step. -/
theorem scale_eq_of_small (h : dec.Spells c) (hc : c < infinityBits)
    (hdigits : dec.digits ≤ 2 ^ 53) (hexponent : dec.exponent.natAbs ≤ 22) :
    scale (.ofNat dec.digits) dec.exponent = some (ofParts false c) := by
  obtain ⟨a, ha⟩ := exists_rounded_ofNat (digits_le h.le)
  have hsize := ha.size_eq_of_le hdigits
  have hone : (1 : Rat) ≤ dec.digits := by exact_mod_cast h.pos
  have hnearest := h.nearest
  rcases exponent_cases dec with ⟨k, hk, hvalue⟩ | ⟨k, hkpos, hk, hvalue⟩
  · obtain ⟨d, n, hd, hn, hscale⟩ := exists_scale_product ha (k := k) (by omega)
    rw [hsize, hd.size_eq_of_power (by omega), ← hvalue] at hn
    obtain rfl := hn.unique hnearest
    rw [hk]
    exact hscale hc
  · obtain ⟨d, n, hd, hn, hscale⟩ :=
      exists_scale_quotient ha (ha.code_pos hone) hkpos (by omega)
    rw [hsize, hd.size_eq_of_power (by omega), ← hvalue] at hn
    obtain rfl := hn.unique hnearest
    rw [hk, hscale, Nat.min_eq_left hc.le]

end TableAccess.Json
