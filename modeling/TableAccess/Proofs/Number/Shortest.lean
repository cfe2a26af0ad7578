import TableAccess.Number.Shortest
import TableAccess.Proofs.Number.Rounding

/-!
# The shortest decimal reads back

The interval around a number ends at the midpoints to its neighbours, so a decimal lies in it
exactly if the number is nearest to it.  The interval is wider than a grid sixteen decimal places
below the first digit, and from one grid point to the next the search cannot jump over it.
-/

namespace TableAccess.Number

open Binary64

/-- The number that a decimal stands for. -/
def Decimal.value (d : Decimal) : Rat := d.digits * 10 ^ d.exponent

namespace Reach

variable {r : Reach} {c n : Nat} {k : Int} {tie : Tie}

/-- The interval is the one around the size of a code, in units of `u`. -/
structure Around (r : Reach) (c : Nat) (u : Rat) : Prop where
  pos : 0 < r.denominator
  low : (r.low : Rat) / r.denominator * u = mid c
  value : (r.value : Rat) / r.denominator * u = size (c + 1)
  high : (r.high : Rat) / r.denominator * u = mid (c + 1)
  closed : r.closed = true ↔ Even (c + 1)

/-- The midpoint before a code, from the parts of the code. -/
theorem mid_of_parts {m k : Nat} (h : Parts (c + 1) m k) :
    mid c = (m - (if m = 2 ^ 52 ∧ 0 < k then 1 / 4 else 1 / 2)) * unit k := by
  obtain ⟨hcode, hlt, hnormal⟩ := h
  split
  case isTrue hfirst =>
    obtain ⟨rfl, hk⟩ := hfirst
    obtain ⟨j, rfl⟩ : ∃ j, k = j + 1 := ⟨k - 1, by omega⟩
    have hparts : Parts c (2 ^ 53 - 1) j := ⟨by omega, by norm_num, Or.inr (by norm_num)⟩
    rw [mid, hparts.size_eq, hparts.gap_eq, unit_add]
    push_cast
    norm_num
    ring
  case isFalse hfirst =>
    have hparts : Parts c (m - 1) k := ⟨by omega, by omega, by omega⟩
    have hpred : ((m - 1 : Nat) : Rat) = m - 1 := by
      rw [Nat.cast_sub (by omega), Nat.cast_one]
    rw [mid, hparts.size_eq, hparts.gap_eq, hpred]
    ring

theorem around_of (c : Nat) :
    (Reach.of (significand (c + 1)) ((binade (c + 1) : Int) - 1074)).Around c 1 := by
  have hparts := parts (c + 1)
  have hmid := mid_of_parts hparts
  have hsize := hparts.size_eq
  have hgap := hparts.gap_eq
  generalize significand (c + 1) = m at *
  generalize binade (c + 1) = k at *
  obtain ⟨hcode, hlt, hnormal⟩ := hparts
  have hunit : (2 : Rat) ^ ((k : Int) - 1074 - 2).toNat / 2 ^ (-((k : Int) - 1074 - 2)).toNat =
      unit k / 4 := by
    rw [unit, pow_toNat_div two_ne_zero, zpow_sub₀ two_ne_zero]
    norm_num
  have hbelow : (m = 2 ^ 52 ∧ -1074 < (k : Int) - 1074) ↔ m = 2 ^ 52 ∧ 0 < k := by omega
  constructor
  case pos => exact Nat.pow_pos two_pos
  case low =>
    rw [hmid, mul_one, Reach.of]
    simp only [Nat.pow_eq, hbelow, Nat.cast_mul, Nat.cast_pow, Nat.cast_ofNat]
    rw [mul_div_assoc, hunit]
    split
    · rw [Nat.cast_sub (by omega)]
      push_cast
      ring
    · rw [Nat.cast_sub (by omega)]
      push_cast
      ring
  case value =>
    rw [hsize, mul_one, Reach.of]
    simp only [Nat.pow_eq, Nat.cast_mul, Nat.cast_pow, Nat.cast_ofNat]
    rw [mul_div_assoc, hunit]
    ring
  case high =>
    rw [mid, hsize, hgap, mul_one, Reach.of]
    simp only [Nat.pow_eq, Nat.cast_mul, Nat.cast_add, Nat.cast_pow, Nat.cast_ofNat]
    rw [mul_div_assoc, hunit]
    ring
  case closed =>
    rw [Reach.of, beq_iff_eq, Nat.even_iff]
    omega

theorem Around.onGrid {u : Rat} (h : r.Around c u) (k : Int) :
    (r.onGrid k).Around c (u * 10 ^ k) := by
  obtain ⟨hpos, hlow, hvalue, hhigh, hclosed⟩ := h
  have hten : (10 : Rat) ^ (-k) * 10 ^ k = 1 := by
    rw [← zpow_add₀ (by norm_num), neg_add_cancel, zpow_zero]
  have hscale : ∀ n : Nat, ((n * Nat.pow 10 (-k).toNat : Nat) : Rat) /
      (r.denominator * Nat.pow 10 k.toNat : Nat) * (u * 10 ^ k) = n / r.denominator * u := by
    intro n
    have hpow := pow_toNat_div (by norm_num : (10 : Rat) ≠ 0) (-k)
    rw [neg_neg] at hpow
    simp only [Nat.pow_eq]
    push_cast
    rw [← div_mul_div_comm, hpow]
    calc (n : Rat) / r.denominator * 10 ^ (-k) * (u * 10 ^ k)
        = n / r.denominator * u * (10 ^ (-k) * 10 ^ k) := by ring
      _ = n / r.denominator * u := by rw [hten, mul_one]
  exact ⟨Nat.mul_pos hpos (Nat.pow_pos (by norm_num)), (hscale _).trans hlow,
    (hscale _).trans hvalue, (hscale _).trans hhigh, hclosed⟩

/-- A whole number of units lies in the interval exactly if the code is nearest to it. -/
theorem Around.holds_iff {u : Rat} (h : r.Around c u) (hu : 0 < u) :
    r.holds n = true ↔ Nearest (n * u) (c + 1) := by
  have hden : (0 : Rat) < r.denominator := by exact_mod_cast h.pos
  have hlow : r.low < n * r.denominator ↔ mid c < n * u := by
    rw [← h.low, mul_lt_mul_iff_left₀ hu, div_lt_iff₀ hden]
    exact_mod_cast Iff.rfl
  have hhigh : n * r.denominator < r.high ↔ n * u < mid (c + 1) := by
    rw [← h.high, mul_lt_mul_iff_left₀ hu, lt_div_iff₀ hden]
    exact_mod_cast Iff.rfl
  have hlow' : r.low = n * r.denominator ↔ mid c = n * u := by
    rw [← h.low, mul_left_inj' hu.ne', div_eq_iff hden.ne']
    exact_mod_cast Iff.rfl
  have hhigh' : n * r.denominator = r.high ↔ n * u = mid (c + 1) := by
    rw [← h.high, mul_left_inj' hu.ne', eq_div_iff hden.ne']
    exact_mod_cast Iff.rfl
  have hnearest : Nearest (n * u) (c + 1) ↔
      (mid c < n * u ∨ mid c = n * u ∧ Even (c + 1)) ∧
        (n * u < mid (c + 1) ∨ n * u = mid (c + 1) ∧ Even (c + 1)) := by
    constructor
    · intro hn
      exact ⟨hn.above c rfl, hn.below⟩
    · rintro ⟨habove, hbelow⟩
      refine ⟨hbelow, ?_⟩
      intro b hb
      obtain rfl : c = b := by omega
      exact habove
  rw [hnearest, ← hlow, ← hhigh, ← hlow', ← hhigh', ← h.closed, holds]
  cases r.closed with
  | true =>
    simp only [if_true, and_true, Bool.and_eq_true, decide_eq_true_eq]
    omega
  | false =>
    simp only [Bool.false_eq_true, if_false, and_false, or_false, Bool.and_eq_true,
      decide_eq_true_eq]

/-! ### Points of a grid -/

/-- The grid points around the value of the interval. -/
theorem Around.floor_le {u : Rat} (h : r.Around c u) (hu : 0 < u) :
    (r.value / r.denominator : Nat) * u ≤ size (c + 1) ∧
      size (c + 1) < ((r.value / r.denominator : Nat) + 1) * u := by
  have hden : (0 : Rat) < r.denominator := by exact_mod_cast h.pos
  rw [← h.value, mul_le_mul_iff_left₀ hu, mul_lt_mul_iff_left₀ hu, le_div_iff₀ hden,
    div_lt_iff₀ hden]
  constructor
  · exact_mod_cast Nat.div_mul_le_self r.value r.denominator
  · have hlt := Nat.lt_mul_div_succ r.value h.pos
    rw [mul_comm] at hlt
    exact_mod_cast hlt

/-- The point that is found is one of the two around the value.  None is found if neither of them
lies in the interval. -/
theorem nearest?_cases (r : Reach) (tie : Tie) :
    (∃ n, r.nearest? tie = some n ∧ r.holds n = true ∧
      (n = r.value / r.denominator ∨ n = r.value / r.denominator + 1)) ∨
    r.holds (r.value / r.denominator) = false ∧ r.holds (r.value / r.denominator + 1) = false := by
  unfold nearest?
  simp only
  generalize r.value / r.denominator = below
  cases hbelow : r.holds below with
  | false =>
    cases habove : r.holds (below + 1) with
    | false => exact Or.inr ⟨rfl, rfl⟩
    | true => exact Or.inl ⟨below + 1, rfl, habove, Or.inr rfl⟩
  | true =>
    left
    cases habove : r.holds (below + 1) with
    | false => exact ⟨below, rfl, hbelow, Or.inl rfl⟩
    | true =>
      simp only
      split
      · exact ⟨below, rfl, hbelow, Or.inl rfl⟩
      · split
        · exact ⟨below + 1, rfl, habove, Or.inr rfl⟩
        · cases tie with
          | up => exact ⟨below + 1, rfl, habove, Or.inr rfl⟩
          | toEven =>
            rcases Nat.mod_two_eq_zero_or_one below with hmod | hmod
            · exact ⟨below, by simp only [hmod, Nat.add_zero], hbelow, Or.inl rfl⟩
            · exact ⟨below + 1, by simp only [hmod], habove, Or.inr rfl⟩

theorem nearest?_eq_some (h : r.nearest? tie = some n) :
    r.holds n = true ∧ (n = r.value / r.denominator ∨ n = r.value / r.denominator + 1) := by
  rcases nearest?_cases r tie with ⟨found, hfound, hholds⟩ | ⟨hbelow, habove⟩
  · obtain rfl : found = n := Option.some.inj (hfound.symm.trans h)
    exact hholds
  · unfold nearest? at h
    simp only [hbelow, habove] at h
    cases h

/-- No interval that is wider than the grid lies between two of its points. -/
theorem Around.exists_nearest? {u : Rat} (h : r.Around c u) (hu : 0 < u)
    (hwide : u < mid (c + 1) - mid c) (tie : Tie) : ∃ n, r.nearest? tie = some n := by
  obtain ⟨hle, hlt⟩ := h.floor_le hu
  rcases nearest?_cases r tie with ⟨n, hn, -⟩ | ⟨hbelow, habove⟩
  · exact ⟨n, hn⟩
  · exfalso
    generalize r.value / r.denominator = n at *
    have hinside : ∀ i : Nat, mid c < i * u → i * u < mid (c + 1) → r.holds i = true := by
      intro i hlow hhigh
      apply (h.holds_iff hu).mpr
      refine ⟨Or.inl hhigh, ?_⟩
      intro b hb
      obtain rfl : c = b := by omega
      exact Or.inl hlow
    have hlow := mid_lt_size_succ c
    have hhigh := size_lt_mid (c + 1)
    -- one grid point is at or before the interval, so the next one is inside
    by_cases hnear : (n : Rat) * u ≤ mid c
    · rw [hinside (n + 1)] at habove
      · cases habove
      · push_cast
        linarith
      · push_cast
        linarith
    · rw [hinside n (not_le.mp hnear) (by linarith)] at hbelow
      cases hbelow

/-- The search ends on the first grid that has a point in the interval. -/
theorem exists_search {fuel : Nat} (hlast : ∃ n, (r.onGrid (k - fuel)).nearest? tie = some n) :
    ∃ j n, j ≤ fuel ∧ r.search tie (fuel + 1) k = ⟨n, k - (j : Nat)⟩ ∧
      (r.onGrid (k - (j : Nat))).nearest? tie = some n := by
  induction fuel generalizing k with
  | zero =>
    obtain ⟨n, hn⟩ := hlast
    refine ⟨0, n, le_rfl, ?_, hn⟩
    rw [Nat.cast_zero, Int.sub_zero] at hn ⊢
    rw [search, hn]
  | succ fuel ih =>
    cases hfirst : (r.onGrid k).nearest? tie with
    | some n =>
      refine ⟨0, n, Nat.zero_le _, ?_, ?_⟩
      · rw [search, hfirst, Nat.cast_zero, Int.sub_zero]
      · rw [Nat.cast_zero, Int.sub_zero, hfirst]
    | none =>
      have hk : k - (fuel + 1 : Nat) = k - 1 - (fuel : Nat) := by
        push_cast
        ring
      rw [hk] at hlast
      obtain ⟨j, n, hj, hsearch, hn⟩ := ih hlast
      have hk' : k - 1 - (j : Nat) = k - (j + 1 : Nat) := by
        push_cast
        ring
      rw [hk'] at hsearch hn
      refine ⟨j + 1, n, by omega, ?_, hn⟩
      rw [search, hfirst]
      exact hsearch

/-! ### The decimal logarithm -/

theorem ten_le_two_le_ten : (10 : Rat) ^ (1233 : Int) ≤ 2 ^ (4096 : Int) ∧
    (2 : Rat) ^ (4096 : Int) ≤ 10 ^ (1234 : Int) := by
  have hlow : 10 ^ 1233 ≤ 2 ^ 4096 := by decide +kernel
  have hhigh : 2 ^ 4096 ≤ 10 ^ 1234 := by decide +kernel
  constructor
  · exact_mod_cast hlow
  · exact_mod_cast hhigh

theorem zpow_anti_left {a b : Rat} (ha : 0 < a) (hab : a ≤ b) {e : Int} (he : e ≤ 0) :
    b ^ e ≤ a ^ e := by
  have hpow := zpow_le_zpow_left₀ (neg_nonneg.mpr he) ha.le hab
  rw [zpow_neg, zpow_neg] at hpow
  exact (inv_le_inv₀ (zpow_pos ha e) (zpow_pos (ha.trans_le hab) e)).mp hpow

/-- The fraction `1233 / 4096` stands for the decimal logarithm of two: a power of two lies
between the powers of ten around the exponent that it gives. -/
theorem ten_le_two {e : Int} (he : -4096 ≤ e) :
    (10 : Rat) ^ (1233 * e - 4096) ≤ 2 ^ (4096 * e) := by
  obtain ⟨hlow, hhigh⟩ := ten_le_two_le_ten
  rw [zpow_mul (2 : Rat)]
  rcases le_total 0 e with hpos | hneg
  · calc (10 : Rat) ^ (1233 * e - 4096) ≤ 10 ^ (1233 * e) :=
          zpow_le_zpow_right₀ (by norm_num) (by omega)
      _ = (10 ^ (1233 : Int)) ^ e := zpow_mul _ _ _
      _ ≤ (2 ^ (4096 : Int)) ^ e := zpow_le_zpow_left₀ hpos (by positivity) hlow
  · calc (10 : Rat) ^ (1233 * e - 4096) ≤ 10 ^ (1234 * e) :=
          zpow_le_zpow_right₀ (by norm_num) (by omega)
      _ = (10 ^ (1234 : Int)) ^ e := zpow_mul _ _ _
      _ ≤ (2 ^ (4096 : Int)) ^ e := zpow_anti_left (by positivity) hhigh hneg

theorem two_le_ten {e : Int} (he : e ≤ 2864) :
    (2 : Rat) ^ (4096 * e) ≤ 10 ^ (1233 * e + 2864) := by
  obtain ⟨hlow, hhigh⟩ := ten_le_two_le_ten
  rw [zpow_mul (2 : Rat)]
  rcases le_total 0 e with hpos | hneg
  · calc ((2 : Rat) ^ (4096 : Int)) ^ e ≤ (10 ^ (1234 : Int)) ^ e :=
          zpow_le_zpow_left₀ hpos (by positivity) hhigh
      _ = 10 ^ (1234 * e) := (zpow_mul _ _ _).symm
      _ ≤ 10 ^ (1233 * e + 2864) := zpow_le_zpow_right₀ (by norm_num) (by omega)
  · calc ((2 : Rat) ^ (4096 : Int)) ^ e ≤ (10 ^ (1233 : Int)) ^ e :=
          zpow_anti_left (by positivity) hlow hneg
      _ = 10 ^ (1233 * e) := (zpow_mul _ _ _).symm
      _ ≤ 10 ^ (1233 * e + 2864) := zpow_le_zpow_right₀ (by norm_num) (by omega)

/-- The exponent that the binary logarithm gives is right up to one. -/
theorem log10_bounds {e k : Int} (hk : k = e * 1233 / 4096) (hlow : -4096 ≤ e) (hhigh : e ≤ 2863) :
    (10 : Rat) ^ (k - 1) ≤ 2 ^ e ∧ (2 : Rat) ^ (e + 1) ≤ 10 ^ (k + 2) := by
  have hroot : ∀ {a b : Rat}, 0 ≤ a → 0 ≤ b → a ^ (4096 : Int) ≤ b ^ (4096 : Int) → a ≤ b :=
    fun ha hb h => (zpow_le_zpow_iff_left₀ ha hb (by norm_num)).mp h
  constructor
  · apply hroot (by positivity) (by positivity)
    rw [← zpow_mul, ← zpow_mul, mul_comm e]
    exact (zpow_le_zpow_right₀ (by norm_num) (by omega)).trans (ten_le_two hlow)
  · apply hroot (by positivity) (by positivity)
    rw [← zpow_mul, ← zpow_mul, mul_comm (e + 1)]
    exact (two_le_ten (by omega)).trans (zpow_le_zpow_right₀ (by norm_num) (by omega))

theorem Around.reaches_iff (h : r.Around c 1) (k : Int) :
    r.reaches k = true ↔ 10 ^ k ≤ size (c + 1) := by
  have hgrid := h.onGrid k
  have hden : (0 : Rat) < (r.onGrid k).denominator := by exact_mod_cast hgrid.pos
  have hten : (0 : Rat) < 10 ^ k := by positivity
  rw [reaches, decide_eq_true_eq, ← hgrid.value, one_mul, le_mul_iff_one_le_left hten,
    one_le_div hden]
  exact_mod_cast Iff.rfl

/-- The decimal logarithm of the value, rounded down. -/
theorem Around.floorLog10_spec (h : r.Around c 1) {e : Int} (hlow : (2 : Rat) ^ e ≤ size (c + 1))
    (hhigh : size (c + 1) < 2 ^ (e + 1)) (he : -4096 ≤ e) (he' : e ≤ 2863) :
    (10 : Rat) ^ r.floorLog10 e ≤ size (c + 1) ∧ size (c + 1) < 10 ^ (r.floorLog10 e + 1) := by
  obtain ⟨hbelow, habove⟩ := log10_bounds rfl he he'
  rw [floorLog10]
  generalize e * 1233 / 4096 = k at *
  split
  case isTrue hnext =>
    refine ⟨(h.reaches_iff _).mp hnext, ?_⟩
    rw [add_assoc]
    exact hhigh.trans_le habove
  case isFalse hnext =>
    have hlt := not_le.mp ((h.reaches_iff _).not.mp hnext)
    split
    case isTrue hhere => exact ⟨(h.reaches_iff _).mp hhere, hlt⟩
    case isFalse hhere =>
      refine ⟨hbelow.trans hlow, ?_⟩
      rw [sub_add_cancel]
      exact not_le.mp ((h.reaches_iff _).not.mp hhere)

end Reach

/-! ### The shortest decimal -/

/-- A decimal of at most seventeen digits, not zero, to which a code is nearest. -/
structure Decimal.Spells (d : Decimal) (c : Nat) : Prop where
  nearest : Nearest d.value c
  pos : 0 < d.digits
  le : d.digits ≤ 10 ^ 17

variable {c : Nat} {tie : Tie}

theorem Decimal.Spells.normalize {d : Decimal} (h : d.Spells c) (fuel : Nat) :
    (Decimal.normalize fuel d).Spells c := by
  induction fuel generalizing d with
  | zero => exact h
  | succ fuel ih =>
    rw [Decimal.normalize]
    split
    case isFalse => exact h
    case isTrue hzero =>
      apply ih
      obtain ⟨n, hn⟩ : ∃ n, d.digits = 10 * n := ⟨d.digits / 10, by omega⟩
      have hquotient : d.digits / 10 = n := by omega
      have hvalue : Decimal.value ⟨d.digits / 10, d.exponent + 1⟩ = d.value := by
        rw [Decimal.value, Decimal.value, hquotient, hn, zpow_add_one₀ (by norm_num)]
        push_cast
        ring
      have hpos := h.pos
      have hle := h.le
      have hdigits : Decimal.digits ⟨d.digits / 10, d.exponent + 1⟩ = n := hquotient
      exact ⟨by rw [hvalue]; exact h.nearest, by omega, by omega⟩

/-- The significand and the exponent give the binary logarithm of the size. -/
theorem size_log2 (hc : c + 1 < infinityBits) {e : Int}
    (he : e = ((significand (c + 1)).log2 : Int) + ((binade (c + 1) : Int) - 1074)) :
    (2 : Rat) ^ e ≤ size (c + 1) ∧ size (c + 1) < 2 ^ (e + 1) ∧ -1074 ≤ e ∧ e ≤ 1023 := by
  obtain ⟨hcode, hlt, hnormal⟩ := parts (c + 1)
  have hpos : significand (c + 1) ≠ 0 := by omega
  have hbits : (significand (c + 1)).log2 ≤ 52 := Nat.lt_succ_iff.mp ((Nat.log2_lt hpos).mpr hlt)
  have hlow : (2 : Rat) ^ ((significand (c + 1)).log2 : Int) ≤ significand (c + 1) := by
    rw [zpow_natCast]
    exact_mod_cast Nat.log2_self_le hpos
  have hhigh : (significand (c + 1) : Rat) < 2 ^ (((significand (c + 1)).log2 : Int) + 1) := by
    rw [← Nat.cast_succ, zpow_natCast]
    exact_mod_cast Nat.lt_log2_self
  have hunit := unit_pos (binade (c + 1))
  rw [unit] at hunit
  have hnext : e + 1 = ((significand (c + 1)).log2 : Int) + 1 + ((binade (c + 1) : Int) - 1074) := by
    omega
  simp only [infinityBits, Nat.pow_eq] at hc
  refine ⟨?_, ?_, by omega, by omega⟩
  · rw [he, zpow_add₀ two_ne_zero, size, unit]
    exact mul_le_mul_of_nonneg_right hlow hunit.le
  · rw [hnext, zpow_add₀ two_ne_zero, size, unit]
    exact mul_lt_mul_of_pos_right hhigh hunit

/-- The interval around a size is wider than its seventeenth decimal place. -/
theorem size_lt_width (c : Nat) : size (c + 1) < 10 ^ 16 * (mid (c + 1) - mid c) := by
  have hsteps := size_add_gap_le c
  have hsize := size_succ c
  have hgap := gap_mono (Nat.le_succ c)
  have hpos := gap_pos c
  rw [mid, mid, hsize]
  rw [Nat.succ_eq_add_one] at hgap
  linarith

/-- **The shortest decimal reads back**, and it has at most seventeen digits. -/
theorem spells_shortest (tie : Tie) (hc : c + 1 < infinityBits) :
    (shortest tie (significand (c + 1)) ((binade (c + 1) : Int) - 1074)).Spells (c + 1) := by
  have hreach := Reach.around_of c
  obtain ⟨hlow, hhigh, he, he'⟩ := size_log2 hc rfl
  obtain ⟨hfirst, hnext⟩ := hreach.floorLog10_spec hlow hhigh (by omega) (by omega)
  rw [shortest, if_neg (by have := (parts (c + 1)).code; have := (parts (c + 1)).normal; omega)]
  simp only
  apply Decimal.Spells.normalize
  generalize Reach.of _ _ = r at *
  generalize r.floorLog10 _ = k at *
  have hfine : (1 : Rat) * 10 ^ (k - (16 : Nat)) < mid (c + 1) - mid c := by
    have hwidth := size_lt_width c
    rw [one_mul, zpow_sub₀ (by norm_num), zpow_natCast, div_lt_iff₀ (by norm_num)]
    linarith
  obtain ⟨j, n, hj, hsearch, hn⟩ := Reach.exists_search
    ((hreach.onGrid (k - (16 : Nat))).exists_nearest? (by positivity) hfine tie)
  have hgrid := hreach.onGrid (k - (j : Nat))
  have hunit : (0 : Rat) < 1 * 10 ^ (k - (j : Nat)) := by positivity
  obtain ⟨hholds, hpoint⟩ := Reach.nearest?_eq_some hn
  obtain ⟨hfloor, hceil⟩ := hgrid.floor_le hunit
  have hnearest := (hgrid.holds_iff hunit).mp hholds
  rw [one_mul] at hnearest hunit hfloor hceil
  rw [hsearch]
  generalize (r.onGrid (k - (j : Nat))).value / (r.onGrid (k - (j : Nat))).denominator = below at *
  refine ⟨hnearest, ?_, ?_⟩
  · -- the first digit of the value is in front of the grid point
    have hone : (1 : Rat) < below + 1 := by
      rw [← mul_lt_mul_iff_left₀ hunit, one_mul]
      calc (10 : Rat) ^ (k - (j : Nat)) ≤ 10 ^ k := zpow_le_zpow_right₀ (by norm_num) (by omega)
        _ ≤ size (c + 1) := hfirst
        _ < (below + 1) * 10 ^ (k - (j : Nat)) := hceil
    have hpos : 0 < below := by
      have : (0 : Rat) < below := by linarith
      exact_mod_cast this
    show 0 < n
    omega
  · have hlast : (below : Rat) < (10 ^ 17 : Nat) := by
      rw [← mul_lt_mul_iff_left₀ hunit, Nat.cast_pow, Nat.cast_ofNat, ← zpow_natCast,
        ← zpow_add₀ (by norm_num)]
      calc (below : Rat) * 10 ^ (k - (j : Nat)) ≤ size (c + 1) := hfloor
        _ < 10 ^ (k + 1) := hnext
        _ ≤ 10 ^ (((17 : Nat) : Int) + (k - (j : Nat))) :=
            zpow_le_zpow_right₀ (by norm_num) (by push_cast; omega)
    have hlt : below < 10 ^ 17 := by exact_mod_cast hlast
    show n ≤ 10 ^ 17
    omega

end TableAccess.Number
