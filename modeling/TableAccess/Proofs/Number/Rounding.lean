import Mathlib.Algebra.Order.Field.Power
import Mathlib.Data.Rat.Cast.Order
import Mathlib.Tactic.FieldSimp
import Mathlib.Tactic.Linarith
import Mathlib.Tactic.NormNum
import Mathlib.Tactic.Positivity
import Mathlib.Tactic.Ring
import TableAccess.Number.Binary64

/-!
# Rounding to floating point numbers

The code of a number is its bits without the sign.  Codes are consecutive whole numbers, and the
sizes that they stand for grow with them, by steps that never get smaller.  So what it means to be
the nearest number is said on codes: a value belongs to a code if it lies between the midpoints to
the sizes before and after, and on a midpoint the even code wins.
-/

namespace TableAccess.Number.Binary64

/-! ### Codes and their sizes -/

/-- The significand of a code. -/
def significand (c : Nat) : Nat := if c < 2 ^ 52 then c else c % 2 ^ 52 + 2 ^ 52

/-- How often the unit of a code has been doubled, starting from the smallest size. -/
def binade (c : Nat) : Nat := c / 2 ^ 52 - 1

/-- The step between the sizes of a binade. -/
def unit (k : Nat) : Rat := 2 ^ ((k : Int) - 1074)

/-- The size that a code stands for, if it is finite. -/
def size (c : Nat) : Rat := significand c * unit (binade c)

/-- The step from a size to the next one. -/
def gap (c : Nat) : Rat := unit (binade c)

/-- A code is put together from its significand and its binade. -/
structure Parts (c m k : Nat) : Prop where
  code : c = m + k * 2 ^ 52
  lt : m < 2 ^ 53
  normal : k = 0 ∨ 2 ^ 52 ≤ m

variable {c d m k : Nat}

theorem parts (c : Nat) : Parts c (significand c) (binade c) := by
  rw [significand, binade]
  split
  · exact ⟨by omega, by omega, by omega⟩
  · exact ⟨by omega, by omega, by omega⟩

theorem Parts.significand_eq (h : Parts c m k) : significand c = m := by
  obtain ⟨hcode, hlt, hnormal⟩ := h
  rw [significand]
  split <;> omega

theorem Parts.binade_eq (h : Parts c m k) : binade c = k := by
  obtain ⟨hcode, hlt, hnormal⟩ := h
  rw [binade]
  omega

theorem Parts.size_eq (h : Parts c m k) : size c = m * unit k := by
  rw [size, h.significand_eq, h.binade_eq]

theorem Parts.gap_eq (h : Parts c m k) : gap c = unit k := by
  rw [gap, h.binade_eq]

theorem unit_pos (k : Nat) : 0 < unit k := by
  rw [unit]
  positivity

/-- The unit of a later binade. -/
theorem unit_add (k n : Nat) : unit (k + n) = 2 ^ n * unit k := by
  rw [unit, unit, ← zpow_natCast, ← zpow_add₀ two_ne_zero]
  congr 1
  push_cast
  ring

theorem unit_mono {n : Nat} (h : k ≤ n) : unit k ≤ unit n := by
  rw [unit, unit]
  exact zpow_le_zpow_right₀ (by norm_num) (by omega)

/-- The unit of the binade in which the steps are whole numbers for the first time. -/
theorem unit_one : unit 1074 = 1 := by
  rw [unit]
  norm_num

theorem gap_pos (c : Nat) : 0 < gap c := unit_pos (binade c)

theorem size_nonneg (c : Nat) : 0 ≤ size c := by
  rw [size]
  exact mul_nonneg (Nat.cast_nonneg _) (unit_pos _).le

/-- The significand may also be the first power of two that it never reaches. -/
theorem size_of_le (hm : m ≤ 2 ^ 53) (hnormal : k = 0 ∨ 2 ^ 52 ≤ m) :
    size (m + k * 2 ^ 52) = m * unit k := by
  rcases Nat.lt_or_eq_of_le hm with hlt | rfl
  · exact Parts.size_eq ⟨rfl, hlt, hnormal⟩
  · have hnext : Parts (2 ^ 53 + k * 2 ^ 52) (2 ^ 52) (k + 1) := ⟨by omega, by omega, by omega⟩
    rw [hnext.size_eq, unit_add]
    push_cast
    ring

theorem size_succ (c : Nat) : size (c + 1) = size c + gap c := by
  obtain ⟨hcode, hlt, hnormal⟩ := parts c
  have hnext : c + 1 = (significand c + 1) + binade c * 2 ^ 52 := by omega
  rw [hnext, size_of_le (by omega) (by omega), size, gap]
  push_cast
  ring

theorem binade_mono (h : c ≤ d) : binade c ≤ binade d := by
  rw [binade, binade]
  omega

theorem gap_mono (h : c ≤ d) : gap c ≤ gap d := unit_mono (binade_mono h)

theorem size_strictMono : StrictMono size := by
  apply strictMono_nat_of_lt_succ
  intro c
  rw [size_succ]
  linarith [gap_pos c]

@[simp]
theorem size_zero : size 0 = 0 := by
  rw [size, significand]
  norm_num

/-- Codes behind a code are at least so many of its steps away. -/
theorem size_add (c n : Nat) : size c + n * gap c ≤ size (c + n) := by
  induction n with
  | zero => simp
  | succ n ih =>
    have hstep := size_succ (c + n)
    have hgap := gap_mono (Nat.le_add_right c n)
    rw [← Nat.add_assoc, hstep]
    push_cast
    linarith

/-- A size is less than `2 ^ 53` of its steps. -/
theorem size_add_gap_le (c : Nat) : size c + gap c ≤ 2 ^ 53 * gap c := by
  have hlt : (significand c : Rat) + 1 ≤ 2 ^ 53 := by exact_mod_cast (parts c).lt
  calc size c + gap c = (significand c + 1) * gap c := by rw [size, gap]; ring
    _ ≤ 2 ^ 53 * gap c := mul_le_mul_of_nonneg_right hlt (gap_pos c).le

/-! ### The nearest code -/

/-- The midpoint between a size and the next one. -/
def mid (c : Nat) : Rat := size c + gap c / 2

/-- The value lies between the midpoints around a code, or it is one of them and the code is
even. -/
structure Nearest (v : Rat) (c : Nat) : Prop where
  below : v < mid c ∨ v = mid c ∧ Even c
  above : ∀ b, c = b + 1 → mid b < v ∨ mid b = v ∧ Even c

theorem mid_lt_size_succ (c : Nat) : mid c < size (c + 1) := by
  rw [mid, size_succ]
  linarith [gap_pos c]

theorem size_lt_mid (c : Nat) : size c < mid c := by
  rw [mid]
  linarith [gap_pos c]

theorem mid_strictMono : StrictMono mid := by
  apply strictMono_nat_of_lt_succ
  intro c
  exact (mid_lt_size_succ c).trans (size_lt_mid (c + 1))

variable {u v : Rat}

theorem Nearest.le_mid (h : Nearest v c) : v ≤ mid c := by
  rcases h.below with hlt | ⟨heq, -⟩
  · exact hlt.le
  · exact heq.le

theorem Nearest.mid_le (h : Nearest v (c + 1)) : mid c ≤ v := by
  rcases h.above c rfl with hlt | ⟨heq, -⟩
  · exact hlt.le
  · exact heq.le

/-- The code that is nearest grows with the value. -/
theorem Nearest.mono (h : Nearest u c) (h' : Nearest v d) (huv : u ≤ v) : c ≤ d := by
  by_contra hlt
  obtain ⟨b, rfl⟩ : ∃ b, c = b + 1 := ⟨c - 1, by omega⟩
  have hmid : mid d ≤ mid b := mid_strictMono.monotone (by omega)
  -- both values are the one midpoint between the codes, and two codes in a row are not both even
  rcases h'.below with hv | ⟨hv, heven⟩
  · linarith [h.mid_le]
  · rcases h.above b rfl with hu | ⟨hu, heven'⟩
    · linarith
    · have hdb : d = b := mid_strictMono.injective (by linarith)
      rw [hdb] at heven
      exact Nat.not_even_iff_odd.mpr heven.add_one heven'

theorem Nearest.unique (h : Nearest v c) (h' : Nearest v d) : c = d :=
  Nat.le_antisymm (h.mono h' le_rfl) (h'.mono h le_rfl)

theorem nearest_size (c : Nat) : Nearest (size c) c where
  below := Or.inl (size_lt_mid c)
  above b hb := by
    rw [hb]
    exact Or.inl (mid_lt_size_succ b)

/-- A value that exceeds the midpoint of a code by few of its steps belongs to one of the next
codes. -/
theorem Nearest.le_add (h : Nearest v d) (n : Nat) (hv : v < mid c + n * gap c) : d ≤ c + n := by
  by_contra hlt
  obtain ⟨b, rfl⟩ : ∃ b, d = b + 1 := ⟨d - 1, by omega⟩
  have hmid : mid (c + n) ≤ mid b := mid_strictMono.monotone (by omega)
  have hsize := size_add c n
  have hgap := gap_mono (Nat.le_add_right c n)
  rw [mid] at hmid hv
  linarith [h.mid_le]

/-! ### Rounded quotients -/

/-- Powers of the two parts of an exponent, one of which is zero, make up the power. -/
theorem pow_toNat_div {b : Rat} (hb : b ≠ 0) (k : Int) :
    b ^ k.toNat / b ^ (-k).toNat = b ^ k := by
  rw [← zpow_natCast, ← zpow_natCast, ← zpow_sub₀ hb]
  congr 1
  omega

/-- A whole number is nearest to a value, and even if there is another one. -/
structure NearestWhole (v : Rat) (n : Nat) : Prop where
  below : v < n + 1 / 2 ∨ v = n + 1 / 2 ∧ Even n
  above : n - 1 / 2 < v ∨ n - 1 / 2 = v ∧ Even n

theorem nearestWhole_divNearestEven (a : Nat) {b : Nat} (hb : 0 < b) :
    NearestWhole (a / b) (divNearestEven a b) := by
  have hbq : (0 : Rat) < b := by exact_mod_cast hb
  have hsplit : (a : Rat) / b = (a / b : Nat) + (a % b : Nat) / b := by
    have hdivision : (a : Rat) = b * (a / b : Nat) + (a % b : Nat) := by
      exact_mod_cast (Nat.div_add_mod a b).symm
    rw [div_eq_iff hbq.ne', add_mul, div_mul_cancel₀ _ hbq.ne']
    linarith
  have hlow : 0 ≤ ((a % b : Nat) : Rat) / b := by positivity
  have hhigh : ((a % b : Nat) : Rat) / b < 1 := by
    rw [div_lt_one hbq]
    exact_mod_cast Nat.mod_lt a hb
  rw [hsplit, divNearestEven]
  rcases Nat.lt_trichotomy (2 * (a % b)) b with hlt | heq | hgt
  · have hhalf : ((a % b : Nat) : Rat) / b < 1 / 2 := by
      rw [div_lt_div_iff₀ hbq two_pos, one_mul, mul_comm]
      exact_mod_cast hlt
    rw [if_pos hlt]
    exact ⟨Or.inl (by linarith), Or.inl (by linarith)⟩
  · have hhalf : ((a % b : Nat) : Rat) / b = 1 / 2 := by
      rw [div_eq_div_iff hbq.ne' two_ne_zero, one_mul, mul_comm]
      exact_mod_cast heq
    rw [if_neg heq.not_lt, if_neg heq.not_gt, hhalf]
    rcases Nat.mod_two_eq_zero_or_one (a / b) with hmod | hmod
    · rw [hmod, Nat.add_zero]
      exact ⟨Or.inr ⟨rfl, Nat.even_iff.mpr hmod⟩, Or.inl (by linarith)⟩
    · rw [hmod]
      refine ⟨Or.inl ?_, Or.inr ⟨?_, Nat.even_iff.mpr (by omega)⟩⟩
      · push_cast
        linarith
      · push_cast
        ring
  · have hhalf : 1 / 2 < ((a % b : Nat) : Rat) / b := by
      rw [div_lt_div_iff₀ two_pos hbq, one_mul, mul_comm]
      exact_mod_cast hgt
    rw [if_neg hgt.not_gt, if_pos hgt]
    refine ⟨Or.inl ?_, Or.inl ?_⟩
    · push_cast
      linarith
    · push_cast
      linarith

/-- The binary logarithm of a quotient, rounded down. -/
theorem floorLog2_spec {num den : Nat} (hnum : 0 < num) (hden : 0 < den) :
    (2 : Rat) ^ floorLog2 num den ≤ num / den ∧ (num : Rat) / den < 2 ^ (floorLog2 num den + 1) := by
  have hdenq : (0 : Rat) < den := by exact_mod_cast hden
  have hnum1 : (2 : Rat) ^ (num.log2 : Int) ≤ num := by
    rw [zpow_natCast]
    exact_mod_cast Nat.log2_self_le hnum.ne'
  have hnum2 : (num : Rat) < 2 ^ ((num.log2 : Int) + 1) := by
    rw [← Nat.cast_succ, zpow_natCast]
    exact_mod_cast Nat.lt_log2_self
  have hden1 : (2 : Rat) ^ (den.log2 : Int) ≤ den := by
    rw [zpow_natCast]
    exact_mod_cast Nat.log2_self_le hden.ne'
  have hden2 : (den : Rat) < 2 ^ ((den.log2 : Int) + 1) := by
    rw [← Nat.cast_succ, zpow_natCast]
    exact_mod_cast Nat.lt_log2_self
  have hlow : (2 : Rat) ^ ((num.log2 : Int) - den.log2 - 1) < num / den := by
    rw [lt_div_iff₀ hdenq]
    calc (2 : Rat) ^ ((num.log2 : Int) - den.log2 - 1) * den
        < 2 ^ ((num.log2 : Int) - den.log2 - 1) * 2 ^ ((den.log2 : Int) + 1) :=
          mul_lt_mul_of_pos_left hden2 (by positivity)
      _ = 2 ^ (num.log2 : Int) := by
          rw [← zpow_add₀ two_ne_zero]
          congr 1
          ring
      _ ≤ num := hnum1
  have hhigh : (num : Rat) / den < 2 ^ ((num.log2 : Int) - den.log2 + 1) := by
    rw [div_lt_iff₀ hdenq]
    calc (num : Rat) < 2 ^ ((num.log2 : Int) + 1) := hnum2
      _ = 2 ^ ((num.log2 : Int) - den.log2 + 1) * 2 ^ (den.log2 : Int) := by
          rw [← zpow_add₀ two_ne_zero]
          congr 1
          ring
      _ ≤ 2 ^ ((num.log2 : Int) - den.log2 + 1) * den :=
          mul_le_mul_of_nonneg_left hden1 (by positivity)
  have htest : (den * Nat.pow 2 ((num.log2 : Int) - den.log2).toNat ≤
      num * Nat.pow 2 (-((num.log2 : Int) - den.log2)).toNat) ↔
        (2 : Rat) ^ ((num.log2 : Int) - den.log2) ≤ num / den := by
    rw [← pow_toNat_div two_ne_zero, div_le_div_iff₀ (by positivity) hdenq]
    simp only [Nat.pow_eq]
    rw [mul_comm den]
    exact_mod_cast Iff.rfl
  rw [floorLog2]
  split
  case isTrue h => exact ⟨htest.mp h, hhigh⟩
  case isFalse h =>
    refine ⟨hlow.le, ?_⟩
    rw [sub_add_cancel]
    exact not_le.mp (htest.not.mp h)

/-- A value in units of a binade that is rounded to a whole number of them. -/
theorem nearest_of_nearestWhole {r : Rat} (h : NearestWhole r m) (hlt : r < 2 ^ 53)
    (hnormal : k = 0 ∨ 2 ^ 52 ≤ r) :
    Nearest (r * unit k) (m + k * 2 ^ 52) := by
  have hunit := unit_pos k
  have hupper : r ≤ m + 1 / 2 := h.below.elim le_of_lt fun hr => hr.1.le
  have hlower : m - 1 / 2 ≤ r := h.above.elim le_of_lt fun hr => hr.1.le
  have hm : m ≤ 2 ^ 53 := by
    have : (m : Rat) < (2 ^ 53 + 1 : Nat) := by
      push_cast
      linarith
    exact Nat.lt_succ_iff.mp (by exact_mod_cast this)
  have hm' : k = 0 ∨ 2 ^ 52 ≤ m := by
    refine hnormal.imp_right fun hr => ?_
    have : ((2 ^ 52 : Nat) : Rat) < (m + 1 : Nat) := by
      push_cast
      linarith
    exact Nat.lt_succ_iff.mp (by exact_mod_cast this)
  have heven : Even (m + k * 2 ^ 52) ↔ Even m := by
    rw [Nat.even_iff, Nat.even_iff]
    omega
  have hsize := size_of_le hm hm'
  constructor
  case below =>
    rcases Nat.lt_or_eq_of_le hm with hm53 | rfl
    · have hparts : Parts (m + k * 2 ^ 52) m k := ⟨rfl, hm53, hm'⟩
      have hmid : mid (m + k * 2 ^ 52) = (m + 1 / 2) * unit k := by
        rw [mid, hsize, hparts.gap_eq]
        ring
      rw [hmid, heven]
      refine h.below.imp (fun hr => mul_lt_mul_of_pos_right hr hunit) ?_
      rintro ⟨hr, hev⟩
      exact ⟨by rw [hr], hev⟩
    · left
      refine lt_of_lt_of_le ?_ (size_lt_mid _).le
      rw [hsize]
      exact mul_lt_mul_of_pos_right (by exact_mod_cast hlt) hunit
  case above =>
    intro b hb
    rcases le_or_gt (m : Rat) r with hle | hgt
    · left
      refine lt_of_lt_of_le (mid_lt_size_succ b) ?_
      rw [← hb, hsize]
      exact mul_le_mul_of_nonneg_right hle hunit.le
    · -- the value is below the whole number, so that is not the first of its binade
      have hfirst : k = 0 ∨ 2 ^ 52 < m := by
        refine hnormal.imp_right fun hr => ?_
        have : ((2 ^ 52 : Nat) : Rat) < m := by
          push_cast
          linarith
        exact_mod_cast this
      have hparts : Parts b (m - 1) k := ⟨by omega, by omega, by omega⟩
      have hpred : ((m - 1 : Nat) : Rat) = m - 1 := by
        rw [Nat.cast_sub (by omega), Nat.cast_one]
      have hmid : mid b = (m - 1 / 2) * unit k := by
        rw [mid, hparts.size_eq, hparts.gap_eq, hpred]
        ring
      rw [hmid, heven]
      refine h.above.imp (fun hr => mul_lt_mul_of_pos_right hr hunit) ?_
      rintro ⟨hr, hev⟩
      exact ⟨by rw [hr], hev⟩

/-- **Rounding finds the nearest code**, and everything beyond the largest one is infinite. -/
theorem exists_nearest_roundedBits (num : Nat) {den : Nat} (hden : 0 < den) :
    ∃ c, Nearest (num / den) c ∧ roundedBits num den = min c infinityBits := by
  rcases Nat.eq_zero_or_pos num with rfl | hnum
  · refine ⟨0, ?_, by rw [roundedBits, if_pos rfl, Nat.zero_min]⟩
    have hzero := nearest_size 0
    rw [size_zero] at hzero
    rw [Nat.cast_zero, zero_div]
    exact hzero
  · obtain ⟨hlow, hhigh⟩ := floorLog2_spec hnum hden
    rw [roundedBits, if_neg hnum.ne']
    generalize floorLog2 num den = f at *
    generalize hq : max (f - 52) (-1074) = q
    obtain ⟨k, hk⟩ : ∃ k : Nat, q = (k : Int) - 1074 := ⟨(q + 1074).toNat, by omega⟩
    have hkq : (q + 1074).toNat = k := by omega
    have hvalue : ((num * Nat.pow 2 (-q).toNat : Nat) : Rat) / (den * Nat.pow 2 q.toNat : Nat) =
        num / den * 2 ^ (-q) := by
      rw [← pow_toNat_div two_ne_zero, neg_neg]
      simp only [Nat.pow_eq]
      push_cast
      rw [div_mul_div_comm]
    have hnearest := nearestWhole_divNearestEven (num * Nat.pow 2 (-q).toNat)
      (Nat.mul_pos hden (Nat.pow_pos two_pos) : 0 < den * Nat.pow 2 q.toNat)
    rw [hvalue] at hnearest
    have hinverse : (num : Rat) / den * 2 ^ (-q) * unit k = num / den := by
      rw [unit, ← hk, mul_assoc, ← zpow_add₀ two_ne_zero, neg_add_cancel, zpow_zero, mul_one]
    refine ⟨divNearestEven (num * Nat.pow 2 (-q).toNat) (den * Nat.pow 2 q.toNat) + k * 2 ^ 52,
      ?_, by simp only [hkq, Nat.pow_eq]⟩
    rw [← hinverse]
    apply nearest_of_nearestWhole hnearest
    · calc (num : Rat) / den * 2 ^ (-q) < 2 ^ (f + 1) * 2 ^ (-q) :=
            mul_lt_mul_of_pos_right hhigh (by positivity)
        _ = 2 ^ (f + 1 - q) := by
            rw [← zpow_add₀ two_ne_zero, sub_eq_add_neg]
        _ ≤ 2 ^ (53 : Int) := zpow_le_zpow_right₀ (by norm_num) (by omega)
        _ = 2 ^ 53 := by norm_num
    · rcases Nat.eq_zero_or_pos k with hzero | hpos
      · exact Or.inl hzero
      · right
        calc (2 : Rat) ^ 52 = 2 ^ (52 : Int) := by norm_num
          _ = 2 ^ f * 2 ^ (-q) := by
              rw [← zpow_add₀ two_ne_zero]
              congr 1
              omega
          _ ≤ num / den * 2 ^ (-q) := mul_le_mul_of_nonneg_right hlow (by positivity)

end TableAccess.Number.Binary64
