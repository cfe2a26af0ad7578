import Mathlib.Data.List.Forall2
import TableAccess.Text.Ascii

/-!
# Texts up to the case of their letters

Two texts are compared regardless of case by what they become in small letters.  That is the same as
to compare them character by character, where a Latin letter may stand in either of its two cases
and every other character stands for itself only.
-/

namespace TableAccess.Text

variable {c d : Char} {s t : List Char}

/-! ### Characters -/

/-- The character is a capital Latin letter. -/
def IsCapital (c : Char) : Prop := 'A' ≤ c ∧ c ≤ 'Z'

/-- The same character, or a Latin letter in its two cases. -/
inductive SameLetter (c d : Char) : Prop
  | same (h : c = d)
  | capital (hc : IsCapital c) (h : d.toNat = c.toNat + 32)
  | small (hd : IsCapital d) (h : c.toNat = d.toNat + 32)

theorem isCapital_iff : IsCapital c ↔ 65 ≤ c.toNat ∧ c.toNat ≤ 90 := Iff.rfl

theorem toNat_lowerAscii_of_capital (hc : IsCapital c) : (lowerAscii c).toNat = c.toNat + 32 := by
  have hvalid : (c.toNat + 32).isValidChar := by
    have hrange := isCapital_iff.mp hc
    exact Or.inl (by omega)
  rw [lowerAscii, if_pos (by simp [hc.1, hc.2]), Char.ofNat, dif_pos hvalid]
  rfl

theorem lowerAscii_of_not_capital (hc : ¬ IsCapital c) : lowerAscii c = c := by
  rw [lowerAscii, if_neg]
  rw [Bool.and_eq_true, decide_eq_true_eq, decide_eq_true_eq]
  exact hc

/-- The code of a small letter is that of no capital one. -/
theorem not_isCapital_of_capital (hc : IsCapital c) (h : d.toNat = c.toNat + 32) :
    ¬ IsCapital d := by
  rw [isCapital_iff] at hc ⊢
  omega

theorem lowerAscii_eq_of_capital (hc : IsCapital c) (h : d.toNat = c.toNat + 32) :
    lowerAscii c = lowerAscii d := by
  rw [lowerAscii_of_not_capital (not_isCapital_of_capital hc h), ← Char.toNat_inj,
    toNat_lowerAscii_of_capital hc, h]

theorem lowerAscii_eq_iff : lowerAscii c = lowerAscii d ↔ SameLetter c d := by
  constructor
  · intro h
    have hcode := congrArg Char.toNat h
    by_cases hc : IsCapital c
    · by_cases hd : IsCapital d
      · rw [toNat_lowerAscii_of_capital hc, toNat_lowerAscii_of_capital hd] at hcode
        exact .same (Char.toNat_inj.mp (Nat.add_right_cancel hcode))
      · rw [toNat_lowerAscii_of_capital hc, lowerAscii_of_not_capital hd] at hcode
        exact .capital hc hcode.symm
    · by_cases hd : IsCapital d
      · rw [lowerAscii_of_not_capital hc, toNat_lowerAscii_of_capital hd] at hcode
        exact .small hd hcode
      · rw [lowerAscii_of_not_capital hc, lowerAscii_of_not_capital hd] at h
        exact .same h
  · intro h
    cases h with
    | same h => rw [h]
    | capital hc h => exact lowerAscii_eq_of_capital hc h
    | small hd h => exact (lowerAscii_eq_of_capital hd h).symm

/-- No letter becomes a low line in another case. -/
theorem lowerAscii_eq_lowLine (h : lowerAscii c = '_') : c = '_' := by
  have hlowLine : lowerAscii '_' = '_' := by decide
  cases lowerAscii_eq_iff.mp (h.trans hlowLine.symm) with
  | same h => exact h
  | capital hc h =>
    have hrange := isCapital_iff.mp hc
    have hcode : ('_').toNat = 95 := rfl
    omega
  | small hd h => exact absurd (isCapital_iff.mp hd) (by decide)

/-! ### Texts -/

theorem sameIgnoringCase_iff :
    sameIgnoringCase s t = true ↔ s.map lowerAscii = t.map lowerAscii := by
  rw [sameIgnoringCase, beq_iff_eq]

theorem sameIgnoringCase_cons :
    sameIgnoringCase (c :: s) (d :: t) = true ↔
      lowerAscii c = lowerAscii d ∧ sameIgnoringCase s t = true := by
  simp only [sameIgnoringCase_iff, List.map_cons, List.cons.injEq]

theorem length_eq_of_sameIgnoringCase (h : sameIgnoringCase s t = true) : s.length = t.length := by
  simpa only [List.length_map] using congrArg List.length (sameIgnoringCase_iff.mp h)

theorem map_lowerAscii_eq_iff :
    s.map lowerAscii = t.map lowerAscii ↔ List.Forall₂ SameLetter s t := by
  rw [← List.forall₂_eq_eq_eq, List.forall₂_map_left_iff, List.forall₂_map_right_iff]
  simp only [lowerAscii_eq_iff]

end TableAccess.Text
