import TableAccess.Proofs.Json.Division
import TableAccess.Proofs.Json.Decimal

/-!
# The number that is read where a number was written

A finite number is written with its shortest decimal, and that is scaled to a number at most two
places away, with the same sign.  The last two finite numbers are looked at by themselves, for
there a place more would be beyond the format.  Nothing changes as long as the digits and the
power of ten are exact.
-/

namespace TableAccess.Json

open TableAccess.Number Binary64

variable {x : Binary64} {n : Nat} {rest : List Char}

/-- The number that is read where a number was written; one that is not finite is written as no
number. -/
def reread? (x : Binary64) : Option Binary64 :=
  if x.isFinite then
    (scale (.ofNat (taken (decimalOf x)).digits) (taken (decimalOf x)).exponent).map fun y =>
      if x.negative then y.neg else y
  else none

/-- The sign is put back. -/
theorem reread?_of_scale (hx : x.isFinite = true) (hn : n < infinityBits)
    (h : scale (.ofNat (taken (decimalOf x)).digits) (taken (decimalOf x)).exponent =
      some (ofParts false n)) : reread? x = some (ofParts x.negative n) := by
  have hlt := hn.trans infinityBits_lt
  rw [reread?, if_pos hx, h, Option.map_some]
  cases x.negative with
  | true => rw [if_pos rfl, neg_ofParts hlt]
  | false => rw [if_neg Bool.false_ne_true]

theorem scale_zero : scale (.ofNat 0) (-1) = some (ofParts false 0) := by
  rw [scale, if_neg (by decide), if_pos (by decide)]
  rfl

/-- The decimals of the last two finite numbers. -/
theorem taken_greatest : taken (shortest .toEven (significand (infinityBits - 1))
      ((binade (infinityBits - 1) : Int) - 1074)) = ⟨17976931348623157, 292⟩ ∧
    taken (shortest .toEven (significand (infinityBits - 2))
      ((binade (infinityBits - 2) : Int) - 1074)) = ⟨17976931348623155, 292⟩ := by
  constructor
  · decide +kernel
  · decide +kernel

/-- Both of them are scaled to the last one. -/
theorem scale_greatest :
    scale (.ofNat 17976931348623157) 292 = some (ofParts false (infinityBits - 1)) ∧
    scale (.ofNat 17976931348623155) 292 = some (ofParts false (infinityBits - 1)) := by
  have hrange : (0 : Int) ≤ 292 ∧ 292 ≤ greatestStep := by decide
  constructor
  · rw [scale, if_pos hrange]
    decide +kernel
  · rw [scale, if_pos hrange]
    decide +kernel

/-- A finite number is scaled to one at most two places away. -/
theorem exists_near_taken (hx : code x < infinityBits) : ∃ n, Near (code x) n ∧ n < infinityBits ∧
    scale (.ofNat (taken (decimalOf x)).digits) (taken (decimalOf x)).exponent =
      some (ofParts false n) := by
  rcases Nat.eq_zero_or_pos (code x) with hzero | hpos
  · refine ⟨0, by rw [hzero]; exact near_refl 0, by decide, ?_⟩
    rw [decimalOf_of_zero hzero]
    exact scale_zero
  · have hspells := spells_taken (spells_decimalOf hx hpos)
    by_cases hlarge : code x + 2 < infinityBits
    · obtain ⟨n, hn, hscale⟩ := exists_near_scale hspells hpos hlarge
      have hle := hn.2
      exact ⟨n, hn, by omega, hscale⟩
    · refine ⟨infinityBits - 1, ⟨by omega, by omega⟩, by decide, ?_⟩
      rcases (by omega : code x = infinityBits - 1 ∨ code x = infinityBits - 2) with hc | hc
      · rw [decimalOf, hc, taken_greatest.1]
        exact scale_greatest.1
      · rw [decimalOf, hc, taken_greatest.2]
        exact scale_greatest.2

/-- **A written number is read as one at most two places away**, finite and with the same sign. -/
theorem exists_reread (hx : x.isFinite = true) : ∃ y, reread? x = some y ∧ y.isFinite = true ∧
    y.negative = x.negative ∧ Near (code x) (code y) := by
  obtain ⟨n, hn, hlt, hscale⟩ := exists_near_taken (code_lt_infinityBits hx)
  have hlt' := hlt.trans infinityBits_lt
  have hcode := code_ofParts x.negative hlt'
  refine ⟨ofParts x.negative n, reread?_of_scale hx hlt hscale, isFinite_of_code ?_,
    negative_ofParts x.negative hlt', ?_⟩
  · rw [hcode]
    exact hlt
  · rw [hcode]
    exact hn

/-- Two places are attained. -/
example : reread? ⟨0x01FFFDB6D4F87EF5⟩ = some ⟨0x01FFFDB6D4F87EF7⟩ := by decide +kernel

/-- **A number with few digits is read as it was written**: the digits, with the one behind the
point of a whole number, fit 53 bits, and the power of ten is one of those that do. -/
theorem reread_of_small (hx : x.isFinite = true) (hdigits : (taken (decimalOf x)).digits ≤ 2 ^ 53)
    (hexponent : (taken (decimalOf x)).exponent.natAbs ≤ 22) : reread? x = some x := by
  have hfinite := code_lt_infinityBits hx
  have hscale : scale (.ofNat (taken (decimalOf x)).digits) (taken (decimalOf x)).exponent =
      some (ofParts false (code x)) := by
    rcases Nat.eq_zero_or_pos (code x) with hzero | hpos
    · rw [decimalOf_of_zero hzero, hzero]
      exact scale_zero
    · exact scale_eq_of_small (spells_taken (spells_decimalOf hfinite hpos)) hfinite hdigits
        hexponent
  rw [reread?_of_scale hx hfinite hscale, ofParts_code]

/-- The reader gives the number that is read, and stops where the text ends. -/
theorem readNumber_float (hx : x.isFinite = true) (h : EndsNumber rest) :
    readNumber .strict (Layout.json.text x ++ rest) =
      (reread? x).map fun y => (.float y, rest) := by
  rw [readNumber_text (code_lt_infinityBits hx) h, reread?, if_pos hx]
  unfold floatOf
  cases scale (.ofNat (taken (decimalOf x)).digits) (taken (decimalOf x)).exponent with
  | none => rfl
  | some y => rfl

end TableAccess.Json
