import TableAccess.Number.Digits
import TableAccess.Number.Shortest

/-!
# Floating point numbers as text

A layout says where positional notation ends, whether a whole number keeps a fraction digit, how
the exponent is written and what stands for the numbers that have no digits.  Three layouts are
in use: values in tables and exports are plain, JSON texts and diagnostic texts have a scientific
notation for very large and very small numbers.  A fourth form has a fixed number of places.
-/

namespace TableAccess.Number

/-- How the shortest digits of a number are laid out. -/
structure Layout where
  /-- The least and greatest exponents of the first digit that are written positionally;
  nothing means that all are. -/
  positional : Option (Int × Int)
  /-- A whole number keeps one fraction digit. -/
  wholeFraction : Bool
  /-- A positive exponent has a plus sign. -/
  exponentPlus : Bool
  tie : Tie

/-- Values are written without an exponent and without an empty fraction. -/
def Layout.plain : Layout := ⟨none, false, false, .up⟩

/-- JSON numbers are positional from `0.00001` to below `10 ^ 16`. -/
def Layout.json : Layout := ⟨some (-5, 15), true, true, .toEven⟩

/-- Diagnostic texts are positional from `0.0001` to below `10 ^ 16`. -/
def Layout.shown : Layout := ⟨some (-4, 15), true, false, .up⟩

/-- The digits with a point before the last `places` of them, and at least one digit before the
point. -/
def withPoint (places : Nat) (digits : List Char) : List Char :=
  let padded := List.replicate (places + 1 - digits.length) '0' ++ digits
  let cut := padded.length - places
  if places = 0 then padded else padded.take cut ++ '.' :: padded.drop cut

/-- Positional notation of a decimal. -/
def positionalText (wholeFraction : Bool) (d : Decimal) : List Char :=
  if 0 ≤ d.exponent then
    natText d.digits ++ List.replicate d.exponent.toNat '0' ++
      (if wholeFraction then ['.', '0'] else [])
  else withPoint (-d.exponent).toNat (natText d.digits)

/-- Scientific notation of a decimal whose first digit has the exponent `e`. -/
def scientificText (exponentPlus : Bool) (d : Decimal) (e : Int) : List Char :=
  let mantissa := match natText d.digits with
    | [] => []
    | [c] => [c]
    | c :: r => c :: '.' :: r
  mantissa ++ 'e' :: ((if exponentPlus ∧ 0 ≤ e then ['+'] else []) ++ intText e)

/-- A decimal in the notation that the layout prescribes for its size. -/
def Layout.decimalText (layout : Layout) (d : Decimal) : List Char :=
  let e := d.exponent + (natText d.digits).length - 1
  match layout.positional with
  | none => positionalText layout.wholeFraction d
  | some (least, greatest) =>
    if d.digits = 0 ∨ (least ≤ e ∧ e ≤ greatest) then positionalText layout.wholeFraction d
    else scientificText layout.exponentPlus d e

/-- The sign of a number in front of the text of its size. -/
def signText (x : Binary64) : List Char := if x.negative then ['-'] else []

/-- A number with the fewest digits that read back. -/
def Layout.text (layout : Layout) (x : Binary64) : List Char :=
  match x.magnitude with
  | .nan => "NaN".toList
  | .infinite => signText x ++ "inf".toList
  | .finite m q => signText x ++ layout.decimalText (shortest layout.tie m q)

/-- A number with exactly `places` digits after the point: the exact value rounded, a tie to the
even neighbour.  The sign stays even when all digits become zero. -/
def fixedText (places : Nat) (x : Binary64) : List Char :=
  match x.magnitude with
  | .nan => "NaN".toList
  | .infinite => signText x ++ "inf".toList
  | .finite m q =>
    signText x ++ withPoint places
      (natText (divNearestEven (m * Nat.pow 2 q.toNat * Nat.pow 10 places) (Nat.pow 2 (-q).toNat)))

end TableAccess.Number
