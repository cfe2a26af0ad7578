import TableAccess.Number.Digits

/-!
# Decimal numbers of servers

A decimal number is a whole number of digits with a point at some place, or no number at all.
Numbers are kept in a fixed room: a coefficient below 2^96 and at most 28 places.  What does not
fit is cut, rounded or given up, by a rule of its own for each dialect.
-/

namespace TableAccess.Server

open TableAccess.Number (isDigit ofDigits natText paddedText)

/-- A decimal number. -/
inductive Numeric where
  | notNumber
  /-- The coefficient divided by a power of ten. -/
  | decimal (negative : Bool) (coefficient places : Nat)
deriving DecidableEq

namespace Numeric

/-- The most places that are kept. -/
def maxPlaces : Nat := 28

/-- The coefficients that are kept lie below this number. -/
def coefficientBound : Nat := Nat.pow 2 96

/-- Digits with a point before the last `places` of them. -/
def digitsText (coefficient places : Nat) : List Char :=
  if places = 0 then natText coefficient
  else natText (coefficient / Nat.pow 10 places) ++
    '.' :: paddedText places (coefficient % Nat.pow 10 places)

/-- The number with its sign. -/
def decimalText (negative : Bool) (coefficient places : Nat) : List Char :=
  (if negative then ['-'] else []) ++ digitsText coefficient places

/-- A number of a text: a sign, digits and an optional point among them. -/
def read? (s : List Char) : Option Numeric :=
  if s == "NaN".toList then some .notNumber
  else
    let (negative, size) := Number.splitSign s
    let whole := size.takeWhile isDigit
    match size.dropWhile isDigit with
    | [] => if whole.isEmpty then none else some (.decimal negative (ofDigits whole) 0)
    | c :: fraction =>
      if c == '.' && fraction.all isDigit && !(whole ++ fraction).isEmpty then
        some (.decimal negative (ofDigits (whole ++ fraction)) fraction.length)
      else none

/-- The nearest whole quotient by a power of ten; a half goes up. -/
def roundHalfUp (n places : Nat) : Nat :=
  (2 * n + Nat.pow 10 places) / (2 * Nat.pow 10 places)

/-- The rounding to the most places, at most `most`, whose digits are within bounds. -/
def mostPlaces? (coefficient places : Nat) : Nat → Option (Nat × Nat)
  | 0 =>
    let n := roundHalfUp coefficient places
    if n < coefficientBound then some (n, 0) else none
  | most + 1 =>
    let n := roundHalfUp coefficient (places - (most + 1))
    if n < coefficientBound then some (n, most + 1) else mostPlaces? coefficient places most

/-- Rounded to the places that can be kept.  A whole part of too many digits leaves nothing; zero
has no sign. -/
def roundedText? : Numeric → Option (List Char)
  | .notNumber => none
  | .decimal negative coefficient places =>
    if coefficientBound ≤ coefficient / Nat.pow 10 places then none
    else (mostPlaces? coefficient places (min places maxPlaces)).map fun (n, kept) =>
      decimalText (negative && n != 0) n kept

/-- The same, but a digit behind the most places leaves nothing; zero has no sign and no places. -/
def cutText? : Numeric → Option (List Char)
  | .notNumber => none
  | .decimal negative coefficient places =>
    if coefficient = 0 then some ['0']
    else if coefficient % Nat.pow 10 (places - maxPlaces) = 0 then
      roundedText? (.decimal negative coefficient places)
    else none

end Numeric

end TableAccess.Server
