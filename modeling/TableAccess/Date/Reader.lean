import TableAccess.Date.Basic
import TableAccess.Text.Blank

/-!
# Reading dates

A date is read by a pattern: year, month and day in this order, with or without hyphens.  Before
each number blanks are skipped.  A year without a sign has at most four digits, a signed one
takes all digits that follow; month and day have at most two.  What follows the day must be the
end of the text.  Dates inside JSON texts may also have blanks before the hyphens and at the end.
-/

namespace TableAccess.Date

open TableAccess.Number (isDigit ofDigits)
open TableAccess.Text (trimStart)

/-- How the three numbers of a date are separated. -/
structure Pattern where
  /-- Hyphens stand between the numbers. -/
  hyphens : Bool
  /-- Blanks may stand before a hyphen and at the end. -/
  loose : Bool

/-- Numbers with nothing between them. -/
def Pattern.compact : Pattern := ⟨false, false⟩

/-- Numbers with hyphens between them. -/
def Pattern.hyphenated : Pattern := ⟨true, false⟩

/-- Numbers with hyphens and blanks between them. -/
def Pattern.spaced : Pattern := ⟨true, true⟩

/-- The leading digits, at most `most` of them and at least one, and what follows. -/
def takeNumber? (most : Nat) (s : List Char) : Option (Nat × List Char) :=
  let digits := (s.take most).takeWhile isDigit
  if digits.isEmpty then none else some (ofDigits digits, s.drop digits.length)

/-- The leading digits, at least one, if they stand for a signed 64-bit number. -/
def takeLongNumber? (s : List Char) : Option (Nat × List Char) :=
  let digits := s.takeWhile isDigit
  if digits.isEmpty then none
  else if Number.fitsInt64 (ofDigits digits) then some (ofDigits digits, s.dropWhile isDigit)
  else none

/-- A year: signed and of any length, or at most four digits. -/
def takeYear? (s : List Char) : Option (Int × List Char) :=
  match trimStart s with
  | '-' :: r => (takeLongNumber? r).map fun (n, rest) => (-(n : Int), rest)
  | '+' :: r => (takeLongNumber? r).map fun (n, rest) => ((n : Int), rest)
  | r => (takeNumber? 4 r).map fun (n, rest) => ((n : Int), rest)

/-- What separates two numbers. -/
def Pattern.takeSeparator? (p : Pattern) (s : List Char) : Option (List Char) :=
  if p.hyphens then
    match (if p.loose then trimStart s else s) with
    | '-' :: r => some r
    | _ => none
  else some s

/-- A date by its pattern, if the text is one and the day exists. -/
def read? (p : Pattern) (s : List Char) : Option Date := do
  let (year, s) ← takeYear? s
  let s ← p.takeSeparator? s
  let (month, s) ← takeNumber? 2 (trimStart s)
  let s ← p.takeSeparator? s
  let (day, s) ← takeNumber? 2 (trimStart s)
  if (if p.loose then trimStart s else s).isEmpty then of? year month day else none

end TableAccess.Date
