import TableAccess.Json.Basic
import TableAccess.Number.Digits

/-!
# Reading JSON numbers

Whole numbers are exact as long as they fit into 64 bits.  Every other number is read in one
pass: its digits are collected while they fit into an unsigned 64-bit significand, and the
significand is scaled by a power of ten in floating point arithmetic.  So a number may come out
next to the nearest one; a number too large for the format is refused.
-/

namespace TableAccess.Json

open TableAccess.Number

/-- The largest unsigned 64-bit number. -/
def maxSignificand : Nat := 18446744073709551615

/-- Take digits onto a significand while it stays in range.  Gives the significand, how many
digits were taken, and what follows them. -/
def takeDigits (sig : Nat) : List Char → Nat × Nat × List Char
  | [] => (sig, 0, [])
  | c :: r =>
    if isDigit c && sig * 10 + digitValue c ≤ maxSignificand then
      let (s, n, rest) := takeDigits (sig * 10 + digitValue c) r
      (s, n + 1, rest)
    else (sig, 0, c :: r)

/-- The greatest power of ten that a single step scales by. -/
def greatestStep : Int := 308

/-- The floating point number nearest to a power of ten. -/
def powerOfTen (n : Nat) : Binary64 := .ofNat (Nat.pow 10 n)

/-- Scale a number that is not negative by a power of ten: in one product or quotient if the
power is within the format, otherwise by repeated division.  A product beyond the format is
refused. -/
def scale (x : Binary64) (e : Int) : Option Binary64 :=
  if 0 ≤ e ∧ e ≤ greatestStep then
    let y := x.mul (powerOfTen e.toNat)
    if y.isInfinite then none else some y
  else if x.isZero then some x
  else if 0 ≤ e then none
  else if -greatestStep ≤ e then some (x.div (powerOfTen (-e).toNat))
  else scale (x.div (powerOfTen greatestStep.toNat)) (e + greatestStep)
  termination_by e.natAbs
  decreasing_by
    simp only [greatestStep] at *
    omega

/-- How the parts of a value that nobody looks at are read. -/
inductive Mode where
  /-- Numbers must be in range and escapes must stand for characters. -/
  | strict
  /-- Only the shape of the text counts. -/
  | lenient
deriving DecidableEq

/-- The floating point number of a significand and an exponent. -/
def floatOf (mode : Mode) (negative : Bool) (sig : Nat) (e : Int) : Option JsonNumber :=
  match mode, scale (.ofNat sig) e with
  | _, some x => some (.float (if negative then x.neg else x))
  | .lenient, none => some (.float (.infinity negative))
  | .strict, none => none

/-- The rest of a number from its exponent on. -/
def readExponent (mode : Mode) (negative : Bool) (sig : Nat) (e : Int) :
    List Char → Option (JsonNumber × List Char)
  | [] => (floatOf mode negative sig e).map (·, [])
  | c :: r =>
    if c == 'e' || c == 'E' then
      let (below, s) := splitSign r
      let digits := s.takeWhile isDigit
      if digits.isEmpty then none
      else
        let n := signed below (ofDigits digits)
        (floatOf mode negative sig (e + n)).map (·, s.dropWhile isDigit)
    else (floatOf mode negative sig e).map (·, c :: r)

/-- The rest of a number from its fraction on.  Once the significand is full, further digits of
the fraction have no influence. -/
def readFraction (mode : Mode) (negative : Bool) (sig : Nat) (e : Int) :
    List Char → Option (JsonNumber × List Char)
  | '.' :: r =>
    if (r.takeWhile isDigit).isEmpty then none
    else
      let (s, n, rest) := takeDigits sig r
      readExponent mode negative s (e - n) (rest.dropWhile isDigit)
  | r => readExponent mode negative sig e r

/-- A number whose whole part fits the significand. -/
def readTail (mode : Mode) (negative : Bool) (sig : Nat) (s : List Char) :
    Option (JsonNumber × List Char) :=
  match s with
  | '.' :: _ | 'e' :: _ | 'E' :: _ => readFraction mode negative sig 0 s
  | _ =>
    if !negative then some (.integer sig, s)
    else if 0 < sig ∧ sig ≤ Nat.pow 2 63 then some (.integer (-(sig : Int)), s)
    else some (.float (Binary64.ofNat sig).neg, s)

/-- A number after its sign: no leading zeros, and digits around an optional point. -/
def readSize (mode : Mode) (negative : Bool) : List Char → Option (JsonNumber × List Char)
  | [] => none
  | c :: r =>
    if c == '0' then
      match r with
      | [] => readTail mode negative 0 []
      | d :: r => if isDigit d then none else readTail mode negative 0 (d :: r)
    else if isDigit c then
      let (sig, _, rest) := takeDigits (digitValue c) r
      let extra := (rest.takeWhile isDigit).length
      if extra = 0 then readTail mode negative sig rest
      else readFraction mode negative sig extra (rest.dropWhile isDigit)
    else none

/-- A number at the front of the text. -/
def readNumber (mode : Mode) : List Char → Option (JsonNumber × List Char)
  | '-' :: r => readSize mode true r
  | r => readSize mode false r

end TableAccess.Json
