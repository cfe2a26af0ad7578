/-!
# Binary floating point numbers

A floating point number is its 64 bits.  Everything else is exact arithmetic on whole numbers:
a number is taken apart into `m · 2 ^ q`, and a quotient of whole numbers is rounded to the
nearest number of the format, a tie to the even neighbour.  Products and quotients of two
numbers are the rounded exact results, so no machine arithmetic is involved.
-/

namespace TableAccess.Number

/-- A floating point number in the 64-bit interchange format, as its bits. -/
structure Binary64 where
  bits : UInt64
deriving DecidableEq, Inhabited

/-- `a / b` to the nearest whole number, a tie to the even one. -/
def divNearestEven (a b : Nat) : Nat :=
  let q := a / b
  let r := a % b
  if 2 * r < b then q else if b < 2 * r then q + 1 else q + q % 2

/-- What the bits of a number stand for. -/
inductive Magnitude where
  | nan
  | infinite
  /-- The size is `m · 2 ^ q`. -/
  | finite (m : Nat) (q : Int)
deriving DecidableEq

namespace Binary64

/-- The sign bit is set. -/
def negative (x : Binary64) : Bool := Nat.pow 2 63 ≤ x.bits.toNat

/-- Take the number apart: zero and the numbers next to it have the exponent `-1074`, all other
finite numbers a significand of 53 bits. -/
def magnitude (x : Binary64) : Magnitude :=
  let exponent : Nat := x.bits.toNat / Nat.pow 2 52 % 2048
  let fraction : Nat := x.bits.toNat % Nat.pow 2 52
  if exponent == 2047 then (if fraction == 0 then .infinite else .nan)
  else if exponent == 0 then .finite fraction (-1074)
  else .finite (fraction + Nat.pow 2 52) ((exponent : Int) - 1075)

/-- The bits of infinity without its sign. -/
def infinityBits : Nat := 2047 * Nat.pow 2 52

/-- A number from its sign and the other 63 bits. -/
def ofParts (negative : Bool) (rest : Nat) : Binary64 :=
  ⟨UInt64.ofNat (if negative then Nat.pow 2 63 + rest else rest)⟩

/-- A quiet NaN with its sign and the other bits of its fraction. -/
def quietNan (negative : Bool) (payload : Nat) : Binary64 :=
  ofParts negative (infinityBits + Nat.pow 2 51 + payload)

def nan : Binary64 := quietNan false 0

def infinity (negative : Bool) : Binary64 := ofParts negative infinityBits

def zero (negative : Bool) : Binary64 := ofParts negative 0

/-- The exponent of the greatest power of two that is at most `num / den`. -/
def floorLog2 (num den : Nat) : Int :=
  let k : Int := (num.log2 : Int) - (den.log2 : Int)
  if den * Nat.pow 2 k.toNat ≤ num * Nat.pow 2 (-k).toNat then k else k - 1

/-- The bits, without the sign, of the number of the format nearest to `num / den`.  A
significand that is rounded up to the next power of two carries into the exponent, and what
exceeds the largest number becomes infinity. -/
def roundedBits (num den : Nat) : Nat :=
  if num = 0 then 0
  else
    let q := max (floorLog2 num den - 52) (-1074)
    let m := divNearestEven (num * Nat.pow 2 (-q).toNat) (den * Nat.pow 2 q.toNat)
    min (m + (q + 1074).toNat * Nat.pow 2 52) infinityBits

/-- The number nearest to `num / den` with the given sign. -/
def ofRatio (negative : Bool) (num den : Nat) : Binary64 :=
  ofParts negative (roundedBits num den)

/-- The number nearest to `num / den · 2 ^ q`. -/
def ofScaledRatio (negative : Bool) (num den : Nat) (q : Int) : Binary64 :=
  ofRatio negative (num * Nat.pow 2 q.toNat) (den * Nat.pow 2 (-q).toNat)

def ofNat (n : Nat) : Binary64 := ofRatio false n 1

/-- The number nearest to a whole number. -/
def ofInt (i : Int) : Binary64 := ofRatio (i < 0) i.natAbs 1

def neg (x : Binary64) : Binary64 := ofParts (!x.negative) (x.bits.toNat % Nat.pow 2 63)

def isNan (x : Binary64) : Bool := x.magnitude == .nan

def isInfinite (x : Binary64) : Bool := x.magnitude == .infinite

def isFinite (x : Binary64) : Bool := !x.isNan && !x.isInfinite

def isZero (x : Binary64) : Bool := x.bits.toNat % Nat.pow 2 63 == 0

/-- The product, rounded once. -/
def mul (x y : Binary64) : Binary64 :=
  let sign := x.negative != y.negative
  match x.magnitude, y.magnitude with
  | .finite m q, .finite n p => ofScaledRatio sign (m * n) 1 (q + p)
  | .infinite, .finite n _ => if n = 0 then nan else infinity sign
  | .finite m _, .infinite => if m = 0 then nan else infinity sign
  | .infinite, .infinite => infinity sign
  | _, _ => nan

/-- The quotient, rounded once. -/
def div (x y : Binary64) : Binary64 :=
  let sign := x.negative != y.negative
  match x.magnitude, y.magnitude with
  | .finite m q, .finite n p =>
    if n = 0 then (if m = 0 then nan else infinity sign)
    else ofScaledRatio sign m n (q - p)
  | .infinite, .finite _ _ => infinity sign
  | .finite _ _, .infinite => zero sign
  | _, _ => nan

/-- Comparison as numbers: nothing equals a NaN, and the two zeros are equal. -/
def sameNumber (x y : Binary64) : Bool :=
  !x.isNan && !y.isNan && (x == y || (x.isZero && y.isZero))

/-- The whole part of a finite number, toward zero, and its sign; `none` for the rest. -/
def truncate? (x : Binary64) : Option Int :=
  match x.magnitude with
  | .finite m q =>
    let size := m * Nat.pow 2 q.toNat / Nat.pow 2 (-q).toNat
    some (if x.negative then -(size : Int) else (size : Int))
  | _ => none

/-- A number of the 32-bit format, given by its bits, as the equal number of the 64-bit format.  A
NaN keeps its sign and the bits of its fraction, and becomes quiet. -/
def ofBinary32 (bits : UInt32) : Binary64 :=
  let sign : Bool := Nat.pow 2 31 ≤ bits.toNat
  let exponent : Nat := bits.toNat / Nat.pow 2 23 % 256
  let fraction : Nat := bits.toNat % Nat.pow 2 23
  if exponent == 255 then
    if fraction == 0 then infinity sign
    else quietNan sign (fraction % Nat.pow 2 22 * Nat.pow 2 29)
  else if exponent == 0 then ofScaledRatio sign fraction 1 (-149)
  else ofScaledRatio sign (fraction + Nat.pow 2 23) 1 ((exponent : Int) - 150)

end Binary64

end TableAccess.Number
