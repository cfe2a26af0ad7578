import TableAccess.Number.Binary64

/-!
# The shortest decimal that reads back

Every real number between the midpoints to its two neighbours reads back as a given floating
point number; the midpoints themselves do when its significand is even.  Of the decimals in that
interval the one with the fewest digits is wanted, and of those the nearest to the number.  It
lies on the coarsest decimal grid that meets the interval, and there it is one of the two grid
points around the number.
-/

namespace TableAccess.Number

/-- The number `digits · 10 ^ exponent`. -/
structure Decimal where
  digits : Nat
  exponent : Int
deriving DecidableEq

/-- Which grid point wins when the number lies exactly between two that both read back. -/
inductive Tie where
  | toEven
  | up

/-- The reals that read back as a number, and the number itself, over a common denominator. -/
structure Reach where
  low : Nat
  value : Nat
  high : Nat
  denominator : Nat
  /-- The ends belong to the interval. -/
  closed : Bool

namespace Reach

/-- The interval of `m · 2 ^ q`, in quarters of the unit of its last bit.  Below a power of two
the numbers lie twice as dense. -/
def of (m : Nat) (q : Int) : Reach :=
  let s := q - 2
  let unit := Nat.pow 2 s.toNat
  let below := if m = Nat.pow 2 52 ∧ -1074 < q then 1 else 2
  ⟨(4 * m - below) * unit, 4 * m * unit, (4 * m + 2) * unit, Nat.pow 2 (-s).toNat, m % 2 == 0⟩

/-- The same interval in units of `10 ^ k`: multiply everything by `10 ^ -k`. -/
def onGrid (r : Reach) (k : Int) : Reach :=
  let up := Nat.pow 10 (-k).toNat
  ⟨r.low * up, r.value * up, r.high * up, r.denominator * Nat.pow 10 k.toNat, r.closed⟩

/-- The whole number `x` lies in the interval. -/
def holds (r : Reach) (x : Nat) : Bool :=
  let y := x * r.denominator
  if r.closed then r.low ≤ y && y ≤ r.high else r.low < y && y < r.high

/-- The whole number that reads back and is nearest to the value. -/
def nearest? (r : Reach) (tie : Tie) : Option Nat :=
  let below := r.value / r.denominator
  let rest := r.value % r.denominator
  match r.holds below, r.holds (below + 1) with
  | true, false => some below
  | false, true => some (below + 1)
  | false, false => none
  | true, true =>
    if 2 * rest < r.denominator then some below
    else if r.denominator < 2 * rest then some (below + 1)
    else match tie with
      | .toEven => some (below + below % 2)
      | .up => some (below + 1)

/-- Go from the grid `10 ^ k` to finer ones until a point reads back. -/
def search (r : Reach) (tie : Tie) : Nat → Int → Decimal
  | 0, k => ⟨(r.onGrid k).value / (r.onGrid k).denominator, k⟩
  | fuel + 1, k =>
    match (r.onGrid k).nearest? tie with
    | some d => ⟨d, k⟩
    | none => search r tie fuel (k - 1)

/-- The value is at least `10 ^ k`. -/
def reaches (r : Reach) (k : Int) : Bool :=
  let g := r.onGrid k
  g.denominator ≤ g.value

/-- The exponent of the greatest power of ten that is at most the value, for a value of
`m · 2 ^ q`: the binary logarithm gives it up to one. -/
def floorLog10 (r : Reach) (log2 : Int) : Int :=
  let k := log2 * 1233 / 4096
  if r.reaches (k + 1) then k + 1 else if r.reaches k then k else k - 1

end Reach

/-- Move trailing zeros of the digits into the exponent. -/
def Decimal.normalize : Nat → Decimal → Decimal
  | 0, d => d
  | fuel + 1, d =>
    if d.digits ≠ 0 ∧ d.digits % 10 = 0 then normalize fuel ⟨d.digits / 10, d.exponent + 1⟩ else d

/-- The shortest decimal that reads back as `m · 2 ^ q`, nearest to it among the shortest.
Seventeen digits always suffice. -/
def shortest (tie : Tie) (m : Nat) (q : Int) : Decimal :=
  if m = 0 then ⟨0, 0⟩
  else
    let r := Reach.of m q
    Decimal.normalize 20 (r.search tie 17 (r.floorLog10 ((m.log2 : Int) + q)))

end TableAccess.Number
