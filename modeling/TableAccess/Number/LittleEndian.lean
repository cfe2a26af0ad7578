/-!
# Little-endian numbers

A number in a fixed count of bytes, the lowest one first, read back without or with a sign.
-/

namespace TableAccess.Number

/-- The lowest `width` bytes of a number, the lowest one first. -/
def littleEndian : Nat → Nat → List UInt8
  | 0, _ => []
  | width + 1, n => UInt8.ofNat (n % 256) :: littleEndian width (n / 256)

/-- The number of bytes, the lowest one first. -/
def ofLittleEndian : List UInt8 → Nat
  | [] => 0
  | b :: r => b.toNat + 256 * ofLittleEndian r

/-- A number with a sign in two's complement. -/
def littleEndianInt (width : Nat) (i : Int) : List UInt8 :=
  littleEndian width (i % (Nat.pow 256 width : Nat)).toNat

/-- The number with a sign in as many bytes as there are. -/
def intOfLittleEndian (bytes : List UInt8) : Int :=
  let n := ofLittleEndian bytes
  if 2 * n < Nat.pow 256 bytes.length then n else (n : Int) - (Nat.pow 256 bytes.length : Nat)

@[simp] theorem length_littleEndian (width n : Nat) : (littleEndian width n).length = width := by
  induction width generalizing n with
  | zero => rfl
  | succ width ih => simp [littleEndian, ih]

theorem ofLittleEndian_littleEndian {width n : Nat} (h : n < Nat.pow 256 width) :
    ofLittleEndian (littleEndian width n) = n := by
  induction width generalizing n with
  | zero =>
    have : Nat.pow 256 0 = 1 := rfl
    simp only [littleEndian, ofLittleEndian]
    omega
  | succ width ih =>
    have hs : Nat.pow 256 (width + 1) = Nat.pow 256 width * 256 := rfl
    have hq : n / 256 < Nat.pow 256 width := by omega
    have hb : (UInt8.ofNat (n % 256)).toNat = n % 256 := by simp
    simp only [littleEndian, ofLittleEndian, ih hq, hb]
    omega

/-- A number that fits the bytes with its sign reads back with its sign. -/
theorem intOfLittleEndian_littleEndianInt {width : Nat} {i : Int}
    (hl : -(Nat.pow 256 width : Nat) ≤ 2 * i) (hh : 2 * i < (Nat.pow 256 width : Nat)) :
    intOfLittleEndian (littleEndianInt width i) = i := by
  have hpos : 0 < Nat.pow 256 width := Nat.pow_pos (by decide)
  have hmod : (i % (Nat.pow 256 width : Nat)).toNat < Nat.pow 256 width := by
    have hnonneg := Int.emod_nonneg i (Int.ofNat_ne_zero.mpr (Nat.ne_of_gt hpos))
    have hlt := Int.emod_lt_of_pos i (Int.ofNat_lt.mpr hpos)
    omega
  have hread := ofLittleEndian_littleEndian hmod
  simp only [intOfLittleEndian, littleEndianInt, length_littleEndian, hread]
  generalize Nat.pow 256 width = m at hl hh hpos ⊢
  rcases Int.lt_or_le i 0 with hneg | hnonneg
  · have hwrap : i % (m : Int) = i + m := by
      rw [← Int.add_emod_right, Int.emod_eq_of_lt (by omega) (by omega)]
    rw [hwrap, if_neg (by omega)]
    omega
  · rw [Int.emod_eq_of_lt hnonneg (by omega), if_pos (by omega)]
    omega

end TableAccess.Number
