/-!
# UTF-8

One decoder walks over the bytes and yields, piece by piece, either a character or the mark of
a malformed piece: the longest run of bytes that begins a character but cannot be completed.
Strict reading wants no malformed piece at all; tolerant reading puts the replacement character
in the place of each.
-/

namespace TableAccess.Text

/-- What a first byte announces: how many bytes follow, the range of the next one, and the
part of the code point that it carries. -/
structure Lead where
  following : Nat
  low : UInt8
  high : UInt8
  bits : Nat

/-- First bytes of well-formed sequences.  The range of the second byte excludes overlong forms,
surrogates and numbers beyond the last code point. -/
def Lead.of? (b : UInt8) : Option Lead :=
  let n := b.toNat
  if n < 0x80 then some ⟨0, 0x80, 0xBF, n⟩
  else if n < 0xC2 then none
  else if n < 0xE0 then some ⟨1, 0x80, 0xBF, n - 0xC0⟩
  else if n == 0xE0 then some ⟨2, 0xA0, 0xBF, 0⟩
  else if n == 0xED then some ⟨2, 0x80, 0x9F, 0xD⟩
  else if n < 0xF0 then some ⟨2, 0x80, 0xBF, n - 0xE0⟩
  else if n == 0xF0 then some ⟨3, 0x90, 0xBF, 0⟩
  else if n < 0xF4 then some ⟨3, 0x80, 0xBF, n - 0xF0⟩
  else if n == 0xF4 then some ⟨3, 0x80, 0x8F, 4⟩
  else none

/-- Take `k` following bytes, the first of them within `low` and `high`, onto the code point read
so far.  A byte that does not fit is left in place. -/
def takeFollowing : Nat → UInt8 → UInt8 → Nat → List UInt8 → Option Nat × List UInt8
  | 0, _, _, code, r => (some code, r)
  | _ + 1, _, _, _, [] => (none, [])
  | k + 1, low, high, code, b :: r =>
    if low ≤ b && b ≤ high then takeFollowing k 0x80 0xBF (code * 64 + (b.toNat - 0x80)) r
    else (none, b :: r)

theorem takeFollowing_length (k : Nat) (low high : UInt8) (code : Nat) (r : List UInt8) :
    (takeFollowing k low high code r).2.length ≤ r.length := by
  induction k generalizing low high code r with
  | zero => simp [takeFollowing]
  | succ k ih =>
    cases r with
    | nil => simp [takeFollowing]
    | cons b r =>
      simp only [takeFollowing]
      split
      · exact Nat.le_trans (ih _ _ _ _) (by simp)
      · simp

/-- The first piece of `b :: r`: its code point, or nothing if it is malformed, and the bytes
after it. -/
def firstPiece (b : UInt8) (r : List UInt8) : Option Nat × List UInt8 :=
  match Lead.of? b with
  | none => (none, r)
  | some lead => takeFollowing lead.following lead.low lead.high lead.bits r

theorem firstPiece_length (b : UInt8) (r : List UInt8) :
    (firstPiece b r).2.length ≤ r.length := by
  unfold firstPiece
  split
  · simp
  · exact takeFollowing_length _ _ _ _ _

/-- All pieces of the bytes in order. -/
def pieces : List UInt8 → List (Option Char)
  | [] => []
  | b :: r =>
    (firstPiece b r).1.map Char.ofNat :: pieces (firstPiece b r).2
  termination_by bytes => bytes.length
  decreasing_by exact Nat.lt_succ_of_le (firstPiece_length b r)

/-- The text, with the replacement character for each malformed piece. -/
def decodeLossy (bytes : List UInt8) : List Char :=
  (pieces bytes).map fun piece => piece.getD (Char.ofNat 0xFFFD)

/-- The characters of the pieces, if none of them is malformed. -/
def wellFormed? : List (Option Char) → Option (List Char)
  | [] => some []
  | none :: _ => none
  | some c :: r => (wellFormed? r).map (c :: ·)

/-- The text, if the bytes are well-formed throughout. -/
def decode? (bytes : List UInt8) : Option (List Char) := wellFormed? (pieces bytes)

/-- The bytes of a text. -/
def encode (s : List Char) : List UInt8 := s.flatMap String.utf8EncodeChar

/-- How many bytes a text takes. -/
def byteLength : List Char → Nat
  | [] => 0
  | c :: r => c.utf8Size + byteLength r

/-- The longest beginning of a text that takes at most `room` bytes. -/
def takeBytes : Nat → List Char → List Char
  | _, [] => []
  | room, c :: r => if c.utf8Size ≤ room then c :: takeBytes (room - c.utf8Size) r else []

theorem byteLength_takeBytes (room : Nat) (s : List Char) :
    byteLength (takeBytes room s) ≤ room := by
  induction s generalizing room with
  | nil => simp [takeBytes, byteLength]
  | cons c r ih =>
    rw [takeBytes]
    split
    · have := ih (room - c.utf8Size)
      simp only [byteLength]
      omega
    · simp [byteLength]

end TableAccess.Text
