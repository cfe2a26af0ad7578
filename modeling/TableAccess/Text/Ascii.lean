/-!
# Letter case within ASCII

Keywords, table names and database kinds are compared without regard to the case of the
twenty-six Latin letters; every other character stands for itself only.
-/

namespace TableAccess.Text

/-- Capital Latin letters become small ones; all else stays. -/
def lowerAscii (c : Char) : Char :=
  if 'A' ≤ c && c ≤ 'Z' then Char.ofNat (c.toNat + 32) else c

/-- Small Latin letters become capital ones; all else stays. -/
def upperAscii (c : Char) : Char :=
  if 'a' ≤ c && c ≤ 'z' then Char.ofNat (c.toNat - 32) else c

/-- Equal up to the case of Latin letters. -/
def sameIgnoringCase (a b : List Char) : Bool := a.map lowerAscii == b.map lowerAscii

/-- `piece` occurs somewhere in the text. -/
def containsPiece (piece : List Char) : List Char → Bool
  | [] => piece.isEmpty
  | c :: r => piece.isPrefixOf (c :: r) || containsPiece piece r

/-- What follows `lead` at the front of the text. -/
def dropLead? : List Char → List Char → Option (List Char)
  | [], s => some s
  | _ :: _, [] => none
  | a :: lead, c :: s => if a == c then dropLead? lead s else none

end TableAccess.Text
