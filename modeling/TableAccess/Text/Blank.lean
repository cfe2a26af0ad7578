/-!
# Blank characters

The characters that separate words in a query and that readers of dates skip: the Unicode
property `White_Space`.  Trimming removes a longest run of them from an end of a text.
-/

namespace TableAccess.Text

/-- The characters with the Unicode property `White_Space`. -/
def isBlank (c : Char) : Bool :=
  let n := c.toNat
  (9 ≤ n && n ≤ 13) || n == 0x20 || n == 0x85 || n == 0xA0 || n == 0x1680 ||
    (0x2000 ≤ n && n ≤ 0x200A) || n == 0x2028 || n == 0x2029 || n == 0x202F ||
    n == 0x205F || n == 0x3000

/-- Without the longest run at the front that satisfies `p`. -/
def dropFront (p : Char → Bool) (s : List Char) : List Char := s.dropWhile p

/-- Without the longest run at the end that satisfies `p`. -/
def dropBack (p : Char → Bool) (s : List Char) : List Char := (s.reverse.dropWhile p).reverse

/-- Without the longest runs at both ends that satisfy `p`. -/
def dropEnds (p : Char → Bool) (s : List Char) : List Char := dropBack p (dropFront p s)

def trimStart (s : List Char) : List Char := dropFront isBlank s

def trimEnd (s : List Char) : List Char := dropBack isBlank s

def trim (s : List Char) : List Char := dropEnds isBlank s

/-- The text is not empty and its first character is blank. -/
def startsBlank : List Char → Bool
  | [] => false
  | c :: _ => isBlank c

/-- Spaces and zero characters fill up the fields of fixed-width records. -/
def isPadding (c : Char) : Bool := c == ' ' || c == '\x00'

end TableAccess.Text
