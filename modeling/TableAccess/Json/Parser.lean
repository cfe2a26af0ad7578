import TableAccess.Json.Number
import TableAccess.Text.Ascii
import TableAccess.Text.Hex
import TableAccess.Text.Utf8

/-!
# Reading JSON texts

A reader takes a value from the front of a text and gives what follows it.  Arrays and objects
may be nested up to a given depth.  Four characters count as blank.  In lenient mode only the
shape of the text counts: escapes need not stand for characters, and numbers may be of any size.
-/

namespace TableAccess.Json

/-- The characters that may stand between the parts of a JSON text. -/
def isSpace (c : Char) : Bool := c == ' ' || c == '\t' || c == '\n' || c == '\r'

def skipSpace (s : List Char) : List Char := s.dropWhile isSpace

/-- Four hexadecimal digits. -/
def readHex4? : List Char → Option (Nat × List Char)
  | a :: b :: c :: d :: r => do
    let a ← Text.hexValue? a
    let b ← Text.hexValue? b
    let c ← Text.hexValue? c
    let d ← Text.hexValue? d
    some (((a * 16 + b) * 16 + c) * 16 + d, r)
  | _ => none

def isHighSurrogate (n : Nat) : Bool := 0xD800 ≤ n && n ≤ 0xDBFF

def isLowSurrogate (n : Nat) : Bool := 0xDC00 ≤ n && n ≤ 0xDFFF

/-- The second half of a surrogate pair. -/
def readLow? : List Char → Option (Nat × List Char)
  | '\\' :: 'u' :: r => do
    let (low, r) ← readHex4? r
    if isLowSurrogate low then some (low, r) else none
  | _ => none

/-- A numeric escape after its mark.  A character outside the basic plane takes two of them; half
a pair stands for no character. -/
def readCodePoint? (mode : Mode) (s : List Char) : Option (Char × List Char) := do
  let (n, r) ← readHex4? s
  if mode == .lenient then some (Char.ofNat n, r)
  else if isLowSurrogate n then none
  else if isHighSurrogate n then
    let (low, r) ← readLow? r
    some (Char.ofNat (0x10000 + (n - 0xD800) * 0x400 + (low - 0xDC00)), r)
  else some (Char.ofNat n, r)

/-- The character of an escape of one letter. -/
def shortEscape? (c : Char) : Option Char :=
  if c == '"' || c == '\\' || c == '/' then some c
  else if c == 'b' then some '\x08'
  else if c == 'f' then some '\x0c'
  else if c == 'n' then some '\n'
  else if c == 'r' then some '\r'
  else if c == 't' then some '\t'
  else none

/-- One step inside a string: its end, or a character. -/
def readStringChar? (mode : Mode) : List Char → Option (Option Char × List Char)
  | [] => none
  | c :: r =>
    if c == '"' then some (none, r)
    else if c == '\\' then
      match r with
      | [] => none
      | e :: r =>
        if e == 'u' then (readCodePoint? mode r).map fun (c, r) => (some c, r)
        else (shortEscape? e).map fun c => (some c, r)
    else if c.toNat < 32 then none
    else some (some c, r)

/-- The characters of a string up to its closing quote, in at most `fuel` steps. -/
def readChars? (mode : Mode) : Nat → List Char → Option (List Char × List Char)
  | 0, _ => none
  | fuel + 1, s =>
    match readStringChar? mode s with
    | none => none
    | some (none, r) => some ([], r)
    | some (some c, r) => (readChars? mode fuel r).map fun (cs, r) => (c :: cs, r)

/-- A string after its opening quote. -/
def readString? (mode : Mode) (s : List Char) : Option (String × List Char) :=
  (readChars? mode (s.length + 1) s).map fun (cs, r) => (String.ofList cs, r)

/-- What follows a character that must come next, after blanks. -/
def expect? (c : Char) (s : List Char) : Option (List Char) :=
  match skipSpace s with
  | d :: r => if d == c then some r else none
  | [] => none

/-- A key with its colon. -/
def readKey? (mode : Mode) (s : List Char) : Option (String × List Char) := do
  let r ← expect? '"' s
  let (key, r) ← readString? mode r
  let r ← expect? ':' r
  some (key, r)

/-- Items with commas between them and the closing character after the last one, in at most
`fuel` steps. -/
def readMore (item : List Char → Option (α × List Char)) (close : Char) :
    Nat → List Char → Option (List α × List Char)
  | 0, _ => none
  | fuel + 1, s =>
    match item s with
    | none => none
    | some (a, r) =>
      match skipSpace r with
      | [] => none
      | c :: r =>
        if c == close then some ([a], r)
        else if c == ',' then (readMore item close fuel r).map fun (as, r) => (a :: as, r)
        else none

/-- Items up to the closing character, after the opening one. -/
def readSequence (item : List Char → Option (α × List Char)) (close : Char) (s : List Char) :
    Option (List α × List Char) :=
  match skipSpace s with
  | [] => none
  | c :: r => if c == close then some ([], r) else readMore item close (s.length + 1) s

/-- A member of an object, by the reader of its value. -/
def readMember (mode : Mode) (value : List Char → Option (Json × List Char)) (s : List Char) :
    Option ((String × Json) × List Char) := do
  let (key, r) ← readKey? mode s
  let (v, r) ← value r
  some ((key, v), r)

/-- A value that is neither an array nor an object. -/
def readScalar (mode : Mode) (s : List Char) : Option (Json × List Char) :=
  match s with
  | 'n' :: r => (Text.dropLead? "ull".toList r).map (.null, ·)
  | 't' :: r => (Text.dropLead? "rue".toList r).map (.bool true, ·)
  | 'f' :: r => (Text.dropLead? "alse".toList r).map (.bool false, ·)
  | '"' :: r => (readString? mode r).map fun (s, r) => (.string s, r)
  | r => (readNumber mode r).map fun (n, r) => (.number n, r)

/-- A value, with arrays and objects nested at most `depth` deep. -/
def readValue (mode : Mode) : Nat → List Char → Option (Json × List Char)
  | 0, s =>
    match skipSpace s with
    | '[' :: _ | '\x7b' :: _ => none
    | r => readScalar mode r
  | depth + 1, s =>
    match skipSpace s with
    | '[' :: r =>
      (readSequence (readValue mode depth) ']' r).map fun (items, r) => (.array items, r)
    | '\x7b' :: r =>
      (readSequence (readMember mode (readValue mode depth)) '\x7d' r).map fun (entries, r) =>
        (.object (ofEntries entries), r)
    | r => readScalar mode r

/-- How deep arrays and objects may be nested in a document. -/
def maxDepth : Nat := 127

/-- Pass over a value of any depth, looking at its shape only. -/
def skipValue? (s : List Char) : Option (List Char) :=
  (readValue .lenient s.length s).map Prod.snd

/-- A result that leaves nothing but blanks. -/
def atEnd? : Option (α × List Char) → Option α
  | some (a, r) => if (skipSpace r).isEmpty then some a else none
  | none => none

/-- The value of a text that holds one value and blanks around it. -/
def parse? (s : List Char) : Option Json := atEnd? (readValue .strict maxDepth s)

/-- The value of a text given as bytes. -/
def ofBytes? (bytes : List UInt8) : Option Json := (Text.decode? bytes).bind parse?

end TableAccess.Json
