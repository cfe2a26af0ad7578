import TableAccess.Number.Printer
import TableAccess.Proofs.Date.Reader
import TableAccess.Proofs.Text.Utf8

/-!
# Written numbers and dates take a byte a character

Digits, signs, the point, and the words for what has no digits are ASCII characters.  So the size
of a number or a date in bytes is the length of its text, for every date and for numbers that are
not finite too.
-/

namespace TableAccess

/-- Every character of the text is an ASCII character. -/
def Text.IsAscii (s : List Char) : Prop := ∀ c ∈ s, c.toNat < 0x80

namespace Text

theorem isAscii_nil : IsAscii [] := fun _ hc => absurd hc List.not_mem_nil

theorem isAscii_cons {c : Char} {s : List Char} (hc : c.toNat < 0x80) (hs : IsAscii s) :
    IsAscii (c :: s) := List.forall_mem_cons.mpr ⟨hc, hs⟩

theorem isAscii_append {s t : List Char} (hs : IsAscii s) (ht : IsAscii t) :
    IsAscii (s ++ t) := by
  intro c hc
  rcases List.mem_append.mp hc with hc | hc
  · exact hs c hc
  · exact ht c hc

theorem isAscii_of_all {s : List Char} (h : (s.all fun c => c.toNat < 0x80) = true) :
    IsAscii s := fun c hc => of_decide_eq_true (List.all_eq_true.mp h c hc)

theorem isAscii_of_isDigit {s : List Char} (h : ∀ c ∈ s, Number.isDigit c = true) :
    IsAscii s := by
  intro c hc
  have hdigit := Number.toNat_of_isDigit (h c hc)
  omega

theorem length_encode_of_isAscii {s : List Char} (h : IsAscii s) :
    (encode s).length = s.length := by
  rw [length_encode, byteLength_of_ascii h]

end Text

namespace Number

open Text (IsAscii)

theorem isAscii_natText (n : Nat) : IsAscii (natText n) :=
  Text.isAscii_of_isDigit fun _ hc => isDigit_of_mem_natText hc

theorem isAscii_paddedText (width n : Nat) : IsAscii (paddedText width n) :=
  Text.isAscii_of_isDigit fun _ hc => isDigit_of_mem_paddedText hc

theorem isAscii_intText (i : Int) : IsAscii (intText i) := by
  cases i with
  | ofNat n => exact isAscii_natText n
  | negSucc n => exact Text.isAscii_cons (by decide) (isAscii_natText (n + 1))

theorem isAscii_signText (x : Binary64) : IsAscii (signText x) := by
  rw [signText]
  split
  · exact Text.isAscii_cons (by decide) Text.isAscii_nil
  · exact Text.isAscii_nil

theorem isAscii_withPoint (places : Nat) {digits : List Char} (h : IsAscii digits) :
    IsAscii (withPoint places digits) := by
  have hzeros : IsAscii (List.replicate (places + 1 - digits.length) '0') := by
    intro c hc
    rw [(List.mem_replicate.mp hc).2]
    decide
  have hpadded := Text.isAscii_append hzeros h
  rw [withPoint]
  split
  · exact hpadded
  · refine Text.isAscii_append (fun c hc => hpadded c (List.mem_of_mem_take hc)) ?_
    exact Text.isAscii_cons (by decide) fun c hc => hpadded c (List.mem_of_mem_drop hc)

theorem isAscii_fixedText (places : Nat) (x : Binary64) : IsAscii (fixedText places x) := by
  have hnan : IsAscii "NaN".toList := Text.isAscii_of_all (by decide)
  have hinfinite : IsAscii "inf".toList := Text.isAscii_of_all (by decide)
  rw [fixedText]
  split
  · exact hnan
  · exact Text.isAscii_append (isAscii_signText x) hinfinite
  · exact Text.isAscii_append (isAscii_signText x) (isAscii_withPoint places (isAscii_natText _))

end Number

namespace Date

open Text (IsAscii)

theorem isAscii_yearText (year : Int) : IsAscii (yearText year) := by
  rw [yearText]
  split
  · exact Number.isAscii_paddedText 4 year.toNat
  · refine Text.isAscii_cons ?_ (Number.isAscii_paddedText 4 year.natAbs)
    split
    · decide
    · decide

theorem isAscii_compactText (d : Date) : IsAscii d.compactText :=
  Text.isAscii_append
    (Text.isAscii_append (isAscii_yearText d.year) (Number.isAscii_paddedText 2 d.month))
    (Number.isAscii_paddedText 2 d.day)

end Date

end TableAccess
