import TableAccess.Json.Parser
import TableAccess.Json.Printer

/-!
# Reading a written string

Every character of a string is written as itself, as an escape of one letter or as a numeric
escape, and in each case the reader takes exactly that much and gives the character.  The quote
is always escaped, so the first bare quote is the end of the string.
-/

namespace TableAccess.Json

variable {c : Char} {r : List Char}

/-! ### One character -/

theorem hexValue?_hexDigit {n : Nat} (h : n < 16) : Text.hexValue? (Text.hexDigit n) = some n := by
  have hall : ∀ k : Fin 16, Text.hexValue? (Text.hexDigit k.val) = some k.val := by decide
  exact hall ⟨n, h⟩

/-- A numeric escape of a control character. -/
theorem readCodePoint?_control (h : c.toNat < 32) :
    readCodePoint? .strict
      ('0' :: '0' :: Text.hexDigit (c.toNat / 16) :: Text.hexDigit (c.toNat % 16) :: r) =
        some (c, r) := by
  have hzero : Text.hexValue? '0' = some 0 := rfl
  have hhigh := hexValue?_hexDigit (n := c.toNat / 16) (by omega)
  have hlow := hexValue?_hexDigit (n := c.toNat % 16) (by omega)
  have hvalue : ((0 * 16 + 0) * 16 + c.toNat / 16) * 16 + c.toNat % 16 = c.toNat := by omega
  have hread : readHex4? ('0' :: '0' :: Text.hexDigit (c.toNat / 16) ::
      Text.hexDigit (c.toNat % 16) :: r) = some (c.toNat, r) := by
    rw [readHex4?, hzero, hhigh, hlow]
    show some (((0 * 16 + 0) * 16 + c.toNat / 16) * 16 + c.toNat % 16, r) = _
    rw [hvalue]
  have hnotLow : isLowSurrogate c.toNat = false := by
    rw [isLowSurrogate, Bool.and_eq_false_iff, decide_eq_false_iff_not]
    omega
  have hnotHigh : isHighSurrogate c.toNat = false := by
    rw [isHighSurrogate, Bool.and_eq_false_iff, decide_eq_false_iff_not]
    omega
  simp [readCodePoint?, hread, hnotLow, hnotHigh]

/-- Whatever stands for a character in a string is read as that character. -/
theorem readStringChar?_escapeChar (c : Char) (r : List Char) :
    readStringChar? .strict (escapeChar c ++ r) = some (some c, r) := by
  rw [escapeChar]
  by_cases hquote : c = '"'
  · rw [if_pos hquote, hquote]
    rfl
  by_cases hbackslash : c = '\\'
  · rw [if_neg hquote, if_pos hbackslash, hbackslash]
    rfl
  by_cases hnewline : c = '\n'
  · rw [if_neg hquote, if_neg hbackslash, if_pos hnewline, hnewline]
    rfl
  by_cases hreturn : c = '\r'
  · rw [if_neg hquote, if_neg hbackslash, if_neg hnewline, if_pos hreturn, hreturn]
    rfl
  by_cases htab : c = '\t'
  · rw [if_neg hquote, if_neg hbackslash, if_neg hnewline, if_neg hreturn, if_pos htab, htab]
    rfl
  rw [if_neg hquote, if_neg hbackslash, if_neg hnewline, if_neg hreturn, if_neg htab]
  by_cases hback : c.toNat = 8
  · rw [if_pos hback, show c = '\x08' from Char.toNat_inj.mp hback]
    rfl
  by_cases hfeed : c.toNat = 12
  · rw [if_neg hback, if_pos hfeed, show c = '\x0c' from Char.toNat_inj.mp hfeed]
    rfl
  rw [if_neg hback, if_neg hfeed]
  by_cases hcontrol : c.toNat < 32
  · rw [if_pos hcontrol]
    show (readCodePoint? .strict ('0' :: '0' :: Text.hexDigit (c.toNat / 16) ::
      Text.hexDigit (c.toNat % 16) :: r)).map _ = _
    rw [readCodePoint?_control hcontrol]
    rfl
  · rw [if_neg hcontrol, List.singleton_append]
    simp only [readStringChar?, beq_iff_eq, hquote, hbackslash, hcontrol, if_false]

theorem length_escapeChar_pos (c : Char) : 0 < (escapeChar c).length := by
  unfold escapeChar
  repeat' split
  all_goals exact Nat.succ_pos _

/-! ### Whole strings -/

theorem length_le_escaped (s : List Char) : s.length ≤ (s.flatMap escapeChar).length := by
  induction s with
  | nil => exact Nat.le_refl 0
  | cons c s ih =>
    have hc := length_escapeChar_pos c
    rw [List.flatMap_cons, List.length_append, List.length_cons]
    omega

theorem readChars?_escaped {fuel : Nat} {s : List Char} (h : s.length < fuel) (r : List Char) :
    readChars? .strict fuel (s.flatMap escapeChar ++ '"' :: r) = some (s, r) := by
  induction s generalizing fuel with
  | nil =>
    obtain ⟨k, rfl⟩ := Nat.exists_eq_add_one.mpr h
    rfl
  | cons c s ih =>
    obtain ⟨k, rfl⟩ := Nat.exists_eq_add_one.mpr (Nat.zero_lt_of_lt h)
    rw [List.flatMap_cons, List.append_assoc, readChars?, readStringChar?_escapeChar]
    show (readChars? .strict k (s.flatMap escapeChar ++ '"' :: r)).map _ = _
    rw [ih (Nat.lt_of_succ_lt_succ h)]
    rfl

/-- **A string reads back from its text**, whatever characters it has and whatever follows. -/
theorem readString?_escaped (s : String) (r : List Char) :
    readString? .strict (s.toList.flatMap escapeChar ++ '"' :: r) = some (s, r) := by
  have hfuel : s.toList.length < (s.toList.flatMap escapeChar ++ '"' :: r).length + 1 := by
    have hlength := length_le_escaped s.toList
    rw [List.length_append]
    omega
  rw [readString?, readChars?_escaped hfuel]
  show some (String.ofList s.toList, r) = _
  rw [String.ofList_toList]

theorem stringText_append (s : String) (r : List Char) :
    stringText s ++ r = '"' :: (s.toList.flatMap escapeChar ++ '"' :: r) := by
  rw [stringText, List.cons_append, List.append_assoc, List.singleton_append]

end TableAccess.Json
