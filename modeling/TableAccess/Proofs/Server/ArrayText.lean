import Mathlib.Data.List.Basic
import TableAccess.Proofs.Text.Utf8
import TableAccess.Server.Dialect
import TableAccess.Text.Ascii
import TableAccess.Text.Blank

/-!
# Reading arrays of texts back

A reader of array texts goes over the text one character at a time.  Elements stand between braces
with commas between them.  Between quotes a backslash takes the next character as it is; an element
without quotes is a bare word, and the bare word `NULL`, in letters of any case, is no text.  What
is written for a list of texts is read back as these texts, up to its last character and not before,
so no element can end early, run into the next one or pass for a missing one.
-/

namespace TableAccess.Server

/-! ### The reader -/

/-- Where a reader of an array stands. -/
inductive ArrayPhase where
  /-- Before the opening brace. -/
  | start
  /-- Behind the opening brace. -/
  | opened
  /-- Behind a comma. -/
  | next
  /-- In an element without quotes. -/
  | bare
  /-- Between the quotes of an element. -/
  | quoted
  /-- Behind a backslash between quotes. -/
  | escaped
  /-- Behind the closing quote of an element. -/
  | ended
  /-- Behind the closing brace. -/
  | closed
deriving DecidableEq

/-- What a reader has: the elements before this one, the characters of this one, and where it
stands. -/
structure ArrayReading where
  items : List (Option (List Char))
  element : List Char
  phase : ArrayPhase

/-- The element of a bare word. -/
def bareItem (word : List Char) : Option (List Char) :=
  if Text.sameIgnoringCase word "NULL".toList then none else some word

/-- The characters of bare words. -/
def isBare (c : Char) : Bool :=
  !(c == '"' || c == '\\' || c == ',' || c == '\x7b' || c == '\x7d' || Text.isBlank c)

namespace ArrayReading

def begin : ArrayReading := ⟨[], [], .start⟩

/-- The character behind a complete element. -/
def itemEnd (r : ArrayReading) (item : Option (List Char)) (c : Char) : Option ArrayReading :=
  if c = ',' then some ⟨r.items ++ [item], [], .next⟩
  else if c = '\x7d' then some ⟨r.items ++ [item], [], .closed⟩
  else none

/-- The first character of an element. -/
def itemStart (r : ArrayReading) (c : Char) : Option ArrayReading :=
  if c = '"' then some ⟨r.items, [], .quoted⟩
  else if isBare c then some ⟨r.items, [c], .bare⟩
  else none

/-- A character between quotes. -/
def quotedStep (r : ArrayReading) (c : Char) : ArrayReading :=
  if c = '\\' then ⟨r.items, r.element, .escaped⟩
  else if c = '"' then ⟨r.items, r.element, .ended⟩
  else ⟨r.items, r.element ++ [c], .quoted⟩

/-- Take a character. -/
def step (r : ArrayReading) (c : Char) : Option ArrayReading :=
  match r.phase with
  | .start => if c = '\x7b' then some ⟨r.items, [], .opened⟩ else none
  | .opened => if c = '\x7d' then some ⟨r.items, [], .closed⟩ else r.itemStart c
  | .next => r.itemStart c
  | .bare =>
    if isBare c then some ⟨r.items, r.element ++ [c], .bare⟩
    else r.itemEnd (bareItem r.element) c
  | .quoted => some (r.quotedStep c)
  | .escaped => some ⟨r.items, r.element ++ [c], .quoted⟩
  | .ended => r.itemEnd (some r.element) c
  | .closed => none

/-- Take characters one after the other. -/
def feed (r : ArrayReading) : List Char → Option ArrayReading
  | [] => some r
  | c :: s => (r.step c).bind fun r => r.feed s

/-- The elements, if the array is closed. -/
def finish (r : ArrayReading) : Option (List (Option (List Char))) :=
  if r.phase = .closed then some r.items else none

end ArrayReading

/-- The elements of an array text; a missing one is nothing. -/
def readArray? (s : List Char) : Option (List (Option (List Char))) :=
  (ArrayReading.begin.feed s).bind ArrayReading.finish

example : readArray? "\x7bno,\"a,\\\"b\\\\\",null,\"null\"\x7d".toList =
    some [some ['n', 'o'], some ['a', ',', '"', 'b', '\\'], none, some ['n', 'u', 'l', 'l']] := by
  decide

/-! ### Escapes -/

/-- A text with a backslash before every occurrence of a character. -/
def escapeEach (mark : Char) (s : List Char) : List Char :=
  s.flatMap fun c => if c = mark then ['\\', c] else [c]

theorem escapeEach_cons (mark c : Char) (s : List Char) :
    escapeEach mark (c :: s) = (if c = mark then ['\\', c] else [c]) ++ escapeEach mark s :=
  List.flatMap_cons

theorem escapeEach_append (mark : Char) (s t : List Char) :
    escapeEach mark (s ++ t) = escapeEach mark s ++ escapeEach mark t := List.flatMap_append

/-- Quotes and backslashes are escaped by two replacements, of the backslashes first.  In the other
order the backslashes before the quotes would be escaped as well. -/
theorem quotedElement_eq (s : List Char) :
    quotedElement s = '"' :: (escapeEach '"' (escapeEach '\\' s) ++ ['"']) := by
  have htwice : (s.flatMap fun c => if c = '"' ∨ c = '\\' then ['\\', c] else [c]) =
      escapeEach '"' (escapeEach '\\' s) := by
    induction s with
    | nil => rfl
    | cons c s ih =>
      rw [List.flatMap_cons, ih, escapeEach_cons, escapeEach_append]
      congr 1
      by_cases hslash : c = '\\'
      · subst hslash
        decide
      · rw [if_neg hslash]
        by_cases hquote : c = '"'
        · subst hquote
          decide
        · simp [escapeEach, hslash, hquote]
  rw [quotedElement, htwice]

example : escapeEach '\\' (escapeEach '"' ['"']) ≠ escapeEach '"' (escapeEach '\\' ['"']) := by decide

/-! ### Reading elements -/

namespace ArrayReading

variable {items : List (Option (List Char))} {element : List Char} {phase : ArrayPhase}

theorem feed_append (r : ArrayReading) (s t : List Char) :
    r.feed (s ++ t) = (r.feed s).bind fun r => r.feed t := by
  induction s generalizing r with
  | nil => rfl
  | cons c s ih =>
    show (r.step c).bind (fun r => r.feed (s ++ t)) = _
    simp only [ih, feed, Option.bind_assoc]

/-- Between quotes the reader takes the escaped characters as the text that they stand for. -/
theorem feed_escaped (s element : List Char) :
    feed ⟨items, element, .quoted⟩
        (s.flatMap fun c => if c = '"' ∨ c = '\\' then ['\\', c] else [c]) =
      some ⟨items, element ++ s, .quoted⟩ := by
  induction s generalizing element with
  | nil =>
    rw [List.append_nil]
    rfl
  | cons c s ih =>
    have hfirst : feed ⟨items, element, .quoted⟩
        (if c = '"' ∨ c = '\\' then ['\\', c] else [c]) = some ⟨items, element ++ [c], .quoted⟩ := by
      split
      case isTrue => rfl
      case isFalse hc =>
        obtain ⟨hquote, hslash⟩ := not_or.mp hc
        simp [feed, step, quotedStep, hquote, hslash]
    rw [List.flatMap_cons, feed_append, hfirst, Option.bind_some, ih, List.append_assoc,
      List.singleton_append]

/-- The reader comes to the closing quote of an element with the whole element, and not before. -/
theorem feed_quotedElement (h : phase = .opened ∨ phase = .next) (s : List Char) :
    feed ⟨items, element, phase⟩ (quotedElement s) = some ⟨items, s, .ended⟩ := by
  have hopen : step ⟨items, element, phase⟩ '"' = some ⟨items, [], .quoted⟩ := by
    rcases h with rfl | rfl
    · rfl
    · rfl
  rw [quotedElement, feed, hopen, Option.bind_some, feed_append, feed_escaped, List.nil_append]
  rfl

/-- Elements with commas between them are read in order up to the closing brace. -/
theorem feed_commaJoin (h : phase = .opened ∨ phase = .next) (s : List Char)
    (r : List (List Char)) :
    feed ⟨items, element, phase⟩ (commaJoin ((s :: r).map quotedElement) ++ ['\x7d']) =
      some ⟨items ++ (s :: r).map some, [], .closed⟩ := by
  induction r generalizing items element phase s with
  | nil =>
    show feed _ (quotedElement s ++ ['\x7d']) = _
    rw [feed_append, feed_quotedElement h]
    rfl
  | cons t r ih =>
    have hcomma : feed ⟨items, s, .ended⟩ [','] = some ⟨items ++ [some s], [], .next⟩ := rfl
    have hjoin : commaJoin ((s :: t :: r).map quotedElement) ++ ['\x7d'] =
        quotedElement s ++ ([','] ++ (commaJoin ((t :: r).map quotedElement) ++ ['\x7d'])) :=
      List.append_assoc _ _ _
    rw [hjoin, feed_append, feed_quotedElement h, Option.bind_some, feed_append, hcomma,
      Option.bind_some, ih (Or.inr rfl), List.append_assoc]
    rfl

/-- Nothing is read behind the closing brace. -/
theorem feed_closed {s : List Char} (hs : s ≠ []) : feed ⟨items, element, .closed⟩ s = none := by
  cases s with
  | nil => exact absurd rfl hs
  | cons c s => rfl

end ArrayReading

/-! ### Reading arrays -/

theorem readArray?_textArray (items : List (List Char)) :
    readArray? (textArray items) = some (items.map some) := by
  cases items with
  | nil => rfl
  | cons s r =>
    have hopen : ArrayReading.begin.step '\x7b' = some ⟨[], [], .opened⟩ := rfl
    rw [readArray?, textArray, braced, ArrayReading.feed, hopen, Option.bind_some,
      ArrayReading.feed_commaJoin (Or.inl rfl)]
    rfl

/-- An array ends at its closing brace: with more behind it, it is no array. -/
theorem readArray?_append {s t : List Char} {items : List (Option (List Char))}
    (hs : readArray? s = some items) (ht : t ≠ []) : readArray? (s ++ t) = none := by
  obtain ⟨⟨read, element, phase⟩, hfeed, hfinish⟩ := Option.bind_eq_some_iff.mp hs
  have hclosed : phase = .closed := by
    by_contra hopen
    rw [ArrayReading.finish, if_neg hopen] at hfinish
    cases hfinish
  rw [readArray?, ArrayReading.feed_append, hfeed, Option.bind_some, hclosed,
    ArrayReading.feed_closed ht]
  rfl

theorem textArray_inj {items others : List (List Char)} :
    textArray items = textArray others ↔ items = others := by
  constructor
  · intro h
    have hread := readArray?_textArray items
    rw [h, readArray?_textArray, Option.some.injEq] at hread
    exact (List.map_injective_iff.mpr (fun _ _ => Option.some.inj) hread).symm
  · rintro rfl
    rfl

/-! ### Arrays of servers -/

namespace Postgres

/-- The cell of an array of texts; the empty array has no dimension. -/
def textCell (items : List String) : Cell :=
  .array (if items.isEmpty then 0 else 1) 1
    (items.map fun s => .bytes (Text.encode s.toList))

theorem plainItems?_textCell (items : List String) :
    plainItems? (textCell items) =
      some (items.map fun s => .bytes (Text.encode s.toList)) := by
  cases items with
  | nil => rfl
  | cons s r => rfl

theorem mapM_elementText? (items : List String) :
    (items.map fun s => Datum.bytes (Text.encode s.toList)).mapM elementText? =
      some (items.map String.toList) := by
  induction items with
  | nil => rfl
  | cons s r ih =>
    have hfirst : elementText? (.bytes (Text.encode s.toList)) = some s.toList :=
      Text.decode_encode s.toList
    rw [List.map_cons, List.mapM_cons, hfirst, ih]
    rfl

end Postgres

/-- What holds of the text of an array of texts. -/
structure ArrayLaw (items : List String) : Prop where
  /-- A column of arrays of texts has this text for its value. -/
  value : ∀ typeName ∈ ["TEXT[]", "VARCHAR[]"],
    Dialect.postgres.value typeName (Postgres.textCell items) =
      .text (String.ofList (textArray (items.map String.toList)))
  /-- It is read back as these texts, none of which is missing. -/
  read : readArray? (textArray (items.map String.toList)) =
    some (items.map fun s => some s.toList)
  /-- It is read to its last character and not further. -/
  whole : ∀ s t, s ++ t = textArray (items.map String.toList) → t ≠ [] → readArray? s = none
  ended : ∀ t, t ≠ [] → readArray? (textArray (items.map String.toList) ++ t) = none
  /-- No other list has this text. -/
  distinct : ∀ others : List String,
    textArray (others.map String.toList) = textArray (items.map String.toList) → others = items
  /-- Backslashes are escaped before quotes are. -/
  escapes : textArray (items.map String.toList) = braced (items.map fun s =>
    '"' :: (escapeEach '"' (escapeEach '\\' s.toList) ++ ['"']))

/-- **Arrays of texts are written without ambiguity**, whatever the texts are made of and however
many there are. -/
theorem arrayLaw_of_texts (items : List String) : ArrayLaw items where
  value typeName htype := by
    have hvalue : Postgres.cellValue? .textArray (Postgres.textCell items) =
        some (.text (String.ofList (textArray (items.map String.toList)))) := by
      show (plainItems? (Postgres.textCell items)).bind (Postgres.arrayValue? .textArray) = _
      rw [Postgres.plainItems?_textCell, Option.bind_some, Postgres.arrayValue?,
        Postgres.mapM_elementText?]
      rfl
    have hknown : Postgres.ColumnType.ofName typeName = .textArray := by
      rcases List.mem_pair.mp htype with rfl | rfl
      · rfl
      · rfl
    show ((Postgres.cellValue? (.ofName typeName) (Postgres.textCell items)).getD .null) = _
    rw [hknown, hvalue, Option.getD_some]
  read := by rw [readArray?_textArray, List.map_map]; rfl
  whole s t h ht := by
    by_contra hread
    obtain ⟨others, hothers⟩ := Option.ne_none_iff_exists'.mp hread
    have hnone := readArray?_append hothers ht
    rw [h, readArray?_textArray] at hnone
    cases hnone
  ended t ht := readArray?_append (readArray?_textArray _) ht
  distinct others h := by
    exact List.map_injective_iff.mpr (fun _ _ => String.toList_injective) (textArray_inj.mp h)
  escapes := by
    rw [textArray, List.map_map]
    exact congrArg braced (List.map_congr_left fun s _ => quotedElement_eq s.toList)

end TableAccess.Server
