import TableAccess.Csv
import TableAccess.Proofs.Text.Utf8

/-!
# Reading records back

A reader of comma-separated values, written after the grammar of the format and not after the
writer, goes over the text one character at a time.  A line feed outside quotes ends a record, a
line without characters is no record, and inside quotes two quotes stand for one.  Quotes inside
a bare field, carriage returns outside quotes and text behind a closing quote are refused, so
what it reads cannot be read in another way.  Whatever the writer puts out of records of one
width is read back as these records.
-/

namespace TableAccess.Csv

/-! ### The reader -/

/-- Where a reader stands. -/
inductive Phase where
  /-- Before the first character of a line. -/
  | lineStart
  /-- Before the first character of a field after a comma. -/
  | fieldStart
  /-- In a field without quotes. -/
  | bare
  /-- Between the quotes of a field. -/
  | quoted
  /-- Behind a quote between the quotes: it closes the field, or it is the first of two. -/
  | afterQuote
deriving DecidableEq

/-- What a reader has: the records before this line, the fields before this one, the characters
of this field, and where it stands. -/
structure Reading where
  records : List (List (List Char))
  fields : List (List Char)
  field : List Char
  phase : Phase

namespace Reading

def begin : Reading := ⟨[], [], [], .lineStart⟩

def endField (r : Reading) : Reading := ⟨r.records, r.fields ++ [r.field], [], .fieldStart⟩

def endRecord (r : Reading) : Reading :=
  ⟨r.records ++ [r.fields ++ [r.field]], [], [], .lineStart⟩

/-- A character of a field without quotes, or behind it. -/
def bareStep (r : Reading) (c : Char) : Option Reading :=
  if c = ',' then some r.endField
  else if c = '\n' then some r.endRecord
  else if c = '"' ∨ c = '\r' then none
  else some ⟨r.records, r.fields, r.field ++ [c], .bare⟩

/-- The first character of a field, or one behind an empty field. -/
def startStep (r : Reading) (c : Char) : Option Reading :=
  if c = '"' then some ⟨r.records, r.fields, r.field, .quoted⟩ else r.bareStep c

def quotedStep (r : Reading) (c : Char) : Reading :=
  if c = '"' then ⟨r.records, r.fields, r.field, .afterQuote⟩
  else ⟨r.records, r.fields, r.field ++ [c], .quoted⟩

def afterQuoteStep (r : Reading) (c : Char) : Option Reading :=
  if c = '"' then some ⟨r.records, r.fields, r.field ++ ['"'], .quoted⟩
  else if c = ',' then some r.endField
  else if c = '\n' then some r.endRecord
  else none

/-- Take a character. -/
def step (r : Reading) (c : Char) : Option Reading :=
  match r.phase with
  | .lineStart => if c = '\n' then some r else r.startStep c
  | .fieldStart => r.startStep c
  | .bare => r.bareStep c
  | .quoted => some (r.quotedStep c)
  | .afterQuote => r.afterQuoteStep c

/-- Take characters one after the other. -/
def feed (r : Reading) : List Char → Option Reading
  | [] => some r
  | c :: s => (r.step c).bind fun r => r.feed s

/-- The records at the end of the text; the last line need not be ended. -/
def finish (r : Reading) : Option (List (List (List Char))) :=
  match r.phase with
  | .lineStart => some r.records
  | .quoted => none
  | _ => some r.endRecord.records

end Reading

/-- The records of a text. -/
def readText (s : List Char) : Option (List (List (List Char))) :=
  (Reading.begin.feed s).bind Reading.finish

/-- The records in the bytes of a file. -/
def readBytes (bytes : List UInt8) : Option (List (List String)) :=
  ((Text.decode? bytes).bind readText).map fun records => records.map (List.map String.ofList)

/-! ### Fields -/

namespace Reading

variable {records : List (List (List Char))} {fields : List (List Char)} {field : List Char}

theorem feed_append (r : Reading) (s t : List Char) :
    r.feed (s ++ t) = (r.feed s).bind fun r => r.feed t := by
  induction s generalizing r with
  | nil => rfl
  | cons c s ih =>
    show (r.step c).bind (fun r => r.feed (s ++ t)) = _
    simp only [ih, feed, Option.bind_assoc]

/-- Characters that need no quotes are taken as they are. -/
theorem feed_bare {s : List Char} (h : ∀ c ∈ s, isSpecial c = false) (field : List Char) :
    feed ⟨records, fields, field, .bare⟩ s = some ⟨records, fields, field ++ s, .bare⟩ := by
  induction s generalizing field with
  | nil => simp [feed]
  | cons c s ih =>
    obtain ⟨hc, hs⟩ := List.forall_mem_cons.mp h
    have hstep : step ⟨records, fields, field, .bare⟩ c =
        some ⟨records, fields, field ++ [c], .bare⟩ := by
      simp only [isSpecial, Bool.or_eq_false_iff, beq_eq_false_iff_ne] at hc
      simp [step, bareStep, hc]
    rw [feed, hstep, Option.bind_some, ih hs, List.append_assoc, List.singleton_append]

/-- Between quotes the doubled quotes of a text are taken as its quotes. -/
theorem feed_doubleQuotes (s field : List Char) :
    feed ⟨records, fields, field, .quoted⟩ (doubleQuotes s) =
      some ⟨records, fields, field ++ s, .quoted⟩ := by
  induction s generalizing field with
  | nil => simp [doubleQuotes, feed]
  | cons c s ih =>
    have hcons : doubleQuotes (c :: s) = (if c = '"' then ['"', '"'] else [c]) ++ doubleQuotes s :=
      rfl
    by_cases hc : c = '"'
    · subst hc
      rw [hcons, if_pos rfl, feed_append]
      show feed ⟨records, fields, field ++ ['"'], .quoted⟩ (doubleQuotes s) = _
      rw [ih, List.append_assoc, List.singleton_append]
    · rw [hcons, if_neg hc, feed_append]
      have hstep : feed ⟨records, fields, field, .quoted⟩ [c] =
          some ⟨records, fields, field ++ [c], .quoted⟩ := by simp [feed, step, quotedStep, hc]
      rw [hstep, Option.bind_some, ih, List.append_assoc, List.singleton_append]

/-- A written field is taken as its text.  The reader then stands at a place where a field may
end, and it stands at the start of the line only if it took nothing there. -/
theorem feed_fieldText (records : List (List (List Char))) (fields : List (List Char))
    (s : List Char) {phase : Phase} (hphase : phase = .lineStart ∨ phase = .fieldStart) :
    ∃ after, feed ⟨records, fields, [], phase⟩ (fieldText s) = some ⟨records, fields, s, after⟩ ∧
      after ≠ .quoted ∧ (after = .lineStart → phase = .lineStart ∧ s = []) := by
  by_cases hspecial : s.any isSpecial = true
  · -- the field stands between quotes
    have hopen : step ⟨records, fields, [], phase⟩ '"' =
        some ⟨records, fields, [], .quoted⟩ := by
      rcases hphase with rfl | rfl
      · rfl
      · rfl
    refine ⟨.afterQuote, ?_, by decide, ?_⟩
    · rw [fieldText, if_pos hspecial, feed, hopen, Option.bind_some, feed_append,
        feed_doubleQuotes]
      rfl
    · intro h
      cases h
  · have hplain : ∀ c ∈ s, isSpecial c = false := by simpa using hspecial
    rw [fieldText, if_neg hspecial]
    cases s with
    | nil =>
      refine ⟨phase, rfl, ?_, fun h => ⟨h, rfl⟩⟩
      rcases hphase with rfl | rfl
      · decide
      · decide
    | cons c s =>
      obtain ⟨hc, hs⟩ := List.forall_mem_cons.mp hplain
      have hfirst : step ⟨records, fields, [], phase⟩ c =
          some ⟨records, fields, [c], .bare⟩ := by
        simp only [isSpecial, Bool.or_eq_false_iff, beq_eq_false_iff_ne] at hc
        rcases hphase with rfl | rfl
        · simp [step, startStep, bareStep, hc]
        · simp [step, startStep, bareStep, hc]
      refine ⟨.bare, ?_, by decide, ?_⟩
      · rw [feed, hfirst, Option.bind_some, feed_bare hs]
        rfl
      · intro h
        cases h

/-- A comma ends the field wherever a field may end. -/
theorem step_comma {phase : Phase} (h : phase ≠ .quoted) :
    step ⟨records, fields, field, phase⟩ ',' = some ⟨records, fields ++ [field], [], .fieldStart⟩ := by
  cases phase with
  | quoted => exact absurd rfl h
  | lineStart => rfl
  | fieldStart => rfl
  | bare => rfl
  | afterQuote => rfl

/-- A line feed ends the record wherever a field may end, but it only skips an empty line. -/
theorem step_lineFeed {phase : Phase} (h : phase ≠ .quoted) (hline : phase ≠ .lineStart) :
    step ⟨records, fields, field, phase⟩ '\n' =
      some ⟨records ++ [fields ++ [field]], [], [], .lineStart⟩ := by
  cases phase with
  | quoted => exact absurd rfl h
  | lineStart => exact absurd rfl hline
  | fieldStart => rfl
  | bare => rfl
  | afterQuote => rfl

/-! ### Records -/

/-- Joined fields with a line feed behind them are taken as one record, unless they leave the
line empty. -/
theorem feed_joinFields {new : List (List Char)} (hne : new ≠ []) {phase : Phase}
    (hphase : phase = .fieldStart ∨ phase = .lineStart ∧ new ≠ [[]]) :
    feed ⟨records, fields, [], phase⟩ (joinFields new ++ ['\n']) =
      some ⟨records ++ [fields ++ new], [], [], .lineStart⟩ := by
  induction new generalizing fields phase with
  | nil => exact absurd rfl hne
  | cons s new ih =>
    have hstart : phase = .lineStart ∨ phase = .fieldStart := by
      rcases hphase with h | ⟨h, -⟩
      · exact Or.inr h
      · exact Or.inl h
    obtain ⟨after, hfeed, hquoted, hline⟩ := feed_fieldText records fields s hstart
    cases new with
    | nil =>
      have hended : after ≠ .lineStart := by
        intro h
        obtain ⟨hphase', rfl⟩ := hline h
        rcases hphase with h | ⟨-, h⟩
        · rw [hphase'] at h
          cases h
        · exact h rfl
      show feed _ (fieldText s ++ ['\n']) = _
      rw [feed_append, hfeed, Option.bind_some, feed, step_lineFeed hquoted hended]
      rfl
    | cons t new =>
      have hrest : feed ⟨records, fields ++ [s], [], .fieldStart⟩
          (joinFields (t :: new) ++ ['\n']) =
            some ⟨records ++ [fields ++ [s] ++ t :: new], [], [], .lineStart⟩ :=
        ih (List.cons_ne_nil t new) (Or.inl rfl)
      show feed _ (fieldText s ++ ',' :: joinFields (t :: new) ++ ['\n']) = _
      rw [List.append_assoc, feed_append, hfeed, Option.bind_some, List.cons_append, feed,
        step_comma hquoted, Option.bind_some, hrest, List.append_assoc, List.singleton_append]

theorem fieldText_eq_nil_iff {s : List Char} : fieldText s = [] ↔ s = [] := by
  rw [fieldText]
  split
  case isTrue h =>
    constructor
    · intro hnil
      cases hnil
    · rintro rfl
      cases h
  case isFalse => rfl

/-- Only a record without fields, or with one empty field, leaves its line empty. -/
theorem joinFields_eq_nil_iff {new : List (List Char)} (hne : new ≠ []) :
    joinFields new = [] ↔ new = [[]] := by
  cases new with
  | nil => exact absurd rfl hne
  | cons s new =>
    cases new with
    | nil => simp [joinFields, fieldText_eq_nil_iff]
    | cons t new => simp [joinFields]

/-- A written record is taken as its fields. -/
theorem feed_recordText {new : List (List Char)} (hne : new ≠ []) :
    feed ⟨records, [], [], .lineStart⟩ (recordText new) =
      some ⟨records ++ [new], [], [], .lineStart⟩ := by
  by_cases hempty : new = [[]]
  · rw [hempty]
    rfl
  · have hjoined : joinFields new ≠ [] := fun h => hempty ((joinFields_eq_nil_iff hne).mp h)
    have htext : recordText new = joinFields new ++ ['\n'] := by
      unfold recordText
      split
      case h_1 h => exact absurd h hjoined
      case h_2 => rfl
    rw [htext, feed_joinFields hne (Or.inr ⟨rfl, hempty⟩)]
    rfl

/-- Written records of one width are taken one by one. -/
theorem feed_recordsText {width : Nat} (hwidth : 0 < width) {new : List (List (List Char))}
    (h : ∀ fields ∈ new, fields.length = width) :
    feed ⟨records, [], [], .lineStart⟩ (recordsText width new).text =
      some ⟨records ++ new, [], [], .lineStart⟩ := by
  induction new generalizing records with
  | nil => simp [recordsText, feed]
  | cons fields new ih =>
    obtain ⟨hfields, hnew⟩ := List.forall_mem_cons.mp h
    have hne : fields ≠ [] := by
      rintro rfl
      rw [← hfields] at hwidth
      exact absurd hwidth (Nat.lt_irrefl 0)
    have hrest : feed ⟨records ++ [fields], [], [], .lineStart⟩ (recordsText width new).text =
        some ⟨records ++ [fields] ++ new, [], [], .lineStart⟩ := ih hnew
    rw [recordsText, if_pos hfields]
    show feed _ (recordText fields ++ (recordsText width new).text) = _
    rw [feed_append, feed_recordText hne, Option.bind_some, hrest, List.append_assoc,
      List.singleton_append]

end Reading

/-! ### Results -/

theorem problem_recordsText {width : Nat} {new : List (List (List Char))}
    (h : ∀ fields ∈ new, fields.length = width) : (recordsText width new).problem = none := by
  induction new with
  | nil => rfl
  | cons fields new ih =>
    obtain ⟨hfields, hnew⟩ := List.forall_mem_cons.mp h
    rw [recordsText, if_pos hfields]
    exact ih hnew

/-- The fields of the rows of a result. -/
def rowFields (result : Result) : List (List (List Char)) :=
  result.rows.map fun row => row.values.map Value.fieldText

theorem length_of_mem_rowFields {result : Result}
    (h : ∀ row ∈ result.rows, row.size = result.columns.length) :
    ∀ fields ∈ rowFields result, fields.length = (result.columns.map String.toList).length := by
  intro fields hfields
  obtain ⟨row, hrow, rfl⟩ := List.mem_map.mp hfields
  have hsize := h row hrow
  rw [Row.size] at hsize
  simpa [Row.values] using hsize

/-- A result whose rows have a cell for each column is written as a whole. -/
theorem problem_output {result : Result}
    (h : ∀ row ∈ result.rows, row.size = result.columns.length) :
    (output result).problem = none := problem_recordsText (length_of_mem_rowFields h)

/-- The text of a result is read back as its columns and the fields of its rows. -/
theorem readText_output {result : Result} (hcolumns : result.columns ≠ [])
    (hrows : ∀ row ∈ result.rows, row.size = result.columns.length) :
    readText (output result).text =
      some (result.columns.map String.toList :: rowFields result) := by
  have hne : result.columns.map String.toList ≠ [] := by simpa using hcolumns
  have hheader : Reading.begin.feed (recordText (result.columns.map String.toList)) =
      some ⟨[result.columns.map String.toList], [], [], .lineStart⟩ :=
    Reading.feed_recordText hne
  have hbody : Reading.feed ⟨[result.columns.map String.toList], [], [], .lineStart⟩
      (recordsText (result.columns.map String.toList).length (rowFields result)).text =
        some ⟨[result.columns.map String.toList] ++ rowFields result, [], [], .lineStart⟩ :=
    Reading.feed_recordsText (List.length_pos_iff.mpr hne) (length_of_mem_rowFields hrows)
  show (Reading.begin.feed (recordText (result.columns.map String.toList) ++
    (recordsText (result.columns.map String.toList).length (rowFields result)).text)).bind
      Reading.finish = _
  rw [Reading.feed_append, hheader, Option.bind_some, hbody]
  rfl

/-- The bytes of a result are read back as the names of its columns and the texts of its values. -/
theorem readBytes_bytes {result : Result} (hcolumns : result.columns ≠ [])
    (hrows : ∀ row ∈ result.rows, row.size = result.columns.length) :
    readBytes (bytes (output result).text) =
      some (result.columns :: result.rows.map fun row => row.values.map Value.field) := by
  have hread := readText_output hcolumns hrows
  have hheader : (result.columns.map String.toList).map String.ofList = result.columns := by
    simp [List.map_map, Function.comp_def]
  have hbody : (rowFields result).map (List.map String.ofList) =
      result.rows.map fun row => row.values.map Value.field := by
    rw [rowFields, List.map_map]
    refine List.map_congr_left fun row _ => ?_
    show (row.values.map Value.fieldText).map String.ofList = _
    rw [List.map_map]
    rfl
  rw [readBytes, bytes, Text.decode_encode, Option.bind_some, hread, Option.map_some,
    List.map_cons, hheader, hbody]

/-- **An export reads back exactly.**  A result with at least one column, whose rows have a cell
for each column, is written as a whole.  A reader of records finds the names of the columns and
then, for each row in order, the texts of its values, whatever characters they hold. -/
theorem readBytes_output (result : Result) (hcolumns : result.columns ≠ [])
    (hrows : ∀ row ∈ result.rows, row.size = result.columns.length) :
    written result = .ok result.rows.length ∧
      readBytes (bytes (output result).text) =
        some (result.columns :: result.rows.map fun row => row.values.map Value.field) := by
  constructor
  · have hproblem : (output result).problem = none :=
      problem_recordsText (length_of_mem_rowFields hrows)
    rw [written, hproblem]
  · exact readBytes_bytes hcolumns hrows

/-- A column without a name, and values that are empty, a quote or a line of their own. -/
def single : Result :=
  ⟨[""], [⟨[⟨"", .null⟩]⟩, ⟨[⟨"", .text "\""⟩]⟩, ⟨[⟨"", .text "a,\r\nb"⟩]⟩]⟩

theorem readBytes_single :
    single.columns ≠ [] ∧ (∀ row ∈ single.rows, row.size = single.columns.length) ∧
      String.ofList (output single).text = "\"\"\n\"\"\n\"\"\"\"\n\"a,\r\nb\"\n" ∧
      written single = .ok 3 ∧
      readBytes (bytes (output single).text) = some [[""], [""], ["\""], ["a,\r\nb"]] := by
  have hcolumns : single.columns ≠ [] := by decide
  have hrows : ∀ row ∈ single.rows, row.size = single.columns.length := by decide
  obtain ⟨hwritten, hread⟩ := readBytes_output single hcolumns hrows
  refine ⟨hcolumns, hrows, rfl, hwritten, ?_⟩
  rw [hread]
  rfl

end TableAccess.Csv
