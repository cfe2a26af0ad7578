import TableAccess.Proofs.Date.Hyphenated
import TableAccess.Proofs.Json.Fields
import TableAccess.Row.Json

/-!
# Reading written rows

A value is written as a record of its kind and its content, a cell as one of its column and its
value, and a row as one of its cells.  Each of these is read as it was written, with any texts and
any dates in it.  A floating point number is left out here: one that is not finite has no text, and
the reader of numbers may come out beside the one that was written.
-/

namespace TableAccess

open TableAccess.Json (Reads ReadsMember)

/-- The value is a floating point number. -/
def Value.isFloat : Value → Bool
  | .float _ => true
  | _ => false

/-! ### Values -/

namespace Value

theorem reads_kind (name : String) :
    Reads kindReader (Json.string name).compact (some (.kind name)) := by
  have hchoice : Reads Json.choiceReader (Json.string name).compact (some name) := by
    intro rest hrest
    have hstring : Json.startsWith '"' ((Json.string name).compact ++ rest) = true := rfl
    rw [Json.choiceReader, if_pos hstring]
    exact ((Json.reads_string_compact name Json.maxDepth).map? _) rest hrest
  exact hchoice.map? _

theorem reads_content {v : Json}
    (h : Reads (Json.readValue .strict Json.maxDepth) v.compact (some v)) :
    Reads contentReader v.compact (some (.content v)) := h.map? _

/-- The content is read as it was written. -/
theorem reads_content?_of_not_float {v : Value} (hv : v.isFloat = false) {content : Json}
    (hcontent : v.content? = some content) :
    Reads contentReader content.compact (some (.content content)) := by
  apply reads_content
  cases v with
  | null => cases hcontent
  | float x => cases hv
  | integer i =>
    cases hcontent
    exact Json.reads_integer (Json.fitsWord_toInt i) Json.maxDepth
  | text s =>
    cases hcontent
    exact Json.reads_string_compact s Json.maxDepth
  | date d =>
    cases hcontent
    exact Json.reads_string_compact (String.ofList d.text) Json.maxDepth

/-- The kind and the content of a value make the value. -/
theorem ofContent?_of_not_float {v : Value} (hv : v.isFloat = false) :
    ofContent? v.kindName v.content? = some v := by
  cases v with
  | null => rfl
  | float x => cases hv
  | integer i =>
    show (Number.toInt64? i.toInt).map Value.integer = some (.integer i)
    rw [Number.toInt64?_toInt]
    rfl
  | text s => rfl
  | date d =>
    show (Date.read? .spaced (String.ofList d.text).toList).map Value.date = some (.date d)
    rw [String.toList_ofList, Date.read?_spaced_text]
    rfl

theorem reads_reader {v : Value} (hv : v.isFloat = false) :
    Reads reader v.toJson.compact (some v) := by
  have hkind : ReadsMember fieldReader? ("type", .string v.kindName) (.kind v.kindName) :=
    ⟨kindReader, rfl, reads_kind v.kindName⟩
  have hvalue := ofContent?_of_not_float hv
  rw [toJson]
  cases hcontent : v.content? with
  | none =>
    rw [hcontent] at hvalue
    exact Json.reads_record (.cons hkind .nil) hvalue
  | some content =>
    have hmember : ReadsMember fieldReader? ("value", content) (.content content) :=
      ⟨contentReader, rfl, reads_content?_of_not_float hv hcontent⟩
    rw [hcontent] at hvalue
    exact Json.reads_record (.cons hkind (.cons hmember .nil)) hvalue

end Value

/-! ### Cells -/

namespace Cell

theorem reads_reader {c : Cell} (hc : c.value.isFloat = false) :
    Reads reader c.toJson.compact (some c) := by
  have hcolumn : ReadsMember fieldReader? ("column", .string c.column) (.column c.column) :=
    ⟨columnReader, rfl, ((Json.reads_string_compact c.column Json.maxDepth).map? _).map? _⟩
  have hvalue : ReadsMember fieldReader? ("value", c.value.toJson) (.value c.value) :=
    ⟨valueReader, rfl, (Value.reads_reader hc).map? _⟩
  exact Json.reads_record (.cons hcolumn (.cons hvalue .nil)) rfl

/-- Blanks in front of a cell are passed over. -/
theorem reader_congr {s t : List Char} (h : Json.skipSpace s = Json.skipSpace t) :
    reader s = reader t := by
  have hplaces : Json.readPlaces [columnReader, valueReader] s =
      Json.readPlaces [columnReader, valueReader] t := Json.readPlaces_congr h
  have hfields : Json.readFields fieldReader? s = Json.readFields fieldReader? t :=
    Json.readFields_congr h
  rw [reader, reader, Json.startsWith, Json.startsWith, h, Json.Reader.map?_congr hplaces,
    Json.Reader.map?_congr hfields]

end Cell

/-! ### Rows -/

namespace Row

variable {r : Row}

/-- The cells are read one by one, in their order. -/
theorem reads_cells {cells : List Cell} (hcells : ∀ c ∈ cells, c.value.isFloat = false) :
    Reads cellsReader (Json.array (cells.map Cell.toJson)).compact (some cells) := by
  apply Json.reads_of_eq
  intro rest _
  have hentries : ∀ e ∈ cells.map fun c => (c.toJson.compact, some c),
      Reads Cell.reader e.1 e.2 ∧
        ∀ rest, ∃ c r, Json.skipSpace (e.1 ++ rest) = c :: r ∧ c ≠ ']' := by
    intro e he
    obtain ⟨c, hc, rfl⟩ := List.mem_map.mp he
    exact ⟨Cell.reads_reader (hcells c hc), fun rest => ⟨'\x7b', _, rfl, by decide⟩⟩
  have hread := Json.readSequence_texts ']' (by decide) (by decide)
    (Json.endsNumber_close (Or.inl rfl)) (fun e he => (hentries e he).1)
    (fun e he => (hentries e he).2) (fun _ _ h => Cell.reader_congr h) Json.spaces_nil rest
  have htexts : (cells.map fun c => (c.toJson.compact, some c)).map Prod.fst =
      (cells.map Cell.toJson).map Json.compact := by
    rw [List.map_map, List.map_map]
    rfl
  show Json.readSequence Cell.reader ']'
    (Json.compactItems (cells.map Cell.toJson) ++ [']'] ++ rest) = _
  rw [htexts, Json.mapM_entries, List.nil_append] at hread
  rw [Json.compactItems_eq, List.append_assoc, List.singleton_append, hread]

theorem reads_reader (hr : ∀ v ∈ r.values, v.isFloat = false) :
    Reads reader r.toJson.compact (some r) := by
  have hcells : ∀ c ∈ r.cells, c.value.isFloat = false := by
    intro c hc
    exact hr c.value (List.mem_map_of_mem hc)
  have hmember : ReadsMember fieldReader? ("cells", .array (r.cells.map Cell.toJson)) r.cells :=
    ⟨cellsReader, rfl, reads_cells hcells⟩
  exact Json.reads_record (.cons hmember .nil) rfl

end Row

/-- **Values and rows read back from their texts**, with any columns, texts, whole numbers and
dates. -/
theorem ofJsonText_jsonText :
    (∀ v : Value, v.isFloat = false → Value.ofJsonText? v.jsonText = some v) ∧
      ∀ r : Row, (∀ v ∈ r.values, v.isFloat = false) → Row.ofJsonText? r.jsonText = some r := by
  constructor
  · intro v hv
    rw [Value.ofJsonText?, Value.jsonText, String.toList_ofList]
    exact Json.atEnd?_of_reads (Value.reads_reader hv)
  · intro r hr
    rw [Row.ofJsonText?, Row.jsonText, String.toList_ofList]
    exact Json.atEnd?_of_reads (Row.reads_reader hr)

/-- A row of the first and the last day, with a column twice and marks of JSON in texts. -/
def oddRow : Row :=
  ⟨[⟨"a", .null⟩, ⟨"a", .integer (-9223372036854775808)⟩,
    ⟨"\"", .text "\\u0041\x7d,\n"⟩, ⟨"first", .date ⟨-262143, 1, 1, rfl⟩⟩,
    ⟨"last", .date ⟨262142, 12, 31, rfl⟩⟩]⟩

/-- It reads back, and so does its last value. -/
theorem ofJsonText_jsonText_oddRow :
    (∀ v ∈ oddRow.values, v.isFloat = false) ∧ Row.ofJsonText? oddRow.jsonText = some oddRow ∧
      (Value.date ⟨262142, 12, 31, rfl⟩).isFloat = false ∧
      (Value.date ⟨262142, 12, 31, rfl⟩).jsonText =
        "\x7b\"type\":\"Date\",\"value\":\"+262142-12-31\"\x7d" ∧
      Value.ofJsonText? (Value.date ⟨262142, 12, 31, rfl⟩).jsonText =
        some (.date ⟨262142, 12, 31, rfl⟩) := by
  have hrow : ∀ v ∈ oddRow.values, v.isFloat = false := by decide
  exact ⟨hrow, ofJsonText_jsonText.2 oddRow hrow, rfl, by decide +kernel,
    ofJsonText_jsonText.1 _ rfl⟩

end TableAccess
