import TableAccess.Proofs.Document.Reader
import TableAccess.Proofs.Text.Utf8

/-!
# Which documents are accepted

Bytes are accepted exactly if they hold a JSON value that is a document.  Metadata and the members
of a table body that have no meaning can be put anywhere, and no number makes a document
unreadable: a reader that is given null in the place of each number accepts the same documents.
-/

namespace TableAccess.Document

variable {json : Json} {body members : List (String × Json)} {db : Database}

/-! ### What makes no difference -/

/-- The members of a table body that have a meaning. -/
def knownEntries (body : List (String × Json)) : List (String × Json) :=
  body.filter fun m => m.1 == "columns" || m.1 == "rows"

/-- The values are the same up to members of a table body that have no meaning. -/
inductive SameBody : Json → Json → Prop where
  | refl (json : Json) : SameBody json json
  | object {body body' : List (String × Json)} (h : knownEntries body = knownEntries body') :
      SameBody (.object body) (.object body')

/-- The values are the same up to metadata, and up to members of the table bodies that have no
meaning. -/
inductive SameTables : Json → Json → Prop where
  | refl (json : Json) : SameTables json json
  | object {members members' : List (String × Json)}
      (h : List.Forall₂ (fun m m' => m.1 = m'.1 ∧ SameBody m.2 m'.2) (tableEntries members)
        (tableEntries members')) :
      SameTables (.object members) (.object members')

theorem find?_knownEntries {key : String} (hkey : key = "columns" ∨ key = "rows")
    (body : List (String × Json)) : Json.find? key (knownEntries body) = Json.find? key body := by
  refine Json.find?_filter ?_ body
  intro v
  rcases hkey with rfl | rfl
  · rfl
  · rfl

theorem tableOf_congr {json' : Json} (h : SameBody json json') (name : String) :
    tableOf name json = tableOf name json' := by
  cases h with
  | refl => rfl
  | @object body body' hknown =>
    have hfind : ∀ key, key = "columns" ∨ key = "rows" →
        Json.find? key body = Json.find? key body' := by
      intro key hkey
      rw [← find?_knownEntries hkey body, ← find?_knownEntries hkey body', hknown]
    have hcolumns := hfind "columns" (Or.inl rfl)
    have hrows := hfind "rows" (Or.inr rfl)
    simp only [tableOf, columnsOf, rowsOf, hcolumns, hrows]

theorem tablesOf_congr {members' : List (String × Json)}
    (h : List.Forall₂ (fun m m' => m.1 = m'.1 ∧ SameBody m.2 m'.2) members members') :
    tablesOf members = tablesOf members' := by
  induction h with
  | nil => rfl
  | @cons m m' members members' hm _ ih =>
    obtain ⟨name, body⟩ := m
    obtain ⟨name', body'⟩ := m'
    obtain ⟨rfl, hbody⟩ := hm
    rw [tablesOf, tablesOf, tableOf_congr hbody, ih]

/-- Neither the database nor the problem depends on what has no meaning. -/
theorem ofJson_congr {json' : Json} (h : SameTables json json') : ofJson json = ofJson json' := by
  cases h with
  | refl => rfl
  | @object members members' hentries =>
    rw [ofJson, ofJson, ← tablesOf_tableEntries members, ← tablesOf_tableEntries members',
      tablesOf_congr hentries]

/-! ### Numbers -/

mutual

/-- The value with null in the place of every number. -/
def withoutNumbers : Json → Json
  | .null => .null
  | .bool b => .bool b
  | .number _ => .null
  | .string s => .string s
  | .array items => .array (itemsWithoutNumbers items)
  | .object members => .object (membersWithoutNumbers members)

def itemsWithoutNumbers : List Json → List Json
  | [] => []
  | v :: r => withoutNumbers v :: itemsWithoutNumbers r

def membersWithoutNumbers : List (String × Json) → List (String × Json)
  | [] => []
  | (key, v) :: r => (key, withoutNumbers v) :: membersWithoutNumbers r

end

theorem itemsWithoutNumbers_eq (items : List Json) :
    itemsWithoutNumbers items = items.map withoutNumbers := by
  induction items with
  | nil => rfl
  | cons v items ih => rw [itemsWithoutNumbers, ih, List.map_cons]

theorem membersWithoutNumbers_eq (members : List (String × Json)) :
    membersWithoutNumbers members = members.map fun m => (m.1, withoutNumbers m.2) := by
  induction members with
  | nil => rfl
  | cons m members ih =>
    obtain ⟨key, v⟩ := m
    rw [membersWithoutNumbers, ih, List.map_cons]

theorem withoutNumbers_eq_string_iff {s : String} :
    withoutNumbers json = .string s ↔ json = .string s := by
  cases json <;> simp [withoutNumbers]

theorem withoutNumbers_eq_array_iff {items : List Json} :
    withoutNumbers json = .array items ↔
      ∃ found, json = .array found ∧ found.map withoutNumbers = items := by
  cases json <;> simp [withoutNumbers, itemsWithoutNumbers_eq]

theorem withoutNumbers_eq_object_iff :
    withoutNumbers json = .object members ↔
      ∃ found, json = .object found ∧
        found.map (fun m => (m.1, withoutNumbers m.2)) = members := by
  cases json <;> simp [withoutNumbers, membersWithoutNumbers_eq]

theorem isScalar_withoutNumbers : IsScalar (withoutNumbers json) ↔ IsScalar json := by
  cases json <;> simp [withoutNumbers, IsScalar]

theorem map_withoutNumbers_eq_strings_iff {items : List Json} {names : List String} :
    items.map withoutNumbers = names.map .string ↔ items = names.map .string := by
  induction items generalizing names with
  | nil => simp [eq_comm]
  | cons item items ih =>
    cases names with
    | nil => simp
    | cons first names => simp [withoutNumbers_eq_string_iff, ih]

theorem map_withoutNumbers_eq_arrays_iff {items : List Json} {rows : List (List Json)} :
    items.map withoutNumbers = rows.map .array ↔
      ∃ found : List (List Json), items = found.map .array ∧
        found.map (List.map withoutNumbers) = rows := by
  induction items generalizing rows with
  | nil =>
    rw [List.map_nil]
    constructor
    · intro h
      exact ⟨[], rfl, (List.map_eq_nil_iff.mp h.symm).symm⟩
    · intro h
      obtain ⟨found, hfound, hrows⟩ := h
      rw [← hrows, List.map_eq_nil_iff.mp hfound.symm]
      rfl
  | cons item items ih =>
    constructor
    · intro h
      cases rows with
      | nil => cases h
      | cons row rows =>
        obtain ⟨hfirst, hrest⟩ := List.cons.inj h
        obtain ⟨cells, hitem, hcells⟩ := withoutNumbers_eq_array_iff.mp hfirst
        obtain ⟨found, hitems, hrows⟩ := ih.mp hrest
        exact ⟨cells :: found, by rw [hitem, hitems, List.map_cons],
          by rw [List.map_cons, hcells, hrows]⟩
    · intro h
      obtain ⟨found, hitems, hrows⟩ := h
      cases found with
      | nil => cases hitems
      | cons cells found =>
        obtain ⟨hitem, hrest⟩ := List.cons.inj hitems
        rw [← hrows, List.map_cons, List.map_cons, List.map_cons, ih.mpr ⟨found, hrest, rfl⟩]
        rw [withoutNumbers_eq_array_iff.mpr ⟨cells, hitem, rfl⟩]

theorem mem_map_withoutNumbers {key : String} :
    (key, json) ∈ body.map (fun m => (m.1, withoutNumbers m.2)) ↔
      ∃ v, (key, v) ∈ body ∧ withoutNumbers v = json := by
  rw [List.mem_map]
  constructor
  · intro h
    obtain ⟨m, hm, hsame⟩ := h
    obtain ⟨hkey, hvalue⟩ := Prod.mk.inj hsame
    exact ⟨m.2, hkey ▸ hm, hvalue⟩
  · intro h
    obtain ⟨v, hv, hsame⟩ := h
    exact ⟨(key, v), hv, by rw [hsame]⟩

theorem keys_map_withoutNumbers :
    (body.map fun m => (m.1, withoutNumbers m.2)).map Prod.fst = body.map Prod.fst := by
  rw [List.map_map]
  rfl

/-- Null in the place of numbers leaves a body a body. -/
theorem IsBody.withoutNumbers {columns : List String} {rows : List (List Json)}
    (h : IsBody body columns rows) :
    IsBody (body.map fun m => (m.1, Document.withoutNumbers m.2)) columns
      (rows.map (List.map Document.withoutNumbers)) := by
  refine ⟨?_, h.distinct, ?_, ?_, ?_⟩
  · apply mem_map_withoutNumbers.mpr
    refine ⟨_, h.columnsGiven, withoutNumbers_eq_array_iff.mpr ⟨_, rfl, ?_⟩⟩
    exact map_withoutNumbers_eq_strings_iff.mpr rfl
  · rw [keys_map_withoutNumbers]
    rcases h.rowsGiven with hrows | ⟨hnone, hrows⟩
    · apply Or.inl
      apply mem_map_withoutNumbers.mpr
      refine ⟨_, hrows, withoutNumbers_eq_array_iff.mpr ⟨_, rfl, ?_⟩⟩
      exact map_withoutNumbers_eq_arrays_iff.mpr ⟨rows, rfl, rfl⟩
    · exact Or.inr ⟨hnone, by rw [hrows, List.map_nil]⟩
  · rw [List.forall_mem_map]
    intro row hrow
    rw [List.length_map]
    exact h.widths row hrow
  · rw [List.forall_mem_map]
    intro row hrow
    rw [List.forall_mem_map]
    intro cell hcell
    exact isScalar_withoutNumbers.mpr (h.scalars row hrow cell hcell)

/-- A body that null in the place of numbers makes a body was one before. -/
theorem exists_isBody_of_withoutNumbers {columns : List String} {rows : List (List Json)}
    (h : IsBody (body.map fun m => (m.1, withoutNumbers m.2)) columns rows) :
    ∃ found, IsBody body columns found ∧ found.map (List.map withoutNumbers) = rows := by
  have hcolumns : ("columns", .array (columns.map .string)) ∈ body := by
    obtain ⟨v, hv, hsame⟩ := mem_map_withoutNumbers.mp h.columnsGiven
    obtain ⟨items, hitems, hnames⟩ := withoutNumbers_eq_array_iff.mp hsame
    rw [hitems, map_withoutNumbers_eq_strings_iff.mp hnames] at hv
    exact hv
  have hrows : ∃ found : List (List Json), (("rows", .array (found.map .array)) ∈ body ∨
      "rows" ∉ body.map Prod.fst ∧ found = []) ∧ found.map (List.map withoutNumbers) = rows := by
    have hgiven := h.rowsGiven
    rw [keys_map_withoutNumbers] at hgiven
    rcases hgiven with hrows | ⟨hnone, hrows⟩
    · obtain ⟨v, hv, hsame⟩ := mem_map_withoutNumbers.mp hrows
      obtain ⟨items, hitems, harrays⟩ := withoutNumbers_eq_array_iff.mp hsame
      obtain ⟨found, hfound, hmap⟩ := map_withoutNumbers_eq_arrays_iff.mp harrays
      rw [hitems, hfound] at hv
      exact ⟨found, Or.inl hv, hmap⟩
    · exact ⟨[], Or.inr ⟨hnone, rfl⟩, hrows.symm⟩
  obtain ⟨found, hgiven, hmap⟩ := hrows
  have hwidths := h.widths
  have hscalars := h.scalars
  rw [← hmap, List.forall_mem_map] at hwidths hscalars
  refine ⟨found, ⟨hcolumns, h.distinct, hgiven, ?_, ?_⟩, hmap⟩
  · intro row hrow
    rw [← hwidths row hrow, List.length_map]
  · intro row hrow cell hcell
    exact isScalar_withoutNumbers.mp (hscalars row hrow _ (List.mem_map_of_mem hcell))

theorem isTableBody_withoutNumbers : IsTableBody (withoutNumbers json) ↔ IsTableBody json := by
  constructor
  · intro h
    obtain ⟨_, columns, rows, hobject, hbody⟩ := h
    obtain ⟨body, hjson, rfl⟩ := withoutNumbers_eq_object_iff.mp hobject
    obtain ⟨found, hfound, -⟩ := exists_isBody_of_withoutNumbers hbody
    exact ⟨body, columns, found, hjson, hfound⟩
  · intro h
    obtain ⟨body, columns, rows, hjson, hbody⟩ := h
    exact ⟨_, columns, _, withoutNumbers_eq_object_iff.mpr ⟨body, hjson, rfl⟩,
      hbody.withoutNumbers⟩

/-- Whether a value is a document does not depend on its numbers: each could as well be null. -/
theorem isDocument_withoutNumbers : IsDocument (withoutNumbers json) ↔ IsDocument json := by
  constructor
  · intro h
    obtain ⟨_, hobject, hbodies⟩ := h
    obtain ⟨members, hjson, rfl⟩ := withoutNumbers_eq_object_iff.mp hobject
    rw [List.forall_mem_map] at hbodies
    refine ⟨members, hjson, fun m hm hname => ?_⟩
    exact isTableBody_withoutNumbers.mp (hbodies m hm hname)
  · intro h
    obtain ⟨members, hjson, hbodies⟩ := h
    refine ⟨_, withoutNumbers_eq_object_iff.mpr ⟨members, hjson, rfl⟩, ?_⟩
    rw [List.forall_mem_map]
    intro m hm hname
    exact isTableBody_withoutNumbers.mpr (hbodies m hm hname)

/-! ### The law of documents -/

/-- The bytes are reported as corrupt, with the path they came from. -/
def Refused (bytes : List UInt8) (origin : String) : Prop :=
  ∃ message, parse bytes origin = .error (.corrupt origin message)

theorem refused_of_ofBytes {bytes : List UInt8} {problem : Problem} (origin : String)
    (h : ofBytes bytes = .error problem) : Refused bytes origin := by
  refine ⟨problem.message, ?_⟩
  rw [parse, h]

/-- What a reader of documents does with bytes: those that hold no JSON value are refused, and those
that hold one are accepted exactly if it is a document, with the tables that it describes.  What has
no meaning makes no difference, and where a number is accepted does not depend on the number. -/
structure DocumentLaw (bytes : List UInt8) (origin : String) : Prop where
  keys : ∀ json, Json.ofBytes? bytes = some json → json.DistinctKeys
  unreadable : Json.ofBytes? bytes = none → Refused bytes origin
  accepted : ∀ json, Json.ofBytes? bytes = some json →
    ((∃ db, parse bytes origin = .ok db) ↔ IsDocument json)
  tables : ∀ json db, Json.ofBytes? bytes = some json →
    (parse bytes origin = .ok db ↔ Gives json db)
  refused : ∀ json, Json.ofBytes? bytes = some json → ¬ IsDocument json → Refused bytes origin
  irrelevant : ∀ bytes' json json', Json.ofBytes? bytes = some json →
    Json.ofBytes? bytes' = some json' → SameTables json json' →
    parse bytes' origin = parse bytes origin
  numbers : ∀ json, Json.ofBytes? bytes = some json →
    ((∃ db, parse bytes origin = .ok db) ↔ IsDocument (withoutNumbers json))

/-- **Which documents are accepted, and what they give**, for every list of bytes. -/
theorem documentLaw_of_bytes (bytes : List UInt8) (origin : String) :
    DocumentLaw bytes origin := by
  have haccepted : ∀ json, Json.ofBytes? bytes = some json →
      ((∃ db, parse bytes origin = .ok db) ↔ IsDocument json) := by
    intro json hjson
    simp only [parse_eq_ok_iff hjson, exists_gives_iff]
  constructor
  case keys =>
    intro json hjson
    exact Json.distinctKeys_of_ofBytes? hjson
  case unreadable =>
    intro hnone
    have hread : ofBytes bytes = .error .malformed := by rw [ofBytes, hnone]
    exact refused_of_ofBytes origin hread
  case accepted => exact haccepted
  case tables =>
    intro json db hjson
    exact parse_eq_ok_iff hjson
  case refused =>
    intro json hjson hno
    cases hread : ofBytes bytes with
    | error problem => exact refused_of_ofBytes origin hread
    | ok db =>
      have hparse : parse bytes origin = .ok db := by rw [parse, hread]
      exact absurd ((haccepted json hjson).mp ⟨db, hparse⟩) hno
  case irrelevant =>
    intro bytes' json json' hjson hjson' hsame
    rw [parse, parse, ofBytes_of_ofBytes? hjson, ofBytes_of_ofBytes? hjson', ofJson_congr hsame]
  case numbers =>
    intro json hjson
    rw [haccepted json hjson, isDocument_withoutNumbers]

/-- The body of a table with one row. -/
def sevenBody : List (String × Json) :=
  [("columns", .array [.string "x"]), ("rows", .array [.array [.number (.integer 7)]])]

/-- A document of that table. -/
def seven : List Char :=
  "\x7b\"A\":\x7b\"columns\":[\"x\"],\"rows\":[[7]]\x7d\x7d".toList

/-- The same with metadata and a member without a meaning. -/
def notedSeven : List Char :=
  ("\x7b\"$v\":[],\"A\":\x7b\"columns\":[\"x\"],\"rows\":true," ++
    "\"note\":null,\"rows\":[[7]]\x7d\x7d").toList

/-- Two columns have the same name. -/
def twins : List Char := "\x7b\"A\":\x7b\"columns\":[\"x\",\"x\"]\x7d\x7d".toList

theorem ofBytes?_seven :
    Json.ofBytes? (Text.encode seven) = some (.object [("A", .object sevenBody)]) := by
  rw [Json.ofBytes?, Text.decode_encode]
  rfl

theorem isBody_seven : IsBody sevenBody ["x"] [[.number (.integer 7)]] where
  columnsGiven := List.mem_cons_self
  distinct := by decide
  rowsGiven := Or.inl (List.mem_cons_of_mem _ List.mem_cons_self)
  widths := List.forall_mem_singleton.mpr rfl
  scalars := List.forall_mem_singleton.mpr (List.forall_mem_singleton.mpr trivial)

theorem documentLaw_seven :
    parse (Text.encode seven) "a.mvo" = .ok ⟨[⟨"A", ["x"], [[.integer 7]]⟩]⟩ ∧
      parse (Text.encode notedSeven) "a.mvo" = parse (Text.encode seven) "a.mvo" ∧
      Refused (Text.encode twins) "a.mvo" ∧ Refused (Text.encode ['\x7b']) "a.mvo" := by
  have hlaw := documentLaw_of_bytes (Text.encode seven) "a.mvo"
  have hgives : Gives (.object [("A", .object sevenBody)]) ⟨[⟨"A", ["x"], [[.integer 7]]⟩]⟩ :=
    ⟨_, rfl, .cons ⟨_, _, rfl, isBody_seven, rfl, .cons (.cons (.integer rfl) .nil) .nil⟩ .nil⟩
  refine ⟨(hlaw.tables _ _ ofBytes?_seven).mpr hgives, ?_, ?_, ?_⟩
  · have hnoted : Json.ofBytes? (Text.encode notedSeven) =
        some (.object [("$v", .array []), ("A", .object (sevenBody ++ [("note", .null)]))]) := by
      rw [Json.ofBytes?, Text.decode_encode]
      rfl
    exact hlaw.irrelevant _ _ _ ofBytes?_seven hnoted (.object (.cons ⟨rfl, .object rfl⟩ .nil))
  · have htwins : Json.ofBytes? (Text.encode twins) =
        some (.object [("A", .object [("columns", .array (["x", "x"].map .string))])]) := by
      rw [Json.ofBytes?, Text.decode_encode]
      rfl
    refine (documentLaw_of_bytes (Text.encode twins) "a.mvo").refused _ htwins ?_
    rintro ⟨members, hmembers, hbodies⟩
    cases hmembers
    obtain ⟨body, columns, rows, hbody, hparts⟩ := hbodies _ List.mem_cons_self rfl
    cases hbody
    have hgiven := (Prod.mk.inj (List.mem_singleton.mp hparts.columnsGiven)).2
    have hcolumns : columns = ["x", "x"] :=
      (List.map_inj_right fun _ _ => Json.string.inj).mp (Json.array.inj hgiven)
    have hdistinct := hparts.distinct
    rw [hcolumns] at hdistinct
    exact absurd hdistinct (by decide)
  · have hunread : Json.ofBytes? (Text.encode ['\x7b']) = none := by
      rw [Json.ofBytes?, Text.decode_encode]
      rfl
    exact (documentLaw_of_bytes _ _).unreadable hunread

end TableAccess.Document
