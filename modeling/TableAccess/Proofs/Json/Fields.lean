import Mathlib.Data.List.Forall2
import TableAccess.Json.Fields
import TableAccess.Json.Printer
import TableAccess.Proofs.Json.Context

/-!
# Reading the members of a record

A record is read member by member, each known value by a reader of its own.  If those readers take
the texts of their values and nothing more, then so does the reader of the record, and it gives the
fields in the order in which they stand.
-/

namespace TableAccess.Json

variable {s t : List Char} {α β : Type}

/-! ### Members -/

theorem Reads.map? {reader : Reader α} {o : Option α} (h : Reads reader t o) (f : α → Option β) :
    Reads (reader.map? f) t (o.bind f) := by
  intro rest hrest
  obtain ⟨back, hback, hread⟩ := h rest hrest
  refine ⟨back, hback, ?_⟩
  rw [Reader.map?, hread]
  cases o with
  | none => rfl
  | some a => rfl

theorem readField_congr {known : String → Option (Reader α)} (h : skipSpace s = skipSpace t) :
    readField known s = readField known t := by
  rw [readField, readField, readKey?_congr h]

/-- A member whose key is known is read as its value. -/
theorem reads_field_of_known {known : String → Option (Reader α)} {m : List Char × List Char}
    {name : String} {reader : Reader α} {o : Option α}
    (hkey : ∀ rest, readKey? .strict (m.1 ++ ':' :: rest) = some (name, rest))
    (hknown : known name = some reader) (hvalue : Reads reader m.2 o) :
    Reads (readField known) (pairText m) (o.map some) := by
  intro rest hrest
  obtain ⟨back, hback, hread⟩ := (hvalue.map some) rest hrest
  refine ⟨back, hback, ?_⟩
  rw [readField, pairText, List.append_assoc, List.cons_append, hkey]
  simp only [hknown]
  exact hread

/-- A member whose key is not known is passed over. -/
theorem reads_field_of_unknown {known : String → Option (Reader α)} {m : List Char × List Char}
    {name : String} (hkey : ∀ rest, readKey? .strict (m.1 ++ ':' :: rest) = some (name, rest))
    (hunknown : known name = none) (hvalue : ValueText m.2) :
    Reads (readField known) (pairText m) (some none) := by
  intro rest hrest
  obtain ⟨back, hback, hread⟩ := reads_skipped hvalue none rest hrest
  refine ⟨back, hback, ?_⟩
  rw [readField, pairText, List.append_assoc, List.cons_append, hkey]
  simp only [hunknown]
  exact hread

/-- What a member is read as, if the readers of known values do not regard what follows. -/
theorem exists_reads_field {known : String → Option (Reader α)} {m : List Char × List Char}
    (hkey : KeyText m.1) (hvalue : ValueText m.2)
    (hknown : ∀ name reader, known name = some reader → ∃ o, Reads reader m.2 o) :
    ∃ o, Reads (readField known) (pairText m) o := by
  obtain ⟨key, -, hread⟩ := exists_readKey hkey .strict
  cases key with
  | none =>
    refine ⟨none, reads_of_eq fun rest _ => ?_⟩
    rw [readField, pairText, List.append_assoc, List.cons_append, hread]
    rfl
  | some name =>
    cases hreader : known name with
    | none => exact ⟨some none, reads_field_of_unknown hread hreader hvalue⟩
    | some reader =>
      obtain ⟨o, ho⟩ := hknown name reader hreader
      exact ⟨o.map some, reads_field_of_known hread hreader ho⟩

/-- An object is read member by member, up to its closing brace. -/
theorem readFields_texts {known : String → Option (Reader α)}
    {entries : List (List Char × Option (Option α))}
    (hread : ∀ e ∈ entries, Reads (readField known) e.1 e.2)
    (hhead : ∀ e ∈ entries, ∀ rest, ∃ c r, skipSpace (e.1 ++ rest) = c :: r ∧ c ≠ '\x7d')
    (rest : List Char) :
    readFields known ('\x7b' :: (commaText (entries.map Prod.fst) ++ '\x7d' :: rest)) =
      (entries.mapM Prod.snd).map fun fields => (fields.filterMap id, rest) := by
  have hsequence := readSequence_texts '\x7d' (by decide) (by decide)
    (endsNumber_close (Or.inr rfl)) hread hhead (fun _ _ h => readField_congr h) spaces_nil rest
  rw [List.nil_append] at hsequence
  have hopen : expect? '\x7b' ('\x7b' :: (commaText (entries.map Prod.fst) ++ '\x7d' :: rest)) =
      some (commaText (entries.map Prod.fst) ++ '\x7d' :: rest) := rfl
  rw [readFields, hopen]
  simp only [hsequence, Option.map_map]
  rfl

/-! ### Blanks in front of a record -/

theorem expect?_congr (c : Char) (h : skipSpace s = skipSpace t) : expect? c s = expect? c t := by
  rw [expect?, expect?, h]

theorem Reader.map?_congr {reader : Reader α} (h : reader s = reader t) (f : α → Option β) :
    reader.map? f s = reader.map? f t := by
  rw [Reader.map?, Reader.map?, h]

theorem readFields_congr {known : String → Option (Reader α)} (h : skipSpace s = skipSpace t) :
    readFields known s = readFields known t := by
  rw [readFields, readFields, expect?_congr _ h]

theorem readPlaces_congr {readers : List (Reader α)} (h : skipSpace s = skipSpace t) :
    readPlaces readers s = readPlaces readers t := by
  simp only [readPlaces, expect?_congr _ h]

/-! ### Written members -/

theorem reads_null (depth : Nat) : Reads (readValue .strict depth) Json.null.compact (some .null) :=
  reads_of_eq fun rest _ => readValue_scalar (by decide) (by decide) (by decide)

theorem reads_integer {i : Int} (hi : FitsWord i) (depth : Nat) :
    Reads (readValue .strict depth) (ofInt i).compact (some (ofInt i)) := by
  apply reads_of_eq
  intro rest hrest
  exact readValue_number (Number.exists_intText_eq_cons i) (readNumber_intText .strict hi hrest)

theorem reads_string_compact (x : String) (depth : Nat) :
    Reads (readValue .strict depth) (Json.string x).compact (some (.string x)) :=
  reads_quoted (o := some x) (readString?_escaped x) depth

/-- A member as it is written. -/
def memberPair (m : String × Json) : List Char × List Char := (stringText m.1, m.2.compact)

theorem readKey?_stringText (x : String) (rest : List Char) :
    readKey? .strict (stringText x ++ ':' :: rest) = some (x, rest) :=
  readKey?_text (o := some x) spaces_nil spaces_nil (readString?_escaped x) rest

theorem skipSpace_memberPair (m : String × Json) (rest : List Char) :
    ∃ c r, skipSpace (pairText (memberPair m) ++ rest) = c :: r ∧ c ≠ '\x7d' :=
  ⟨'"', _, rfl, by decide⟩

theorem compactMembers_eq (members : List (String × Json)) :
    compactMembers members = commaText (members.map fun m => pairText (memberPair m)) := by
  induction members with
  | nil => rfl
  | cons m r ih =>
    cases r with
    | nil => rfl
    | cons n r =>
      rw [compactMembers, ih]
      show _ = (stringText m.1 ++ ':' :: m.2.compact) ++ _
      rw [List.append_assoc]
      rfl

theorem compactItems_eq (items : List Json) :
    compactItems items = commaText (items.map compact) := by
  induction items with
  | nil => rfl
  | cons v r ih =>
    cases r with
    | nil => rfl
    | cons w r =>
      rw [compactItems, ih]
      rfl

/-- The reader of its key takes the value of the member for the field. -/
def ReadsMember (known : String → Option (Reader α)) (m : String × Json) (a : α) : Prop :=
  ∃ reader, known m.1 = some reader ∧ Reads reader m.2.compact (some a)

variable {known : String → Option (Reader α)} {members : List (String × Json)} {fields : List α}

theorem exists_member_entries (h : List.Forall₂ (ReadsMember known) members fields) :
    ∃ entries : List (List Char × Option (Option α)),
      entries.map Prod.fst = members.map (fun m => pairText (memberPair m)) ∧
      entries.mapM Prod.snd = some (fields.map some) ∧
      ∀ e ∈ entries, Reads (readField known) e.1 e.2 ∧
        ∀ rest, ∃ c r, skipSpace (e.1 ++ rest) = c :: r ∧ c ≠ '\x7d' := by
  induction h with
  | nil => exact ⟨[], rfl, rfl, nofun⟩
  | @cons m a members fields hm _ ih =>
    obtain ⟨reader, hknown, hvalue⟩ := hm
    obtain ⟨entries, htexts, hfields, hread⟩ := ih
    have hmember : Reads (readField known) (pairText (memberPair m)) (some (some a)) :=
      reads_field_of_known (m := memberPair m) (readKey?_stringText m.1) hknown hvalue
    refine ⟨(pairText (memberPair m), some (some a)) :: entries, ?_, ?_, ?_⟩
    · rw [List.map_cons, List.map_cons, htexts]
    · rw [List.mapM_cons, hfields]
      rfl
    · exact List.forall_mem_cons.mpr ⟨⟨hmember, skipSpace_memberPair m⟩, hread⟩

/-- **A written object is read member by member**, each value by the reader of its key. -/
theorem reads_fields (h : List.Forall₂ (ReadsMember known) members fields) :
    Reads (readFields known) (Json.object members).compact (some fields) := by
  obtain ⟨entries, htexts, hfields, hread⟩ := exists_member_entries h
  apply reads_of_eq
  intro rest _
  have hread := readFields_texts (fun e he => (hread e he).1) (fun e he => (hread e he).2) rest
  show readFields known ('\x7b' :: (compactMembers members ++ ['\x7d']) ++ rest) =
    some (fields, rest)
  rw [compactMembers_eq, List.cons_append, List.append_assoc, List.singleton_append, ← htexts,
    hread, hfields]
  simp

/-- A reader that takes records as objects and as arrays reads a written object. -/
theorem reads_record {places : Reader β} {make : List α → Option β} {b : β}
    (h : List.Forall₂ (ReadsMember known) members fields) (hmake : make fields = some b) :
    Reads (fun s => if startsWith '[' s then places s else (readFields known).map? make s)
      (Json.object members).compact (some b) := by
  intro rest hrest
  obtain ⟨back, hback, hread⟩ := (reads_fields h).map? make rest hrest
  have hobject : startsWith '[' ((Json.object members).compact ++ rest) = false := rfl
  refine ⟨back, hback, ?_⟩
  rw [Option.bind_some, hmake] at hread
  simp only [hobject, Bool.false_eq_true, if_false, hread]

/-- Items that are each read as themselves are read as the list of them. -/
theorem mapM_entries (text : α → List Char) (items : List α) :
    (items.map fun a => (text a, some a)).mapM Prod.snd = some items := by
  induction items with
  | nil => rfl
  | cons a items ih =>
    rw [List.map_cons, List.mapM_cons, ih]
    rfl

/-- A text that is read to its end has the value that is read. -/
theorem atEnd?_of_reads {reader : Reader α} {o : Option α} (h : Reads reader t o) :
    atEnd? (reader t) = o := by
  obtain ⟨back, hback, hread⟩ := h [] endsNumber_nil
  rw [List.append_nil] at hread
  have hskip : skipSpace back = [] := by
    have happend := skipSpace_append hback []
    rwa [List.append_nil] at happend
  rw [hread]
  cases o with
  | none => rfl
  | some a => simp only [Option.map_some, List.append_nil, atEnd?, hskip, List.isEmpty_nil, if_true]

end TableAccess.Json
