import TableAccess.Connection.Descriptor
import TableAccess.Proofs.Path.Extension
import TableAccess.Proofs.Text.Case

/-!
# The backend of a descriptor

A path selects its backend by the extension alone, spelled exactly as in the table of extensions.
A record selects it by the kind alone, in letters of any case.  Every other descriptor selects none,
and the refusal says which of the two is missing or unknown.
-/

namespace TableAccess

/-! ### Tables -/

/-- Keys that differ are each found with what stands beside them. -/
theorem lookup_eq_some_iff_mem {β : Type} {entries : List (String × β)} {key : String} {b : β}
    (hkeys : (entries.map Prod.fst).Nodup) : entries.lookup key = some b ↔ (key, b) ∈ entries := by
  induction entries with
  | nil => simp
  | cons entry entries ih =>
    obtain ⟨first, value⟩ := entry
    obtain ⟨hnew, hrest⟩ := List.nodup_cons.mp hkeys
    rw [List.lookup_cons, List.mem_cons, Prod.mk.injEq]
    by_cases hkey : key = first
    · subst hkey
      have hnot : (key, b) ∉ entries := fun hmem => hnew (List.mem_map.mpr ⟨_, hmem, rfl⟩)
      simp [hnot, eq_comm]
    · rw [beq_false_of_ne hkey, ih hrest]
      simp [hkey]

namespace Backend

variable {extension kind name : String} {b : Backend}

/-- The extensions of the files of a backend. -/
inductive Extension : String → Backend → Prop
  | db : Extension "db" .sqlite
  | dbf : Extension "dbf" .dbase
  | db3 : Extension "db3" .dbase
  | mdb : Extension "mdb" .access
  | accdb : Extension "accdb" .access
  | mvo : Extension "mvo" .document

/-- The kinds that records name the servers of a backend by. -/
inductive Kind : String → Backend → Prop
  | mysql : Kind "mysql" .mysql
  | postgres : Kind "postgres" .postgres
  | postgresql : Kind "postgresql" .postgres

theorem mem_extensions_iff : (extension, b) ∈ extensions ↔ Extension extension b := by
  constructor
  · intro h
    simp only [extensions, List.mem_cons, Prod.mk.injEq, List.not_mem_nil, or_false] at h
    rcases h with ⟨rfl, rfl⟩ | ⟨rfl, rfl⟩ | ⟨rfl, rfl⟩ | ⟨rfl, rfl⟩ | ⟨rfl, rfl⟩ | ⟨rfl, rfl⟩
    · exact .db
    · exact .dbf
    · exact .db3
    · exact .mdb
    · exact .accdb
    · exact .mvo
  · intro h
    cases h <;> decide

theorem mem_kinds_iff : (name, b) ∈ kinds ↔ Kind name b := by
  constructor
  · intro h
    simp only [kinds, List.mem_cons, Prod.mk.injEq, List.not_mem_nil, or_false] at h
    rcases h with ⟨rfl, rfl⟩ | ⟨rfl, rfl⟩ | ⟨rfl, rfl⟩
    · exact .mysql
    · exact .postgresql
    · exact .postgres
  · intro h
    cases h <;> decide

theorem ofExtension?_eq_some_iff : ofExtension? extension = some b ↔ Extension extension b := by
  rw [ofExtension?, lookup_eq_some_iff_mem (by decide), mem_extensions_iff]

theorem Extension.ne_nil (h : Extension extension b) : extension.toList ≠ [] := by
  cases h <;> decide

theorem Kind.map_lowerAscii (h : Kind name b) :
    name.toList.map Text.lowerAscii = name.toList := by
  cases h <;> decide

theorem ofKind?_eq_some_iff :
    ofKind? kind = some b ↔
      ∃ name, Kind name b ∧ List.Forall₂ Text.SameLetter kind.toList name.toList := by
  rw [ofKind?, lookup_eq_some_iff_mem (by decide), mem_kinds_iff]
  simp only [← Text.map_lowerAscii_eq_iff]
  constructor
  · intro h
    refine ⟨_, h, ?_⟩
    rw [h.map_lowerAscii, String.toList_ofList]
  · rintro ⟨name, h, hletters⟩
    rw [hletters, h.map_lowerAscii, String.ofList_toList]
    exact h

theorem ofExtension?_eq_none_iff :
    ofExtension? extension = none ↔ ∀ b, ¬ Extension extension b := by
  simp only [Option.eq_none_iff_forall_ne_some, ne_eq, ofExtension?_eq_some_iff]

theorem ofKind?_eq_none_iff :
    ofKind? kind = none ↔
      ∀ name b, Kind name b → ¬ List.Forall₂ Text.SameLetter kind.toList name.toList := by
  simp only [Option.eq_none_iff_forall_ne_some, ne_eq, ofKind?_eq_some_iff, not_exists, not_and]
  exact forall_comm

end Backend

/-! ### Descriptors -/

namespace Descriptor

variable {p : String} {r : ConnectionRecord} {d : Descriptor} {b : Backend}

/-- The descriptor selects the backend. -/
inductive Selects : Descriptor → Backend → Prop
  | path {p extension : String} {b : Backend}
      (hextension : Path.HasExtension p.toList extension.toList)
      (hb : Backend.Extension extension b) : Selects (.path p) b
  | record {r : ConnectionRecord} {kind name : String} {b : Backend} (hkind : r.kind = some kind)
      (hname : List.Forall₂ Text.SameLetter kind.toList name.toList) (hb : Backend.Kind name b) :
      Selects (.record r) b

/-- The descriptor selects no backend, for the reason in the message. -/
inductive Refused : Descriptor → String → Prop
  /-- The two points that lead upwards are the one name that is not split at its last point. -/
  | noExtension {p : String}
      (hnone : ∀ extension, Path.HasExtension p.toList extension →
        Path.EndsIn p.toList ['.', '.']) : Refused (.path p) (p ++ " has no file extension")
  | otherExtension {p extension : String}
      (hextension : Path.HasExtension p.toList extension.toList)
      (hname : ¬ Path.EndsIn p.toList ['.', '.'])
      (hother : ∀ b, ¬ Backend.Extension extension b) :
      Refused (.path p) ("unrecognized file extension '." ++ extension ++ "' for " ++ p)
  | noKind {r : ConnectionRecord} (hkind : r.kind = none) :
      Refused (.record r) "connection record has no database kind"
  | otherKind {r : ConnectionRecord} {kind : String} (hkind : r.kind = some kind)
      (hother : ∀ name b, Backend.Kind name b →
        ¬ List.Forall₂ Text.SameLetter kind.toList name.toList) :
      Refused (.record r) ("unrecognized database kind '" ++ kind ++ "'")

theorem selects_path_iff :
    Selects (.path p) b ↔ ∃ extension, Path.extension? p = some extension ∧
      Backend.ofExtension? extension = some b := by
  constructor
  · rintro ⟨hextension, hb⟩
    exact ⟨_, Path.extension?_eq_some_iff.mpr ⟨hextension, hextension.not_endsIn_up hb.ne_nil⟩,
      Backend.ofExtension?_eq_some_iff.mpr hb⟩
  · rintro ⟨extension, hextension, hb⟩
    exact .path (Path.extension?_eq_some_iff.mp hextension).1
      (Backend.ofExtension?_eq_some_iff.mp hb)

theorem selects_record_iff :
    Selects (.record r) b ↔ ∃ kind, r.kind = some kind ∧ Backend.ofKind? kind = some b := by
  constructor
  · intro h
    cases h with
    | record hkind hletters hb =>
      exact ⟨_, hkind, Backend.ofKind?_eq_some_iff.mpr ⟨_, hb, hletters⟩⟩
  · rintro ⟨kind, hkind, hb⟩
    obtain ⟨name, hname, hletters⟩ := Backend.ofKind?_eq_some_iff.mp hb
    exact .record hkind hletters hname

/-- A descriptor has the backend that it selects, or is refused for a reason. -/
theorem backend_cases (d : Descriptor) :
    (∃ b, d.backend = .ok b ∧ d.Selects b) ∨
      ∃ message, d.backend = .error (.unsupportedBackend message) ∧ d.Refused message := by
  cases d with
  | path p =>
    rw [backend, backendOfPath]
    cases hextension : Path.extension? p with
    | none => exact Or.inr ⟨_, rfl, .noExtension (Path.extension?_eq_none_iff.mp hextension)⟩
    | some extension =>
      dsimp only
      cases hb : Backend.ofExtension? extension with
      | some b => exact Or.inl ⟨b, rfl, selects_path_iff.mpr ⟨extension, hextension, hb⟩⟩
      | none =>
        obtain ⟨hhas, hup⟩ := Path.extension?_eq_some_iff.mp hextension
        exact Or.inr ⟨_, rfl, .otherExtension hhas hup (Backend.ofExtension?_eq_none_iff.mp hb)⟩
  | record r =>
    rw [backend, backendOfRecord]
    cases hkind : r.kind with
    | none => exact Or.inr ⟨_, rfl, .noKind hkind⟩
    | some kind =>
      dsimp only
      cases hb : Backend.ofKind? kind with
      | some b => exact Or.inl ⟨b, rfl, selects_record_iff.mpr ⟨kind, hkind, hb⟩⟩
      | none => exact Or.inr ⟨_, rfl, .otherKind hkind (Backend.ofKind?_eq_none_iff.mp hb)⟩

theorem backend_of_selects (h : d.Selects b) : d.backend = .ok b := by
  cases d with
  | path p =>
    obtain ⟨extension, hextension, hb⟩ := selects_path_iff.mp h
    simp only [backend, backendOfPath, hextension, hb]
  | record r =>
    obtain ⟨kind, hkind, hb⟩ := selects_record_iff.mp h
    simp only [backend, backendOfRecord, hkind, hb]

/-- No descriptor selects two backends. -/
theorem selects_unique {other : Backend} (h : d.Selects b) (hother : d.Selects other) :
    b = other := by
  have hsame := (backend_of_selects h).symm.trans (backend_of_selects hother)
  cases hsame
  rfl

/-! ### Arguments -/

/-- The first character of the text that is not blank is a brace. -/
def StartsWithBrace (s : String) : Prop :=
  ∃ lead rest, s.toList = lead ++ '\x7b' :: rest ∧ ∀ c ∈ lead, Text.isBlank c = true

theorem head?_trimStart_iff {s : String} :
    ((Text.trimStart s.toList).head? == some '\x7b') = true ↔ StartsWithBrace s := by
  rw [beq_iff_eq]
  constructor
  · intro hhead
    obtain ⟨lead, hlead, hsplit⟩ := Text.exists_append_dropFront Text.isBlank s.toList
    obtain ⟨rest, hrest⟩ := List.head?_eq_some_iff.mp hhead
    have hrest : Text.dropFront Text.isBlank s.toList = '\x7b' :: rest := hrest
    rw [hrest] at hsplit
    exact ⟨lead, rest, hsplit, hlead⟩
  · rintro ⟨lead, rest, hsplit, hlead⟩
    rw [hsplit, Text.trimStart, Text.dropFront_append_of_frontSharp hlead]
    · rfl
    · rintro c ⟨⟩
      decide

variable {s : String}

theorem parse_of_not_brace (h : ¬ StartsWithBrace s) (wording : Wording) :
    parse s wording = .ok (.path s) := by
  rw [parse, if_neg (mt head?_trimStart_iff.mp h)]

/-- The wording only matters for what is no record. -/
theorem parse_eq_ok_iff (wording : Wording) :
    parse s wording = .ok d ↔ parse s = .ok d := by
  rw [parse, parse]
  split
  · cases ConnectionRecord.ofJsonText? (String.ofList (Text.trimStart s.toList)) with
    | some r => exact Iff.rfl
    | none => exact iff_of_false nofun nofun
  · exact Iff.rfl

theorem parse_of_brace (h : StartsWithBrace s) (wording : Wording) :
    (∃ r, parse s wording = .ok (.record r)) ∨
      ∃ message, parse s wording = .error (.unsupportedBackend message) := by
  rw [parse, if_pos (head?_trimStart_iff.mpr h)]
  cases ConnectionRecord.ofJsonText? (String.ofList (Text.trimStart s.toList)) with
  | some r => exact Or.inl ⟨r, rfl⟩
  | none => exact Or.inr ⟨_, rfl⟩

end Descriptor

end TableAccess
