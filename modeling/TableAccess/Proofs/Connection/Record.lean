import TableAccess.Connection.Descriptor
import TableAccess.Proofs.Json.Fields

/-!
# Records that are typed with a password

The text of a record is taken apart at the place of its password: what stands before it, what stands
behind it, and between the two the text of the password itself.  Whether such a text is a record,
and all of that record but its password, depends on what stands before and behind alone.
-/

namespace TableAccess

/-! ### Strings that a text spells -/

namespace Json

variable {body : List Char} {x : String}

/-- What stands between the quotes is the text of a string. -/
structure Spells (body : List Char) (x : String) : Prop where
  shape : StringBody body
  read : readString? .strict (body ++ ['"']) = some (x, [])

theorem Spells.readString? (h : Spells body x) (rest : List Char) :
    readString? .strict (body ++ '"' :: rest) = some (x, rest) := by
  obtain ⟨o, -, hread⟩ := exists_readString h.shape .strict
  have hempty := h.read
  rw [hread []] at hempty
  rw [hread rest]
  cases o with
  | none => cases hempty
  | some y =>
    cases hempty
    rfl

/-- The character stands for itself in a string. -/
def isPlain (c : Char) : Bool := c != '"' && c != '\\' && decide (32 ≤ c.toNat)

theorem isPlain_iff {c : Char} : isPlain c = true ↔ (c ≠ '"' ∧ c ≠ '\\') ∧ 32 ≤ c.toNat := by
  simp only [isPlain, Bool.and_eq_true, bne_iff_ne, decide_eq_true_eq]

theorem stringBody_of_plain (h : body.all isPlain = true) : StringBody body := by
  induction body with
  | nil => exact .nil
  | cons c body ih =>
    rw [List.all_cons, Bool.and_eq_true, isPlain_iff] at h
    obtain ⟨⟨⟨hquote, hescape⟩, hcontrol⟩, hbody⟩ := h
    exact .plain hquote hescape hcontrol (ih hbody)

theorem readChars?_plain (h : body.all isPlain = true) {fuel : Nat} (hfuel : body.length < fuel)
    (rest : List Char) : readChars? .strict fuel (body ++ '"' :: rest) = some (body, rest) := by
  induction body generalizing fuel with
  | nil =>
    obtain ⟨k, rfl⟩ := Nat.exists_eq_add_one.mpr hfuel
    rfl
  | cons c body ih =>
    obtain ⟨k, rfl⟩ := Nat.exists_eq_add_one.mpr (Nat.zero_lt_of_lt hfuel)
    rw [List.all_cons, Bool.and_eq_true, isPlain_iff] at h
    obtain ⟨⟨⟨hquote, hescape⟩, hcontrol⟩, hbody⟩ := h
    have hlater := ih hbody (Nat.lt_of_succ_lt_succ hfuel)
    simp only [List.cons_append, readChars?, readStringChar?, beq_iff_eq, hquote, hescape,
      Nat.not_lt.mpr hcontrol, if_false, hlater, Option.map_some]

/-- Letters, digits and all other characters that stand for themselves spell what they are. -/
theorem spells_of_plain (h : body.all isPlain = true) : Spells body (String.ofList body) := by
  refine ⟨stringBody_of_plain h, ?_⟩
  rw [Json.readString?, readChars?_plain h (by simp only [List.length_append]; omega)]
  rfl

/-- A string between its quotes. -/
def quotedText (s : String) : List Char := '"' :: (s.toList ++ ['"'])

theorem keyText_quotedText (h : x.toList.all isPlain = true) : KeyText (quotedText x) :=
  .mk spaces_nil (stringBody_of_plain h) spaces_nil

theorem valueText_quotedText (h : x.toList.all isPlain = true) : ValueText (quotedText x) :=
  .string (stringBody_of_plain h)

theorem Spells.reads (h : Spells body x) (depth : Nat) :
    Reads (readValue .strict depth) ('"' :: (body ++ ['"'])) (some (.string x)) :=
  reads_quoted (o := some x) h.readString? depth

end Json

/-! ### Records -/

namespace ConnectionRecord

open TableAccess.Json (Reader Reads Spaces KeyText ValueText Spells commaText pairText)

/-- Every known value is read as a whole value first. -/
theorem exists_map?_of_fieldReader {name : String} {reader : Reader Field}
    (h : fieldReader? name = some reader) : ∃ f, reader = Json.valueReader.map? f := by
  rw [fieldReader?] at h
  repeat' split at h
  all_goals first | cases h; exact ⟨_, rfl⟩ | cases h

/-- Another mention of a field beside one leaves it repeated, whatever it says. -/
theorem once?_between (before after : List (Option String)) (password : String) :
    once? (before ++ some password :: after) =
      if before ++ after = [] then some (some password) else none := by
  cases before with
  | nil => cases after <;> rfl
  | cons s before => cases before <;> rfl

/-- The fields of an object with a password among them make records that differ in the password
alone, or no record. -/
theorem exists_ofFields_password (before after : List Field) : ∃ o : Option ConnectionRecord,
    ∀ password, ofFields? (before ++ .password (some password) :: after) =
      o.map fun r => { r with password := some password } := by
  refine ⟨ofFields? (before ++ .password (some "") :: after), fun password => ?_⟩
  simp only [ofFields?, List.filterMap_append, List.filterMap_cons, Option.bind_eq_bind,
    Option.map_bind, Function.comp_def, once?_between]
  split
  · rfl
  · rfl

/-- The entries of members with what the reader of fields makes of them, in any context. -/
theorem exists_fieldEntries {members : List (List Char × List Char)}
    (h : ∀ m ∈ members, KeyText m.1 ∧ ValueText m.2) :
    ∃ entries : List (List Char × Option (Option Field)),
      entries.map Prod.fst = members.map pairText ∧
        ∀ e ∈ entries, Reads (Json.readField fieldReader?) e.1 e.2 ∧
          ∀ rest, ∃ c r, Json.skipSpace (e.1 ++ rest) = c :: r ∧ c ≠ '\x7d' := by
  refine Json.exists_entries pairText (P := fun t o =>
    Reads (Json.readField fieldReader?) t o ∧
      ∀ rest, ∃ c r, Json.skipSpace (t ++ rest) = c :: r ∧ c ≠ '\x7d') fun m hm => ?_
  obtain ⟨hkey, hvalue⟩ := h m hm
  have hknown : ∀ name reader, fieldReader? name = some reader → ∃ o, Reads reader m.2 o := by
    intro name reader hreader
    obtain ⟨f, rfl⟩ := exists_map?_of_fieldReader hreader
    obtain ⟨v, hv, -⟩ := Json.exists_reads_value hvalue .strict Json.maxDepth
    exact ⟨v.bind f, hv.map? f⟩
  obtain ⟨o, ho⟩ := Json.exists_reads_field hkey hvalue hknown
  exact ⟨o, ho, Json.skipSpace_pairText hkey⟩

end ConnectionRecord

/-! ### Arguments with a password -/

open TableAccess.Json (Reader Reads Spaces StringBody KeyText ValueText Spells commaText pairText)
open TableAccess.ConnectionRecord (Field fieldReader?)

/-- The text of a record but for the text of a password: an object with a gap between the quotes of
the value of a key that is spelled as the password. -/
structure PasswordGap where
  lead : List Char
  /-- The keys and values of the members before and after. -/
  before : List (List Char × List Char)
  after : List (List Char × List Char)
  /-- The text between the quotes of the key, and blanks around the key and the value. -/
  key : List Char
  keyFront : List Char
  keyBack : List Char
  valueFront : List Char
  valueBack : List Char
  trail : List Char
  isBlank_lead : ∀ c ∈ lead, Text.isBlank c = true
  texts_before : ∀ m ∈ before, KeyText m.1 ∧ ValueText m.2
  texts_after : ∀ m ∈ after, KeyText m.1 ∧ ValueText m.2
  spells_key : Spells key "password"
  spaces_keyFront : Spaces keyFront
  spaces_keyBack : Spaces keyBack
  spaces_valueFront : Spaces valueFront
  spaces_valueBack : Spaces valueBack
  spaces_trail : Spaces trail

namespace PasswordGap

variable {g : PasswordGap} {body : List Char} {password : String}

/-- The member with the gap, filled with the text of a password. -/
def member (g : PasswordGap) (body : List Char) : List Char × List Char :=
  (g.keyFront ++ '"' :: (g.key ++ '"' :: g.keyBack),
    g.valueFront ++ ('"' :: (body ++ ['"']) ++ g.valueBack))

/-- The object, filled with the text of a password. -/
def object (g : PasswordGap) (body : List Char) : List Char :=
  '\x7b' :: (commaText ((g.before ++ g.member body :: g.after).map pairText) ++ '\x7d' :: g.trail)

/-- The argument, filled with the text of a password. -/
def argument (g : PasswordGap) (body : List Char) : String :=
  String.ofList (g.lead ++ g.object body)

theorem keyText_member (g : PasswordGap) (body : List Char) : KeyText (g.member body).1 :=
  .mk g.spaces_keyFront g.spells_key.shape g.spaces_keyBack

theorem reads_member (g : PasswordGap) (h : Spells body password) :
    Reads (Json.readField ConnectionRecord.fieldReader?) (pairText (g.member body))
      (some (some (.password (some password)))) := by
  have hkey : ∀ rest, Json.readKey? .strict ((g.member body).1 ++ ':' :: rest) =
      some ("password", rest) :=
    Json.readKey?_text (o := some "password") g.spaces_keyFront g.spaces_keyBack
      g.spells_key.readString?
  have hvalue : Reads Json.valueReader (g.member body).2 (some (.string password)) :=
    Json.reads_padded g.spaces_valueFront g.spaces_valueBack (h.reads Json.maxDepth)
  have hknown : ConnectionRecord.fieldReader? "password" =
      some (ConnectionRecord.textField .password) := rfl
  exact Json.reads_field_of_known hkey hknown (hvalue.map? _)

/-- The fields of the filled object are those before the gap, the password, and those after the
gap. -/
theorem exists_readFields (g : PasswordGap) : ∃ before after : Option (List Field),
    ∀ body password, Spells body password →
      Json.readFields fieldReader? (g.object body) =
        before.bind fun fs => after.map fun gs =>
          (fs ++ .password (some password) :: gs, g.trail) := by
  obtain ⟨before, hbefore, hreadBefore⟩ := ConnectionRecord.exists_fieldEntries g.texts_before
  obtain ⟨after, hafter, hreadAfter⟩ := ConnectionRecord.exists_fieldEntries g.texts_after
  refine ⟨(before.mapM Prod.snd).map (List.filterMap id),
    (after.mapM Prod.snd).map (List.filterMap id), fun body password h => ?_⟩
  have hentries : ∀ e ∈ before ++ (pairText (g.member body),
        some (some (Field.password (some password)))) :: after,
      Reads (Json.readField fieldReader?) e.1 e.2 ∧
        ∀ rest, ∃ c r, Json.skipSpace (e.1 ++ rest) = c :: r ∧ c ≠ '\x7d' := by
    intro e he
    rcases List.mem_append.mp he with he | he
    · exact hreadBefore e he
    · rcases List.mem_cons.mp he with rfl | he
      · exact ⟨g.reads_member h, Json.skipSpace_pairText (g.keyText_member body)⟩
      · exact hreadAfter e he
  have hread := Json.readFields_texts (fun e he => (hentries e he).1)
    (fun e he => (hentries e he).2) g.trail
  rw [List.map_append, List.map_cons, hbefore, hafter] at hread
  rw [object, List.map_append, List.map_cons, hread, List.mapM_append, List.mapM_cons]
  cases before.mapM Prod.snd with
  | none => rfl
  | some fs =>
    cases after.mapM Prod.snd with
    | none => rfl
    | some gs =>
      show some ((fs ++ some (Field.password (some password)) :: gs).filterMap id, g.trail) = _
      rw [List.filterMap_append, List.filterMap_cons]
      rfl

/-- **Whether an argument is a record, and all of it but its password, depends on what stands around
the password alone.** -/
theorem exists_ofJsonText (g : PasswordGap) : ∃ o : Option ConnectionRecord,
    ∀ body password, Spells body password →
      ConnectionRecord.ofJsonText? (String.ofList (g.object body)) =
        o.map fun r => { r with password := some password } := by
  obtain ⟨before, after, hread⟩ := g.exists_readFields
  have hend : Json.skipSpace g.trail = [] := by
    have hskip := Json.skipSpace_append g.spaces_trail []
    rwa [List.append_nil] at hskip
  have hreader : ∀ body password, Spells body password →
      ConnectionRecord.ofJsonText? (String.ofList (g.object body)) =
        before.bind fun fs => after.bind fun gs =>
          ConnectionRecord.ofFields? (fs ++ .password (some password) :: gs) := by
    intro body password h
    have hobject : Json.startsWith '[' (g.object body) = false := rfl
    rw [ConnectionRecord.ofJsonText?, String.toList_ofList, ConnectionRecord.reader, hobject,
      if_neg Bool.false_ne_true, Reader.map?, hread body password h]
    cases before with
    | none => rfl
    | some fs =>
      cases after with
      | none => rfl
      | some gs =>
        show Json.atEnd? ((ConnectionRecord.ofFields? _).map (·, g.trail)) =
          ConnectionRecord.ofFields? (fs ++ Field.password (some password) :: gs)
        cases ConnectionRecord.ofFields? (fs ++ Field.password (some password) :: gs) with
        | none => rfl
        | some r => simp only [Option.map_some, Json.atEnd?, hend]; rfl
  cases before with
  | none => exact ⟨none, hreader⟩
  | some fs =>
    cases after with
    | none => exact ⟨none, hreader⟩
    | some gs =>
      obtain ⟨o, ho⟩ := ConnectionRecord.exists_ofFields_password fs gs
      exact ⟨o, fun body password h => (hreader body password h).trans (ho password)⟩

/-! ### The descriptor of an argument -/

/-- What a filled argument describes. -/
theorem exists_parse_argument (g : PasswordGap) : ∃ o : Option ConnectionRecord,
    ∀ body password, Spells body password → ∀ wording,
      Descriptor.parse (g.argument body) wording =
        match o with
        | some r => .ok (.record { r with password := some password })
        | none => .error (.unsupportedBackend
            ("invalid connection record: " ++ wording (String.ofList (g.object body)))) := by
  obtain ⟨o, ho⟩ := g.exists_ofJsonText
  refine ⟨o, fun body password h wording => ?_⟩
  have htrim : Text.trimStart (g.argument body).toList = g.object body := by
    rw [argument, String.toList_ofList, Text.trimStart, Text.dropFront,
      List.dropWhile_append_of_pos g.isBlank_lead]
    rfl
  have hbrace : ((g.object body).head? == some '\x7b') = true := rfl
  rw [Descriptor.parse]
  simp only [htrim, hbrace, if_true, ho body password h]
  cases o with
  | none => rfl
  | some r => rfl

end PasswordGap

end TableAccess
