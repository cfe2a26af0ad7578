import TableAccess.Connection.Descriptor
import TableAccess.Proofs.Handler.Sql
import TableAccess.Proofs.Json.Fields
import TableAccess.Proofs.Text.Blank

/-!
# Reading written connection records

A record is written with all of its fields but the password, absent ones as null.  As an argument
its text is a record again, with blanks in front of it and with either key of its kind, and only the
password is gone.  So nobody can connect with what is read: it is refused for the password, or for a
field in front of it that was absent before.
-/

namespace TableAccess

open TableAccess.Json (Reads ReadsMember)

namespace ConnectionRecord

/-- The record as JSON, with a key of choice for its kind. -/
def toJsonWith (key : String) (r : ConnectionRecord) : Json :=
  .object
    [ (key, textJson r.kind), ("host", textJson r.host), ("port", portJson r.port),
      ("user", textJson r.user), ("database", textJson r.database) ]

/-- The text of the record with that key. -/
def textWith (key : String) (r : ConnectionRecord) : String :=
  String.ofList (r.toJsonWith key).compact

theorem textWith_kind (r : ConnectionRecord) : r.textWith "kind" = r.jsonText := rfl

def withoutPassword (r : ConnectionRecord) : ConnectionRecord := { r with password := none }

variable {key : String} {r : ConnectionRecord}

/-! ### Fields -/

theorem reads_textField (field : Option String → Field) (o : Option String) :
    Reads (textField field) (textJson o).compact (some (field o)) := by
  cases o with
  | none => exact (Json.reads_null Json.maxDepth).map? _
  | some s => exact (Json.reads_string_compact s Json.maxDepth).map? _

theorem reads_portField (o : Option UInt16) :
    Reads portField (portJson o).compact (some (.port o)) := by
  cases o with
  | none => exact (Json.reads_null Json.maxDepth).map? _
  | some port =>
    have hport : port.toNat ≤ 65535 := Nat.le_of_lt_succ port.toNat_lt
    have hword : Json.FitsWord port.toNat := by
      rw [Json.FitsWord]
      omega
    have hread : Reads portField (portJson (some port)).compact _ :=
      (Json.reads_integer hword Json.maxDepth).map? _
    have hrange : (0 : Int) ≤ port.toNat ∧ (port.toNat : Int) ≤ 65535 := by omega
    have hback : UInt16.ofNat (port.toNat : Int).toNat = port := by
      rw [Int.toNat_natCast, UInt16.ofNat_toNat]
    simp only [Json.ofInt, Option.bind_some, hrange, and_self, if_true, hback] at hread
    exact hread

/-- The fields of a written record are those of the record, and there is no password among them. -/
theorem reads_reader (hkey : key = "kind" ∨ key = "type") :
    Reads reader (r.toJsonWith key).compact (some r.withoutPassword) := by
  have hkind : ReadsMember fieldReader? (key, textJson r.kind) (.kind r.kind) := by
    refine ⟨textField .kind, ?_, reads_textField .kind r.kind⟩
    rcases hkey with rfl | rfl
    · rfl
    · rfl
  have hhost : ReadsMember fieldReader? ("host", textJson r.host) (.host r.host) :=
    ⟨_, rfl, reads_textField .host r.host⟩
  have hport : ReadsMember fieldReader? ("port", portJson r.port) (.port r.port) :=
    ⟨_, rfl, reads_portField r.port⟩
  have huser : ReadsMember fieldReader? ("user", textJson r.user) (.user r.user) :=
    ⟨_, rfl, reads_textField .user r.user⟩
  have hdatabase : ReadsMember fieldReader? ("database", textJson r.database)
      (.database r.database) := ⟨_, rfl, reads_textField .database r.database⟩
  exact Json.reads_record
    (.cons hkind (.cons hhost (.cons hport (.cons huser (.cons hdatabase .nil))))) rfl

/-! ### Missing fields -/

/-- Without a password there is a field that is missing. -/
theorem exists_firstMissing_withoutPassword (r : ConnectionRecord) :
    ∃ field, r.withoutPassword.firstMissing? = some field ∧
      r.withoutPassword.validate = .error (.missingParameter field) := by
  cases hmissing : r.withoutPassword.firstMissing? with
  | some field => exact ⟨field, rfl, Handler.validate_of_missing hmissing⟩
  | none =>
    have hnone := List.find?_eq_none.mp (Option.map_eq_none_iff.mp hmissing)
    have hpassword : ("password", none) ∈ r.withoutPassword.required := by
      simp [required, withoutPassword]
    exact absurd rfl (hnone _ hpassword)

end ConnectionRecord

/-! ### Arguments -/

open ConnectionRecord (textWith)

variable {r : ConnectionRecord} {lead key : String} {wording : Descriptor.Wording}

/-- Blanks in front of the text of a record do not make it a path. -/
theorem Descriptor.parse_textWith (hkey : key = "kind" ∨ key = "type")
    (hlead : ∀ c ∈ lead.toList, Text.isBlank c = true) :
    Descriptor.parse (lead ++ r.textWith key) wording = .ok (.record r.withoutPassword) := by
  have htext : (lead ++ r.textWith key).toList = lead.toList ++ (r.toJsonWith key).compact := by
    rw [String.toList_append, textWith, String.toList_ofList]
  have htrim : Text.trimStart (lead ++ r.textWith key).toList = (r.toJsonWith key).compact := by
    rw [htext, Text.trimStart, Text.dropFront_append hlead]
    rfl
  have hbrace : ((r.toJsonWith key).compact.head? == some '\x7b') = true := rfl
  have hread : ConnectionRecord.ofJsonText? (String.ofList (r.toJsonWith key).compact) =
      some r.withoutPassword := by
    rw [ConnectionRecord.ofJsonText?, String.toList_ofList]
    exact Json.atEnd?_of_reads (ConnectionRecord.reads_reader hkey)
  rw [Descriptor.parse]
  simp only [htrim, hbrace, if_true, hread]

/-- What is read where a record was written. -/
structure ConnectionRecord.ReadsBack (r back : ConnectionRecord) : Prop where
  kind : back.kind = r.kind
  host : back.host = r.host
  port : back.port = r.port
  user : back.user = r.user
  database : back.database = r.database
  password : back.password = none
  /-- It cannot be connected with, for the first required field that it lacks. -/
  refused : ∃ field, back.firstMissing? = some field ∧
    back.validate = .error (.missingParameter field)

/-- **A record reads back from its text but for its password**, with any blanks in front and with
either key of its kind. -/
theorem exists_readsBack_of_blanks (r : ConnectionRecord)
    (hlead : ∀ c ∈ lead.toList, Text.isBlank c = true) :
    ∃ back, r.ReadsBack back ∧ ∀ wording,
      Descriptor.parse (lead ++ r.jsonText) wording = .ok (.record back) ∧
      Descriptor.parse (lead ++ r.textWith "type") wording = .ok (.record back) := by
  refine ⟨r.withoutPassword, ⟨rfl, rfl, rfl, rfl, rfl, rfl, ?_⟩, fun wording => ⟨?_, ?_⟩⟩
  · exact r.exists_firstMissing_withoutPassword
  · rw [← ConnectionRecord.textWith_kind]
    exact Descriptor.parse_textWith (Or.inl rfl) hlead
  · exact Descriptor.parse_textWith (Or.inr rfl) hlead

/-- A record without a user, with marks of JSON in its texts. -/
def oddRecord : ConnectionRecord :=
  ⟨some "mysql", some "\"host\"\n", some 65535, none, some "secret", some "\x7bshop\\"⟩

/-- Behind a line break and a wide blank it reads back, and lacks the user first. -/
theorem exists_readsBack_oddRecord :
    (∀ c ∈ "\n\u3000".toList, Text.isBlank c = true) ∧
      oddRecord.textWith "type" =
        "\x7b\"type\":\"mysql\",\"host\":\"\\\"host\\\"\\n\"," ++
        "\"port\":65535,\"user\":null,\"database\":\"\x7bshop\\\\\"\x7d" ∧
      ∃ back, oddRecord.ReadsBack back ∧ ∀ wording,
        Descriptor.parse ("\n\u3000" ++ oddRecord.jsonText) wording = .ok (.record back) ∧
        Descriptor.parse ("\n\u3000" ++ oddRecord.textWith "type") wording =
          .ok (.record back) := by
  have hlead : ∀ c ∈ "\n\u3000".toList, Text.isBlank c = true :=
    List.forall_mem_cons.mpr ⟨rfl, List.forall_mem_singleton.mpr rfl⟩
  exact ⟨hlead, by decide +kernel, exists_readsBack_of_blanks oddRecord hlead⟩

end TableAccess
