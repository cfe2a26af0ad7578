import TableAccess.Backend
import TableAccess.Connection.Record
import TableAccess.Path
import TableAccess.Text.Blank

/-!
# Connection descriptors

What a connection is described by: the path of a file or a connection record.  A text that starts
with a brace, after blanks, is a record; every other text is a path.  The backend follows from
the extension of the path or the kind of the record alone.
-/

namespace TableAccess

/-- A path or a record. -/
inductive Descriptor where
  | path (path : String)
  | record (record : ConnectionRecord)
deriving DecidableEq

namespace Descriptor

/-- Exactly one of a path and a record. -/
def ofParts : Option String → Option ConnectionRecord → Except Error Descriptor
  | some p, none => .ok (.path p)
  | none, some r => .ok (.record r)
  | some _, some _ =>
    .error (.unsupportedBackend "both a path and a connection record were supplied")
  | none, none =>
    .error (.unsupportedBackend "neither a path nor a connection record was supplied")

/-- What a reader of records has to say of a text that is none. -/
abbrev Wording : Type := String → String

/-- The shortest wording. -/
def plainWording : Wording := fun _ => "not a record in a JSON text"

/-- The descriptor of a text.  How it is worded that a text is no record is left to the reader of
records. -/
def parse (s : String) (wording : Wording := plainWording) : Except Error Descriptor :=
  let rest := Text.trimStart s.toList
  if rest.head? == some '\x7b' then
    match ConnectionRecord.ofJsonText? (String.ofList rest) with
    | some r => .ok (.record r)
    | none =>
      .error (.unsupportedBackend
        ("invalid connection record: " ++ wording (String.ofList rest)))
  else .ok (.path s)

def path? : Descriptor → Option String
  | .path p => some p
  | .record _ => none

/-- The descriptor for people. -/
def label : Descriptor → String
  | .path p => p
  | .record r => r.label

/-- The backend of a path. -/
def backendOfPath (p : String) : Except Error Backend :=
  match Path.extension? p with
  | none => .error (.unsupportedBackend (p ++ " has no file extension"))
  | some extension =>
    match Backend.ofExtension? extension with
    | some b => .ok b
    | none =>
      .error (.unsupportedBackend
        ("unrecognized file extension '." ++ extension ++ "' for " ++ p))

/-- The backend of a record. -/
def backendOfRecord (r : ConnectionRecord) : Except Error Backend :=
  match r.kind with
  | none => .error (.unsupportedBackend "connection record has no database kind")
  | some kind =>
    match Backend.ofKind? kind with
    | some b => .ok b
    | none => .error (.unsupportedBackend ("unrecognized database kind '" ++ kind ++ "'"))

/-- The backend of a descriptor. -/
def backend : Descriptor → Except Error Backend
  | .path p => backendOfPath p
  | .record r => backendOfRecord r

end Descriptor

end TableAccess
