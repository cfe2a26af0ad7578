import TableAccess.Error
import TableAccess.Json.Fields
import TableAccess.Json.Printer

/-!
# Connection records

The parameters of a connection to a server.  Every field may be absent; connecting needs host,
user, password and database.  The password is neither shown nor written.
-/

namespace TableAccess

open TableAccess.Json (Reader)

/-- The parameters of a connection. -/
structure ConnectionRecord where
  kind : Option String
  host : Option String
  port : Option UInt16
  user : Option String
  password : Option String
  database : Option String
deriving DecidableEq

/-- Parameters that suffice for a connection. -/
structure Login where
  host : String
  port : Option UInt16
  user : String
  password : String
  database : String
deriving DecidableEq

namespace ConnectionRecord

def empty : ConnectionRecord := ⟨none, none, none, none, none, none⟩

instance : Inhabited ConnectionRecord := ⟨empty⟩

/-- A field that must be present. -/
def require (field : String) : Option String → Except Error String
  | some s => .ok s
  | none => .error (.missingParameter field)

/-- The parameters, or the first required one that is missing. -/
def validate (r : ConnectionRecord) : Except Error Login := do
  let host ← require "host" r.host
  let user ← require "user" r.user
  let password ← require "password" r.password
  let database ← require "database" r.database
  .ok ⟨host, r.port, user, password, database⟩

/-- The port with a colon in front. -/
def portLabel : Option UInt16 → String
  | some port => ":" ++ toString port.toNat
  | none => ""

/-- User, host, port and database, with a question mark for what is absent. -/
def label (r : ConnectionRecord) : String :=
  r.user.getD "?" ++ "@" ++ r.host.getD "?" ++ portLabel r.port ++ "/" ++ r.database.getD "?"

/-- A text, or null. -/
def textJson : Option String → Json
  | some s => .string s
  | none => .null

/-- A port, or null. -/
def portJson : Option UInt16 → Json
  | some port => .ofInt port.toNat
  | none => .null

/-- The record without its password. -/
def toJson (r : ConnectionRecord) : Json :=
  .object
    [ ("kind", textJson r.kind), ("host", textJson r.host), ("port", portJson r.port),
      ("user", textJson r.user), ("database", textJson r.database) ]

def jsonText (r : ConnectionRecord) : String := String.ofList r.toJson.compact

/-- A field of a record as it is read. -/
inductive Field where
  | kind (s : Option String)
  | host (s : Option String)
  | port (n : Option UInt16)
  | user (s : Option String)
  | password (s : Option String)
  | database (s : Option String)

/-- A text or null. -/
def textField (field : Option String → Field) : Reader Field := Json.valueReader.map? fun
  | .null => some (field none)
  | .string s => some (field (some s))
  | _ => none

/-- A port number or null. -/
def portField : Reader Field := Json.valueReader.map? fun
  | .null => some (.port none)
  | .number (.integer i) =>
    if 0 ≤ i ∧ i ≤ 65535 then some (.port (some (.ofNat i.toNat))) else none
  | _ => none

/-- The reader of a key; the kind has two keys. -/
def fieldReader? (key : String) : Option (Reader Field) :=
  if key == "kind" || key == "type" then some (textField .kind)
  else if key == "host" then some (textField .host)
  else if key == "port" then some portField
  else if key == "user" then some (textField .user)
  else if key == "password" then some (textField .password)
  else if key == "database" then some (textField .database)
  else none

/-- The readers of the places of an array. -/
def placeReaders : List (Reader Field) :=
  [ textField .kind, textField .host, portField, textField .user, textField .password,
    textField .database ]

/-- What a list of mentions of a field amounts to: it may be absent, but not repeated. -/
def once? : List (Option α) → Option (Option α)
  | [] => some none
  | [a] => some a
  | _ => none

/-- The record of its fields in any order. -/
def ofFields? (fields : List Field) : Option ConnectionRecord := do
  let kind ← once? (fields.filterMap fun | .kind s => some s | _ => none)
  let host ← once? (fields.filterMap fun | .host s => some s | _ => none)
  let port ← once? (fields.filterMap fun | .port n => some n | _ => none)
  let user ← once? (fields.filterMap fun | .user s => some s | _ => none)
  let password ← once? (fields.filterMap fun | .password s => some s | _ => none)
  let database ← once? (fields.filterMap fun | .database s => some s | _ => none)
  some ⟨kind, host, port, user, password, database⟩

/-- A record from its object, or from the array of its fields in order. -/
def reader : Reader ConnectionRecord := fun s =>
  if Json.startsWith '[' s then (Json.readPlaces placeReaders).map? ofFields? s
  else (Json.readFields fieldReader?).map? ofFields? s

/-- The record of a JSON text. -/
def ofJsonText? (s : String) : Option ConnectionRecord := Json.atEnd? (reader s.toList)

end ConnectionRecord

end TableAccess
