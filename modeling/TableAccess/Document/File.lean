import TableAccess.Document.Reader
import TableAccess.Document.Writer
import TableAccess.FileTree

/-!
# Documents in files

Loading reads a whole file; saving replaces it.
-/

namespace TableAccess.Document

/-- The database in a file. -/
def load (files : FileTree) (path : String) : Except Error Database :=
  match files.read path with
  | .error e => .error (.connection ("cannot open MVO database " ++ path ++ ": " ++ e.message))
  | .ok content => parse content.toBytes path

/-- Write a database into a file. -/
def save (files : FileTree) (path : String) (db : Database) : Except Error FileTree :=
  match files.write path (.bytes (bytes db)) with
  | .error e => .error (.io path e.message)
  | .ok files => .ok files

end TableAccess.Document
