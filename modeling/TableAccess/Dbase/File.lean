import TableAccess.Dbase.Reader
import TableAccess.Dbase.Writer
import TableAccess.FileTree

/-!
# Table files on disk

A table is encoded before its file is touched, so a table that cannot be written leaves the
files as they are.
-/

namespace TableAccess.Dbase

/-- The table in a file. -/
def load (files : FileTree) (path : String) : Except Error Table :=
  match files.read path with
  | .error e => .error (.connection ("cannot open dBase file " ++ path ++ ": " ++ e.message))
  | .ok content => parse content.toBytes path

/-- Write a table that was changed last on a day into a file.  Gives what came of it, and the files
afterwards. -/
def write (files : FileTree) (path : String) (changed : Date) (t : Table) :
    Except Error Unit × FileTree :=
  match encode changed t with
  | .error e => (.error e, files)
  | .ok bytes =>
    match files.write path (.bytes bytes) with
    | .error e => (.error (.io path e.message), files)
    | .ok after => (.ok (), after)

/-- The files with the table in one of them. -/
def save (files : FileTree) (path : String) (changed : Date) (t : Table) : Except Error FileTree :=
  match write files path changed t with
  | (.ok (), after) => .ok after
  | (.error e, _) => .error e

end TableAccess.Dbase
