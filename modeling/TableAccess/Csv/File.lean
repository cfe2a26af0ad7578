import TableAccess.Csv
import TableAccess.Error
import TableAccess.FileTree

/-!
# Exports in files

The file is created before anything is written, so what was written before a problem stays there.
-/

namespace TableAccess.Csv

/-- Write a result into a file.  Gives the number of rows and the files afterwards. -/
def save (files : FileTree) (path : String) (result : Result) : Except Error Nat × FileTree :=
  match files.write path (.bytes (bytes (output result).text)) with
  | .error e => (.error (.io path e.message), files)
  | .ok after =>
    match written result with
    | .error problem => (.error (.io path problem), after)
    | .ok rows => (.ok rows, after)

end TableAccess.Csv
