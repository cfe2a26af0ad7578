import Std.Time.DateTime.Timestamp
import TableAccess.Command.Basic

/-!
# The program

The command line works on a tree of files that holds what the system has on the way to each
argument.  What the command changed in the tree is written back, then its lines are printed.
No server is within reach and log events are not shown.  The pages of a store belong to the SQL
engine: of a new store only the first page is written.
-/

namespace TableAccess.Program

/-! ## Reading the surroundings -/

/-- The absolute path of a place. -/
def absolutePath (place : Place) : String :=
  if place.isEmpty then "/" else place.foldl (fun path name => path ++ "/" ++ String.ofList name) ""

/-- What the system has at a place; what cannot be read counts as missing. -/
def readNode? (place : Place) : IO (Option Node) := do
  match ← (IO.FS.readBinFile (absolutePath place)).toBaseIO with
  | .ok bytes => return some (.file (.bytes bytes.toList))
  | .error (.inappropriateType ..) => return some .directory
  | .error _ => return none

/-- Add what is on the way from a place, as far as it exists. -/
def gather (files : FileTree) (place : Place) : List (List Char) → IO FileTree
  | [] => return files
  | name :: r => do
    if name = ['.', '.'] then
      gather files place.dropLast r
    else
      let next := place ++ [name]
      match ← readNode? next with
      | none => return files
      | some node => gather (files.set next node) next r

/-- Add what is on the way to a path. -/
def gatherPath (files : FileTree) (path : String) : IO FileTree :=
  let s := path.toList
  gather files (if Path.isAbsolute s then [] else files.workingDirectory) (Path.components s)

/-- The paths that a command may look at. -/
def pathsOf (arguments : List String) : List String :=
  arguments.flatMap fun argument =>
    argument :: ["sample.mvo", "sample.dbf", "sample.db"].map (Path.join argument)

/-- The tree with the working directory and what is on the way to the arguments. -/
def readFiles (arguments : List String) : IO FileTree := do
  let here := (← IO.FS.realPath ".").toString
  let place := Path.components here.toList
  let start ← gather ⟨[], place⟩ [] place
  (pathsOf arguments).foldlM gatherPath start

/-- The day by the clock of the system. -/
def today : IO Date := do
  let now ← Std.Time.Timestamp.now
  let day := Std.Time.PlainDate.ofEpochDay now.val.second.toDays
  match Date.of? day.year.toInt day.month.val.toNat day.day.val.toNat with
  | some date => return date
  | none => throw (IO.userError "the clock shows no day of the calendar")

/-! ## Writing what changed -/

/-- Take away the files that are gone, and write what is new. -/
def writeFiles (before after : FileTree) : IO Unit := do
  for (place, _) in before.nodes do
    if (after.node? place).isNone then
      IO.FS.removeFile (absolutePath place)
  for (place, node) in after.nodes do
    if before.node? place != some node then
      match node with
      | .directory => IO.FS.createDirAll (absolutePath place)
      | .file content =>
        IO.FS.writeBinFile (absolutePath place) (ByteArray.mk content.toBytes.toArray)

/-- Carry out the command of the arguments; the answer is the exit code. -/
def execute (arguments : List String) : IO UInt32 := do
  let files ← readFiles arguments
  let ending := Command.run ⟨files, .absent, ← today⟩ arguments
  writeFiles files ending.progress.files
  ending.output.forM fun line => IO.println line
  ending.errorOutput.forM fun line => IO.eprintln line
  return UInt32.ofNat ending.code

end TableAccess.Program

def main (arguments : List String) : IO UInt32 := TableAccess.Program.execute arguments
