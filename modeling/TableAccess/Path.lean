/-!
# Paths

A path is a text of components between slashes.  Its file name is the last component; empty
components and single points at the end do not count.  The extension is what follows the last
point of the file name, unless that point comes first.
-/

namespace TableAccess.Path

/-- The parts of a text between slashes. -/
def splitSlashes : List Char → List (List Char)
  | [] => [[]]
  | c :: r =>
    if c = '/' then [] :: splitSlashes r
    else match splitSlashes r with
      | [] => [[c]]
      | s :: rest => (c :: s) :: rest

/-- The component names nothing: it is empty or a single point. -/
def isVoid (s : List Char) : Bool := s.isEmpty || s == ['.']

/-- The components that name something.  A single point counts at the very beginning. -/
def components (s : List Char) : List (List Char) :=
  (splitSlashes s).filter fun part => !isVoid part

/-- The path starts at the root of the tree. -/
def isAbsolute (s : List Char) : Bool := s.head? == some '/'

/-- The last component, unless there is none or it leads upwards. -/
def fileName? (s : List Char) : Option (List Char) :=
  match (components s).getLast? with
  | none => none
  | some name => if name == ['.', '.'] then none else some name

/-- The parts of a name before and after its last point; a point that comes first does not
count. -/
def splitExtension (name : List Char) : List Char × Option (List Char) :=
  let after := (name.reverse.takeWhile (· != '.')).reverse
  let before := name.take (name.length - after.length - 1)
  if after.length = name.length || before.isEmpty then (name, none) else (before, some after)

/-- What follows the last point of the file name. -/
def extension? (path : String) : Option String :=
  ((fileName? path.toList).bind fun name => (splitExtension name).2).map String.ofList

/-- The file name without its extension. -/
def stem? (path : String) : Option String :=
  (fileName? path.toList).map fun name => String.ofList (splitExtension name).1

/-- A path below a directory; an absolute path stands for itself. -/
def join (directory name : String) : String :=
  if isAbsolute name.toList then name
  else if directory.isEmpty || directory.toList.getLast? == some '/' then directory ++ name
  else directory ++ "/" ++ name

end TableAccess.Path
