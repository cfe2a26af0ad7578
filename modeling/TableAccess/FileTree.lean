import TableAccess.Path
import TableAccess.Sqlite.Basic
import TableAccess.Text.Utf8

/-!
# Trees of files

A tree of directories and files, and the directory from which relative paths start.  Every place
of the tree is the list of names that leads to it from the root.  A path is followed name by
name: each name but the last must belong to a directory.
-/

namespace TableAccess

/-- Why the tree refuses an operation. -/
inductive FileError where
  | notFound
  | exists
  | notDirectory
  | isDirectory
  | nameTooLong
  | zeroCharacter
deriving DecidableEq

def FileError.message : FileError → String
  | .notFound => "No such file or directory (os error 2)"
  | .exists => "File exists (os error 17)"
  | .notDirectory => "Not a directory (os error 20)"
  | .isDirectory => "Is a directory (os error 21)"
  | .nameTooLong => "File name too long (os error 36)"
  | .zeroCharacter => "file name contained an unexpected NUL byte"

/-- What a file holds: plain bytes, or a store that only the SQL engine can look into. -/
inductive Content where
  | bytes (bytes : List UInt8)
  | store (store : Sqlite.Store)
deriving DecidableEq

namespace Content

/-- The content as bytes.  Of a store only the first ones are told. -/
def toBytes : Content → List UInt8
  | .bytes b => b
  | .store _ => Sqlite.magic ++ List.replicate 4080 0

/-- The store in a file.  An empty file is an empty store. -/
def toStore? : Content → Option Sqlite.Store
  | .bytes b => if b.isEmpty then some .empty else none
  | .store s => some s

end Content

/-- What is at a place. -/
inductive Node where
  | directory
  | file (content : Content)
deriving DecidableEq

/-- The names that lead to a place from the root. -/
abbrev Place : Type := List (List Char)

/-- A tree and the directory from which relative paths start. -/
structure FileTree where
  nodes : List (Place × Node)
  workingDirectory : Place
deriving DecidableEq

namespace FileTree

/-- A tree with nothing but an empty working directory. -/
def empty : FileTree := ⟨[(["work".toList], .directory)], ["work".toList]⟩

/-- What is at a place; the root is always there. -/
def node? (t : FileTree) (place : Place) : Option Node :=
  if place.isEmpty then some .directory else t.nodes.lookup place

/-- Put a node at a place. -/
def setNode (place : Place) (node : Node) : List (Place × Node) → List (Place × Node)
  | [] => [(place, node)]
  | (p, n) :: r => if p = place then (p, node) :: r else (p, n) :: setNode place node r

def set (t : FileTree) (place : Place) (node : Node) : FileTree :=
  { t with nodes := setNode place node t.nodes }

/-- Take away what is at a place and below it. -/
def erase (t : FileTree) (place : Place) : FileTree :=
  { t with nodes := t.nodes.filter fun entry => !place.isPrefixOf entry.1 }

/-- Longest name and longest path, in bytes. -/
def maxName : Nat := 255

def maxPath : Nat := 4095

/-- Follow names from a place; what they lead to need not exist. -/
def follow (t : FileTree) : Place → List (List Char) → Except FileError Place
  | place, [] => .ok place
  | place, name :: r =>
    match t.node? place with
    | none => .error .notFound
    | some (.file _) => .error .notDirectory
    | some .directory =>
      if name = ['.', '.'] then follow t place.dropLast r
      else if maxName < Text.byteLength name then .error .nameTooLong
      else follow t (place ++ [name]) r

/-- The path ends in a slash. -/
def endsInSlash (path : List Char) : Bool := path.getLast? == some '/'

/-- The last part of the path that is not empty is a single point. -/
def endsInPoint (path : List Char) : Bool :=
  ((Path.splitSlashes path).filter fun part => !part.isEmpty).getLast? == some ['.']

/-- The path ends in a way that only a directory can match. -/
def wantsDirectory (path : List Char) : Bool := endsInSlash path || endsInPoint path

/-- The place of a path. -/
def place (t : FileTree) (path : String) : Except FileError Place :=
  let s := path.toList
  if s.contains '\x00' then .error .zeroCharacter
  else if s.isEmpty then .error .notFound
  else if maxPath < Text.byteLength s then .error .nameTooLong
  else t.follow (if Path.isAbsolute s then [] else t.workingDirectory) (Path.components s)

/-- What a path leads to. -/
def find (t : FileTree) (path : String) : Except FileError (Place × Node) :=
  match t.place path with
  | .error e => .error e
  | .ok place =>
    match t.node? place with
    | none => .error .notFound
    | some .directory => .ok (place, .directory)
    | some (.file content) =>
      if wantsDirectory path.toList then .error .notDirectory else .ok (place, .file content)

/-- The path leads to something. -/
def exists? (t : FileTree) (path : String) : Bool := (t.find path).toOption.isSome

/-- The path leads to a file. -/
def isFile (t : FileTree) (path : String) : Bool :=
  match t.find path with
  | .ok (_, .file _) => true
  | _ => false

/-- The path leads to a directory. -/
def isDirectory (t : FileTree) (path : String) : Bool :=
  match t.find path with
  | .ok (_, .directory) => true
  | _ => false

/-- The content of a file. -/
def read (t : FileTree) (path : String) : Except FileError Content :=
  match t.find path with
  | .error e => .error e
  | .ok (_, .directory) => .error .isDirectory
  | .ok (_, .file content) => .ok content

/-- The place where a file can be created or replaced. -/
def target (t : FileTree) (path : String) : Except FileError Place :=
  match t.place path with
  | .error e => .error e
  | .ok place =>
    match t.node? place with
    | some .directory => .error .isDirectory
    | some (.file _) =>
      if endsInPoint path.toList then .error .notDirectory
      else if endsInSlash path.toList then .error .isDirectory
      else .ok place
    | none =>
      match t.node? place.dropLast with
      | some .directory =>
        if endsInPoint path.toList then .error .notFound
        else if endsInSlash path.toList then .error .isDirectory
        else .ok place
      | some (.file _) => .error .notDirectory
      | none => .error .notFound

/-- Create a file, or replace what a file holds. -/
def write (t : FileTree) (path : String) (content : Content) : Except FileError FileTree :=
  match t.target path with
  | .error e => .error e
  | .ok place => .ok (t.set place (.file content))

/-- Make the directories of the names that are missing, from a place on. -/
def makeDirectories (t : FileTree) : Place → List (List Char) → FileTree × Option FileError
  | _, [] => (t, none)
  | place, name :: r =>
    if name = ['.', '.'] then makeDirectories t place.dropLast r
    else if maxName < Text.byteLength name then (t, some .nameTooLong)
    else
      let next := place ++ [name]
      match t.node? next with
      | some .directory => makeDirectories t next r
      | some (.file _) => (t, some (if r.isEmpty then .exists else .notDirectory))
      | none => makeDirectories (t.set next .directory) next r

/-- Make a directory and those above it that are missing.  The tree keeps what was made before an
error. -/
def createDirectory (t : FileTree) (path : String) : FileTree × Option FileError :=
  let s := path.toList
  if s.contains '\x00' then (t, some .zeroCharacter)
  else if maxPath < Text.byteLength s then (t, some .nameTooLong)
  else t.makeDirectories (if Path.isAbsolute s then [] else t.workingDirectory) (Path.components s)

/-- Take away a file. -/
def removeFile (t : FileTree) (path : String) : Except FileError FileTree :=
  match t.find path with
  | .error e => .error e
  | .ok (_, .directory) => .error .isDirectory
  | .ok (place, .file _) => .ok (t.erase place)

/-- Take away a file, or a directory with all that is in it. -/
def remove (t : FileTree) (path : String) : Except FileError FileTree :=
  match t.find path with
  | .error e => .error e
  | .ok (place, _) => .ok (t.erase place)

end FileTree

end TableAccess
