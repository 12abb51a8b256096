import TokenStream.File.Path
import TokenStream.SystemError

/-!
# File trees

A file system as a value: files with their bytes, directories, and the working
directory. A path is resolved part by part from the root or from the working
directory; every part but the last must lead to a directory.
-/

namespace TokenStream

/-- What stands at a place of the tree. -/
inductive Node where
  | file (bytes : List UInt8)
  | directory
deriving DecidableEq, Repr

/-- The nodes below the root by the parts of their places, and the place of the
working directory. -/
structure FileTree where
  nodes : List (List String × Node)
  cwd : List String
deriving Repr

/-- Why a path does not lead where it should. -/
inductive PathError where
  | notFound
  | notADirectory
  | isADirectory
  | nameTooLong
deriving DecidableEq, Repr

namespace PathError

def number : PathError → Int
  | notFound => 2
  | notADirectory => 20
  | isADirectory => 21
  | nameTooLong => 36

def text : PathError → String
  | notFound => "No such file or directory"
  | notADirectory => "Not a directory"
  | isADirectory => "Is a directory"
  | nameTooLong => "File name too long"

/-- The report of the error for a path. -/
def on (e : PathError) (path : String) : SystemError := .onPath e.number e.text path

end PathError

/-- Why an operation on a file fails: the system reports it, or the path holds
a null character and is not even tried. -/
inductive FileError where
  | system (error : SystemError)
  | nullInPath
deriving DecidableEq, Repr

def FileError.message : FileError → String
  | system error => error.message
  | nullInPath => "embedded null byte"

namespace FileTree

/-- The places on the way to a place, without the root and the place itself. -/
def placesAbove (place : List String) : List (List String) :=
  (List.range (place.length - 1)).map fun n => place.take (n + 1)

/-- The tree with the given nodes, and with the directories that they lie in. -/
def ofNodes (cwd : List String) (nodes : List (List String × Node)) : FileTree :=
  let directories := cwd :: placesAbove cwd ++ nodes.flatMap fun n => placesAbove n.1
  ⟨nodes ++ directories.map fun place => (place, .directory), cwd⟩

/-- The longest name of a file or directory, in bytes. -/
def maxName : Nat := 255

/-- The longest path, in bytes. -/
def maxPath : Nat := 4095

/-- What stands at a place. The root is a directory. -/
def node? (t : FileTree) (place : List String) : Option Node :=
  if place = [] then some .directory else t.nodes.lookup place

/-- Takes one step from a place. -/
def step (t : FileTree) (place : List String) (piece : String) :
    Except PathError (List String) :=
  if t.node? place = some .directory then
    if !Path.isPart piece then .ok place
    else if piece = ".." then .ok place.dropLast
    else if maxName < piece.utf8ByteSize then .error .nameTooLong
    else if (t.node? (place ++ [piece])).isSome then .ok (place ++ [piece])
    else .error .notFound
  else .error .notADirectory

/-- Where a path starts. -/
def start (t : FileTree) (path : String) : List String :=
  if path.startsWith "/" then [] else t.cwd

/-- The place that a path leads to. -/
def resolve (t : FileTree) (path : String) : Except PathError (List String) :=
  if path.isEmpty then .error .notFound
  else if maxPath < path.utf8ByteSize then .error .nameTooLong
  else (Path.pieces path).foldlM t.step (t.start path)

def hasNull (path : String) : Bool := path.toList.contains '\x00'

/-- The bytes of a file. -/
def read (t : FileTree) (path : String) : Except FileError (List UInt8) :=
  if hasNull path then .error .nullInPath
  else
    match t.resolve path with
    | .error e => .error (.system (e.on path))
    | .ok place =>
      match t.node? place with
      | some (.file bytes) => .ok bytes
      | some .directory => .error (.system (PathError.isADirectory.on path))
      | none => .error (.system (PathError.notFound.on path))

/-- Does the path lead to a file? It does not if it leads nowhere. -/
def isFile (t : FileTree) (path : String) : Except FileError Bool :=
  if hasNull path then .ok false
  else
    match t.resolve path with
    | .error .nameTooLong => .error (.system (PathError.nameTooLong.on path))
    | .error _ => .ok false
    | .ok place =>
      match t.node? place with
      | some (.file _) => .ok true
      | _ => .ok false

/-- Puts a file at a place. -/
def put (t : FileTree) (place : List String) (bytes : List UInt8) : FileTree :=
  { t with nodes := (place, .file bytes) :: t.nodes.filter (·.1 != place) }

/-- The place for a file that is to be written, whether or not it exists. -/
def target (t : FileTree) (path : Path) : Except PathError (List String) := do
  if maxPath < path.toString.utf8ByteSize then throw .nameTooLong
  let parent ← path.parent.parts.foldlM t.step (t.start path.toString)
  let name := path.parts.getLast?.getD "."
  match t.step parent name with
  | .ok place => if t.node? place = some .directory then throw .isADirectory else return place
  | .error .notFound => return parent ++ [name]
  | .error e => throw e

/-- Writes a file. -/
def write (t : FileTree) (path : Path) (bytes : List UInt8) : Except FileError FileTree :=
  if hasNull path.toString then .error .nullInPath
  else
    match t.target path with
    | .error e => .error (.system (e.on path.toString))
    | .ok place => .ok (t.put place bytes)

/-- The files that are new or other than before. -/
def changes (before after : FileTree) : List (List String × List UInt8) :=
  after.nodes.filterMap fun (place, node) =>
    match node with
    | .file bytes => if before.node? place = some node then none else some (place, bytes)
    | .directory => none

end FileTree

end TokenStream
