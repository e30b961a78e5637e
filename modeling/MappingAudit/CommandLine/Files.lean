/-
# Files and paths

The files of a disk are listed by the names on the way to them.  Paths as written are
followed name by name from the current directory.  A directory stands for the source
files below it, without those in hidden directories and in directories for build
results.
-/

import MappingAudit.Catalog.Resolve

namespace MappingAudit

/-- The files of a disk. -/
structure Disk where
  /-- How paths from the top start. -/
  root : String
  /-- The files, by the names on the way from the top. -/
  files : List (List String × String)
  /-- The names on the way from the top to the current directory. -/
  current : List String
  deriving Repr, DecidableEq, Inhabited

/-- Why a file cannot be read. -/
inductive ReadError where
  | notFound
  | notDirectory
  | isDirectory
  deriving Repr, DecidableEq, Inhabited

namespace ReadError

/-- What is said about a file that cannot be read. -/
def message : ReadError → String
  | notFound => "No such file or directory (os error 2)"
  | notDirectory => "Not a directory (os error 20)"
  | isDirectory => "Is a directory (os error 21)"

end ReadError

/-- What stands at a place of a disk. -/
inductive Place where
  | file (names : List String) (text : String)
  | directory (names : List String)
  deriving Repr, DecidableEq, Inhabited

namespace Disk

/-- A directory: the current one and those around it, and those that hold files. -/
def isDirectory (d : Disk) (names : List String) : Bool :=
  names.isPrefixOf d.current ||
    d.files.any fun f => names.isPrefixOf f.1 && names.length < f.1.length

/-- What stands at the end of a way from the top. -/
def at? (d : Disk) (names : List String) : Except ReadError Place :=
  match d.files.reverse.lookup names with
  | some text => .ok (.file names text)
  | none => if d.isDirectory names then .ok (.directory names) else .error .notFound

/-- Goes on from a place by one part of a path. -/
def step (d : Disk) (place : Place) (part : String) : Except ReadError Place :=
  match place with
  | .file _ _ => .error .notDirectory
  | .directory names =>
    if part.isEmpty || part == "." then .ok place
    else if part == ".." then .ok (.directory names.dropLast)
    else d.at? (names ++ [part])

/-- The rest of a path from the top. -/
def fromRoot? (d : Disk) (path : String) : Option String :=
  (Pieces.dropHead? d.root.toList path.toList).map String.ofList

/-- What a path leads to. -/
def follow (d : Disk) (path : String) : Except ReadError Place :=
  if path.isEmpty then .error .notFound
  else if path.toList.head? == some '/' then
    match d.fromRoot? path with
    | some rest => (Pieces.splitText '/' rest).foldlM d.step (.directory [])
    | none => .error .notFound
  else (Pieces.splitText '/' path).foldlM d.step (.directory d.current)

/-- The text of the file that a path leads to. -/
def read (d : Disk) (path : String) : Except ReadError String :=
  match d.follow path with
  | .error e => .error e
  | .ok (.file _ text) => .ok text
  | .ok (.directory _) => .error .isDirectory

/-- The path of a name in a directory. -/
def join (directory name : String) : String :=
  if Catalog.endsIn directory "/" then directory ++ name else directory ++ "/" ++ name

/-- Directories in which no source files are looked for. -/
def skipped : List String := ["bin", "obj", "node_modules", "target"]

/-- The directory is looked into. -/
def isVisible (name : String) : Bool :=
  name.toList.head? != some '.' && !skipped.contains name

/-- The rest of a way after a directory on it. -/
def below? : List String → List String → Option (List String)
  | [], rest => some rest
  | n :: ns, m :: ms => if n = m then below? ns ms else none
  | _ :: _, [] => none

/-- The paths of the source files in a directory, which is written as `path`. -/
def sourcesBelow (d : Disk) (path : String) (directory : List String) : List String :=
  ((d.files.filterMap fun f => below? directory f.1).filter fun way =>
    !way.isEmpty && way.dropLast.all isVisible &&
      (way.getLast?.any fun name => Catalog.endsIn name ".cs")).map (·.foldl join path)

/-- The paths of the files that a path stands for. -/
def expand? (d : Disk) (path : String) : Option (List String) :=
  match d.follow path with
  | .error _ => none
  | .ok (.file _ _) => some [path]
  | .ok (.directory names) => some (d.sourcesBelow path names)

/-- The part of a path by which it is ordered: the top first, then the current
directory, the one above, and names. -/
def partKey (isFirst : Bool) (part : String) : Option (Nat × String) :=
  if part.isEmpty then (if isFirst then some (0, "") else none)
  else if part == "." then (if isFirst then some (1, "") else none)
  else if part == ".." then some (2, "")
  else some (3, part)

/-- The parts of a path by which it is ordered. -/
def pathKey (path : String) : List (Nat × String) :=
  match Pieces.splitText '/' path with
  | [] => []
  | p :: ps => (partKey true p).toList ++ ps.filterMap (partKey false)

/-- Whether parts of a path come no later than those of another. -/
def keyNotAfter : List (Nat × String) → List (Nat × String) → Bool
  | [], _ => true
  | _ :: _, [] => false
  | (i, a) :: as, (j, b) :: bs =>
    i < j || (i == j && (a < b || (a == b && keyNotAfter as bs)))

/-- Keeps the first of neighbours with equal parts. -/
def dropRepeats : List String → List String
  | a :: b :: rest =>
    if pathKey a == pathKey b then dropRepeats (a :: rest) else a :: dropRepeats (b :: rest)
  | ps => ps
termination_by ps => ps.length

/-- Paths in order, each once. -/
def arrange (paths : List String) : List String :=
  dropRepeats (paths.mergeSort fun a b => keyNotAfter (pathKey a) (pathKey b))

/-- The disk with another text for a file. -/
def write (d : Disk) (names : List String) (text : String) : Disk :=
  { d with files := d.files.map fun f => if f.1 = names then (names, text) else f }

/-- The disk with another text for the file that a path leads to. -/
def save (d : Disk) (path text : String) : Disk :=
  match d.follow path with
  | .ok (.file names _) => d.write names text
  | _ => d

/-- The path from the top of a file in a directory. -/
def rootPath (d : Disk) (names : List String) : String := d.root ++ Pieces.join "/" names

/-- The nearest file of a name in the current directory or one around it, with its
path. -/
def nearest? (d : Disk) (name : String) : Option (String × String) :=
  let ways := (Catalog.initials d.current) ++ [[]]
  ways.findSome? fun way =>
    (d.files.reverse.lookup (way ++ [name])).map fun text => (d.rootPath (way ++ [name]), text)

end Disk
end MappingAudit
