import FeatureQuery.Config.Basic

/-!
# Where a run takes place

A run gets at files by their paths. Where a path leads is settled by the host: by its working
directory and its other directories, by links from one path to another, and by who may do what.
`Host` takes all this as it finds it. It says of a path to which file it leads, if there is one or
could be one, and whether that may be read or written; several paths may lead to one file. A file
that is created is where its path has led before, and no other path leads elsewhere because of it.
`Tree.host` is a host without links, whose directories are listed, and `Directory.host` one with a
single directory.
-/

namespace FeatureQuery.Cli

/-- Files, where paths lead, and the formats in which settings may be kept. -/
structure Host where
  /-- What the files hold, by names of which each file has one. -/
  files : OrderedMap ByteArray
  /-- The file that a path leads to, be it there or not. -/
  fileAt? : String → Option String
  /-- Whether the file at a path may be read. -/
  mayRead : String → Bool
  /-- Whether the file at a path may be written, and created if it is not there. -/
  mayWrite : String → Bool
  /-- The formats in which settings may be kept. -/
  formats : Config.Formats

namespace Host

/-- What is in the file at a path, if it is there. -/
def content? (h : Host) (path : String) : Option ByteArray := (h.fileAt? path).bind h.files.get?

/-- Whether there is a file at a path. -/
def isFile (h : Host) (path : String) : Bool := (h.content? path).isSome

/-- What is read under a path. -/
def read? (h : Host) (path : String) : Option ByteArray :=
  if h.mayRead path then h.content? path else none

/-- The file that is written under a path. -/
def target? (h : Host) (path : String) : Option String :=
  if h.mayWrite path then h.fileAt? path else none

/-- The settings under a path. -/
def config? (h : Host) (path : String) : Option Config := h.formats.load? h.isFile h.read? path

/-- A host with files that are named by the paths under which they were found. Some of them may not
be read. -/
def ofFound (files : OrderedMap ByteArray) (unreadable : List String) : Host :=
  { files
    fileAt? := some
    mayRead := fun path => !unreadable.contains path
    mayWrite := fun _ => true
    formats := Config.yamlAndJson }

end Host

/-! ### Directories -/

/-- Directories, each by the names that lead to it from the root. -/
structure Directories where
  /-- The directories that there are. -/
  all : List (List String)
  /-- The directory where paths begin that do not begin with a slash. -/
  working : List String
  /-- There is such a directory. -/
  working_mem : working ∈ all := by decide

namespace Directories

/-- How many bytes a name may have. -/
def maxNameLength : Nat := 255

/-- How many bytes a path may have. -/
def maxPathLength : Nat := 4095

/-- Whether a text can be a path, and its pieces names. -/
def isAllowed (path : String) : Bool :=
  !path.toList.contains '\x00' && path.utf8ByteSize ≤ maxPathLength &&
    (Path.pieces path.toList).all fun piece =>
      (String.ofList piece).utf8ByteSize ≤ maxNameLength

/-- Where a piece of a path leads. -/
def step (place : List String) (piece : List Char) : List String :=
  if Path.isEmptyPiece piece then place
  else if piece = ['.', '.'] then place.dropLast
  else place ++ [String.ofList piece]

/-- Goes from a directory along the pieces of a path to a file. All pieces but the last lead to
directories, and the last one is a name that no directory has. -/
def follow? (ds : Directories) (place : List String) : List (List Char) → Option (List String)
  | [] => none
  | [name] =>
    if Path.isEmptyPiece name ∨ name = ['.', '.'] ∨ step place name ∈ ds.all then none
    else some (step place name)
  | piece :: rest =>
    if step place piece ∈ ds.all then ds.follow? (step place piece) rest else none

/-- The names that lead from the root to the file at a path. -/
def fileAt? (ds : Directories) (path : String) : Option (List String) :=
  let pieces := Path.pieces path.toList
  if isAllowed path then ds.follow? (if pieces.head? = some [] then [] else ds.working) pieces
  else none

end Directories

/-- Directories with files in them. -/
structure Tree where
  /-- The files, by the names that lead to them from the root, with slashes between them. -/
  files : OrderedMap ByteArray
  /-- The directories. -/
  directories : Directories

/-- A host with the files of a tree, all of which may be read and written. -/
def Tree.host (t : Tree) : Host :=
  { files := t.files
    fileAt? := fun path => (t.directories.fileAt? path).map (String.intercalate "/")
    mayRead := fun _ => true
    mayWrite := fun _ => true
    formats := Config.yamlAndJson }

/-- Files in one directory, without others above or below it. -/
structure Directory where
  /-- The files, by their names. -/
  files : OrderedMap ByteArray

/-- One directory, in which paths begin. -/
def Directories.single : Directories where
  all := [["."]]
  working := ["."]

/-- A host with a working directory alone. -/
def Directory.host (d : Directory) : Host :=
  { Tree.host ⟨d.files, Directories.single⟩ with
    fileAt? := fun path => (Directories.single.fileAt? path).bind List.getLast? }

end FeatureQuery.Cli
