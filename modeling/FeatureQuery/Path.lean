/-!
# Paths

A path is a text with slashes between its parts; empty parts and parts that are a single point do
not count. The name of a file is the last part, unless it is `..`. Its extension is what follows the
last point, and its stem what comes before it; a point at the start of a name begins no extension.
-/

namespace FeatureQuery.Path

/-- The pieces of a text between its slashes. -/
def pieces : List Char → List (List Char)
  | [] => [[]]
  | c :: cs =>
    if c = '/' then [] :: pieces cs
    else
      match pieces cs with
      | [] => [[c]]
      | piece :: rest => (c :: piece) :: rest

/-- A piece that does not count. -/
def isEmptyPiece (piece : List Char) : Bool := piece == [] || piece == ['.']

/-- The parts of a path that count. -/
def parts (path : String) : List (List Char) :=
  (pieces path.toList).filter fun piece => !isEmptyPiece piece

/-- The path up to the name of the file, without what does not count behind it. -/
def untilName? (path : String) : Option String :=
  let counted := ((pieces path.toList).reverse.dropWhile isEmptyPiece).reverse
  match counted.getLast? with
  | some name =>
    if name = ['.', '.'] then none else some (String.ofList (List.intercalate ['/'] counted))
  | none => none

/-- The name of the file. -/
def fileName? (path : String) : Option (List Char) :=
  match (parts path).getLast? with
  | some name => if name = ['.', '.'] then none else some name
  | none => none

/-- Splits a name at its last point. -/
def splitName (name : List Char) : List Char × Option (List Char) :=
  let reversed := name.reverse
  let extension := (reversed.takeWhile (· ≠ '.')).reverse
  match (reversed.dropWhile (· ≠ '.')).reverse with
  | [] => (name, none)
  | before =>
    if before.dropLast = [] then (name, none) else (before.dropLast, some extension)

/-- The extension of the file's name. -/
def extension? (path : String) : Option String :=
  (fileName? path).bind fun name => (splitName name).2.map String.ofList

/-- The name of the file without its extension. -/
def stem? (path : String) : Option String :=
  (fileName? path).map fun name => String.ofList (splitName name).1

/-- Whether a path means the standard output: a hyphen, whatever slashes follow it. -/
def isStdout (path : String) : Bool :=
  path.toList.head? == some '-' && parts path == [['-']]

end FeatureQuery.Path
