/-!
# Paths

A path is a text of names with slashes between them. Joining and splitting go
by the slashes alone and look at no file.
-/

namespace PresetWorkspace.FilePath

def isAbsolute (path : String) : Bool := path.toList.head? = some '/'

/-- A path below a folder; an absolute path stays as it is. -/
def join (folder path : String) : String :=
  if isAbsolute path ∨ folder.isEmpty then path
  else if folder.toList.getLast? = some '/' then folder ++ path
  else folder ++ "/" ++ path

def pieces : List Char → List (List Char)
  | [] => [[]]
  | c :: cs =>
    if c = '/' then [] :: pieces cs
    else match pieces cs with
      | [] => [[c]]
      | p :: ps => (c :: p) :: ps

def split (path : String) : List String := (pieces path.toList).map String.ofList

def names (path : String) : List String := (split path).filter fun n => n ≠ "" && n ≠ "."

/-- The folder of the last name, if the path has one; the same piece may stand for it with slashes between. -/
def parent? (path : String) : Option String :=
  let pieces := split path
  let bare := (pieces.reverse.dropWhile fun n => n = "" || n = ".").drop 1
  if (names path).isEmpty then none
  else some ("/".intercalate bare.reverse)

/-- The part of a file name after its last dot, unless the name starts with that dot. -/
def extension? (name : String) : Option String :=
  let back := name.toList.reverse
  let ending := back.takeWhile (· ≠ '.')
  match back.drop (ending.length + 1) with
  | [] => none
  | _ => some (String.ofList ending.reverse)

end PresetWorkspace.FilePath
