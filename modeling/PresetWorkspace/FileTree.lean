import PresetWorkspace.FilePath

/-!
# File trees

Files, folders and symbolic links below a working folder. An entry is found by
walking the pieces of its path from folder to folder; a link on the way is
followed, up to a limit. Files hold text, bytes that are no text, or a stored
value of type `δ`.
-/

namespace PresetWorkspace

/-- The names on the way from the working folder; `/` leads away to the top and `..` out of it. -/
abbrev Location := List String

inductive Entry (δ : Type) where
  | text (s : String)
  | undecodable
  | stored (v : δ)
  | folder
  | link (target : String)

structure FileTree (δ : Type) where
  entries : List (Location × Entry δ) := []

inductive FileError where
  | notFound
  | alreadyThere
  | notFolder
  | isFolder
  | nameTooLong
  | tooManyLinks
  | nulInName
  | notText
  deriving DecidableEq

def FileError.message : FileError → String
  | .notFound => "No such file or directory (os error 2)"
  | .alreadyThere => "File exists (os error 17)"
  | .notFolder => "Not a directory (os error 20)"
  | .isFolder => "Is a directory (os error 21)"
  | .nameTooLong => "File name too long (os error 36)"
  | .tooManyLinks => "Too many levels of symbolic links (os error 40)"
  | .nulInName => "file name contained an unexpected NUL byte"
  | .notText => "stream did not contain valid UTF-8"

namespace FileTree

variable {δ : Type}

/-! ## Walking -/

def isOutside (loc : Location) : Bool := loc = ["/"] || loc.all (· = "..")

def entry? (tree : FileTree δ) (loc : Location) : Option (Entry δ) :=
  if isOutside loc then some .folder else tree.entries.lookup loc

def above (loc : Location) : Location :=
  if loc = ["/"] then loc else if loc.all (· = "..") then ".." :: loc else loc.dropLast

def start (base : Location) (path : String) : Location × List String :=
  if FilePath.isAbsolute path then (["/"], FilePath.split path) else (base, FilePath.split path)

def longestName : Nat := 255
def longestPath : Nat := 4095
def mostLinks : Nat := 40

/-- Walks pieces from a location; `follow` goes on after a link. The last piece need not be there. -/
def walkWith (tree : FileTree δ) (follow : Location → List String → Except FileError Location) :
    Location → List String → Except FileError Location
  | loc, [] => .ok loc
  | loc, n :: ns =>
    match tree.entry? loc with
    | none => .error .notFound
    | some .folder =>
      if n = "" ∨ n = "." then walkWith tree follow loc ns
      else if n = ".." then walkWith tree follow (above loc) ns
      else if longestName < n.utf8ByteSize then .error .nameTooLong
      else match tree.entry? (loc ++ [n]) with
        | some (.link target) =>
          let (base, pieces) := start loc target
          follow base (pieces ++ ns)
        | _ => walkWith tree follow (loc ++ [n]) ns
    | some _ => .error .notFolder

def walk (tree : FileTree δ) : (links : Nat) → Location → List String → Except FileError Location
  | 0 => walkWith tree fun _ _ => .error .tooManyLinks
  | links + 1 => walkWith tree (walk tree links)

/-- The location that a path leads to; the last name need not be there. -/
def locate (tree : FileTree δ) (path : String) : Except FileError Location :=
  if path.toList.contains '\x00' then .error .nulInName
  else if path.isEmpty then .error .notFound
  else if longestPath < path.utf8ByteSize then .error .nameTooLong
  else
    let (base, pieces) := start [] path
    tree.walk mostLinks base pieces

def find (tree : FileTree δ) (path : String) : Except FileError (Entry δ) := do
  match tree.entry? (← tree.locate path) with
  | some e => pure e
  | none => throw .notFound

/-! ## Reading -/

def isFolder (tree : FileTree δ) (path : String) : Bool :=
  match tree.find path with
  | .ok .folder => true
  | _ => false

def isFile (tree : FileTree δ) (path : String) : Bool :=
  match tree.find path with
  | .ok (.text _) | .ok .undecodable | .ok (.stored _) => true
  | _ => false

def isThere (tree : FileTree δ) (path : String) : Bool :=
  match tree.find path with
  | .ok _ => true
  | .error _ => false

def readText (tree : FileTree δ) (path : String) : Except FileError String := do
  match ← tree.find path with
  | .text s => pure s
  | .folder => throw .isFolder
  | _ => throw .notText

def namesIn (tree : FileTree δ) (path : String) : List String :=
  match tree.locate path with
  | .error _ => []
  | .ok loc => tree.entries.filterMap fun (there, _) =>
    match there.getLast? with
    | some name => if there.dropLast = loc then some name else none
    | none => none

/-! ## Writing -/

def put (tree : FileTree δ) (loc : Location) (e : Entry δ) : FileTree δ :=
  if (tree.entries.lookup loc).isSome then
    ⟨tree.entries.map fun (there, old) => (there, if there = loc then e else old)⟩
  else ⟨tree.entries ++ [(loc, e)]⟩

def plant (tree : FileTree δ) (path : String) (e : Entry δ) : FileTree δ :=
  let names := FilePath.names path
  let folders := (List.range names.length).drop 1 |>.map (names.take ·)
  let tree := folders.foldl (fun t loc => if (t.entry? loc).isSome then t else t.put loc .folder) tree
  tree.put names e

/-- Makes one folder; nothing may be there, not even a link. -/
def makeFolder (tree : FileTree δ) (path : String) : Except FileError (FileTree δ) := do
  let (base, pieces) := start [] path
  let pieces := (pieces.reverse.dropWhile fun n => n = "" || n = ".").reverse
  match pieces.getLast? with
  | none => throw .alreadyThere
  | some n =>
    if path.toList.contains '\x00' then throw .nulInName
    let loc ← tree.walk mostLinks base pieces.dropLast
    match tree.entry? loc with
    | none => throw .notFound
    | some .folder =>
      if n = ".." then throw .alreadyThere
      if longestName < n.utf8ByteSize then throw .nameTooLong
      if (tree.entry? (loc ++ [n])).isSome then throw .alreadyThere
      pure (tree.put (loc ++ [n]) .folder)
    | some _ => throw .notFolder

def makeFolders (tree : FileTree δ) : (fuel : Nat) → (path : String) → Except FileError (FileTree δ)
  | 0, _ => .error .notFound
  | fuel + 1, path =>
    if path.isEmpty then .ok tree
    else match tree.makeFolder path with
      | .ok tree => .ok tree
      | .error .notFound => do
        let tree ← tree.makeFolders fuel ((FilePath.parent? path).getD "")
        again tree path (tree.makeFolder path)
      | .error e => again tree path (.error e)
where
  /-- A folder that is there after all is as good as a new one. -/
  again (tree : FileTree δ) (path : String) : Except FileError (FileTree δ) → Except FileError (FileTree δ)
    | .ok tree => .ok tree
    | .error e => if tree.isFolder path then .ok tree else .error e

def ensureFolder (tree : FileTree δ) (path : String) : Except FileError (FileTree δ) :=
  tree.makeFolders (path.length + 1) path

/-- Adds text to the end of a file, which need not be there. A path that ends with a slash is a folder's. -/
def appendText (tree : FileTree δ) (path : String) (s : String) : Except FileError (FileTree δ) := do
  if path.toList.getLast? = some '/' then
    let parent := (FilePath.parent? path).getD "/"
    match ← tree.find (if parent.isEmpty then "." else parent) with
    | .folder => throw .isFolder
    | _ => throw .notFolder
  let loc ← tree.locate path
  match tree.entry? loc with
  | none =>
    if (tree.entry? loc.dropLast).isNone then throw .notFound
    pure (tree.put loc (.text s))
  | some .folder => throw .isFolder
  | some (.text old) => pure (tree.put loc (.text (old ++ s)))
  | some e => pure (tree.put loc e)

end FileTree

end PresetWorkspace
