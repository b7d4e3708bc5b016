import PresetWorkspace.Document.Reader
import PresetWorkspace.Failure
import PresetWorkspace.FileTree

/-!
# Catalogs

A catalog is a folder of presets, one `<name>.json` file each. A listing skips
what does not read as a preset; a single preset that is asked for tells every
problem.
-/

namespace PresetWorkspace

structure Catalog where
  folder : String
  deriving DecidableEq

namespace Catalog

variable {δ : Type}

def fileExtension : String := "json"

/-- Whether a name can name a file of the folder itself. -/
def isPlainName (name : String) : Bool :=
  name ≠ "" && name ≠ "." && name ≠ ".." && !name.toList.any fun c => c = '/' || c = '\\'

def path? (c : Catalog) (name : String) : Option String :=
  if isPlainName name then some (FilePath.join c.folder (name ++ "." ++ fileExtension)) else none

def readPreset (tree : FileTree δ) (path : String) : Except PresetError Preset :=
  match tree.readText path with
  | .error e => .error (.unreadable path e.message)
  | .ok text =>
    match Document.read (.record .preset) text with
    | .error problem => .error (.malformed path problem)
    | .ok p => .ok p

def load (c : Catalog) (tree : FileTree δ) (name : String) : Except PresetError Preset :=
  match (c.path? name).filter tree.isFile with
  | some path => readPreset tree path
  | none => .error (.notFound name)

def files (c : Catalog) (tree : FileTree δ) : List String :=
  ((tree.namesIn c.folder).filter fun n => FilePath.extension? n = some fileExtension).filterMap fun n =>
    some (FilePath.join c.folder n) |>.filter tree.isFile

/-- What a listing finds: the summaries in the order of their names, and the files that are no presets. -/
structure Listing where
  summaries : List Summary
  skipped : List PresetError := []

def list (c : Catalog) (tree : FileTree δ) : Listing :=
  let results := if tree.isFolder c.folder then (c.files tree).map (readPreset tree) else []
  let summaries := results.filterMap fun r => r.toOption.map Preset.summary
  { summaries := summaries.mergeSort fun a b => decide (a.name ≤ b.name)
    skipped := results.filterMap fun
      | .error e => some e
      | .ok _ => none }

end Catalog

end PresetWorkspace
