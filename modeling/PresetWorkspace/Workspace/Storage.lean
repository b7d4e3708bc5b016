import PresetWorkspace.FileTree
import PresetWorkspace.Workspace.Error

/-!
# Stored workspaces

A workspace is kept in a file. Opening one makes the file when it is missing;
an empty file is a new workspace, and any other file that holds none is
refused. Two names stand for a workspace that is kept nowhere.
-/

namespace PresetWorkspace.Workspace

/-- The names of a workspace that is kept nowhere. -/
def transientNames : List String := ["", ":memory:"]

def fileFailure (e : FileError) : Failure := { message := e.message, origin := .file }

def cannotOpen (path : String) : Failure :=
  Error.ofTables ("unable to open database file: " ++ path) ["Error code 14: Unable to open the database file"]

def noWorkspaceFile : Failure :=
  Error.ofTables "file is not a database" ["Error code 26: File opened that is not a database file"]

structure Opened where
  workspace : Workspace
  home : Option Location

def openFile (tree : FileTree Workspace) (path : String) : Except Failure Opened × FileTree Workspace :=
  if path ∈ transientNames then (.ok ⟨.empty, none⟩, tree)
  else match tree.locate path with
    | .error _ => (.error (cannotOpen path), tree)
    | .ok loc =>
      let fresh := (.ok ⟨.empty, some loc⟩, tree.put loc (.stored .empty))
      match tree.entry? loc with
      | none => if (tree.entry? loc.dropLast).isSome then fresh else (.error (cannotOpen path), tree)
      | some (.text "") => fresh
      | some (.stored w) => (.ok ⟨w, some loc⟩, tree)
      | some (.text _) | some .undecodable => (.error noWorkspaceFile, tree)
      | some .folder | some (.link _) => (.error (cannotOpen path), tree)

def Opened.keep (o : Opened) (w : Workspace) (tree : FileTree Workspace) : FileTree Workspace :=
  match o.home with
  | some loc => tree.put loc (.stored w)
  | none => tree

end PresetWorkspace.Workspace
