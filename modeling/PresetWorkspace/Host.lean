import PresetWorkspace.Catalog
import PresetWorkspace.Workspace.Storage

/-!
# Hosts

What a run leaves to the system below it: what a name of a workspace stands for
and whether it can be opened, and whether a folder that is there can be read.
-/

namespace PresetWorkspace

/-- The answers of a system, by the files as they are. What a system makes of a name is its own matter: it may be
the name of a file, or an address with options in it, and it may be refused for its length. -/
structure Host where
  connect : FileTree Workspace → String → Except Failure Workspace.Opened × FileTree Workspace
  /-- Why a folder cannot be read, if it cannot. -/
  refusal? : FileTree Workspace → String → Option String

namespace Host

/-- A host that takes every name of a workspace for that of a file, and lets every folder be read. -/
def plain : Host := ⟨Workspace.openFile, fun _ _ => none⟩

/-- Opens the workspace of a name. The folders above it are made first, and stay when the rest fails. -/
def openWorkspace (host : Host) (tree : FileTree Workspace) (path : String) :
    Except Failure Workspace.Opened × FileTree Workspace :=
  match tree.ensureFolder ((FilePath.parent? path).getD "") with
  | .error e => (.error (Workspace.fileFailure e), tree)
  | .ok tree => host.connect tree path

def list (host : Host) (tree : FileTree Workspace) (c : Catalog) : Except PresetError Catalog.Listing :=
  match if tree.isFolder c.folder then host.refusal? tree c.folder else none with
  | some reason => .error (.unreadable c.folder reason)
  | none => .ok (c.list tree)

end Host

end PresetWorkspace
